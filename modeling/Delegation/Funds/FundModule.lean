/-
Module: Delegation.Funds.FundModule
Layer: Model
Purpose: The fund store of the user-fund storage and the primitives of its fund module, whose
  source is not in the repository: they are modelled from the specification (§2 "Fund
  bucket", §4.1, §4.3). A bucket holds an amount of one user's stake under one description,
  some descriptions tagged with the block the funds entered them. Every primitive is one walk
  over the buckets (`withdrawMax`): in store order, each selected bucket gives up as much as
  is left to take, and what it gives up is destroyed, or deposited for the same user under
  the description a mapper gives it. The laws of the walk follow the definitions: it conserves
  every total, takes only from selected buckets, and takes the bound or all there is.
Trusted boundary: the primitives follow the specification's words; per §4.1 they never fail,
  so the source's `SCResult` of each is always `Ok`.
Main exports: FundType, FundDescription, FundItem, sumFunds, amountOf, totalOf, heldBy,
  withdrawMax,
  createFund, splitConvertMaxByType, splitConvertMaxByUser, destroyMaxForUser,
  querySumFundsByUserType, withdrawMax_conserves, withdrawMax_selected, withdrawMax_pos,
  withdrawMax_remaining_pos, depositConverted_pos, withdrawMax_taken, withdrawMax_left,
  withdrawMax_none_unselected, withdrawMax_of_unselected, sumFunds_depositConverted,
  splitConvertMaxByType_spec, splitConvertMaxByUser_spec
-/
import Mathlib.Data.List.Basic
import Mathlib.Order.Basic

namespace Delegation.Funds

/-! ### Buckets -/

/-- Modelled from the spec: `FundType` of `types/fund_type.rs`, the accounting phase of a
bucket. -/
inductive FundType where
  | waiting
  | active
  | unStaked
  | deferredPayment
  | withdrawOnly
deriving DecidableEq, Repr

/-- Modelled from the spec: `FundDescription` of `types/fund_type.rs`, the phase of a bucket
with the block its funds entered it where the phase is time-gated. -/
inductive FundDescription where
  | waiting
  | active
  | unStaked (created : UInt64)
  | deferredPayment (created : UInt64)
  | withdrawOnly
deriving DecidableEq, Repr

/-- Modelled from the spec: the phase a description belongs to. -/
def FundDescription.fundType : FundDescription → FundType
  | .waiting => .waiting
  | .active => .active
  | .unStaked _ => .unStaked
  | .deferredPayment _ => .deferredPayment
  | .withdrawOnly => .withdrawOnly

/-- Modelled from the spec: a bucket, an amount of one user's stake under one
description. -/
structure FundItem where
  userId : Nat
  description : FundDescription
  balance : Nat
deriving DecidableEq, Repr

/-- The total balance of the buckets whose user and description `selects` accepts. -/
def sumFunds (selects : Nat → FundDescription → Bool) : List FundItem → Nat
  | [] => 0
  | item :: rest =>
      (if selects item.userId item.description then item.balance else 0) + sumFunds selects rest

/-- The funds of `userId` under `description`, over all its buckets. -/
def amountOf (store : List FundItem) (userId : Nat) (description : FundDescription) : Nat :=
  sumFunds (fun owner held => decide (owner = userId ∧ held = description)) store

/-- The funds of every user under `description`. -/
def totalOf (store : List FundItem) (description : FundDescription) : Nat :=
  sumFunds (fun _ held => decide (held = description)) store

/-- All the funds of `userId`, under every description. -/
def heldBy (store : List FundItem) (userId : Nat) : Nat :=
  sumFunds (fun owner _ => decide (owner = userId)) store

/-! ### The walk -/

/-- What a bucket of `balance` gives up to a walk with `maxAmount` left to take: as much as
is left, all of it when the walk has no bound. -/
def capped : Option Nat → Nat → Nat
  | some maxAmount, balance => min maxAmount balance
  | none, balance => balance

/-- Modelled from the spec: the walk under the fund module's primitives (§4.1
`withdraw_max`, §4.3). In store order, each bucket `selects` accepts gives up as much of its
balance as is left of `maxAmount`, all of it when there is no bound, and the bound drops by
what it gave; a bucket left empty is pruned. Returns the pieces taken, each with its bucket's
user and description, what is left of the bound, and the buckets that stay. -/
def withdrawMax (selects : Nat → FundDescription → Bool) :
    Option Nat → List FundItem → List FundItem × Option Nat × List FundItem
  | maxAmount, [] => ([], maxAmount, [])
  | maxAmount, item :: rest =>
      if selects item.userId item.description then
        let amount := capped maxAmount item.balance
        let walked := withdrawMax selects (maxAmount.map (· - amount)) rest
        (if amount = 0 then walked.1 else { item with balance := amount } :: walked.1,
          walked.2.1,
          if item.balance = amount then walked.2.2
          else { item with balance := item.balance - amount } :: walked.2.2)
      else
        let walked := withdrawMax selects maxAmount rest
        (walked.1, walked.2.1, item :: walked.2.2)

/-- Modelled from the spec: `create_fund` (§4.1 `deposit`), a new bucket at the end of the
store; none for a zero amount. -/
def createFund (userId : Nat) (description : FundDescription) (balance : Nat)
    (store : List FundItem) : List FundItem :=
  if balance = 0 then store else store ++ [⟨userId, description, balance⟩]

/-- The pieces a conversion took, deposited at the end of the store, each for its user
under the description the mapper gives it. -/
def depositConverted (mapper : Nat → FundDescription → Option FundDescription)
    (taken store : List FundItem) : List FundItem :=
  store ++ taken.filterMap fun piece =>
    (mapper piece.userId piece.description).map fun description => { piece with description }

/-- Modelled from the spec: `split_convert_max_by_type` (§4.3). Over the buckets of
`sourceType`, of every user, to which the mapper gives a description: converts as much as
`maxAmount` allows, in store order, into buckets of that description for the same user.
Returns the users touched, in walk order, what is left of the bound, and the store. -/
def splitConvertMaxByType (maxAmount : Option Nat) (sourceType : FundType)
    (mapper : Nat → FundDescription → Option FundDescription) (store : List FundItem) :
    List Nat × Option Nat × List FundItem :=
  let walked := withdrawMax (fun userId description =>
    decide (description.fundType = sourceType) && (mapper userId description).isSome)
    maxAmount store
  (walked.1.map (·.userId), walked.2.1, depositConverted mapper walked.1 walked.2.2)

/-- Modelled from the spec: `split_convert_max_by_user` (§4.3), the same walk over the
buckets of one user. Returns the amount converted, what is left of the bound, and the
store. -/
def splitConvertMaxByUser (maxAmount : Option Nat) (userId : Nat) (sourceType : FundType)
    (mapper : FundDescription → Option FundDescription) (store : List FundItem) :
    Nat × Option Nat × List FundItem :=
  let walked := withdrawMax (fun owner description =>
    decide (owner = userId ∧ description.fundType = sourceType) && (mapper description).isSome)
    maxAmount store
  (sumFunds (fun _ _ => true) walked.1, walked.2.1,
    depositConverted (fun _ => mapper) walked.1 walked.2.2)

/-- Modelled from the spec: `destroy_max_for_user` (§4.1 `withdraw_max`). Removes from the
user's buckets of `fundType`, in store order, as much as `amount` asks and they hold.
Returns what is left of the amount and the store. -/
def destroyMaxForUser (amount : Nat) (userId : Nat) (fundType : FundType)
    (store : List FundItem) : Nat × List FundItem :=
  let walked := withdrawMax (fun owner description =>
    decide (owner = userId ∧ description.fundType = fundType)) (some amount) store
  (walked.2.1.getD 0, walked.2.2)

/-- Modelled from the spec: `query_sum_funds_by_user_type` (§4.1 `sum`), the total of the
user's buckets of `fundType` whose description `filter` accepts. -/
def querySumFundsByUserType (userId : Nat) (fundType : FundType)
    (filter : FundDescription → Bool) (store : List FundItem) : Nat :=
  sumFunds (fun owner description =>
    decide (owner = userId ∧ description.fundType = fundType) && filter description) store

/-! ### Totals -/

section Totals

variable {selects : Nat → FundDescription → Bool}

@[simp] theorem sumFunds_nil : sumFunds selects [] = 0 := rfl

@[simp] theorem sumFunds_cons (item : FundItem) (rest : List FundItem) :
    sumFunds selects (item :: rest) =
      (if selects item.userId item.description then item.balance else 0) +
        sumFunds selects rest := rfl

@[simp] theorem sumFunds_append (front back : List FundItem) :
    sumFunds selects (front ++ back) = sumFunds selects front + sumFunds selects back := by
  induction front with
  | nil => simp
  | cons item rest inductionHypothesis => simp [inductionHypothesis, Nat.add_assoc]

/-- A total reads only the user and description of the buckets it counts. -/
theorem sumFunds_congr {other : Nat → FundDescription → Bool} {items : List FundItem}
    (agree : ∀ item ∈ items,
      selects item.userId item.description = other item.userId item.description) :
    sumFunds selects items = sumFunds other items := by
  induction items with
  | nil => rfl
  | cons item rest inductionHypothesis =>
      simp only [sumFunds_cons, agree item (List.mem_cons_self _ _),
        inductionHypothesis fun piece member => agree piece (List.mem_cons_of_mem _ member)]

/-- A user's funds are there exactly when one of the user's buckets is, buckets being
never empty. -/
theorem heldBy_pos_iff {items : List FundItem} (positive : ∀ item ∈ items, 0 < item.balance)
    (userId : Nat) : 0 < heldBy items userId ↔ ∃ item ∈ items, item.userId = userId := by
  induction items with
  | nil => simp [heldBy]
  | cons item rest inductionHypothesis =>
      have restHeld := inductionHypothesis fun piece member =>
        positive piece (List.mem_cons_of_mem _ member)
      have itemPositive := positive item (List.mem_cons_self _ _)
      unfold heldBy at restHeld ⊢
      simp only [sumFunds_cons, List.mem_cons, or_and_right, exists_or, exists_eq_left]
      by_cases own : item.userId = userId
      · simp only [decide_eq_true_eq, own, if_true, true_or, iff_true]
        omega
      · simpa only [decide_eq_true_eq, own, if_false, Nat.zero_add, false_or]

/-- A total that accepts everything or nothing. -/
theorem sumFunds_const (accepted : Bool) (items : List FundItem) :
    sumFunds (fun _ _ => accepted) items =
      if accepted then sumFunds (fun _ _ => true) items else 0 := by
  cases accepted
  · induction items with
    | nil => rfl
    | cons item rest inductionHypothesis => simpa using inductionHypothesis
  · rfl

end Totals

/-! ### Laws of the walk -/

theorem capped_le (maxAmount : Option Nat) (balance : Nat) : capped maxAmount balance ≤ balance := by
  cases maxAmount
  · exact Nat.le_refl _
  · exact Nat.min_le_right _ _

section Walk

variable (selects : Nat → FundDescription → Bool)

/-- The walk loses nothing: every total of the store is the same total of the buckets that
stay plus that of the pieces taken. -/
theorem withdrawMax_conserves (counted : Nat → FundDescription → Bool)
    (maxAmount : Option Nat) (store : List FundItem) :
    sumFunds counted store =
      sumFunds counted (withdrawMax selects maxAmount store).2.2 +
        sumFunds counted (withdrawMax selects maxAmount store).1 := by
  induction store generalizing maxAmount with
  | nil => rfl
  | cons item rest inductionHypothesis =>
      have bounded := capped_le maxAmount item.balance
      simp only [withdrawMax]
      split
      · have := inductionHypothesis (maxAmount.map (· - capped maxAmount item.balance))
        by_cases countedItem : counted item.userId item.description = true <;>
          split_ifs <;>
          simp only [sumFunds_cons, countedItem, if_true, if_false, Bool.false_eq_true] <;>
          omega
      · simp only [sumFunds_cons, inductionHypothesis maxAmount]
        omega

/-- Every piece the walk takes comes from a bucket it selects. -/
theorem withdrawMax_selected (maxAmount : Option Nat) (store : List FundItem) :
    ∀ piece ∈ (withdrawMax selects maxAmount store).1,
      selects piece.userId piece.description = true := by
  induction store generalizing maxAmount with
  | nil => nofun
  | cons item rest inductionHypothesis =>
      simp only [withdrawMax]
      split
      · intro piece member
        dsimp only at member
        split_ifs at member
        · exact inductionHypothesis _ piece member
        · obtain rfl | member := List.mem_cons.mp member
          · assumption
          · exact inductionHypothesis _ piece member
      · exact inductionHypothesis maxAmount

/-- The walk takes its bound from the selected buckets, or all they hold when that is
less or there is no bound. -/
theorem withdrawMax_taken (maxAmount : Option Nat) (store : List FundItem) :
    sumFunds (fun _ _ => true) (withdrawMax selects maxAmount store).1 =
      capped maxAmount (sumFunds selects store) := by
  induction store generalizing maxAmount with
  | nil => cases maxAmount <;> simp [withdrawMax, capped]
  | cons item rest inductionHypothesis =>
      have restTaken := inductionHypothesis (maxAmount.map (· - capped maxAmount item.balance))
      simp only [withdrawMax]
      split
      · rename_i selected
        dsimp only
        rw [sumFunds_cons, if_pos selected]
        split_ifs with nothing
        · rw [restTaken]
          cases maxAmount <;> simp only [capped, Option.map_some', Option.map_none'] at nothing ⊢ <;>
            omega
        · rw [sumFunds_cons, if_pos rfl, restTaken]
          cases maxAmount
          · rfl
          · simp only [capped, Option.map_some']
            omega
      · rename_i skipped
        simp only [sumFunds_cons, if_neg skipped, Nat.zero_add, inductionHypothesis]

/-- The walk takes no empty piece. -/
theorem withdrawMax_pos (maxAmount : Option Nat) (store : List FundItem) :
    ∀ piece ∈ (withdrawMax selects maxAmount store).1, 0 < piece.balance := by
  induction store generalizing maxAmount with
  | nil => nofun
  | cons item rest inductionHypothesis =>
      simp only [withdrawMax]
      split
      · intro piece member
        dsimp only at member
        split_ifs at member with nothing
        · exact inductionHypothesis _ piece member
        · obtain rfl | member := List.mem_cons.mp member
          · exact Nat.pos_of_ne_zero nothing
          · exact inductionHypothesis _ piece member
      · exact inductionHypothesis maxAmount

/-- The walk leaves no empty bucket behind in a store that had none. -/
theorem withdrawMax_remaining_pos (maxAmount : Option Nat) {store : List FundItem}
    (pruned : ∀ item ∈ store, 0 < item.balance) :
    ∀ item ∈ (withdrawMax selects maxAmount store).2.2, 0 < item.balance := by
  induction store generalizing maxAmount with
  | nil => nofun
  | cons item rest inductionHypothesis =>
      have restPruned := fun maxAmount => inductionHypothesis maxAmount fun other member =>
        pruned other (List.mem_cons_of_mem _ member)
      have bounded := capped_le maxAmount item.balance
      simp only [withdrawMax]
      split
      · intro kept member
        dsimp only at member
        split_ifs at member with whole
        · exact restPruned _ kept member
        · obtain rfl | member := List.mem_cons.mp member
          · dsimp only
            omega
          · exact restPruned _ kept member
      · intro kept member
        obtain rfl | member := List.mem_cons.mp member
        · exact pruned _ (List.mem_cons_self _ _)
        · exact restPruned maxAmount kept member

/-- What is left of the bound is the bound less all the selected buckets hold. -/
theorem withdrawMax_left (maxAmount : Option Nat) (store : List FundItem) :
    (withdrawMax selects maxAmount store).2.1 = maxAmount.map (· - sumFunds selects store) := by
  induction store generalizing maxAmount with
  | nil => cases maxAmount <;> rfl
  | cons item rest inductionHypothesis =>
      simp only [withdrawMax]
      split
      · rename_i selected
        dsimp only
        rw [inductionHypothesis, sumFunds_cons, if_pos selected]
        cases maxAmount
        · rfl
        · simp only [capped, Option.map_some', Option.some.injEq]
          omega
      · rename_i skipped
        dsimp only
        rw [inductionHypothesis, sumFunds_cons, if_neg skipped, Nat.zero_add]

/-- A walk with no bound takes every selected bucket whole, so none is left behind. -/
theorem withdrawMax_none_unselected (store : List FundItem) :
    ∀ item ∈ (withdrawMax selects none store).2.2, selects item.userId item.description = false := by
  induction store with
  | nil => nofun
  | cons item rest inductionHypothesis =>
      simp only [withdrawMax, Option.map_none', capped]
      split
      · simpa only [if_pos rfl] using inductionHypothesis
      · rename_i skipped
        intro kept member
        obtain rfl | member := List.mem_cons.mp member
        · exact Bool.eq_false_iff.mpr skipped
        · exact inductionHypothesis kept member

/-- A walk over a store it selects nothing of takes nothing and leaves the store as it is. -/
theorem withdrawMax_of_unselected (maxAmount : Option Nat) {store : List FundItem}
    (unselected : ∀ item ∈ store, selects item.userId item.description = false) :
    withdrawMax selects maxAmount store = ([], maxAmount, store) := by
  induction store with
  | nil => rfl
  | cons item rest inductionHypothesis =>
      simp only [withdrawMax, unselected item (List.mem_cons_self _ _), Bool.false_eq_true,
        if_false, inductionHypothesis fun other member =>
          unselected other (List.mem_cons_of_mem _ member)]

end Walk

/-- A deposit of converted pieces adds to each total what the pieces count for under the
descriptions the mapper gives them. -/
theorem sumFunds_depositConverted (counted : Nat → FundDescription → Bool)
    (mapper : Nat → FundDescription → Option FundDescription) (taken store : List FundItem) :
    sumFunds counted (depositConverted mapper taken store) =
      sumFunds counted store +
        sumFunds (fun userId description => (mapper userId description).any (counted userId))
          taken := by
  unfold depositConverted
  rw [sumFunds_append]
  congr 1
  induction taken with
  | nil => rfl
  | cons piece rest inductionHypothesis =>
      cases mapped : mapper piece.userId piece.description <;>
        simp [List.filterMap_cons, mapped, inductionHypothesis]

/-- Depositing non-empty pieces into a store with no empty bucket leaves none. -/
theorem depositConverted_pos {mapper : Nat → FundDescription → Option FundDescription}
    {taken store : List FundItem} (positive : ∀ piece ∈ taken, 0 < piece.balance)
    (pruned : ∀ item ∈ store, 0 < item.balance) :
    ∀ item ∈ depositConverted mapper taken store, 0 < item.balance := by
  intro item member
  rcases List.mem_append.mp member with kept | deposited
  · exact pruned item kept
  · obtain ⟨piece, wasTaken, mapped⟩ := List.mem_filterMap.mp deposited
    obtain ⟨description, -, rfl⟩ := Option.map_eq_some'.mp mapped
    exact positive piece wasTaken

/-- `split_convert_max_by_type` is one walk over the buckets of `sourceType` the mapper
accepts: it takes non-empty pieces of those buckets, as much in all as the bound allows and
they hold, returns their users and what is left of the bound, and deposits each piece for its
user under the description the mapper gives it, which moves every total by the difference. -/
theorem splitConvertMaxByType_spec (maxAmount : Option Nat) (sourceType : FundType)
    (mapper : Nat → FundDescription → Option FundDescription) (store : List FundItem) :
    ∃ pieces : List FundItem,
      (∀ piece ∈ pieces, piece.description.fundType = sourceType ∧
        (mapper piece.userId piece.description).isSome ∧ 0 < piece.balance) ∧
      sumFunds (fun _ _ => true) pieces = capped maxAmount (sumFunds (fun userId description =>
        decide (description.fundType = sourceType) && (mapper userId description).isSome)
          store) ∧
      (splitConvertMaxByType maxAmount sourceType mapper store).1 = pieces.map (·.userId) ∧
      (splitConvertMaxByType maxAmount sourceType mapper store).2.1 =
        maxAmount.map (· - sumFunds (fun userId description =>
          decide (description.fundType = sourceType) && (mapper userId description).isSome)
            store) ∧
      ∀ counted : Nat → FundDescription → Bool,
        sumFunds counted (splitConvertMaxByType maxAmount sourceType mapper store).2.2 +
            sumFunds counted pieces =
          sumFunds counted store +
            sumFunds (fun userId description => (mapper userId description).any (counted userId))
              pieces := by
  refine ⟨(withdrawMax (fun userId description =>
      decide (description.fundType = sourceType) && (mapper userId description).isSome)
      maxAmount store).1, fun piece member => ?_, withdrawMax_taken _ _ _, rfl,
    withdrawMax_left _ _ _, fun counted => ?_⟩
  · have accepted := withdrawMax_selected _ maxAmount store piece member
    simp only [Bool.and_eq_true, decide_eq_true_eq] at accepted
    exact ⟨accepted.1, accepted.2, withdrawMax_pos _ maxAmount store piece member⟩
  · have conserved := withdrawMax_conserves (fun userId description =>
      decide (description.fundType = sourceType) && (mapper userId description).isSome)
      counted maxAmount store
    simp only [splitConvertMaxByType, sumFunds_depositConverted]
    omega

/-- `split_convert_max_by_user` is the same walk over the buckets of one user: it takes
non-empty pieces of that user's buckets of `sourceType` the mapper accepts, as much in all as
the bound allows and they hold, returns how much it took and what is left of the bound, and
deposits each piece for the user under the description the mapper gives it. -/
theorem splitConvertMaxByUser_spec (maxAmount : Option Nat) (userId : Nat) (sourceType : FundType)
    (mapper : FundDescription → Option FundDescription) (store : List FundItem) :
    ∃ pieces : List FundItem,
      (∀ piece ∈ pieces, piece.userId = userId ∧ piece.description.fundType = sourceType ∧
        (mapper piece.description).isSome ∧ 0 < piece.balance) ∧
      (splitConvertMaxByUser maxAmount userId sourceType mapper store).1 =
        sumFunds (fun _ _ => true) pieces ∧
      sumFunds (fun _ _ => true) pieces = capped maxAmount (sumFunds (fun owner description =>
        decide (owner = userId ∧ description.fundType = sourceType) &&
          (mapper description).isSome) store) ∧
      (splitConvertMaxByUser maxAmount userId sourceType mapper store).2.1 =
        maxAmount.map (· - sumFunds (fun owner description =>
          decide (owner = userId ∧ description.fundType = sourceType) &&
            (mapper description).isSome) store) ∧
      ∀ counted : Nat → FundDescription → Bool,
        sumFunds counted (splitConvertMaxByUser maxAmount userId sourceType mapper store).2.2 +
            sumFunds counted pieces =
          sumFunds counted store +
            sumFunds (fun owner description => (mapper description).any (counted owner))
              pieces := by
  refine ⟨(withdrawMax (fun owner description =>
      decide (owner = userId ∧ description.fundType = sourceType) && (mapper description).isSome)
      maxAmount store).1, fun piece member => ?_, rfl, withdrawMax_taken _ _ _,
    withdrawMax_left _ _ _, fun counted => ?_⟩
  · have accepted := withdrawMax_selected _ maxAmount store piece member
    simp only [Bool.and_eq_true, decide_eq_true_eq] at accepted
    exact ⟨accepted.1.1, accepted.1.2, accepted.2,
      withdrawMax_pos _ maxAmount store piece member⟩
  · have conserved := withdrawMax_conserves (fun owner description =>
      decide (owner = userId ∧ description.fundType = sourceType) && (mapper description).isSome)
      counted maxAmount store
    simp only [splitConvertMaxByUser, sumFunds_depositConverted]
    omega

end Delegation.Funds
