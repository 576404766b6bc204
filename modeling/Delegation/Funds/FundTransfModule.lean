/-
Module: Delegation.Funds.FundTransfModule
Layer: Model and proofs
Purpose: The fund transformations of the user-fund storage (`fund_transf_module.rs`), over
  the fund module modelled from the specification, and what they do to the totals of the
  store. `liquidate_free_stake` drains withdraw-only funds before Waiting ones.
  `unstake_transf` converts before it checks, so when it fails the conversion has already
  been made: only the revert of the failing transaction undoes it. Unstaked stake becomes
  deferred payments of the same user and block. The deferred payments are eligible when the
  block is past their creation block plus the delay, the sum taken in `u64`; a claim pays
  out exactly what the query shows, and a second claim in the same block does nothing.
Trusted boundary: the fund module (`Delegation.Funds.FundModule`); the current block enters
  as an argument.
Main exports: createWaiting, liquidateFreeStake, unstakeTransf, swapWaitingToActive,
  swapActiveToUnstaked, swapUnstakedToDeferredPayment, eligibleDeferredPayment,
  claimAllEligibleDeferredPayments, FundType.soleDescription, FundDescription.fundType_eq_iff,
  unstakeTransf_converts, destroyMaxForUser_spec,
  liquidateFreeStake_drains, sortDedup_sorted, Swapped, swapToDescription_swapped,
  swaps_convert, swapUnstakedToDeferredPayment_keeps_dates,
  claimAllEligibleDeferredPayments_pays_eligible, eligibleDeferredPayment_eq_sumFunds
-/
import Delegation.Funds.FundModule
import Mathlib.Data.List.Sort
import Mathlib.Data.List.Destutter
import Mathlib.Data.List.Chain

namespace Delegation.Funds

/-! ### The transformations -/

/-- `create_waiting`. -/
def createWaiting (userId balance : Nat) (store : List FundItem) : List FundItem :=
  createFund userId .waiting balance store

/-- `liquidate_free_stake`: the amount comes out of the user's withdraw-only stake first and,
when that is not enough, out of its waiting stake. Returns what is left of the amount. -/
def liquidateFreeStake (userId amount : Nat) (store : List FundItem) : Nat × List FundItem :=
  let (amount, store) := destroyMaxForUser amount userId .withdrawOnly store
  if amount > 0 then destroyMaxForUser amount userId .waiting store else (amount, store)

/-- `unstake_transf`: converts the user's active stake into unstaked stake of the current
block, then fails when the user had less than the amount. -/
def unstakeTransf (blockNonce : UInt64) (unstakeUserId amount : Nat) (store : List FundItem) :
    Except String Unit × List FundItem :=
  let (_, amountToUnstake, store) := splitConvertMaxByUser (some amount) unstakeUserId .active
    (fun _ => some (.unStaked blockNonce)) store
  if amountToUnstake.getD 0 > 0 then (.error "cannot offer more than the user active stake", store)
  else (.ok (), store)

/-- Rust's `sort` then `dedup` on the users touched: ascending, each once. -/
def sortDedup (userIds : List Nat) : List Nat :=
  (userIds.insertionSort (· ≤ ·)).destutter (· ≠ ·)

/-- The body `swap_waiting_to_active` and `swap_active_to_unstaked` share: converts stake of
`sourceType`, of any user, into stake under `target`, as much as the amount asks. Returns the
users touched, ascending and each once, and what is left of the amount. -/
def swapToDescription (sourceType : FundType) (target : FundDescription) (amount : Nat)
    (store : List FundItem) : (List Nat × Nat) × List FundItem :=
  let (affectedStates, left, store) :=
    splitConvertMaxByType (some amount) sourceType (fun _ _ => some target) store
  ((sortDedup affectedStates, left.getD 0), store)

/-- `swap_waiting_to_active`: converts waiting stake of any user into active stake. -/
def swapWaitingToActive (amount : Nat) (store : List FundItem) :
    (List Nat × Nat) × List FundItem :=
  swapToDescription .waiting .active amount store

/-- `swap_active_to_unstaked`: converts active stake of any user into unstaked stake of the
current block. -/
def swapActiveToUnstaked (blockNonce : UInt64) (amount : Nat) (store : List FundItem) :
    (List Nat × Nat) × List FundItem :=
  swapToDescription .active (.unStaked blockNonce) amount store

/-- `swap_unstaked_to_deferred_payment`: converts unstaked stake of any user into deferred
payments of the same creation block. Returns what is left of the amount. -/
def swapUnstakedToDeferredPayment (amount : Nat) (store : List FundItem) :
    Nat × List FundItem :=
  let (_, unstakedToConvert, store) :=
    splitConvertMaxByType (some amount) .unStaked
      (fun _ fundInfo => match fundInfo with
        | .unStaked created => some (.deferredPayment created)
        | _ => none)
      store
  (unstakedToConvert.getD 0, store)

/-- `eligible_deferred_payment`: the user's deferred payments whose creation block plus the
delay, in `u64`, is below the current block. -/
def eligibleDeferredPayment (blockNonce : UInt64) (userId : Nat) (nBlocksBeforeClaim : UInt64)
    (store : List FundItem) : Nat :=
  querySumFundsByUserType userId .deferredPayment
    (fun fundDesc => match fundDesc with
      | .deferredPayment created => decide (blockNonce > created + nBlocksBeforeClaim)
      | _ => false)
    store

/-- `claim_all_eligible_deferred_payments`: converts the user's eligible deferred payments
into withdraw-only stake. Returns the amount converted. -/
def claimAllEligibleDeferredPayments (blockNonce : UInt64) (userId : Nat)
    (nBlocksBeforeClaim : UInt64) (store : List FundItem) : Except String Nat × List FundItem :=
  let (claimed, _, store) := splitConvertMaxByUser none userId .deferredPayment
    (fun fundDesc => match fundDesc with
      | .deferredPayment created =>
          if blockNonce > created + nBlocksBeforeClaim then some .withdrawOnly else none
      | _ => none)
    store
  (.ok claimed, store)

/-! ### Totals of pieces of one kind -/

/-- The one description of a phase whose buckets carry no block: Waiting, Active and
WithdrawOnly. -/
def FundType.soleDescription : FundType → Option FundDescription
  | .waiting => some .waiting
  | .active => some .active
  | .withdrawOnly => some .withdrawOnly
  | .unStaked | .deferredPayment => none

/-- The buckets of a phase with a single description are all under that description. -/
theorem FundDescription.fundType_eq_iff {description sole : FundDescription}
    {fundType : FundType} (single : fundType.soleDescription = some sole) :
    description.fundType = fundType ↔ description = sole := by
  cases fundType <;> cases single <;> cases description <;> simp [FundDescription.fundType]

/-- Pieces of one user under one description count for all they hold in a total that
accepts that user and description, and for nothing in one that does not. -/
theorem sumFunds_of_uniform {items : List FundItem} {userId : Nat}
    {description : FundDescription}
    (uniform : ∀ item ∈ items, item.userId = userId ∧ item.description = description)
    (counted : Nat → FundDescription → Bool) :
    sumFunds counted items =
      if counted userId description then sumFunds (fun _ _ => true) items else 0 := by
  have agree : ∀ item ∈ items, counted item.userId item.description =
      (fun _ _ => counted userId description) item.userId item.description :=
    fun item member => by rw [(uniform item member).1, (uniform item member).2]
  rw [@sumFunds_congr counted (fun _ _ => counted userId description) items agree,
    sumFunds_const]

/-! ### Unstaking a user's active stake -/

/-- `unstake_transf` converts as much of the user's active stake as the amount asks and the
user holds into unstaked stake of the current block, and changes no other total; it
succeeds exactly when the user held the whole amount. When it fails it has still converted
all the user's active stake: only the revert of the failing transaction undoes that. -/
theorem unstakeTransf_converts (blockNonce : UInt64) (unstakeUserId amount : Nat)
    (store : List FundItem) :
    ((unstakeTransf blockNonce unstakeUserId amount store).1 = .ok () ↔
      amount ≤ amountOf store unstakeUserId .active) ∧
    ∀ userId description,
      amountOf (unstakeTransf blockNonce unstakeUserId amount store).2 userId description =
        amountOf store userId description
          - (if userId = unstakeUserId ∧ description = .active then
              min amount (amountOf store unstakeUserId .active) else 0)
          + (if userId = unstakeUserId ∧ description = .unStaked blockNonce then
              min amount (amountOf store unstakeUserId .active) else 0) := by
  set active := amountOf store unstakeUserId .active
  set selects : Nat → FundDescription → Bool := fun owner held =>
    decide (owner = unstakeUserId ∧ held.fundType = .active) &&
      (some (FundDescription.unStaked blockNonce)).isSome with selectsDef
  have sole := fun other => @FundDescription.fundType_eq_iff other .active .active rfl
  have selectsActive : sumFunds selects store = active :=
    sumFunds_congr fun item _ => by simp [selectsDef, sole]
  have fromActive : ∀ piece ∈ (withdrawMax selects (some amount) store).1,
      piece.userId = unstakeUserId ∧ piece.description = .active := fun piece member => by
    simpa [selectsDef, sole] using withdrawMax_selected selects (some amount) store piece member
  have taken : sumFunds (fun _ _ => true) (withdrawMax selects (some amount) store).1 =
      min amount active := by
    rw [withdrawMax_taken, selectsActive]; rfl
  have after : (unstakeTransf blockNonce unstakeUserId amount store).2 =
      depositConverted (fun _ _ => some (.unStaked blockNonce))
        (withdrawMax selects (some amount) store).1 (withdrawMax selects (some amount) store).2.2 := by
    simp only [unstakeTransf, splitConvertMaxByUser]
    split <;> rfl
  refine ⟨?succeeds, fun userId description => ?totals⟩
  case succeeds =>
    simp only [unstakeTransf, splitConvertMaxByUser, withdrawMax_left, selectsActive,
      Option.map_some', Option.getD_some]
    split <;> simp <;> omega
  case totals =>
    have conserved := withdrawMax_conserves selects
      (fun owner held => decide (owner = userId ∧ held = description)) (some amount) store
    rw [sumFunds_of_uniform fromActive, taken] at conserved
    have converted : amountOf (unstakeTransf blockNonce unstakeUserId amount store).2 userId
        description =
        sumFunds (fun owner held => decide (owner = userId ∧ held = description))
          (withdrawMax selects (some amount) store).2.2 +
        if unstakeUserId = userId ∧ FundDescription.unStaked blockNonce = description then
          min amount active else 0 := by
      rw [after, amountOf, sumFunds_depositConverted, sumFunds_of_uniform fromActive, taken]
      simp
    rw [converted, show amountOf store userId description = _ from conserved]
    by_cases sameUser : userId = unstakeUserId
    · subst sameUser
      by_cases unstaked : description = .unStaked blockNonce
      · subst unstaked; simp
      · by_cases isActive : description = .active
        · subst isActive; simp
        · simp [Ne.symm isActive, Ne.symm unstaked, isActive, unstaked]
    · simp [sameUser, Ne.symm sameUser]

/-- With 5 of active stake, unstaking 7 fails, yet leaves the 5 unstaked. -/
theorem unstakeTransf_failure_keeps_conversion :
    unstakeTransf 3 1 7 [⟨1, .active, 5⟩] =
      (.error "cannot offer more than the user active stake", [⟨1, .unStaked 3, 5⟩]) :=
  rfl

/-! ### Liquidating free stake -/

/-- `destroy_max_for_user` on a phase that has one description takes as much of the user's
funds under it as the amount asks and they hold, and returns the rest of the amount; no
other user's funds and no other description change. -/
theorem destroyMaxForUser_spec (fundType : FundType) {description : FundDescription}
    (single : fundType.soleDescription = some description)
    (amount userId : Nat) (store : List FundItem) :
    (destroyMaxForUser amount userId fundType store).1 =
        amount - amountOf store userId description ∧
      ∀ owner held, amountOf (destroyMaxForUser amount userId fundType store).2 owner held +
          (if owner = userId ∧ held = description then
            min amount (amountOf store userId description) else 0) =
        amountOf store owner held := by
  have sole := fun other => @FundDescription.fundType_eq_iff other _ _ single
  set selects : Nat → FundDescription → Bool :=
    fun owner held => decide (owner = userId ∧ held.fundType = fundType) with selectsDef
  have selected : sumFunds selects store = amountOf store userId description :=
    sumFunds_congr fun item _ => by simp only [selectsDef, sole]
  have uniform : ∀ piece ∈ (withdrawMax selects (some amount) store).1,
      piece.userId = userId ∧ piece.description = description := fun piece member => by
    simpa [selectsDef, sole] using withdrawMax_selected selects (some amount) store piece member
  refine ⟨?rest, fun owner held => ?kept⟩
  case rest =>
    simp only [destroyMaxForUser, withdrawMax_left, selected, Option.map_some', Option.getD_some]
  case kept =>
    have conserved := withdrawMax_conserves selects
      (fun holder kind => decide (holder = owner ∧ kind = held)) (some amount) store
    rw [sumFunds_of_uniform uniform, withdrawMax_taken, selected] at conserved
    simp only [decide_eq_true_eq, @eq_comm _ userId owner, @eq_comm _ description held,
      capped] at conserved
    exact conserved.symm

/-- `liquidate_free_stake` drains the user's withdraw-only funds first, and its Waiting funds
only for what the withdraw-only ones could not cover: when they cover the amount, the
Waiting funds are not walked at all. It changes no other funds, and returns the amount less
all the free funds it found. -/
theorem liquidateFreeStake_drains (userId amount : Nat) (store : List FundItem) :
    (liquidateFreeStake userId amount store).1 =
        amount - min amount (amountOf store userId .withdrawOnly + amountOf store userId .waiting) ∧
    amountOf (liquidateFreeStake userId amount store).2 userId .withdrawOnly =
        amountOf store userId .withdrawOnly - min amount (amountOf store userId .withdrawOnly) ∧
    amountOf (liquidateFreeStake userId amount store).2 userId .waiting =
        amountOf store userId .waiting -
          min (amount - min amount (amountOf store userId .withdrawOnly))
            (amountOf store userId .waiting) ∧
    (amount ≤ amountOf store userId .withdrawOnly →
      liquidateFreeStake userId amount store =
        destroyMaxForUser amount userId .withdrawOnly store) ∧
    ∀ owner held, (owner ≠ userId ∨ held ≠ .withdrawOnly ∧ held ≠ .waiting) →
      amountOf (liquidateFreeStake userId amount store).2 owner held =
        amountOf store owner held := by
  obtain ⟨rest, drained⟩ := destroyMaxForUser_spec .withdrawOnly rfl
    amount userId store
  have unfolded : liquidateFreeStake userId amount store =
      if (destroyMaxForUser amount userId .withdrawOnly store).1 > 0 then
        destroyMaxForUser (destroyMaxForUser amount userId .withdrawOnly store).1 userId .waiting
          (destroyMaxForUser amount userId .withdrawOnly store).2
      else destroyMaxForUser amount userId .withdrawOnly store := rfl
  have withdrawOnly := drained userId .withdrawOnly
  have waiting := drained userId .waiting
  simp only [and_self, and_false, if_true, if_false, reduceCtorEq, Nat.add_zero]
    at withdrawOnly waiting
  have framed : ∀ owner held, (owner ≠ userId ∨ held ≠ .withdrawOnly ∧ held ≠ .waiting) →
      amountOf (destroyMaxForUser amount userId .withdrawOnly store).2 owner held =
        amountOf store owner held := fun owner held other => by
    have kept := drained owner held
    rwa [if_neg (by tauto), Nat.add_zero] at kept
  by_cases covered : amount ≤ amountOf store userId .withdrawOnly
  · -- the withdraw-only funds cover the amount
    have noRest : (destroyMaxForUser amount userId .withdrawOnly store).1 = 0 := by
      rw [rest]; exact Nat.sub_eq_zero_of_le covered
    rw [unfolded, if_neg (by rw [noRest]; exact Nat.lt_irrefl 0)]
    refine ⟨?_, (Nat.sub_eq_of_eq_add withdrawOnly.symm).symm, ?_, fun _ => rfl, framed⟩
    · rw [noRest, ← Nat.sub_eq_sub_min]
      exact (Nat.sub_eq_zero_of_le (Nat.le_add_right_of_le covered)).symm
    · rw [waiting, Nat.min_eq_left covered, Nat.sub_self, Nat.zero_min, Nat.sub_zero]
  · -- the rest comes out of the Waiting funds, which the first walk left as they were
    have short := Nat.lt_of_not_le covered
    obtain ⟨restWaiting, drainedWaiting⟩ := destroyMaxForUser_spec .waiting rfl
      (destroyMaxForUser amount userId
        .withdrawOnly store).1 userId (destroyMaxForUser amount userId .withdrawOnly store).2
    have withdrawOnly' := drainedWaiting userId .withdrawOnly
    have waiting' := drainedWaiting userId .waiting
    simp only [and_self, and_false, if_true, if_false, reduceCtorEq, Nat.add_zero]
      at withdrawOnly' waiting'
    rw [unfolded, if_pos (by rw [rest]; exact Nat.sub_pos_of_lt short)]
    rw [rest, waiting] at restWaiting waiting'
    rw [rest] at withdrawOnly' drainedWaiting ⊢
    refine ⟨?_, ?_, ?_, fun coveredNow => absurd coveredNow covered,
      fun owner held other => ?_⟩
    · rw [restWaiting, Nat.sub_sub, ← Nat.sub_eq_sub_min]
    · rw [withdrawOnly']
      exact (Nat.sub_eq_of_eq_add withdrawOnly.symm).symm
    · rw [Nat.min_eq_right short.le]
      exact (Nat.sub_eq_of_eq_add waiting'.symm).symm
    · have kept := drainedWaiting owner held
      rw [if_neg (by tauto), Nat.add_zero] at kept
      exact kept.trans (framed owner held other)

/-- Liquidating 4 from 3 withdraw-only and 5 waiting takes the 3, then 1 of the 5. -/
example : liquidateFreeStake 1 4 [⟨1, .withdrawOnly, 3⟩, ⟨1, .waiting, 5⟩, ⟨2, .waiting, 7⟩] =
    (0, [⟨1, .waiting, 4⟩, ⟨2, .waiting, 7⟩]) := rfl

/-! ### The users a swap touched -/

/-- Rust's `dedup` keeps one of each run of equal neighbours, so it keeps every value. -/
theorem mem_destutter'_ne {userId : Nat} :
    ∀ (rest : List Nat) (head : Nat), userId ∈ head :: rest →
      userId ∈ rest.destutter' (· ≠ ·) head
  | [], _, member => by rwa [List.destutter'_nil]
  | next :: rest, head, member => by
      rw [List.destutter'_cons]
      split_ifs with differ
      · obtain rfl | member := List.mem_cons.mp member
        · exact List.mem_cons_self _ _
        · exact List.mem_cons_of_mem _ (mem_destutter'_ne rest next member)
      · obtain rfl : head = next := not_not.mp differ
        exact mem_destutter'_ne rest head (by simpa using member)

theorem mem_destutter_ne {userId : Nat} :
    ∀ {userIds : List Nat}, userId ∈ userIds → userId ∈ userIds.destutter (· ≠ ·)
  | [], member => member
  | head :: rest, member => by
      rw [List.destutter_cons']
      exact mem_destutter'_ne rest head member

theorem mem_sortDedup {userIds : List Nat} {userId : Nat} :
    userId ∈ sortDedup userIds ↔ userId ∈ userIds :=
  ⟨fun member => (List.mem_insertionSort _).mp ((List.destutter_sublist _ _).subset member),
    fun member => mem_destutter_ne ((List.mem_insertionSort _).mpr member)⟩

theorem chain'_lt_of_le_of_ne : ∀ {userIds : List Nat}, userIds.Chain' (· ≤ ·) →
    userIds.Chain' (· ≠ ·) → userIds.Chain' (· < ·)
  | [], _, _ => List.chain'_nil
  | [_], _, _ => List.chain'_singleton _
  | _ :: _ :: _, ascending, distinct =>
      List.chain'_cons.mpr ⟨Nat.lt_of_le_of_ne (List.chain'_cons.mp ascending).1
          (List.chain'_cons.mp distinct).1,
        chain'_lt_of_le_of_ne (List.chain'_cons.mp ascending).2 (List.chain'_cons.mp distinct).2⟩

/-- The users a swap returns are strictly ascending. -/
theorem sortDedup_sorted (userIds : List Nat) : (sortDedup userIds).Sorted (· < ·) := by
  have ascending : (sortDedup userIds).Sorted (· ≤ ·) :=
    List.Pairwise.sublist (List.destutter_sublist _ _) (List.sorted_insertionSort _ _)
  exact List.chain'_iff_pairwise.mp
    (chain'_lt_of_le_of_ne ascending.chain' (List.destutter_is_chain' _ _))

/-! ### Swapping stake of one type for one description -/

/-- What a swap of `source` stake for `target` stake leaves (spec §4.3): each user's funds
move from `source` to `target` and nowhere else, and all the users' together as much as the
amount asks and the store holds; the rest of the amount is returned, with the users whose
stake moved, ascending and each once. -/
structure Swapped (source target : FundDescription) (amount : Nat) (store : List FundItem)
    (result : (List Nat × Nat) × List FundItem) : Prop where
  moved : ∀ userId, amountOf result.2 userId source + amountOf result.2 userId target =
    amountOf store userId source + amountOf store userId target
  gained : ∀ userId, amountOf store userId target ≤ amountOf result.2 userId target
  framed : ∀ userId description, description ≠ source → description ≠ target →
    amountOf result.2 userId description = amountOf store userId description
  converted : totalOf result.2 target = totalOf store target + min amount (totalOf store source)
  left : result.1.2 = amount - totalOf store source
  affected : ∀ userId, userId ∈ result.1.1 ↔
    amountOf store userId target < amountOf result.2 userId target
  ascending : result.1.1.Sorted (· < ·)

/-- A total of one user's pieces, when it asks for a fixed condition beside the user. -/
theorem sumFunds_owner_and (items : List FundItem) (userId : Nat) (condition : Prop)
    [Decidable condition] :
    sumFunds (fun owner _ => decide (owner = userId ∧ condition)) items =
      if condition then heldBy items userId else 0 := by
  by_cases holds : condition <;> simp [holds, heldBy, sumFunds_const]

/-- A user's funds under one description, in pieces all under `description`. -/
theorem amountOf_of_description {items : List FundItem} {description : FundDescription}
    (uniform : ∀ item ∈ items, item.description = description) (userId : Nat)
    (held : FundDescription) :
    amountOf items userId held = if description = held then heldBy items userId else 0 := by
  have agree : ∀ item ∈ items, decide (item.userId = userId ∧ item.description = held) =
      decide (item.userId = userId ∧ description = held) :=
    fun item member => by rw [uniform item member]
  rw [amountOf, @sumFunds_congr _ (fun owner _ => decide (owner = userId ∧ description = held))
    items agree, sumFunds_owner_and]

theorem swapToDescription_swapped {source target : FundDescription} (distinct : source ≠ target)
    (sole : ∀ description : FundDescription,
      description.fundType = source.fundType → description = source)
    (amount : Nat) (store : List FundItem) :
    Swapped source target amount store (swapToDescription source.fundType target amount store) := by
  obtain ⟨pieces, fromSource, taken, users, leftover, totals⟩ :=
    splitConvertMaxByType_spec (some amount) source.fundType (fun _ _ => some target) store
  have selectsSource : sumFunds (fun _ description =>
      decide (description.fundType = source.fundType) && (some target).isSome) store =
        totalOf store source :=
    sumFunds_congr fun item _ => by
      simp only [Option.isSome_some, Bool.and_true, decide_eq_decide]
      exact ⟨sole _, fun same => same ▸ rfl⟩
  have uniform : ∀ piece ∈ pieces, piece.description = source :=
    fun piece member => sole _ (fromSource piece member).1
  have result : swapToDescription source.fundType target amount store =
      ((sortDedup (splitConvertMaxByType (some amount) source.fundType
          (fun _ _ => some target) store).1,
        ((splitConvertMaxByType (some amount) source.fundType (fun _ _ => some target)
          store).2.1).getD 0),
        (splitConvertMaxByType (some amount) source.fundType (fun _ _ => some target)
          store).2.2) := rfl
  rw [result, users, leftover, selectsSource]
  generalize (splitConvertMaxByType (some amount) source.fundType (fun _ _ => some target)
    store).2.2 = after at totals ⊢
  -- each user's funds under each description gain what the user's pieces bring to it
  have perUser : ∀ userId description, amountOf after userId description +
      (if source = description then heldBy pieces userId else 0) =
      amountOf store userId description +
        if target = description then heldBy pieces userId else 0 := fun userId description => by
    have moved := totals fun owner held => decide (owner = userId ∧ held = description)
    simp only [Option.any_some, sumFunds_owner_and] at moved
    rwa [← amountOf_of_description uniform]
  refine ⟨fun userId => ?moved, fun userId => ?gained,
    fun userId description notSource notTarget => ?framed, ?converted, rfl,
    fun userId => ?affected, sortDedup_sorted _⟩
  all_goals dsimp only
  case moved =>
    have atSource := perUser userId source
    have atTarget := perUser userId target
    simp only [if_true, if_neg distinct, if_neg (Ne.symm distinct)] at atSource atTarget
    omega
  case gained =>
    have atTarget := perUser userId target
    simp only [if_true, if_neg distinct] at atTarget
    omega
  case framed =>
    have atOther := perUser userId description
    simp only [if_neg (Ne.symm notSource), if_neg (Ne.symm notTarget)] at atOther
    omega
  case converted =>
    have moved := totals fun _ held => decide (held = target)
    have noTarget : sumFunds (fun _ held => decide (held = target)) pieces = 0 := by
      rw [@sumFunds_congr _ (fun _ _ => false) pieces fun piece member => by
        simp [uniform piece member, distinct], sumFunds_const]
      rfl
    simp only [Option.any_some, decide_True, taken, selectsSource, noTarget] at moved
    simp only [totalOf, capped] at moved ⊢
    omega
  case affected =>
    have atTarget := perUser userId target
    simp only [if_true, if_neg distinct] at atTarget
    rw [mem_sortDedup, List.mem_map,
      ← heldBy_pos_iff (fun piece member => (fromSource piece member).2.2)]
    omega

/-- `swap_waiting_to_active` and `swap_active_to_unstaked` each move stake of every user from
one description to the other and nowhere else, as much in all as the amount asks and the
store holds, and return the rest of the amount with the users whose stake moved, ascending
and each once. -/
theorem swaps_convert (amount : Nat) (blockNonce : UInt64) (store : List FundItem) :
    Swapped .waiting .active amount store (swapWaitingToActive amount store) ∧
      Swapped .active (.unStaked blockNonce) amount store
        (swapActiveToUnstaked blockNonce amount store) :=
  ⟨@swapToDescription_swapped .waiting .active nofun
      (fun description => by cases description <;> simp [FundDescription.fundType]) amount store,
    @swapToDescription_swapped .active (.unStaked blockNonce) nofun
      (fun description => by cases description <;> simp [FundDescription.fundType]) amount store⟩

/-! ### Deferred payments -/

/-- The deferred payments `eligible_deferred_payment` counts, in unbounded integers: those
whose creation block plus the delay, wrapped at `2^64`, is below the current block. -/
theorem eligibleDeferredPayment_eq_sumFunds (blockNonce : UInt64) (userId : Nat)
    (nBlocksBeforeClaim : UInt64) (store : List FundItem) :
    eligibleDeferredPayment blockNonce userId nBlocksBeforeClaim store =
      sumFunds (fun owner description => match description with
        | .deferredPayment created => decide (owner = userId ∧
            (created.toNat + nBlocksBeforeClaim.toNat) % UInt64.size < blockNonce.toNat)
        | _ => false) store := by
  refine sumFunds_congr fun item _ => ?_
  cases item.description <;> simp [FundDescription.fundType]
  exact congrArg _ (decide_eq_decide.mpr Iff.rfl)

/-- `swap_unstaked_to_deferred_payment` converts as much unstaked stake, of any user, as the
amount asks and there is, and returns the rest of the amount. Each piece keeps its user and
its creation block: for every user and block, the deferred payments gain exactly what the
unstaked stake loses. No other funds change, and no user's total does. -/
theorem swapUnstakedToDeferredPayment_keeps_dates (amount : Nat) (store : List FundItem) :
    (swapUnstakedToDeferredPayment amount store).1 =
        amount - min amount (sumFunds (fun _ held => decide (held.fundType = .unStaked)) store) ∧
    sumFunds (fun _ held => decide (held.fundType = .unStaked))
        (swapUnstakedToDeferredPayment amount store).2 +
        min amount (sumFunds (fun _ held => decide (held.fundType = .unStaked)) store) =
      sumFunds (fun _ held => decide (held.fundType = .unStaked)) store ∧
    sumFunds (fun _ held => decide (held.fundType = .deferredPayment))
        (swapUnstakedToDeferredPayment amount store).2 =
      sumFunds (fun _ held => decide (held.fundType = .deferredPayment)) store +
        min amount (sumFunds (fun _ held => decide (held.fundType = .unStaked)) store) ∧
    (∀ userId created, ∃ moved,
      amountOf (swapUnstakedToDeferredPayment amount store).2 userId (.unStaked created) + moved =
        amountOf store userId (.unStaked created) ∧
      amountOf (swapUnstakedToDeferredPayment amount store).2 userId (.deferredPayment created) =
        amountOf store userId (.deferredPayment created) + moved) ∧
    (∀ userId held, held.fundType ≠ .unStaked → held.fundType ≠ .deferredPayment →
      amountOf (swapUnstakedToDeferredPayment amount store).2 userId held =
        amountOf store userId held) ∧
    ∀ userId,
      heldBy (swapUnstakedToDeferredPayment amount store).2 userId = heldBy store userId := by
  set mapper : Nat → FundDescription → Option FundDescription := fun _ fundInfo =>
    match fundInfo with
    | .unStaked created => some (.deferredPayment created)
    | _ => none with mapperDef
  have swapped : swapUnstakedToDeferredPayment amount store =
      ((splitConvertMaxByType (some amount) .unStaked mapper store).2.1.getD 0,
        (splitConvertMaxByType (some amount) .unStaked mapper store).2.2) := rfl
  obtain ⟨pieces, fromSource, taken, -, left, totals⟩ :=
    splitConvertMaxByType_spec (some amount) .unStaked mapper store
  have selectsUnstaked : sumFunds (fun userId description =>
      decide (description.fundType = .unStaked) && (mapper userId description).isSome) store =
      sumFunds (fun _ held => decide (held.fundType = .unStaked)) store :=
    sumFunds_congr fun item _ => by cases item.description <;> rfl
  rw [selectsUnstaked] at taken left
  -- every piece is unstaked stake of some block, deposited as a payment of that block
  have dated : ∀ piece ∈ pieces, ∃ created, piece.description = .unStaked created :=
    fun piece member => by
      have unstaked := (fromSource piece member).1
      revert unstaked
      cases piece.description <;> simp [FundDescription.fundType]
  have overPieces : ∀ counted other : Nat → FundDescription → Bool,
      (∀ owner created, counted owner (.unStaked created) = other owner (.unStaked created)) →
      sumFunds counted pieces = sumFunds other pieces := fun counted other agree =>
    sumFunds_congr fun piece member => by
      obtain ⟨created, atUnstaked⟩ := dated piece member
      rw [atUnstaked]
      exact agree _ _
  have none : ∀ counted : Nat → FundDescription → Bool,
      (∀ owner created, counted owner (.unStaked created) = false) →
      sumFunds counted pieces = 0 := fun counted never =>
    (overPieces counted _ never).trans (sumFunds_const false _)
  have all : ∀ counted : Nat → FundDescription → Bool,
      (∀ owner created, counted owner (.unStaked created) = true) →
      sumFunds counted pieces =
        min amount (sumFunds (fun _ held => decide (held.fundType = .unStaked)) store) :=
    fun counted always => (overPieces counted _ always).trans taken
  rw [swapped]
  refine ⟨?rest, ?unstaked, ?deferred, fun userId created => ?dated, ?framed, fun userId => ?held⟩
  case rest =>
    rw [left]
    simp only [Option.map_some', Option.getD_some]
    omega
  case unstaked =>
    have moved := totals fun _ held => decide (held.fundType = .unStaked)
    rw [all _ fun _ _ => rfl, none _ fun _ _ => rfl] at moved
    exact moved
  case deferred =>
    have moved := totals fun _ held => decide (held.fundType = .deferredPayment)
    rw [none _ fun _ _ => rfl, all _ fun _ _ => rfl] at moved
    exact moved
  case dated =>
    have lost := totals fun owner held => decide (owner = userId ∧ held = .unStaked created)
    have gained := totals fun owner held =>
      decide (owner = userId ∧ held = .deferredPayment created)
    have lostNowhere : sumFunds (fun owner held => (mapper owner held).any fun kind =>
        decide (owner = userId ∧ kind = .unStaked created)) pieces = 0 :=
      none _ fun _ _ => by simp [mapperDef]
    have gainedNothing : sumFunds (fun owner held =>
        decide (owner = userId ∧ held = .deferredPayment created)) pieces = 0 :=
      none _ fun _ _ => by simp
    have redated : sumFunds (fun owner held => (mapper owner held).any fun kind =>
        decide (owner = userId ∧ kind = .deferredPayment created)) pieces =
        sumFunds (fun owner held => decide (owner = userId ∧ held = .unStaked created)) pieces :=
      overPieces _ _ fun _ _ => by simp [mapperDef]
    rw [lostNowhere, Nat.add_zero] at lost
    rw [gainedNothing, redated, Nat.add_zero] at gained
    exact ⟨_, lost, gained⟩
  case framed =>
    intro userId held notUnstaked notDeferred
    have kept := totals fun owner kind => decide (owner = userId ∧ kind = held)
    have notTaken : sumFunds (fun owner kind => decide (owner = userId ∧ kind = held)) pieces =
        0 :=
      none _ fun _ created => by
        simp only [decide_eq_false_iff_not, not_and]
        rintro - rfl
        exact notUnstaked rfl
    have notDeposited : sumFunds (fun owner kind => (mapper owner kind).any fun other =>
        decide (owner = userId ∧ other = held)) pieces = 0 :=
      none _ fun _ created => by
        simp only [mapperDef, Option.any_some, decide_eq_false_iff_not, not_and]
        rintro - rfl
        exact notDeferred rfl
    rw [notTaken, notDeposited] at kept
    exact kept
  case held =>
    have kept := totals fun owner _ => decide (owner = userId)
    have sameOwner : sumFunds (fun owner kind => (mapper owner kind).any fun _ =>
        decide (owner = userId)) pieces =
        sumFunds (fun owner _ => decide (owner = userId)) pieces :=
      overPieces _ _ fun _ _ => rfl
    rw [sameOwner] at kept
    exact Nat.add_right_cancel kept

/-- Converting 80 out of two unstaked buckets of 50 (spec §8): the first whole, 30 of the
second, each into a payment of its own block. -/
example : swapUnstakedToDeferredPayment 80 [⟨1, .unStaked 5, 50⟩, ⟨2, .unStaked 9, 50⟩] =
    (0, [⟨2, .unStaked 9, 20⟩, ⟨1, .deferredPayment 5, 50⟩, ⟨2, .deferredPayment 9, 30⟩]) :=
  rfl

/-- `claim_all_eligible_deferred_payments` pays out exactly what `eligible_deferred_payment`
shows in the same block: it returns that amount and moves it from the user's deferred
payments to the user's withdraw-only funds. It leaves no eligible payment behind, so a
second claim in the same block converts nothing and leaves the store as it is. -/
theorem claimAllEligibleDeferredPayments_pays_eligible (blockNonce : UInt64) (userId : Nat)
    (nBlocksBeforeClaim : UInt64) (store : List FundItem) :
    (claimAllEligibleDeferredPayments blockNonce userId nBlocksBeforeClaim store).1 =
        .ok (eligibleDeferredPayment blockNonce userId nBlocksBeforeClaim store) ∧
    querySumFundsByUserType userId .withdrawOnly (fun _ => true)
        (claimAllEligibleDeferredPayments blockNonce userId nBlocksBeforeClaim store).2 =
      querySumFundsByUserType userId .withdrawOnly (fun _ => true) store +
        eligibleDeferredPayment blockNonce userId nBlocksBeforeClaim store ∧
    querySumFundsByUserType userId .deferredPayment (fun _ => true)
        (claimAllEligibleDeferredPayments blockNonce userId nBlocksBeforeClaim store).2 +
        eligibleDeferredPayment blockNonce userId nBlocksBeforeClaim store =
      querySumFundsByUserType userId .deferredPayment (fun _ => true) store ∧
    eligibleDeferredPayment blockNonce userId nBlocksBeforeClaim
        (claimAllEligibleDeferredPayments blockNonce userId nBlocksBeforeClaim store).2 = 0 ∧
    claimAllEligibleDeferredPayments blockNonce userId nBlocksBeforeClaim
        (claimAllEligibleDeferredPayments blockNonce userId nBlocksBeforeClaim store).2 =
      (.ok 0, (claimAllEligibleDeferredPayments blockNonce userId nBlocksBeforeClaim store).2) := by
  set mapper : FundDescription → Option FundDescription := fun fundDesc => match fundDesc with
    | .deferredPayment created =>
        if blockNonce > created + nBlocksBeforeClaim then some .withdrawOnly else none
    | _ => none with mapperDef
  set selects : Nat → FundDescription → Bool := fun owner held =>
    decide (owner = userId ∧ held.fundType = .deferredPayment) && (mapper held).isSome
    with selectsDef
  -- the claim's conversion, and the query over the same predicate
  have claimed : ∀ items, claimAllEligibleDeferredPayments blockNonce userId nBlocksBeforeClaim
      items = (.ok (splitConvertMaxByUser none userId .deferredPayment mapper items).1,
        (splitConvertMaxByUser none userId .deferredPayment mapper items).2.2) := fun _ => rfl
  have eligible : ∀ items, eligibleDeferredPayment blockNonce userId nBlocksBeforeClaim items =
      sumFunds selects items := fun items =>
    sumFunds_congr fun item _ => by
      rcases item.description with _ | _ | _ | created | _ <;>
        simp only [selectsDef, mapperDef, FundDescription.fundType]
      all_goals first | rfl |
        split_ifs with due <;> simp only [due, decide_True, decide_False] <;> rfl
  have toWithdrawOnly : ∀ held, (mapper held).isSome → mapper held = some .withdrawOnly := by
    rintro (_ | _ | _ | created | _) mapped <;> simp only [mapperDef] at mapped ⊢
    all_goals first | cases mapped | split_ifs at mapped ⊢ <;> first | rfl | cases mapped
  obtain ⟨pieces, fromUser, paid, taken, -, totals⟩ :=
    splitConvertMaxByUser_spec none userId .deferredPayment mapper store
  have selectedPieces : ∀ piece ∈ pieces, piece.userId = userId ∧
      piece.description.fundType = .deferredPayment ∧
      mapper piece.description = some .withdrawOnly := fun piece member =>
    ⟨(fromUser piece member).1, (fromUser piece member).2.1,
      toWithdrawOnly _ (fromUser piece member).2.2.1⟩
  -- the pieces the claim takes are the eligible payments, whole
  have piecesCounted : ∀ (counted : Nat → FundDescription → Bool) (accepted : Bool),
      (∀ piece ∈ pieces, counted piece.userId piece.description = accepted) →
      sumFunds counted pieces =
        if accepted then eligibleDeferredPayment blockNonce userId nBlocksBeforeClaim store
        else 0 := fun counted accepted agree => by
    rw [@sumFunds_congr counted (fun _ _ => accepted) pieces agree, sumFunds_const, taken,
      eligible]
    rfl
  -- no eligible payment of the user is left: the walk took them whole
  have cleared : ∀ item ∈ (splitConvertMaxByUser none userId .deferredPayment mapper store).2.2,
      selects item.userId item.description = false := by
    intro item member
    rcases List.mem_append.mp member with kept | deposited
    · exact withdrawMax_none_unselected _ store item kept
    · obtain ⟨piece, wasTaken, mapped⟩ := List.mem_filterMap.mp deposited
      obtain ⟨held, isMapped, rfl⟩ := Option.map_eq_some'.mp mapped
      have isMapped : mapper piece.description = some held := isMapped
      have atWithdrawOnly : held = .withdrawOnly := Option.some.inj
        (isMapped.symm.trans (toWithdrawOnly _ (by rw [isMapped]; rfl)))
      simp [selectsDef, atWithdrawOnly, FundDescription.fundType]
  refine ⟨?returned, ?credited, ?debited, ?drained, ?idempotent⟩
  case returned =>
    have all := piecesCounted (fun _ _ => true) true fun _ _ => rfl
    rw [claimed, paid, all, if_pos rfl]
  case credited =>
    have moved := totals fun owner held =>
      decide (owner = userId ∧ held.fundType = .withdrawOnly) && true
    rw [piecesCounted _ false fun piece member => by simp [(selectedPieces piece member).2.1],
      piecesCounted _ true fun piece member => by
        simp [selectedPieces piece member, FundDescription.fundType]] at moved
    simp only [if_true, Bool.false_eq_true, if_false, Nat.add_zero] at moved
    exact moved
  case debited =>
    have moved := totals fun owner held =>
      decide (owner = userId ∧ held.fundType = .deferredPayment) && true
    rw [piecesCounted _ true fun piece member => by simp [selectedPieces piece member],
      piecesCounted _ false fun piece member => by
        simp [selectedPieces piece member, FundDescription.fundType]] at moved
    simp only [if_true, Bool.false_eq_true, if_false, Nat.add_zero] at moved
    exact moved
  case drained =>
    rw [claimed, eligible]
    exact (sumFunds_congr fun item member => cleared item member).trans (sumFunds_const false _)
  case idempotent =>
    rw [claimed, claimed]
    generalize (splitConvertMaxByUser none userId .deferredPayment mapper store).2.2 = claimedStore
      at cleared ⊢
    simp only [splitConvertMaxByUser]
    rw [withdrawMax_of_unselected _ none cleared]
    simp [depositConverted]

/-- At block 10 with a delay of 3, the payment of block 2 is due and that of block 8 is not. -/
example : claimAllEligibleDeferredPayments 10 1 3
    [⟨1, .deferredPayment 2, 5⟩, ⟨1, .deferredPayment 8, 4⟩] =
      (.ok 5, [⟨1, .deferredPayment 8, 4⟩, ⟨1, .withdrawOnly, 5⟩]) := rfl

/-- A deferred payment created at block 1, with a delay of 2^64 - 1 blocks, is eligible and
claimed at block 1: the sum wraps to 0. -/
theorem deferred_payment_claimed_at_once :
    eligibleDeferredPayment 1 1 18446744073709551615 [⟨1, .deferredPayment 1, 10⟩] = 10 ∧
      claimAllEligibleDeferredPayments 1 1 18446744073709551615 [⟨1, .deferredPayment 1, 10⟩] =
        (.ok 10, [⟨1, .withdrawOnly, 10⟩]) :=
  ⟨by decide, rfl⟩

end Delegation.Funds
