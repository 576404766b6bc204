/-
Module: Delegation.Funds.Store
Layer: Model and proofs
Purpose: The fund store as a state machine. The transformations of `fund_transf_module.rs`
  are called in any order, in blocks whose nonce only grows, and one that fails is reverted
  with its transaction. Three results hold over whole runs. First, a reachable store has
  no empty bucket and no bucket dated after the current block. So, while the current block
  plus the delay fits in `u64`, the eligibility check of deferred payments compares without
  wrapping. Second, no one moves a user's funds but the user: over any run, a user's total
  grows by at most the user's deposits and shrinks by at most the user's withdrawals.
  Third, no stake is ever locked in the store. From every reachable state, while the block
  plus the delay leaves room for one more block, some run of transformations empties the
  store. That run takes in no new deposit and claims with the given delay, and it pays
  every user's funds out through `liquidate_free_stake`.
Trusted boundary: the fund module (`Delegation.Funds.FundModule`). Which transformation the
  contract calls, when, and with what arguments is left open: any call can come next.
Main exports: EachBucket, withdrawMax_eachBucket, withdrawMax_covered, Op, FundState, step,
  WellFormed, WellFormed.step, WellFormed.reach, eligibleDeferredPayment_of_wellFormed,
  reachable_store_dated, Op.deposited, Op.requested, depositedBy, requestedBy, heldBy_step,
  funds_move_only_by_owner, Op.Settles, Parked, Payable, WellFormed.withdrawable,
  reachable_funds_withdrawable
-/
import Delegation.Basic
import Delegation.Funds.Invariants

namespace Delegation.Funds

/-! ### What a walk leaves

A conversion is a walk followed by a deposit. Over a whole run the only thing that matters
of a store is which users and descriptions its buckets carry. A walk never invents one:
what it takes and what it keeps are pieces of buckets that were there. A walk whose bound
covers everything it selects leaves none of those buckets behind. -/

/-- Every bucket of the store is of a user and a description `holds` accepts. -/
def EachBucket (holds : Nat → FundDescription → Prop) (store : List FundItem) : Prop :=
  ∀ item ∈ store, holds item.userId item.description

section EachBucket

variable {holds kept : Nat → FundDescription → Prop} {store : List FundItem}

theorem EachBucket.mono (each : EachBucket holds store)
    (implies : ∀ userId description, holds userId description → kept userId description) :
    EachBucket kept store :=
  fun item member => implies _ _ (each item member)

theorem EachBucket.and (each : EachBucket holds store) (also : EachBucket kept store) :
    EachBucket (fun userId description => holds userId description ∧ kept userId description)
      store :=
  fun item member => ⟨each item member, also item member⟩

/-- Only an empty store has no bucket at all. -/
theorem EachBucket.eq_nil (each : EachBucket (fun _ _ => False) store) : store = [] :=
  List.eq_nil_iff_forall_not_mem.mpr fun item member => each item member

/-- In a store with no empty bucket, a total is zero only when it counts no bucket. -/
theorem EachBucket.of_sumFunds_eq_zero {selects : Nat → FundDescription → Bool}
    (pruned : Pruned store) (nothing : sumFunds selects store = 0) :
    EachBucket (fun userId description => selects userId description = false) store := by
  induction store with
  | nil => exact nofun
  | cons item rest inductionHypothesis =>
      obtain ⟨positive, restPruned⟩ := List.forall_mem_cons.mp pruned
      rw [sumFunds_cons] at nothing
      refine List.forall_mem_cons.mpr ⟨Bool.eq_false_iff.mpr fun selected => ?_,
        inductionHypothesis restPruned (by omega)⟩
      rw [if_pos selected] at nothing
      omega

end EachBucket

/-- A total that counts fewer buckets is smaller. -/
theorem sumFunds_le_of_imp {selects other : Nat → FundDescription → Bool} :
    ∀ {items : List FundItem}, (∀ item ∈ items, selects item.userId item.description = true →
      other item.userId item.description = true) → sumFunds selects items ≤ sumFunds other items
  | [], _ => Nat.le_refl 0
  | item :: rest, implies => by
      have restLe := sumFunds_le_of_imp fun piece member =>
        implies piece (List.mem_cons_of_mem _ member)
      simp only [sumFunds_cons]
      by_cases selected : selects item.userId item.description = true
      · rw [if_pos selected, if_pos (implies item (List.mem_cons_self _ _) selected)]
        omega
      · rw [if_neg selected]
        split <;> omega

/-- A user's funds under two descriptions together are at most all the user holds. -/
theorem amountOf_add_amountOf_le {first second : FundDescription} (distinct : first ≠ second)
    (store : List FundItem) (userId : Nat) :
    amountOf store userId first + amountOf store userId second ≤ heldBy store userId := by
  induction store with
  | nil => exact Nat.le_refl 0
  | cons item rest inductionHypothesis =>
      unfold amountOf heldBy at *
      simp only [sumFunds_cons, decide_eq_true_eq]
      by_cases own : item.userId = userId
      · by_cases isFirst : item.description = first
        · have notSecond : item.description ≠ second := isFirst ▸ distinct
          simp only [own, isFirst, distinct, notSecond, and_self, and_false, if_true, if_false]
          omega
        · simp only [own, isFirst, true_and, and_false, if_true, if_false]
          split <;> omega
      · simp only [own, false_and, if_false]
        omega

section Walk

variable {holds : Nat → FundDescription → Prop} (selects : Nat → FundDescription → Bool)

/-- The pieces a walk takes and the buckets it keeps are of the users and descriptions of
the store. -/
theorem withdrawMax_eachBucket (maxAmount : Option Nat) {store : List FundItem}
    (each : EachBucket holds store) :
    EachBucket holds (withdrawMax selects maxAmount store).1 ∧
      EachBucket holds (withdrawMax selects maxAmount store).2.2 := by
  induction store generalizing maxAmount with
  | nil => exact ⟨nofun, nofun⟩
  | cons item rest inductionHypothesis =>
      obtain ⟨head, tail⟩ := List.forall_mem_cons.mp each
      have walked := fun maxAmount => inductionHypothesis maxAmount tail
      simp only [withdrawMax]
      split
      · have rest := walked (maxAmount.map (· - capped maxAmount item.balance))
        dsimp only
        constructor <;> split_ifs
        · exact rest.1
        · exact List.forall_mem_cons.mpr ⟨head, rest.1⟩
        · exact rest.2
        · exact List.forall_mem_cons.mpr ⟨head, rest.2⟩
      · exact ⟨(walked maxAmount).1, List.forall_mem_cons.mpr ⟨head, (walked maxAmount).2⟩⟩

/-- A walk whose bound covers all the selected buckets hold takes each of them whole, so it
keeps none of them. With no bound it always covers them. -/
theorem withdrawMax_covered (maxAmount : Option Nat) {store : List FundItem}
    (covered : capped maxAmount (sumFunds selects store) = sumFunds selects store) :
    EachBucket (fun userId description => selects userId description = false)
      (withdrawMax selects maxAmount store).2.2 := by
  induction store generalizing maxAmount with
  | nil => exact nofun
  | cons item rest inductionHypothesis =>
      simp only [withdrawMax]
      split
      · rename_i selected
        rw [sumFunds_cons, if_pos selected] at covered
        have whole : capped maxAmount item.balance = item.balance := by
          cases maxAmount <;> simp only [capped] at covered ⊢
          omega
        have restCovered : capped (maxAmount.map (· - capped maxAmount item.balance))
            (sumFunds selects rest) = sumFunds selects rest := by
          rw [whole]
          cases maxAmount <;> simp only [capped, Option.map_some', Option.map_none'] at covered ⊢
          omega
        dsimp only
        rw [if_pos whole.symm]
        exact inductionHypothesis _ restCovered
      · rename_i skipped
        rw [sumFunds_cons, if_neg skipped, Nat.zero_add] at covered
        exact List.forall_mem_cons.mpr
          ⟨Bool.eq_false_iff.mpr skipped, inductionHypothesis maxAmount covered⟩

/-- What a conversion leaves: the buckets the walk kept, whole or in part, which are
unselected when its bound covers the selection, and the pieces it took, each under the
description the mapper gives it. -/
theorem EachBucket.converted {kept : Nat → FundDescription → Prop}
    {mapper : Nat → FundDescription → Option FundDescription} {maxAmount : Option Nat}
    {store : List FundItem} (each : EachBucket holds store)
    (stays : ∀ userId description, holds userId description →
      (capped maxAmount (sumFunds selects store) = sumFunds selects store →
        selects userId description = false) → kept userId description)
    (mapped : ∀ userId description target, holds userId description →
      selects userId description = true → mapper userId description = some target →
        kept userId target) :
    EachBucket kept (depositConverted mapper (withdrawMax selects maxAmount store).1
      (withdrawMax selects maxAmount store).2.2) := by
  have walked := withdrawMax_eachBucket selects maxAmount each
  intro item member
  rcases List.mem_append.mp member with remaining | deposited
  · exact stays _ _ (walked.2 item remaining)
      fun covered => withdrawMax_covered selects maxAmount covered item remaining
  · obtain ⟨piece, taken, isMapped⟩ := List.mem_filterMap.mp deposited
    obtain ⟨target, toTarget, rfl⟩ := Option.map_eq_some'.mp isMapped
    exact mapped _ _ target (walked.1 piece taken)
      (withdrawMax_selected selects maxAmount store piece taken) toTarget

end Walk

section Conversions

variable {holds : Nat → FundDescription → Prop} {store : List FundItem}

/-- A conversion keeps what holds of every bucket when it holds of every description the
mapper gives. -/
theorem EachBucket.splitConvertMaxByType {mapper : Nat → FundDescription → Option FundDescription}
    (each : EachBucket holds store)
    (mapped : ∀ userId description target, holds userId description →
      mapper userId description = some target → holds userId target)
    (maxAmount : Option Nat) (sourceType : FundType) :
    EachBucket holds (splitConvertMaxByType maxAmount sourceType mapper store).2.2 :=
  EachBucket.converted _ each (fun _ _ kept _ => kept)
    fun userId description target kept _ => mapped userId description target kept

theorem EachBucket.splitConvertMaxByUser {mapper : FundDescription → Option FundDescription}
    (each : EachBucket holds store)
    (mapped : ∀ userId description target, holds userId description →
      mapper description = some target → holds userId target)
    (maxAmount : Option Nat) (userId : Nat) (sourceType : FundType) :
    EachBucket holds (splitConvertMaxByUser maxAmount userId sourceType mapper store).2.2 :=
  EachBucket.converted _ each (fun _ _ kept _ => kept)
    fun owner description target kept _ => mapped owner description target kept

theorem EachBucket.destroyMaxForUser (each : EachBucket holds store) (amount userId : Nat)
    (fundType : FundType) : EachBucket holds (destroyMaxForUser amount userId fundType store).2 :=
  (withdrawMax_eachBucket _ (some amount) each).2

theorem EachBucket.liquidateFreeStake (each : EachBucket holds store) (userId amount : Nat) :
    EachBucket holds (liquidateFreeStake userId amount store).2 := by
  have first := each.destroyMaxForUser amount userId .withdrawOnly
  simp only [Funds.liquidateFreeStake]
  split
  · exact first.destroyMaxForUser _ _ _
  · exact first

/-- A conversion by type whose bound covers all the store holds leaves none of the buckets
it selects: only buckets it did not select and the pieces it deposited. -/
theorem EachBucket.splitConvertMaxByType_covered {kept : Nat → FundDescription → Prop}
    {mapper : Nat → FundDescription → Option FundDescription} {sourceType : FundType}
    (each : EachBucket holds store) {amount : Nat} (covers : sumFunds (fun _ _ => true) store ≤ amount)
    (stays : ∀ userId description, holds userId description →
      (decide (description.fundType = sourceType) && (mapper userId description).isSome) = false →
        kept userId description)
    (mapped : ∀ userId description target, holds userId description →
      mapper userId description = some target → kept userId target) :
    EachBucket kept (Funds.splitConvertMaxByType (some amount) sourceType mapper store).2.2 :=
  EachBucket.converted _ each
    (fun userId description held unselected => stays userId description held
      (unselected (Nat.min_eq_right ((sumFunds_le_of_imp fun _ _ _ => rfl).trans covers))))
    fun userId description target held _ => mapped userId description target held

/-- A conversion of one user's buckets with no bound leaves none of the buckets it
selects. -/
theorem EachBucket.splitConvertMaxByUser_none {kept : Nat → FundDescription → Prop}
    {mapper : FundDescription → Option FundDescription} {userId : Nat} {sourceType : FundType}
    (each : EachBucket holds store)
    (stays : ∀ owner description, holds owner description →
      (decide (owner = userId ∧ description.fundType = sourceType) &&
        (mapper description).isSome) = false → kept owner description)
    (mapped : ∀ description target, holds userId description →
      description.fundType = sourceType → mapper description = some target →
        kept userId target) :
    EachBucket kept (Funds.splitConvertMaxByUser none userId sourceType mapper store).2.2 :=
  @EachBucket.converted holds (fun owner description =>
      decide (owner = userId ∧ description.fundType = sourceType) && (mapper description).isSome)
    kept (fun _ => mapper) none store each
    (fun owner description held unselected => stays owner description held (unselected rfl))
    fun owner description target held selected toTarget => by
      simp only [Bool.and_eq_true, decide_eq_true_eq] at selected
      obtain ⟨⟨rfl, sourced⟩, _⟩ := selected
      exact mapped description target held sourced toTarget

end Conversions

/-! ### The store in its environment -/

/-- A call of one of the transformations, as the contract's endpoints make it, or a new
block. -/
inductive Op where
  | createWaiting (userId balance : Nat)
  | liquidateFreeStake (userId amount : Nat)
  | unstakeTransf (unstakeUserId amount : Nat)
  | swapWaitingToActive (amount : Nat)
  | swapActiveToUnstaked (amount : Nat)
  | swapUnstakedToDeferredPayment (amount : Nat)
  | claimAllEligibleDeferredPayments (userId : Nat) (nBlocksBeforeClaim : UInt64)
  | newBlock (blockNonce : UInt64)
deriving DecidableEq, Repr

/-- The fund store with the block the transformations run in (`get_block_nonce`). -/
structure FundState where
  blockNonce : UInt64
  store : List FundItem
deriving DecidableEq, Repr

/-- An empty store. -/
def FundState.initial (blockNonce : UInt64) : FundState :=
  { blockNonce, store := [] }

/-- The state after a transformation that returns an `SCResult`: its store when it succeeds.
When it fails, its transaction is reverted and the state stays as it was. -/
def FundState.commit {α : Type} (s : FundState) : Except String α × List FundItem → FundState
  | (.ok _, store) => { s with store }
  | (.error _, _) => s

theorem FundState.commit_cases {α : Type} (s : FundState)
    (result : Except String α × List FundItem) :
    s.commit result = s ∨ s.commit result = { s with store := result.2 } := by
  obtain ⟨_ | _, _⟩ := result
  · exact .inl rfl
  · exact .inr rfl

/-- One operation on the store. A new block has a larger nonce than the current one. -/
def step (s : FundState) : Op → FundState
  | .createWaiting userId balance => { s with store := createWaiting userId balance s.store }
  | .liquidateFreeStake userId amount =>
      { s with store := (liquidateFreeStake userId amount s.store).2 }
  | .unstakeTransf unstakeUserId amount =>
      s.commit (unstakeTransf s.blockNonce unstakeUserId amount s.store)
  | .swapWaitingToActive amount => { s with store := (swapWaitingToActive amount s.store).2 }
  | .swapActiveToUnstaked amount =>
      { s with store := (swapActiveToUnstaked s.blockNonce amount s.store).2 }
  | .swapUnstakedToDeferredPayment amount =>
      { s with store := (swapUnstakedToDeferredPayment amount s.store).2 }
  | .claimAllEligibleDeferredPayments userId nBlocksBeforeClaim =>
      s.commit (claimAllEligibleDeferredPayments s.blockNonce userId nBlocksBeforeClaim s.store)
  | .newBlock blockNonce => if s.blockNonce < blockNonce then { s with blockNonce } else s

/-! ### The store over a run -/

/-- A description carries no block after `blockNonce`. -/
def FundDescription.DatedBy (blockNonce : UInt64) : FundDescription → Prop
  | .unStaked created | .deferredPayment created => created ≤ blockNonce
  | _ => True

/-- The invariant of the store: no bucket is empty, and none is dated after the current
block. -/
structure WellFormed (s : FundState) : Prop where
  pruned : Pruned s.store
  dated : EachBucket (fun _ description => description.DatedBy s.blockNonce) s.store

namespace WellFormed

variable {s : FundState}

theorem initial (blockNonce : UInt64) : WellFormed (FundState.initial blockNonce) :=
  ⟨nofun, nofun⟩

/-- Each transformation keeps the invariant: a conversion deposits under a description that
was there or that carries the current block, and a new block only moves later. -/
theorem step (wf : WellFormed s) (op : Op) : WellFormed (Funds.step s op) := by
  obtain ⟨pruned, dated⟩ := wf
  have current : (FundDescription.unStaked s.blockNonce).DatedBy s.blockNonce := Nat.le_refl _
  cases op with
  | createWaiting userId balance =>
      refine ⟨pruned.createFund _ _ _, fun item member => ?_⟩
      change item ∈ createFund userId .waiting balance s.store at member
      unfold createFund at member
      split_ifs at member
      · exact dated item member
      · rcases List.mem_append.mp member with kept | added
        · exact dated item kept
        · obtain rfl := List.mem_singleton.mp added
          trivial
  | liquidateFreeStake userId amount =>
      exact ⟨(transformations_keep_pruned pruned 0 userId amount 0).2.1,
        dated.liquidateFreeStake userId amount⟩
  | unstakeTransf unstakeUserId amount =>
      show WellFormed (s.commit _)
      rcases FundState.commit_cases s (unstakeTransf s.blockNonce unstakeUserId amount s.store)
        with same | changed
      · rw [same]
        exact ⟨pruned, dated⟩
      · rw [changed, unstakeTransf_snd]
        exact ⟨pruned.splitConvertMaxByUser _ _ _ _, dated.splitConvertMaxByUser
          (fun _ _ _ _ toTarget => by cases toTarget; exact current) _ _ _⟩
  | swapWaitingToActive amount =>
      exact ⟨pruned.splitConvertMaxByType _ _ _, dated.splitConvertMaxByType
        (fun _ _ _ _ toTarget => by cases toTarget; trivial) _ _⟩
  | swapActiveToUnstaked amount =>
      exact ⟨pruned.splitConvertMaxByType _ _ _, dated.splitConvertMaxByType
        (fun _ _ _ _ toTarget => by cases toTarget; exact current) _ _⟩
  | swapUnstakedToDeferredPayment amount =>
      refine ⟨pruned.splitConvertMaxByType _ _ _, dated.splitConvertMaxByType
        (fun _ description _ kept toTarget => ?_) _ _⟩
      cases description <;> cases toTarget
      exact kept
  | claimAllEligibleDeferredPayments userId nBlocksBeforeClaim =>
      show WellFormed (s.commit
        (claimAllEligibleDeferredPayments s.blockNonce userId nBlocksBeforeClaim s.store))
      rcases FundState.commit_cases s
          (claimAllEligibleDeferredPayments s.blockNonce userId nBlocksBeforeClaim s.store)
        with same | changed
      · rw [same]
        exact ⟨pruned, dated⟩
      · rw [changed]
        refine ⟨pruned.splitConvertMaxByUser _ _ _ _,
          dated.splitConvertMaxByUser (fun _ description _ _ toTarget => ?_) _ _ _⟩
        cases description <;> simp only [reduceCtorEq] at toTarget
        split_ifs at toTarget
        cases toTarget
        trivial
  | newBlock blockNonce =>
      simp only [Funds.step]
      split_ifs with later
      · refine ⟨pruned, dated.mono fun _ description datedBy => ?_⟩
        cases description <;>
          first | trivial | exact Nat.le_of_lt (Nat.lt_of_le_of_lt datedBy later)
      · exact ⟨pruned, dated⟩

/-- The invariant holds along every run from a state where it holds. -/
theorem reach {start : FundState} {admissible : FundState → Op → Prop} (wf : WellFormed start)
    (reached : Reach start Funds.step admissible s) : WellFormed s := by
  induction reached with
  | init => exact wf
  | step op _ _ inductionHypothesis => exact inductionHypothesis.step op

end WellFormed

/-- The states a run reaches from an empty store. -/
def Reachable (start : UInt64) : FundState → Prop :=
  Reach (FundState.initial start) step fun _ _ => True

/-- In a well-formed state, while the current block plus the delay fits in `u64`, the
deferred payments `eligible_deferred_payment` counts are those created more than the delay
before the current block, in unbounded integers: no creation block plus the delay wraps. -/
theorem eligibleDeferredPayment_of_wellFormed {s : FundState} (wf : WellFormed s) (userId : Nat)
    (nBlocksBeforeClaim : UInt64)
    (fits : s.blockNonce.toNat + nBlocksBeforeClaim.toNat < UInt64.size) :
    eligibleDeferredPayment s.blockNonce userId nBlocksBeforeClaim s.store =
      sumFunds (fun owner description => match description with
        | .deferredPayment created => decide (owner = userId ∧
            created.toNat + nBlocksBeforeClaim.toNat < s.blockNonce.toNat)
        | _ => false) s.store := by
  rw [eligibleDeferredPayment_eq_sumFunds]
  refine sumFunds_congr fun item member => ?_
  have dated := wf.dated item member
  revert dated
  cases item.description with
  | deferredPayment created =>
      intro dated
      have before : created.toNat ≤ s.blockNonce.toNat := dated
      dsimp only
      rw [Nat.mod_eq_of_lt (show created.toNat + nBlocksBeforeClaim.toNat < UInt64.size by omega)]
  | _ => exact fun _ => rfl

/-- Every state a run reaches from an empty store has no empty bucket and no bucket dated
after its block. So in every block where the block plus the delay fits in `u64`, the
eligibility check of a claim counts exactly the user's deferred payments created more than
the delay before the block. -/
theorem reachable_store_dated {start : UInt64} {s : FundState} (reached : Reachable start s) :
    WellFormed s ∧ ∀ userId nBlocksBeforeClaim,
      s.blockNonce.toNat + nBlocksBeforeClaim.toNat < UInt64.size →
      eligibleDeferredPayment s.blockNonce userId nBlocksBeforeClaim s.store =
        sumFunds (fun owner description => match description with
          | .deferredPayment created => decide (owner = userId ∧
              created.toNat + nBlocksBeforeClaim.toNat < s.blockNonce.toNat)
          | _ => false) s.store :=
  have wf := (WellFormed.initial start).reach reached
  ⟨wf, eligibleDeferredPayment_of_wellFormed wf⟩

/-- Deposits of 10 by user 1 and 4 by user 2, 8 of them activated; then, in block 5, user 1
unstakes 3 of its active stake, 2 more are unstaked, and 4 of the unstaked stake are
deferred. -/
def storeRun : List Op :=
  [.createWaiting 1 10, .createWaiting 2 4, .swapWaitingToActive 8, .newBlock 5,
    .unstakeTransf 1 3, .swapActiveToUnstaked 2, .swapUnstakedToDeferredPayment 4]

theorem storeRun_dated : WellFormed (run step (FundState.initial 0) storeRun) :=
  (reachable_store_dated (reach_run storeRun .init)).1

/-! ### Each user's funds over a run -/

/-- What an operation deposits for `owner`. -/
def Op.deposited (owner : Nat) : Op → Nat
  | .createWaiting userId balance => if owner = userId then balance else 0
  | _ => 0

/-- What an operation asks to withdraw of `owner`'s funds. -/
def Op.requested (owner : Nat) : Op → Nat
  | .liquidateFreeStake userId amount => if owner = userId then amount else 0
  | _ => 0

/-- What a run deposits for `owner`. -/
def depositedBy (owner : Nat) : List Op → Nat
  | [] => 0
  | op :: rest => op.deposited owner + depositedBy owner rest

/-- What a run asks to withdraw of `owner`'s funds. -/
def requestedBy (owner : Nat) : List Op → Nat
  | [] => 0
  | op :: rest => op.requested owner + requestedBy owner rest

/-- A transformation whose store keeps an owner's total keeps it also when it fails and is
reverted. -/
theorem heldBy_commit {α : Type} (s : FundState) {result : Except String α × List FundItem}
    {owner : Nat} (kept : heldBy result.2 owner = heldBy s.store owner) :
    heldBy (s.commit result).store owner = heldBy s.store owner := by
  rcases s.commit_cases result with same | stored
  · rw [same]
  · rw [stored]; exact kept

/-- One operation moves an owner's total only by what it deposits for the owner, and down by
at most what it asks to withdraw of it. -/
theorem heldBy_step (s : FundState) (op : Op) (owner : Nat) :
    heldBy (step s op).store owner ≤ heldBy s.store owner + op.deposited owner ∧
      heldBy s.store owner + op.deposited owner ≤
        heldBy (step s op).store owner + op.requested owner := by
  have kept : heldBy (step s op).store owner = heldBy s.store owner →
      op.deposited owner = 0 → op.requested owner = 0 →
      heldBy (step s op).store owner ≤ heldBy s.store owner + op.deposited owner ∧
        heldBy s.store owner + op.deposited owner ≤
          heldBy (step s op).store owner + op.requested owner := by
    intro same noDeposit noRequest
    omega
  cases op with
  | createWaiting userId balance =>
      have deposited := heldBy_createFund userId .waiting balance s.store owner
      simp only [Funds.step, createWaiting, Op.deposited, Op.requested, deposited]
      omega
  | liquidateFreeStake userId amount =>
      obtain ⟨returned, paid⟩ := heldBy_liquidateFreeStake userId amount s.store owner
      simp only [Funds.step, Op.deposited, Op.requested]
      split_ifs at paid ⊢ <;> omega
  | unstakeTransf unstakeUserId amount =>
      exact kept (heldBy_commit s (by rw [unstakeTransf_snd]; exact heldBy_splitConvertMaxByUser ..))
        rfl rfl
  | swapWaitingToActive amount => exact kept (heldBy_splitConvertMaxByType ..) rfl rfl
  | swapActiveToUnstaked amount => exact kept (heldBy_splitConvertMaxByType ..) rfl rfl
  | swapUnstakedToDeferredPayment amount => exact kept (heldBy_splitConvertMaxByType ..) rfl rfl
  | claimAllEligibleDeferredPayments userId nBlocksBeforeClaim =>
      exact kept (heldBy_commit s (heldBy_splitConvertMaxByUser ..)) rfl rfl
  | newBlock blockNonce =>
      refine kept ?_ rfl rfl
      simp only [Funds.step]
      split_ifs <;> rfl

/-- No one moves a user's funds but the user. Over every run of the store, from any state
and in any order of operations, an owner's total grows by at most what the run deposits for
the owner, and shrinks by at most what the run asks to withdraw of it. Swaps, unstaking,
claims, new blocks, reverted operations, and every other user's deposits and withdrawals
leave it as it is. -/
theorem funds_move_only_by_owner (s : FundState) (ops : List Op) (owner : Nat) :
    heldBy (run step s ops).store owner ≤ heldBy s.store owner + depositedBy owner ops ∧
      heldBy s.store owner + depositedBy owner ops ≤
        heldBy (run step s ops).store owner + requestedBy owner ops := by
  induction ops generalizing s with
  | nil => simp [run, depositedBy, requestedBy]
  | cons op rest inductionHypothesis =>
      have first := heldBy_step s op owner
      have later := inductionHypothesis (step s op)
      simp only [run, List.foldl_cons, depositedBy, requestedBy] at later ⊢
      omega

/-! ### No stake is locked

From a well-formed state a run empties the store in three phases and one round per user.
First all active stake is unstaked in the current block, and then all unstaked stake
becomes deferred payments of its own block. Next a new block comes, later than every
payment's creation block plus the delay. Last, each user claims its payments and liquidates
everything it holds. Each phase is one lemma about what kinds of buckets it leaves. -/

/-- A step of a run that pays out: it takes in no new deposit, and it claims with the delay
`nBlocksBeforeClaim`. -/
def Op.Settles (nBlocksBeforeClaim : UInt64) : Op → Prop
  | .createWaiting _ _ => False
  | .claimAllEligibleDeferredPayments _ delay => delay = nBlocksBeforeClaim
  | _ => True

/-- Stake that waits only for a claim: free, or a deferred payment created no later than
`blockNonce`. -/
def FundDescription.Parked (blockNonce : UInt64) : FundDescription → Prop
  | .waiting | .withdrawOnly => True
  | .deferredPayment created => created ≤ blockNonce
  | _ => False

/-- Stake a user can take out in block `blockNonce`: free, or a deferred payment that a
claim with the delay `nBlocksBeforeClaim` converts. -/
def FundDescription.Payable (blockNonce nBlocksBeforeClaim : UInt64) : FundDescription → Prop
  | .waiting | .withdrawOnly => True
  | .deferredPayment created => blockNonce > created + nBlocksBeforeClaim
  | _ => False

/-- A payment created by block `blockNonce` is due at the block after `blockNonce` plus the
delay, when that block exists. -/
theorem FundDescription.Parked.payable {blockNonce nBlocksBeforeClaim : UInt64}
    {description : FundDescription} (parked : description.Parked blockNonce)
    (fits : blockNonce.toNat + nBlocksBeforeClaim.toNat + 1 < UInt64.size) :
    description.Payable (blockNonce + nBlocksBeforeClaim + 1) nBlocksBeforeClaim := by
  cases description with
  | deferredPayment created =>
      have before : created.toNat ≤ blockNonce.toNat := parked
      show (created + nBlocksBeforeClaim).toNat < (blockNonce + nBlocksBeforeClaim + 1).toNat
      rw [toNat_add_of_lt (by omega), toNat_add_of_lt (by rw [toNat_add_of_lt (by omega)]; exact fits),
        toNat_add_of_lt (by omega)]
      exact Nat.lt_succ_of_le (Nat.add_le_add_right before _)
  | _ => exact parked

theorem swapActiveToUnstaked_snd (blockNonce : UInt64) (amount : Nat) (store : List FundItem) :
    (swapActiveToUnstaked blockNonce amount store).2 = (splitConvertMaxByType (some amount)
      .active (fun _ _ => some (.unStaked blockNonce)) store).2.2 := rfl

theorem swapUnstakedToDeferredPayment_snd (amount : Nat) (store : List FundItem) :
    (swapUnstakedToDeferredPayment amount store).2 =
      (splitConvertMaxByType (some amount) .unStaked
        (fun _ fundInfo => match fundInfo with
          | .unStaked created => some (.deferredPayment created)
          | _ => none) store).2.2 := rfl

theorem claimAllEligibleDeferredPayments_snd (blockNonce : UInt64) (userId : Nat)
    (nBlocksBeforeClaim : UInt64) (store : List FundItem) :
    (claimAllEligibleDeferredPayments blockNonce userId nBlocksBeforeClaim store).2 =
      (splitConvertMaxByUser none userId .deferredPayment
        (fun fundDesc => match fundDesc with
          | .deferredPayment created =>
              if blockNonce > created + nBlocksBeforeClaim then some .withdrawOnly else none
          | _ => none) store).2.2 := rfl

section Phases

variable {holds : Nat → FundDescription → Prop} {store : List FundItem}
  {blockNonce nBlocksBeforeClaim : UInt64}

/-- Unstaking as much active stake as the whole store holds leaves no active bucket. -/
theorem EachBucket.swapActiveToUnstaked_all
    (dated : EachBucket (fun _ description => description.DatedBy blockNonce) store) :
    EachBucket (fun _ description => description ≠ .active ∧ description.DatedBy blockNonce)
      (swapActiveToUnstaked blockNonce (sumFunds (fun _ _ => true) store) store).2 := by
  rw [swapActiveToUnstaked_snd]
  refine dated.splitConvertMaxByType_covered (Nat.le_refl _) ?_ ?_
  · rintro _ description datedBy unselected
    refine ⟨?_, datedBy⟩
    rintro rfl
    cases unselected
  · rintro _ _ _ _ ⟨⟩
    exact ⟨nofun, Nat.le_refl _⟩

/-- Then deferring as much unstaked stake as the whole store holds leaves only free stake
and payments created by the current block. -/
theorem EachBucket.swapUnstakedToDeferredPayment_all
    (each : EachBucket (fun _ description => description ≠ .active ∧
      description.DatedBy blockNonce) store) :
    EachBucket (fun _ description => description.Parked blockNonce)
      (swapUnstakedToDeferredPayment (sumFunds (fun _ _ => true) store) store).2 := by
  rw [swapUnstakedToDeferredPayment_snd]
  refine each.splitConvertMaxByType_covered (Nat.le_refl _) ?_ ?_
  · intro _ description kept unselected
    cases description with
    | active => exact absurd rfl kept.1
    | unStaked created => cases unselected
    | _ => exact kept.2
  · intro _ description _ kept toTarget
    cases description <;> cases toTarget
    exact kept.2

/-- A claim in a block where every payment is due converts all the user's payments: the
user is left with free stake only. -/
theorem EachBucket.claimAllEligibleDeferredPayments_clears {userId : Nat}
    (each : EachBucket (fun owner description => holds owner description ∧
      description.Payable blockNonce nBlocksBeforeClaim) store)
    (credited : holds userId .withdrawOnly) :
    EachBucket (fun owner description => (holds owner description ∧
        description.Payable blockNonce nBlocksBeforeClaim) ∧
        (owner = userId → description = .waiting ∨ description = .withdrawOnly))
      (claimAllEligibleDeferredPayments blockNonce userId nBlocksBeforeClaim store).2 := by
  rw [claimAllEligibleDeferredPayments_snd]
  refine each.splitConvertMaxByUser_none ?_ ?_
  · intro owner description kept unselected
    refine ⟨kept, ?_⟩
    rintro rfl
    revert kept unselected
    cases description with
    | waiting => exact fun _ _ => .inl rfl
    | withdrawOnly => exact fun _ _ => .inr rfl
    | deferredPayment created =>
        intro kept unselected
        have due : blockNonce > created + nBlocksBeforeClaim := kept.2
        simp [FundDescription.fundType, due] at unselected
    | _ => exact fun kept => kept.2.elim
  · intro description target _ _ toTarget
    cases description <;> simp only [reduceCtorEq] at toTarget
    split_ifs at toTarget
    cases toTarget
    exact ⟨⟨credited, trivial⟩, fun _ => .inr rfl⟩

/-- Destroying at least all a user holds under a description that is alone in its phase
leaves none of it. -/
theorem EachBucket.destroyMaxForUser_covered (each : EachBucket holds store)
    (fundType : FundType) {description : FundDescription}
    (single : fundType.soleDescription = some description) (amount userId : Nat)
    (covered : amountOf store userId description ≤ amount) :
    EachBucket (fun owner held => holds owner held ∧ ¬(owner = userId ∧ held = description))
      (Funds.destroyMaxForUser amount userId fundType store).2 := by
  have sole := fun other => @FundDescription.fundType_eq_iff other _ _ single
  have selected : sumFunds (fun owner held => decide (owner = userId ∧ held.fundType = fundType))
      store = amountOf store userId description :=
    sumFunds_congr fun item _ => by simp only [sole]
  have walked := withdrawMax_covered (fun owner held =>
    decide (owner = userId ∧ held.fundType = fundType)) (some amount)
    (show capped (some amount) _ = _ by rw [selected]; exact Nat.min_eq_right covered)
  refine ((withdrawMax_eachBucket _ (some amount) each).2.and walked).mono ?_
  rintro owner held ⟨kept, unselected⟩
  exact ⟨kept, fun ⟨own, isDescription⟩ => by simp [own, isDescription, sole] at unselected⟩

/-- Liquidating all a user holds, when that is all free stake, leaves the user no bucket:
the withdraw-only funds go first and the Waiting funds cover the rest. -/
theorem EachBucket.liquidateFreeStake_clears {userId : Nat} (pruned : Pruned store)
    (each : EachBucket (fun owner held => holds owner held ∧
      (owner = userId → held = .waiting ∨ held = .withdrawOnly)) store) :
    EachBucket (fun owner held => holds owner held ∧ owner ≠ userId)
      (Funds.liquidateFreeStake userId (heldBy store userId) store).2 := by
  have free := amountOf_add_amountOf_le (nofun : FundDescription.withdrawOnly ≠ .waiting)
    store userId
  obtain ⟨rest, drained⟩ := destroyMaxForUser_spec .withdrawOnly rfl
    (heldBy store userId) userId store
  have waitingKept := drained userId .waiting
  simp only [and_false, if_false, reduceCtorEq, Nat.add_zero] at waitingKept
  have unfolded : Funds.liquidateFreeStake userId (heldBy store userId) store =
      if (Funds.destroyMaxForUser (heldBy store userId) userId .withdrawOnly store).1 > 0 then
        Funds.destroyMaxForUser (Funds.destroyMaxForUser (heldBy store userId) userId .withdrawOnly store).1
          userId .waiting (Funds.destroyMaxForUser (heldBy store userId) userId .withdrawOnly store).2
      else Funds.destroyMaxForUser (heldBy store userId) userId .withdrawOnly store := rfl
  have firstWalk := each.destroyMaxForUser_covered .withdrawOnly rfl
    (heldBy store userId) userId (by omega)
  have firstPruned := pruned.destroyMaxForUser (heldBy store userId) userId .withdrawOnly
  rw [unfolded]
  generalize Funds.destroyMaxForUser (heldBy store userId) userId .withdrawOnly store = first
    at rest waitingKept firstWalk firstPruned
  split_ifs with more
  · -- what the withdraw-only funds left of the amount covers the Waiting funds
    refine (firstWalk.destroyMaxForUser_covered .waiting rfl first.1
      userId (by rw [waitingKept, rest]; omega)).mono ?_
    rintro owner held ⟨⟨⟨kept, onlyFree⟩, notWithdrawOnly⟩, notWaiting⟩
    refine ⟨kept, fun own => ?_⟩
    rcases onlyFree own with rfl | rfl
    · exact notWaiting ⟨own, rfl⟩
    · exact notWithdrawOnly ⟨own, rfl⟩
  · -- the withdraw-only funds covered all: the user had no Waiting funds
    have noWaiting : amountOf first.2 userId .waiting = 0 := by
      rw [waitingKept]
      rw [rest] at more
      omega
    refine (firstWalk.and (EachBucket.of_sumFunds_eq_zero firstPruned noWaiting)).mono ?_
    rintro owner held ⟨⟨⟨kept, onlyFree⟩, notWithdrawOnly⟩, notWaiting⟩
    refine ⟨kept, fun own => ?_⟩
    rcases onlyFree own with rfl | rfl
    · simp [own] at notWaiting
    · exact notWithdrawOnly ⟨own, rfl⟩

end Phases

theorem step_claimAllEligibleDeferredPayments (s : FundState) (userId : Nat)
    (nBlocksBeforeClaim : UInt64) :
    step s (.claimAllEligibleDeferredPayments userId nBlocksBeforeClaim) =
      { s with store :=
          (claimAllEligibleDeferredPayments s.blockNonce userId nBlocksBeforeClaim s.store).2 } :=
  rfl

/-- In a block where every bucket of the store is payable, claiming and then liquidating all
a user holds, for each user of `users` in turn, empties the store when every bucket is of
one of them. -/
theorem settles_users (nBlocksBeforeClaim : UInt64) : ∀ (users : List Nat) {s : FundState},
    Pruned s.store → EachBucket (fun owner description => owner ∈ users ∧
      description.Payable s.blockNonce nBlocksBeforeClaim) s.store →
    CanReach step (fun _ op => op.Settles nBlocksBeforeClaim) s (fun t => t.store = [])
  | [], _, _, each => CanReach.refl (EachBucket.eq_nil (each.mono fun _ _ listed => nomatch listed.1))
  | userId :: users, s, pruned, each => by
      have claimed := each.claimAllEligibleDeferredPayments_clears (List.mem_cons_self _ _)
      refine CanReach.step (.claimAllEligibleDeferredPayments userId nBlocksBeforeClaim) rfl ?_
      refine CanReach.step (.liquidateFreeStake userId (heldBy (step s
        (.claimAllEligibleDeferredPayments userId nBlocksBeforeClaim)).store userId)) trivial ?_
      rw [step_claimAllEligibleDeferredPayments]
      have claimedPruned : Pruned (claimAllEligibleDeferredPayments s.blockNonce userId
          nBlocksBeforeClaim s.store).2 :=
        (transformations_keep_pruned pruned s.blockNonce userId 0 nBlocksBeforeClaim).2.2.2.2.2.2
      refine settles_users nBlocksBeforeClaim users
        (transformations_keep_pruned claimedPruned 0 userId _ 0).2.1 ?_
      refine (EachBucket.liquidateFreeStake_clears claimedPruned claimed).mono ?_
      rintro owner description ⟨⟨listed, payable⟩, other⟩
      exact ⟨(List.mem_cons.mp listed).resolve_left other, payable⟩

/-- From a well-formed state, while the block plus the delay leaves room for one more block,
a run with no new deposit that claims with that delay empties the store: all active stake is
unstaked and deferred, a block comes in which every payment is due, and each user claims its
payments and liquidates all it holds. -/
theorem WellFormed.withdrawable {s : FundState} (wf : WellFormed s) (nBlocksBeforeClaim : UInt64)
    (fits : s.blockNonce.toNat + nBlocksBeforeClaim.toNat + 1 < UInt64.size) :
    CanReach Funds.step (fun _ op => op.Settles nBlocksBeforeClaim) s (fun t => t.store = []) := by
  have unstaked := wf.dated.swapActiveToUnstaked_all
  have parked := unstaked.swapUnstakedToDeferredPayment_all
  have unstakedPruned := (transformations_keep_pruned wf.pruned s.blockNonce 0
    (sumFunds (fun _ _ => true) s.store) 0).2.2.2.2.1
  have parkedPruned := (transformations_keep_pruned unstakedPruned 0 0
    (sumFunds (fun _ _ => true) (swapActiveToUnstaked s.blockNonce
      (sumFunds (fun _ _ => true) s.store) s.store).2) 0).2.2.2.2.2.1
  have later : s.blockNonce < s.blockNonce + nBlocksBeforeClaim + 1 := by
    show s.blockNonce.toNat < (s.blockNonce + nBlocksBeforeClaim + 1).toNat
    rw [toNat_add_of_lt (by rw [toNat_add_of_lt (by omega)]; exact fits),
      toNat_add_of_lt (by omega)]
    exact Nat.lt_succ_of_le (Nat.le_add_right _ _)
  refine CanReach.step (.swapActiveToUnstaked (sumFunds (fun _ _ => true) s.store)) trivial ?_
  refine CanReach.step (.swapUnstakedToDeferredPayment (sumFunds (fun _ _ => true)
    (swapActiveToUnstaked s.blockNonce (sumFunds (fun _ _ => true) s.store) s.store).2))
    trivial ?_
  refine CanReach.step (.newBlock (s.blockNonce + nBlocksBeforeClaim + 1)) trivial ?_
  simp only [Funds.step, if_pos later]
  exact settles_users nBlocksBeforeClaim _ parkedPruned fun item member =>
    ⟨List.mem_map_of_mem _ member, (parked item member).payable fits⟩

/-- No stake is ever locked in the store. From every state a run reaches from an empty
store, while the block plus the delay leaves room for one more block, some run with no new
deposit, claiming with that delay, pays everything out and leaves the store empty. -/
theorem reachable_funds_withdrawable {start : UInt64} {s : FundState} (reached : Reachable start s)
    (nBlocksBeforeClaim : UInt64)
    (fits : s.blockNonce.toNat + nBlocksBeforeClaim.toNat + 1 < UInt64.size) :
    CanReach step (fun _ op => op.Settles nBlocksBeforeClaim) s (fun t => t.store = []) :=
  ((WellFormed.initial start).reach reached).withdrawable nBlocksBeforeClaim fits

/-- After `storeRun`, with a delay of 3 blocks, every fund can be paid out. -/
theorem storeRun_withdrawable :
    CanReach step (fun _ op => op.Settles 3) (run step (FundState.initial 0) storeRun)
      (fun t => t.store = []) :=
  reachable_funds_withdrawable (reach_run storeRun .init) 3 (by decide)

end Delegation.Funds
