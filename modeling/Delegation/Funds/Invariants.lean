/-
Module: Delegation.Funds.Invariants
Layer: Proofs
Purpose: Two invariants of the fund store under the transformations of
  `fund_transf_module.rs` (spec §2 "Fund bucket", §4.1). Every kind-to-kind transformation
  keeps each owner's total, and only a deposit or a withdrawal changes one: a withdrawal
  pays out of its user's total what it does not hand back of the amount. No transformation
  leaves an empty bucket behind.
Trusted boundary: the fund module (`Delegation.Funds.FundModule`), modelled from the
  specification.
Main exports: heldBy_converted, heldBy_createFund, transformations_keep_owner_totals,
  heldBy_destroyMaxForUser, heldBy_liquidateFreeStake, Pruned, transformations_keep_pruned
-/
import Delegation.Funds.FundTransfModule

namespace Delegation.Funds

/-!
The specification states both invariants of the ledger. The sum of an owner's buckets
over all kinds changes "only through explicit deposit/withdrawal, never through a
kind-to-kind transformation". Zero-amount buckets are pruned, so no bucket is empty.

Every transformation but `create_waiting` and `liquidate_free_stake` is one conversion
(`split_convert_max_by_type` or `split_convert_max_by_user`). A conversion deposits each
piece it takes for the piece's own owner, so each result below follows from the spec lemma
of the conversion it makes, not from its walk.
-/

/-! ### Owner totals -/

/-- A conversion that deposits every piece it takes, each for its own owner, keeps every
owner's total. -/
theorem heldBy_converted {store after pieces : List FundItem}
    {mapper : Nat → FundDescription → Option FundDescription}
    (mapped : ∀ piece ∈ pieces, (mapper piece.userId piece.description).isSome)
    (totals : ∀ counted : Nat → FundDescription → Bool,
      sumFunds counted after + sumFunds counted pieces =
        sumFunds counted store +
          sumFunds (fun owner description => (mapper owner description).any (counted owner))
            pieces)
    (userId : Nat) : heldBy after userId = heldBy store userId := by
  have deposited : sumFunds (fun owner description =>
      (mapper owner description).any fun _ => decide (owner = userId)) pieces =
        heldBy pieces userId :=
    sumFunds_congr fun piece member => by
      obtain ⟨description, isMapped⟩ := Option.isSome_iff_exists.mp (mapped piece member)
      simp [isMapped]
  have moved := totals fun owner _ => decide (owner = userId)
  unfold heldBy at deposited ⊢
  omega

theorem heldBy_splitConvertMaxByType (maxAmount : Option Nat) (sourceType : FundType)
    (mapper : Nat → FundDescription → Option FundDescription) (store : List FundItem)
    (userId : Nat) :
    heldBy (splitConvertMaxByType maxAmount sourceType mapper store).2.2 userId =
      heldBy store userId := by
  obtain ⟨pieces, fromSource, -, -, -, totals⟩ :=
    splitConvertMaxByType_spec maxAmount sourceType mapper store
  exact heldBy_converted (fun piece member => (fromSource piece member).2.1) totals userId

theorem heldBy_splitConvertMaxByUser (maxAmount : Option Nat) (owner : Nat)
    (sourceType : FundType) (mapper : FundDescription → Option FundDescription)
    (store : List FundItem) (userId : Nat) :
    heldBy (splitConvertMaxByUser maxAmount owner sourceType mapper store).2.2 userId =
      heldBy store userId := by
  obtain ⟨pieces, fromOwner, -, -, -, totals⟩ :=
    splitConvertMaxByUser_spec maxAmount owner sourceType mapper store
  exact @heldBy_converted _ _ _ (fun _ => mapper)
    (fun piece member => (fromOwner piece member).2.2.1) totals userId

/-- A deposit adds its amount to its owner's total. -/
theorem heldBy_createFund (owner : Nat) (description : FundDescription) (balance : Nat)
    (store : List FundItem) (userId : Nat) :
    heldBy (createFund owner description balance store) userId =
      heldBy store userId + if userId = owner then balance else 0 := by
  unfold createFund
  split_ifs with empty same same
  · simp [empty]
  · simp [empty]
  · simp [heldBy, same]
  · simp [heldBy, Ne.symm same]

/-- The store `unstake_transf` leaves is that of its conversion, whether it fails or not. -/
theorem unstakeTransf_snd (blockNonce : UInt64) (unstakeUserId amount : Nat)
    (store : List FundItem) :
    (unstakeTransf blockNonce unstakeUserId amount store).2 =
      (splitConvertMaxByUser (some amount) unstakeUserId .active
        (fun _ => some (.unStaked blockNonce)) store).2.2 := by
  simp only [unstakeTransf]
  split <;> rfl

/-- The kind-to-kind transformations keep every owner's total, whatever they are asked:
unstaking, the three swaps and the claim of deferred payments move stake between buckets of
one owner. A deposit of waiting stake adds exactly its amount to its owner's total. -/
theorem transformations_keep_owner_totals (blockNonce : UInt64) (userId amount : Nat)
    (nBlocksBeforeClaim : UInt64) (store : List FundItem) (owner : Nat) :
    heldBy (unstakeTransf blockNonce userId amount store).2 owner = heldBy store owner ∧
    heldBy (swapWaitingToActive amount store).2 owner = heldBy store owner ∧
    heldBy (swapActiveToUnstaked blockNonce amount store).2 owner = heldBy store owner ∧
    heldBy (swapUnstakedToDeferredPayment amount store).2 owner = heldBy store owner ∧
    heldBy (claimAllEligibleDeferredPayments blockNonce userId nBlocksBeforeClaim store).2
        owner = heldBy store owner ∧
    heldBy (createWaiting userId amount store) owner =
      heldBy store owner + if owner = userId then amount else 0 :=
  ⟨(unstakeTransf_snd ..).symm ▸ heldBy_splitConvertMaxByUser .., heldBy_splitConvertMaxByType ..,
    heldBy_splitConvertMaxByType .., heldBy_splitConvertMaxByType ..,
    heldBy_splitConvertMaxByUser .., heldBy_createFund ..⟩

/-- Pieces all taken from one user count in that user's total and in no other. -/
theorem heldBy_of_owned {items : List FundItem} {userId : Nat}
    (owned : ∀ item ∈ items, item.userId = userId) (owner : Nat) :
    heldBy items owner = if owner = userId then sumFunds (fun _ _ => true) items else 0 := by
  rw [heldBy, @sumFunds_congr _ (fun _ _ => decide (userId = owner)) _
    fun item member => by rw [owned item member], sumFunds_const]
  simp only [decide_eq_true_eq, @eq_comm _ userId owner]

/-- A withdrawal from one user's funds of one phase pays, out of that user's total, what it
does not hand back of the amount, and nothing out of anyone else's. It never hands back more
than it was asked. -/
theorem heldBy_destroyMaxForUser (amount userId : Nat) (fundType : FundType)
    (store : List FundItem) (owner : Nat) :
    (destroyMaxForUser amount userId fundType store).1 ≤ amount ∧
      heldBy (destroyMaxForUser amount userId fundType store).2 owner +
          (if owner = userId then amount - (destroyMaxForUser amount userId fundType store).1
            else 0) =
        heldBy store owner := by
  simp only [destroyMaxForUser]
  set selects : Nat → FundDescription → Bool :=
    fun holder held => decide (holder = userId ∧ held.fundType = fundType) with selectsDef
  have conserved := withdrawMax_conserves selects (fun holder _ => decide (holder = owner))
    (some amount) store
  have owned := heldBy_of_owned (fun piece member => by
    have taken := withdrawMax_selected selects (some amount) store piece member
    simp only [selectsDef, decide_eq_true_eq] at taken
    exact taken.1) owner
  rw [withdrawMax_taken, capped] at owned
  rw [withdrawMax_left, Option.map_some', Option.getD_some]
  unfold heldBy at owned ⊢
  split_ifs at owned ⊢ <;> omega

/-- `liquidate_free_stake` pays, out of its user's total, what it does not hand back of the
amount, and nothing out of anyone else's. -/
theorem heldBy_liquidateFreeStake (userId amount : Nat) (store : List FundItem) (owner : Nat) :
    (liquidateFreeStake userId amount store).1 ≤ amount ∧
      heldBy (liquidateFreeStake userId amount store).2 owner +
          (if owner = userId then amount - (liquidateFreeStake userId amount store).1 else 0) =
        heldBy store owner := by
  obtain ⟨firstLe, first⟩ := heldBy_destroyMaxForUser amount userId .withdrawOnly store owner
  obtain ⟨secondLe, second⟩ := heldBy_destroyMaxForUser
    (destroyMaxForUser amount userId .withdrawOnly store).1 userId .waiting
    (destroyMaxForUser amount userId .withdrawOnly store).2 owner
  have unfolded : liquidateFreeStake userId amount store =
      if (destroyMaxForUser amount userId .withdrawOnly store).1 > 0 then
        destroyMaxForUser (destroyMaxForUser amount userId .withdrawOnly store).1 userId .waiting
          (destroyMaxForUser amount userId .withdrawOnly store).2
      else destroyMaxForUser amount userId .withdrawOnly store := rfl
  rw [unfolded]
  split_ifs at first second ⊢ <;> omega

/-! ### No empty bucket -/

/-- The fund store as the fund module keeps it: no bucket is empty (spec §4.1, zero-amount
buckets are pruned). -/
def Pruned (store : List FundItem) : Prop :=
  ∀ item ∈ store, 0 < item.balance

instance (store : List FundItem) : Decidable (Pruned store) :=
  inferInstanceAs (Decidable (∀ item ∈ store, 0 < item.balance))

section Pruned

variable {store : List FundItem}

theorem Pruned.splitConvertMaxByType (pruned : Pruned store) (maxAmount : Option Nat)
    (sourceType : FundType) (mapper : Nat → FundDescription → Option FundDescription) :
    Pruned (splitConvertMaxByType maxAmount sourceType mapper store).2.2 :=
  depositConverted_pos (withdrawMax_pos _ maxAmount store)
    (withdrawMax_remaining_pos _ maxAmount pruned)

theorem Pruned.splitConvertMaxByUser (pruned : Pruned store) (maxAmount : Option Nat)
    (userId : Nat) (sourceType : FundType) (mapper : FundDescription → Option FundDescription) :
    Pruned (splitConvertMaxByUser maxAmount userId sourceType mapper store).2.2 := by
  simp only [Funds.splitConvertMaxByUser]
  exact depositConverted_pos (withdrawMax_pos _ maxAmount store)
    (withdrawMax_remaining_pos _ maxAmount pruned)

theorem Pruned.destroyMaxForUser (pruned : Pruned store) (amount userId : Nat)
    (fundType : FundType) : Pruned (destroyMaxForUser amount userId fundType store).2 :=
  withdrawMax_remaining_pos _ (some amount) pruned

theorem Pruned.createFund (pruned : Pruned store) (userId : Nat)
    (description : FundDescription) (balance : Nat) :
    Pruned (createFund userId description balance store) := by
  unfold Funds.createFund
  split_ifs with empty
  · exact pruned
  · intro item member
    rcases List.mem_append.mp member with kept | added
    · exact pruned item kept
    · obtain rfl := List.mem_singleton.mp added
      exact Nat.pos_of_ne_zero empty

end Pruned

/-- No transformation leaves an empty bucket in a store that had none. -/
theorem transformations_keep_pruned {store : List FundItem} (pruned : Pruned store)
    (blockNonce : UInt64) (userId amount : Nat) (nBlocksBeforeClaim : UInt64) :
    Pruned (createWaiting userId amount store) ∧
    Pruned (liquidateFreeStake userId amount store).2 ∧
    Pruned (unstakeTransf blockNonce userId amount store).2 ∧
    Pruned (swapWaitingToActive amount store).2 ∧
    Pruned (swapActiveToUnstaked blockNonce amount store).2 ∧
    Pruned (swapUnstakedToDeferredPayment amount store).2 ∧
    Pruned (claimAllEligibleDeferredPayments blockNonce userId nBlocksBeforeClaim store).2 := by
  refine ⟨pruned.createFund _ _ _, ?liquidated, ?unstaked, pruned.splitConvertMaxByType _ _ _,
    pruned.splitConvertMaxByType _ _ _, pruned.splitConvertMaxByType _ _ _,
    pruned.splitConvertMaxByUser _ _ _ _⟩
  case liquidated =>
    have first := pruned.destroyMaxForUser amount userId .withdrawOnly
    simp only [liquidateFreeStake]
    split
    · exact first.destroyMaxForUser _ _ _
    · exact first
  case unstaked =>
    rw [unstakeTransf_snd]
    exact pruned.splitConvertMaxByUser _ _ _ _

/-- A store of 5 waiting and 3 active stake has no empty bucket after a deposit of 4, nor
after an unstake of 4 that fails but still converts the 3 and prunes the emptied bucket. -/
theorem unstake_keeps_pruned_sample :
    Pruned (createWaiting 1 4 [⟨1, .waiting, 5⟩, ⟨1, .active, 3⟩]) ∧
      Pruned (unstakeTransf 7 1 4 [⟨1, .waiting, 5⟩, ⟨1, .active, 3⟩]).2 :=
  have all := @transformations_keep_pruned [⟨1, .waiting, 5⟩, ⟨1, .active, 3⟩] (by decide)
    7 1 4 0
  ⟨all.1, all.2.2.1⟩

end Delegation.Funds
