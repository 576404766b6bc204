/-
Module: Delegation.Funds.RoundTrip
Layer: Proofs
Purpose: The life of one deposit in the fund store. A user with no funds deposits an amount
  into a store whose other stake is neither waiting nor unstaked. The stake is activated,
  the user unstakes it, it becomes a deferred payment, the user claims it once its delay has
  passed, and withdraws it. Each transformation takes the new bucket whole. The claim pays
  exactly the deposit, the withdrawal leaves nothing owed, and the store ends as it began
  (`deposit_round_trip`). On such a store every walk of the fund module meets the new
  bucket alone, at the end (`withdrawMax_append_selected`).
Trusted boundary: the fund_module primitives, modelled from the spec
  (`Delegation.Funds.FundModule`).
Main exports: withdrawMax_append_selected, deposit_round_trip
-/
import Delegation.Funds.FundTransfModule

namespace Delegation.Funds

/-! ### One bucket at the end of the store -/

/-- A walk that selects no bucket of the store but the one appended to it, asking for exactly
that bucket's balance or with no bound, takes that bucket whole and leaves the store. -/
theorem withdrawMax_append_selected {selects : Nat → FundDescription → Bool}
    {store : List FundItem} (unselected : ∀ item ∈ store, selects item.userId item.description = false)
    {item : FundItem} (selected : selects item.userId item.description = true)
    (positive : 0 < item.balance) {maxAmount : Option Nat}
    (whole : maxAmount = some item.balance ∨ maxAmount = none) :
    withdrawMax selects maxAmount (store ++ [item]) =
      ([item], maxAmount.map (· - item.balance), store) := by
  induction store with
  | nil =>
      have taken : capped maxAmount item.balance = item.balance := by
        rcases whole with rfl | rfl
        · exact Nat.min_self _
        · rfl
      simp only [List.nil_append, withdrawMax, selected, if_true, taken,
        Nat.pos_iff_ne_zero.mp positive, if_false]
  | cons other rest inductionHypothesis =>
      rw [List.cons_append]
      simp only [withdrawMax, unselected other (List.mem_cons_self _ _),
        Bool.false_eq_true, if_false, inductionHypothesis fun kept member =>
          unselected kept (List.mem_cons_of_mem _ member)]

/-! ### The phases of a deposit -/

section Phases

variable {store : List FundItem} {userId balance : Nat}

theorem createWaiting_eq (positive : 0 < balance) :
    createWaiting userId balance store = store ++ [⟨userId, .waiting, balance⟩] := by
  simp only [createWaiting, createFund, Nat.pos_iff_ne_zero.mp positive, if_false]

/-- With no other waiting stake, activating the deposit's amount activates the deposit. -/
theorem swapWaitingToActive_append (positive : 0 < balance)
    (noWaiting : ∀ item ∈ store, item.description.fundType ≠ .waiting) :
    swapWaitingToActive balance (store ++ [⟨userId, .waiting, balance⟩]) =
      (([userId], 0), store ++ [⟨userId, .active, balance⟩]) := by
  simp only [swapWaitingToActive, swapToDescription, splitConvertMaxByType]
  rw [withdrawMax_append_selected _ _ _ _]
  · simp [depositConverted, sortDedup]
  · exact fun item member => by simp [noWaiting item member]
  · rfl
  · exact positive
  · exact .inl rfl

/-- A user who holds nothing else active unstakes all of the deposit. -/
theorem unstakeTransf_append (blockNonce : UInt64) (positive : 0 < balance)
    (others : ∀ item ∈ store, item.userId ≠ userId) :
    unstakeTransf blockNonce userId balance (store ++ [⟨userId, .active, balance⟩]) =
      (.ok (), store ++ [⟨userId, .unStaked blockNonce, balance⟩]) := by
  simp only [unstakeTransf, splitConvertMaxByUser]
  rw [withdrawMax_append_selected _ _ _ _]
  · simp [depositConverted]
  · exact fun item member => by simp [others item member]
  · simp [FundDescription.fundType]
  · exact positive
  · exact .inl rfl

/-- With no other unstaked stake, the deposit becomes a deferred payment of its unstake
block. -/
theorem swapUnstakedToDeferredPayment_append (blockNonce : UInt64) (positive : 0 < balance)
    (noUnstaked : ∀ item ∈ store, item.description.fundType ≠ .unStaked) :
    swapUnstakedToDeferredPayment balance (store ++ [⟨userId, .unStaked blockNonce, balance⟩]) =
      (0, store ++ [⟨userId, .deferredPayment blockNonce, balance⟩]) := by
  simp only [swapUnstakedToDeferredPayment, splitConvertMaxByType]
  rw [withdrawMax_append_selected _ _ _ _]
  · simp [depositConverted]
  · exact fun item member => by simp [noUnstaked item member]
  · rfl
  · exact positive
  · exact .inl rfl

/-- Once its delay has passed, the user's claim pays the deposit whole and makes it
withdraw-only. -/
theorem claimAllEligibleDeferredPayments_append {created blockNonce nBlocksBeforeClaim : UInt64}
    (positive : 0 < balance) (others : ∀ item ∈ store, item.userId ≠ userId)
    (due : created + nBlocksBeforeClaim < blockNonce) :
    claimAllEligibleDeferredPayments blockNonce userId nBlocksBeforeClaim
        (store ++ [⟨userId, .deferredPayment created, balance⟩]) =
      (.ok balance, store ++ [⟨userId, .withdrawOnly, balance⟩]) := by
  simp only [claimAllEligibleDeferredPayments, splitConvertMaxByUser]
  rw [withdrawMax_append_selected _ _ _ _]
  · simp [depositConverted, due]
  · exact fun item member => by simp [others item member]
  · simp [FundDescription.fundType, due]
  · exact positive
  · exact .inr rfl

/-- Withdrawing the deposit from its withdraw-only bucket leaves nothing owed and the store
as it was before the deposit. -/
theorem liquidateFreeStake_append (positive : 0 < balance)
    (others : ∀ item ∈ store, item.userId ≠ userId) :
    liquidateFreeStake userId balance (store ++ [⟨userId, .withdrawOnly, balance⟩]) =
      (0, store) := by
  simp only [liquidateFreeStake, destroyMaxForUser]
  rw [withdrawMax_append_selected _ _ _ _]
  · simp
  · exact fun item member => by simp [others item member]
  · simp [FundDescription.fundType]
  · exact positive
  · exact .inl rfl

end Phases

/-- The life of one deposit. A user with no funds deposits a non-zero amount into a store
whose other stake is neither waiting nor unstaked; the stake is activated, unstaked by the
user at block `unstakedAt`, turned into a deferred payment, claimed at a block past its
delay (the sum taken in `u64`, as the code does), and withdrawn. Each phase moves the whole
deposit and nothing else, the claim pays exactly the deposit, the withdrawal leaves nothing
owed, and the store ends as it began. -/
theorem deposit_round_trip {store : List FundItem} {userId balance : Nat}
    {unstakedAt claimedAt nBlocksBeforeClaim : UInt64}
    (fresh : ∀ item ∈ store, item.userId ≠ userId ∧
      item.description.fundType ≠ .waiting ∧ item.description.fundType ≠ .unStaked)
    (positive : 0 < balance) (due : unstakedAt + nBlocksBeforeClaim < claimedAt) :
    createWaiting userId balance store = store ++ [⟨userId, .waiting, balance⟩] ∧
    swapWaitingToActive balance (store ++ [⟨userId, .waiting, balance⟩]) =
      (([userId], 0), store ++ [⟨userId, .active, balance⟩]) ∧
    unstakeTransf unstakedAt userId balance (store ++ [⟨userId, .active, balance⟩]) =
      (.ok (), store ++ [⟨userId, .unStaked unstakedAt, balance⟩]) ∧
    swapUnstakedToDeferredPayment balance (store ++ [⟨userId, .unStaked unstakedAt, balance⟩]) =
      (0, store ++ [⟨userId, .deferredPayment unstakedAt, balance⟩]) ∧
    claimAllEligibleDeferredPayments claimedAt userId nBlocksBeforeClaim
        (store ++ [⟨userId, .deferredPayment unstakedAt, balance⟩]) =
      (.ok balance, store ++ [⟨userId, .withdrawOnly, balance⟩]) ∧
    liquidateFreeStake userId balance (store ++ [⟨userId, .withdrawOnly, balance⟩]) =
      (0, store) :=
  have others := fun item member => (fresh item member).1
  ⟨createWaiting_eq positive,
    swapWaitingToActive_append positive fun item member => (fresh item member).2.1,
    unstakeTransf_append unstakedAt positive others,
    swapUnstakedToDeferredPayment_append unstakedAt positive fun item member =>
      (fresh item member).2.2,
    claimAllEligibleDeferredPayments_append positive others due,
    liquidateFreeStake_append positive others⟩

/-- User `1` deposits `5` into a store where user `2` has active stake; the claim comes at
block `20`, past the delay of `10` after the unstake at block `3`. -/
theorem deposit_round_trip_sample :
    (∀ item ∈ [(⟨2, .active, 4⟩ : FundItem)], item.userId ≠ 1 ∧
      item.description.fundType ≠ .waiting ∧ item.description.fundType ≠ .unStaked) ∧
    0 < 5 ∧ (3 : UInt64) + 10 < 20 ∧
    liquidateFreeStake 1 5 [⟨2, .active, 4⟩, ⟨1, .withdrawOnly, 5⟩] = (0, [⟨2, .active, 4⟩]) :=
  have fresh : ∀ item ∈ [(⟨2, .active, 4⟩ : FundItem)], item.userId ≠ 1 ∧
      item.description.fundType ≠ .waiting ∧ item.description.fundType ≠ .unStaked := by
    decide
  ⟨fresh, by decide, by decide,
    (@deposit_round_trip _ 1 5 3 20 10 fresh (by decide) (by decide)).2.2.2.2.2⟩

end Delegation.Funds
