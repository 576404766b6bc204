/-
Module: Delegation.V04.Conservation
Layer: Proofs
Purpose: Calls and callbacks of version 0.4 move the pool's stake between phases and never
  create or destroy it (spec §7, conservation): each fund transformation moves what it moves
  from one phase to another, and a failing call or callback changes nothing. Only the
  deposits and withdrawals of free stake change the total, so along every run without them
  the total stays what it was, from any state.
Trusted boundary: none
Main exports: totalStake, totalStake_update, totalStake_moveStake, totalStake_runEndpoint,
  totalStake_runCallback, Label.movesFreeStake, totalStake_step, totalStake_conserved
-/
import Delegation.V04.Callbacks

namespace Delegation.V04

/-- The pool's stake over all its phases. -/
def totalStake (userStake : UserStakeState → Nat) : Nat :=
  userStake .inactive + userStake .pendingActivation + userStake .activationFailed +
    userStake .active + userStake .pendingDeactivation + userStake .unBondPeriod +
    userStake .pendingUnBond

/-- Writing one phase changes the total by the difference. -/
theorem totalStake_update (userStake : UserStakeState → Nat) (phase : UserStakeState)
    (amount : Nat) :
    totalStake (Function.update userStake phase amount) + userStake phase =
      totalStake userStake + amount := by
  cases phase <;> simp only [totalStake, Function.update_same, ne_eq, reduceCtorEq,
    not_false_eq_true, Function.update_noteq] <;> omega

/-- A transformation between two phases keeps the total. -/
@[simp] theorem totalStake_moveStake {source target : UserStakeState} (distinct : source ≠ target)
    (amount : Nat) (userStake : UserStakeState → Nat) :
    totalStake (moveStake source target amount userStake).1 = totalStake userStake := by
  have bounded : min amount (userStake source) ≤ userStake source := Nat.min_le_right _ _
  have atSource := totalStake_update userStake source
    (userStake source - min amount (userStake source))
  have atTarget := totalStake_update
    (Function.update userStake source (userStake source - min amount (userStake source))) target
    (userStake target + min amount (userStake source))
  rw [Function.update_noteq (Ne.symm distinct)] at atTarget
  simp only [moveStake]
  omega

/-! ### What the callbacks do to the stake -/

section Callbacks

variable (config : Config) (nodeIds : List Nat) (storage : Storage)

@[simp] theorem auctionStakeCallbackOk_userStake :
    (auctionStakeCallbackOk config nodeIds storage).userStake =
      (activateFinishOkTransf (nodeIds.length * config.stakePerNode) storage.userStake).1 := rfl

@[simp] theorem auctionStakeCallbackFail_userStake :
    (auctionStakeCallbackFail config nodeIds storage).userStake =
      (activateFinishFailTransf (nodeIds.length * config.stakePerNode) storage.userStake).1 :=
  rfl

@[simp] theorem auctionUnstakeCallbackOk_userStake (blockNonce : UInt64) :
    (auctionUnstakeCallbackOk config blockNonce nodeIds storage).userStake =
      (moveStake .pendingDeactivation .unBondPeriod (nodeIds.length * config.stakePerNode)
        storage.userStake).1 := rfl

@[simp] theorem auctionUnstakeCallbackFail_userStake :
    (auctionUnstakeCallbackFail config nodeIds storage).userStake =
      (unstakeFinishFailTransf (nodeIds.length * config.stakePerNode) storage.userStake).1 :=
  rfl

@[simp] theorem auctionUnbondCallbackFail_userStake :
    (auctionUnbondCallbackFail config nodeIds storage).userStake =
      (moveStake .pendingUnBond .unBondPeriod (nodeIds.length * config.stakePerNode -
        (takeDated (fun _ => true) (nodeIds.length * config.stakePerNode)
          storage.pendingUnBondStake).2.1) storage.userStake).1 := rfl

end Callbacks

/-! ### Conservation, step by step -/

section Steps

variable {config : Config} {before after : Storage}

/-- A successful call keeps the pool's total stake. -/
theorem totalStake_runEndpoint {env : Env} {blockNonce : UInt64} {call : Call}
    {asyncCall : Option AsyncCall}
    (ran : runEndpoint config env blockNonce call before = .ok (after, asyncCall)) :
    totalStake after.userStake = totalStake before.userStake := by
  cases call with
  | stakeNodes blsKeys =>
      obtain ⟨⟨_, issued⟩, called, ⟨⟩⟩ := map_eq_ok.mp ran
      obtain ⟨-, nodeState, -, performed⟩ := stakeNodes_eq_ok.mp called
      obtain ⟨-, rfl, -⟩ := performStakeNodes_eq_ok.mp performed
      exact totalStake_moveStake (by decide) _ _
  | stakeAllAvailable =>
      obtain ⟨-, -, called⟩ := bind_eq_ok.mp ran
      rw [stakeAllAvailable_eq] at called
      split at called
      · cases called; rfl
      · obtain ⟨⟨_, issued⟩, performed, ⟨⟩⟩ := map_eq_ok.mp called
        obtain ⟨-, rfl, -⟩ := performStakeNodes_eq_ok.mp performed
        exact totalStake_moveStake (by decide) _ _
  | unStakeNodes blsKeys =>
      obtain ⟨⟨_, issued⟩, called, ⟨⟩⟩ := map_eq_ok.mp ran
      obtain ⟨-, nodeState, -, rfl, -⟩ := unstakeNodes_eq_ok.mp called
      exact totalStake_moveStake (by decide) _ _
  | unBondNodes blsKeys =>
      obtain ⟨⟨_, issued⟩, called, ⟨⟩⟩ := map_eq_ok.mp ran
      obtain ⟨nodeState, -, performed⟩ := unbondNodes_eq_ok.mp called
      obtain ⟨-, rfl, -⟩ := performUnbond_eq_ok.mp performed
      exact totalStake_moveStake (by decide) _ _
  | unBondAllAvailable =>
      change unbondAllAvailable config blockNonce before = _ at ran
      rw [unbondAllAvailable_eq] at ran
      split at ran
      · cases ran; rfl
      · obtain ⟨⟨_, issued⟩, performed, ⟨⟩⟩ := map_eq_ok.mp ran
        obtain ⟨-, rfl, -⟩ := performUnbond_eq_ok.mp performed
        exact totalStake_moveStake (by decide) _ _
  | claimFailedStake =>
      obtain ⟨_, -, ⟨⟩⟩ := map_eq_ok.mp ran
      rfl

/-- A callback that succeeds keeps the pool's total stake. -/
theorem totalStake_runCallback {blockNonce : UInt64} {closure : CallbackClosure}
    {result : CallResult} (ran : runCallback config blockNonce closure result before = .ok after) :
    totalStake after.userStake = totalStake before.userStake := by
  obtain ⟨callback, nodeIds⟩ := closure
  cases callback <;> cases result <;>
    simp only [runCallback, auctionUnbondCallback, Except.ok.injEq, pure, Except.pure] at ran
  case auctionUnbondCallback.ok nodeIdsOk nodeIdsFail =>
    obtain ⟨confirmed, confirmedOk, ⟨⟩⟩ := bind_eq_ok.mp ran
    obtain ⟨-, rfl⟩ := auctionUnbondCallbackOk_eq_ok.mp confirmedOk
    simp [unbondFinishOkTransf]
  all_goals
    subst ran
    simp [auctionStakeCallback, auctionUnstakeCallback, auctionUnbondCallback,
      auctionClaimCallback, activateFinishOkTransf, activateFinishFailTransf,
      unstakeFinishOkTransf, unstakeFinishFailTransf, unbondFinishFailTransf,
      claimActivationFailedTransf]

/-- Whether a step is a deposit or withdrawal of free stake by the rest of the contract. -/
def Label.movesFreeStake : Label → Bool
  | .deposit _ | .withdraw _ => true
  | _ => false

/-- Every step but a deposit or withdrawal keeps the pool's total stake. -/
theorem totalStake_step (s : State) {label : Label} (internal : label.movesFreeStake = false) :
    totalStake (step config s label).storage.userStake = totalStake s.storage.userStake := by
  cases label with
  | call env call =>
      simp only [step]
      split
      · exact totalStake_runEndpoint ‹_›
      · rfl
  | deliver closure result =>
      simp only [step]
      split
      · split
        · exact totalStake_runCallback ‹_›
        · rfl
      · rfl
  | newBlock blockNonce => rfl
  | deposit amount | withdraw amount => cases internal

end Steps

/-- Calls and callbacks never create or destroy stake: along every run without deposits or
withdrawals of free stake, from any state, the pool's total stake stays what it was. -/
theorem totalStake_conserved {config : Config} {start s : State}
    (reached : Reach start (step config) (fun _ label => label.movesFreeStake = false) s) :
    totalStake s.storage.userStake = totalStake start.storage.userStake := by
  induction reached with
  | init => rfl
  | step label _ internal inductionHypothesis =>
      exact (totalStake_step _ internal).trans inductionHypothesis

end Delegation.V04
