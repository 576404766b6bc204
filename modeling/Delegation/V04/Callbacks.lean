/-
Module: Delegation.V04.Callbacks
Layer: Proofs
Purpose: What a callback of version 0.4 does to a request whose distinct registered nodes
  all wait for it: each node settles by the auction's verdict, nothing else moves, and the
  stake of the confirmed and of the rejected nodes follows them, so that the lockstep of
  ledger and nodes survives (`runCallback_eq`). The unbond callback, the only one that can
  fail, succeeds whenever the dated buckets pending unbond hold the stake of its nodes.
  Every callback keeps the dated buckets in step with the phase totals
  (`runCallback_datedAgrees`), and records no block but the block of its answer, or 0 for
  an unstake block it resets (`runCallback_datedBy`).
Trusted boundary: none
Main exports: Callback.settled, Callback.fails, Callback.fails_confirm,
  unbondFinishOkTransf_found, unbondFinishFailTransf_found, auctionUnbondCallbackOk_eq_ok,
  runCallback_eq, runCallback_datedAgrees, runCallback_datedBy, Callback.confirmedUnstakeBlock,
  runCallback_blNonceOfUnstake
-/
import Delegation.V04.Endpoints

namespace Delegation.V04

/-- The state a callback leaves a node of its request in: the confirm transition of its
flow, or the revert one when the auction failed the node (spec §4.2). A failed claim leaves
its nodes where they were. -/
def Callback.settled : Callback → Bool → NodeState
  | .auctionStakeCallback, failed => if failed then .activationFailed else .active
  | .auctionUnstakeCallback, failed => if failed then .active else .unBondPeriod
  | .auctionUnbondCallback, failed => if failed then .unBondPeriod else .inactive
  | .auctionClaimCallback, failed => if failed then .activationFailed else .inactive

/-- Whether a callback takes an answer as failing a node. A claim is answered as a whole. -/
def Callback.fails : Callback → CallResult → Nat → Bool
  | .auctionClaimCallback, .ok _ _, _ => false
  | .auctionClaimCallback, .err _, _ => true
  | _, result, nodeId => result.failed nodeId

/-- An answer that confirms the whole batch fails no node. -/
theorem Callback.fails_confirm (callback : Callback) (nodeIds : List Nat) (n : Nat) :
    callback.fails (.ok nodeIds []) n = false := by
  cases callback <;> rfl

section Callbacks

variable {config : Config} {before : Storage} {nodeIds : List Nat}

/-- The two halves of a callback's answer are batch moves out of the state the request's
nodes wait in: first the confirmed nodes, then, from the state that leaves, the rejected
ones. -/
theorem splitMoves {nodeIdsOk nodeIdsFail : List Nat}
    (splits : (CallResult.ok nodeIdsOk nodeIdsFail).Splits nodeIds) (nodup : nodeIds.Nodup)
    (known : ∀ n ∈ nodeIds, 1 ≤ n ∧ n ≤ config.reg.numNodes) {a okState failState : NodeState}
    (awaiting : ∀ n ∈ nodeIds, before.nodeState n = a) (middle after : Storage)
    (okNodes : middle.nodeState = setNodeStatesTo okState nodeIdsOk before.nodeState)
    (okStake : middle.userStake =
      (moveStake a.phase okState.phase (nodeIdsOk.length * config.stakePerNode)
        before.userStake).1)
    (failNodes : after.nodeState = setNodeStatesTo failState nodeIdsFail middle.nodeState)
    (failStake : after.userStake =
      (moveStake a.phase failState.phase (nodeIdsFail.length * config.stakePerNode)
        middle.userStake).1) :
    BatchMove config nodeIdsOk a okState before middle ∧
      BatchMove config nodeIdsFail a failState middle after := by
  have okMember : ∀ n ∈ nodeIdsOk, n ∈ nodeIds := fun _ member => splits.mem_iff.mpr (.inl member)
  have failMember : ∀ n ∈ nodeIdsFail, n ∈ nodeIds := fun _ member =>
    splits.mem_iff.mpr (.inr member)
  refine ⟨⟨splits.nodup_ok nodup, fun n member => known n (okMember n member),
    fun n member => awaiting n (okMember n member), okNodes, okStake⟩,
    ⟨splits.nodup_fail nodup, fun n member => known n (failMember n member),
    fun n member => ?_, failNodes, failStake⟩⟩
  rw [okNodes, setNodeStatesTo_apply,
    if_neg fun ok => splits.not_mem_fail nodup ok member]
  exact awaiting n (failMember n member)

/-- With the stake asked pending unbond, the confirm transformation of the unbond callback
finds it all and moves it between the phase totals. -/
theorem unbondFinishOkTransf_found {amount : Nat} {storage : Storage}
    (enough : amount ≤ datedSum storage.pendingUnBondStake) :
    (unbondFinishOkTransf amount storage).2 = 0 ∧
      (unbondFinishOkTransf amount storage).1.userStake =
        (moveStake .pendingUnBond .inactive amount storage.userStake).1 ∧
      datedSum (unbondFinishOkTransf amount storage).1.pendingUnBondStake + amount =
        datedSum storage.pendingUnBondStake := by
  have found := takeDated_found_all enough
  have sums := @takeDated_sums (fun _ => true) amount storage.pendingUnBondStake
  simp only [unbondFinishOkTransf, found, Nat.sub_zero, true_and]
  omega

/-- With the stake asked pending unbond, the revert transformation of the unbond callback
moves it all between the phase totals. -/
theorem unbondFinishFailTransf_found {amount : Nat} {storage : Storage}
    (enough : amount ≤ datedSum storage.pendingUnBondStake) :
    (unbondFinishFailTransf amount storage).1.userStake =
      (moveStake .pendingUnBond .unBondPeriod amount storage.userStake).1 := by
  simp only [unbondFinishFailTransf, takeDated_found_all enough, Nat.sub_zero]

/-- The confirm half of the unbond callback succeeds exactly when the buckets pending unbond
hold the stake of its nodes. -/
theorem auctionUnbondCallbackOk_eq_ok {after : Storage} :
    auctionUnbondCallbackOk config nodeIds before = .ok after ↔
      nodeIds.length * config.stakePerNode ≤ datedSum before.pendingUnBondStake ∧
        after = (unbondFinishOkTransf (nodeIds.length * config.stakePerNode)
          { before with
            nodeState := setNodeStatesTo .inactive nodeIds before.nodeState
            blNonceOfUnstake := setNodeStatesTo 0 nodeIds before.blNonceOfUnstake }).1 := by
  have left := @takeDated_left (fun _ => true) (nodeIds.length * config.stakePerNode)
    before.pendingUnBondStake
  simp only [List.filter_true] at left
  unfold auctionUnbondCallbackOk
  dsimp only
  split
  · exact ⟨nofun, fun ⟨enough, _⟩ => by simp only [unbondFinishOkTransf] at *; omega⟩
  · simp only [pure, Except.pure, Except.ok.injEq]
    exact ⟨fun same => ⟨by simp only [unbondFinishOkTransf] at *; omega, same.symm⟩,
      fun ⟨_, same⟩ => same.symm⟩

/-- What a callback does to a request whose distinct registered nodes all wait for it: it
succeeds (the unbond callback needs the stake of its nodes pending unbond), each node of the
request settles by the verdict, every other node stays, and a lockstep of ledger and nodes
survives as long as it tracks the state the nodes wait in whenever it tracks the state they
settle in. -/
theorem runCallback_eq (blockNonce : UInt64) {closure : CallbackClosure} {result : CallResult}
    (splits : result.Splits closure.nodeIds) (nodup : closure.nodeIds.Nodup)
    (known : ∀ n ∈ closure.nodeIds, 1 ≤ n ∧ n ≤ config.reg.numNodes)
    (awaiting : ∀ n ∈ closure.nodeIds, before.nodeState n = closure.callback.awaited)
    (backed : closure.callback = .auctionUnbondCallback →
      closure.nodeIds.length * config.stakePerNode ≤ datedSum before.pendingUnBondStake) :
    ∃ after, runCallback config blockNonce closure result before = .ok after ∧
      after.nodeState = (fun n => if n ∈ closure.nodeIds then
        closure.callback.settled (closure.callback.fails result n) else before.nodeState n) ∧
      ∀ tracked : NodeState → Prop, LockstepOn config tracked before →
        (∀ failed, tracked (closure.callback.settled failed) → tracked closure.callback.awaited) →
        LockstepOn config tracked after := by
  obtain ⟨callback, nodeIds⟩ := closure
  have settledErr : setNodeStatesTo (callback.settled true) nodeIds before.nodeState =
      fun n => if n ∈ nodeIds then callback.settled true else before.nodeState n :=
    funext fun n => setNodeStatesTo_apply _ _ _ n
  cases result with
  | ok nodeIdsOk nodeIdsFail =>
      cases callback with
      | auctionStakeCallback =>
          obtain ⟨okMove, failMove⟩ := splitMoves splits nodup known awaiting
            (auctionStakeCallbackOk config nodeIdsOk before)
            (auctionStakeCallback config nodeIds (.ok nodeIdsOk nodeIdsFail) before) rfl rfl rfl rfl
          exact ⟨_, rfl, setNodeStatesTo_split splits _, fun _ lockstep sourceTracked =>
            (lockstep.batchMove_of_source okMove nofun (sourceTracked false)).batchMove_of_source
              failMove nofun (sourceTracked true)⟩
      | auctionUnstakeCallback =>
          obtain ⟨okMove, failMove⟩ := splitMoves splits nodup known awaiting
            (auctionUnstakeCallbackOk config blockNonce nodeIdsOk before)
            (auctionUnstakeCallback config blockNonce nodeIds (.ok nodeIdsOk nodeIdsFail) before)
            rfl rfl rfl rfl
          exact ⟨_, rfl, setNodeStatesTo_split splits _, fun _ lockstep sourceTracked =>
            (lockstep.batchMove_of_source okMove nofun (sourceTracked false)).batchMove_of_source
              failMove nofun (sourceTracked true)⟩
      | auctionUnbondCallback =>
          have total : nodeIdsOk.length * config.stakePerNode +
              nodeIdsFail.length * config.stakePerNode = nodeIds.length * config.stakePerNode := by
            rw [← Nat.add_mul, ← List.length_append, List.Perm.length_eq splits]
          have backedAll : nodeIds.length * config.stakePerNode ≤
              datedSum before.pendingUnBondStake := backed rfl
          obtain ⟨confirmed, confirmedDef⟩ : ∃ confirmed : Storage, confirmed =
              (unbondFinishOkTransf (nodeIdsOk.length * config.stakePerNode)
                { before with
                  nodeState := setNodeStatesTo .inactive nodeIdsOk before.nodeState
                  blNonceOfUnstake := setNodeStatesTo 0 nodeIdsOk before.blNonceOfUnstake }).1 :=
            ⟨_, rfl⟩
          obtain ⟨-, okTotals, okLeft⟩ := @unbondFinishOkTransf_found
            (nodeIdsOk.length * config.stakePerNode)
            { before with
              nodeState := setNodeStatesTo .inactive nodeIdsOk before.nodeState
              blNonceOfUnstake := setNodeStatesTo 0 nodeIdsOk before.blNonceOfUnstake }
            (by dsimp only; omega)
          rw [← confirmedDef] at okTotals okLeft
          have failTotals := @unbondFinishFailTransf_found (nodeIdsFail.length * config.stakePerNode)
            confirmed (by dsimp only at okLeft; omega)
          have confirmedOk := auctionUnbondCallbackOk_eq_ok.mpr
            ⟨show nodeIdsOk.length * config.stakePerNode ≤ datedSum before.pendingUnBondStake
              by omega, confirmedDef⟩
          have okNodes : confirmed.nodeState =
              setNodeStatesTo .inactive nodeIdsOk before.nodeState := by
            rw [confirmedDef]; rfl
          obtain ⟨okMove, failMove⟩ := splitMoves splits nodup known awaiting confirmed
            (auctionUnbondCallbackFail config nodeIdsFail confirmed) okNodes okTotals rfl failTotals
          refine ⟨auctionUnbondCallbackFail config nodeIdsFail confirmed, by
            simp only [runCallback, auctionUnbondCallback,
              confirmedOk, bind, Except.bind, pure, Except.pure],
            by rw [failMove.nodeState, okNodes]; exact setNodeStatesTo_split splits _,
            fun _ lockstep sourceTracked => ?_⟩
          exact (lockstep.batchMove_of_source okMove nofun (sourceTracked false)).batchMove_of_source
            failMove nofun (sourceTracked true)
      | auctionClaimCallback =>
          refine ⟨_, rfl, funext fun n => setNodeStatesTo_apply _ _ _ n,
            fun _ lockstep sourceTracked => ?_⟩
          exact lockstep.batchMove_of_source
            (⟨nodup, known, awaiting, rfl, rfl⟩ : BatchMove config nodeIds .activationFailed
              .inactive before (auctionClaimCallback config nodeIds (.ok nodeIdsOk nodeIdsFail)
                before))
            nofun (sourceTracked false)
  | err errMsg =>
      cases callback
      case auctionClaimCallback =>
        refine ⟨_, rfl, funext fun n => ?_, fun _ lockstep _ => lockstep⟩
        split
        · exact awaiting n ‹_›
        · rfl
      case auctionUnbondCallback =>
        exact ⟨_, rfl, settledErr, fun _ lockstep sourceTracked =>
          lockstep.batchMove_of_source ⟨nodup, known, awaiting, rfl,
            unbondFinishFailTransf_found (backed rfl)⟩ nofun (sourceTracked true)⟩
      -- every other callback reverts the whole request
      all_goals exact ⟨_, rfl, settledErr, fun _ lockstep sourceTracked =>
        lockstep.batchMove_of_source ⟨nodup, known, awaiting, rfl, rfl⟩ nofun (sourceTracked true)⟩

/-- Every callback that succeeds keeps the dated buckets of the unbond flow in step with the
phase totals. -/
theorem runCallback_datedAgrees {blockNonce : UInt64} {closure : CallbackClosure}
    {result : CallResult} {after : Storage}
    (ran : runCallback config blockNonce closure result before = .ok after)
    (agrees : before.DatedAgrees) : after.DatedAgrees := by
  obtain ⟨callback, nodeIds⟩ := closure
  cases callback <;> cases result <;>
    simp only [runCallback, auctionUnbondCallback, auctionUnstakeCallback, Except.ok.injEq, pure,
      Except.pure] at ran
  case auctionUnbondCallback.ok nodeIdsOk nodeIdsFail =>
    obtain ⟨confirmed, confirmedOk, ⟨⟩⟩ := bind_eq_ok.mp ran
    obtain ⟨-, rfl⟩ := auctionUnbondCallbackOk_eq_ok.mp confirmedOk
    have unbonded : ({ before with
        nodeState := setNodeStatesTo .inactive nodeIdsOk before.nodeState
        blNonceOfUnstake := setNodeStatesTo 0 nodeIdsOk before.blNonceOfUnstake } :
          Storage).DatedAgrees := agrees.congr rfl rfl rfl rfl
    exact ((unbonded.unbondFinishOkTransf _).unbondFinishFailTransf _).congr rfl rfl rfl rfl
  case auctionUnbondCallback.err =>
    subst ran; exact (agrees.unbondFinishFailTransf _).congr rfl rfl rfl rfl
  case auctionUnstakeCallback.ok nodeIdsOk nodeIdsFail =>
    subst ran
    exact (agrees.unstakeFinishOkTransf blockNonce _).congr rfl rfl
      (by simp [auctionUnstakeCallbackFail, auctionUnstakeCallbackOk, unstakeFinishFailTransf,
        moveStake_fst_apply])
      (by simp [auctionUnstakeCallbackFail, auctionUnstakeCallbackOk, unstakeFinishFailTransf,
        moveStake_fst_apply])
  -- the other callbacks move stake only between phases outside the unbond flow
  all_goals
    subst ran
    exact agrees.congr rfl rfl
      (by simp [auctionStakeCallback, auctionStakeCallbackOk, auctionStakeCallbackFail,
        auctionUnstakeCallback, auctionUnstakeCallbackFail, auctionClaimCallback,
        activateFinishOkTransf, activateFinishFailTransf, unstakeFinishFailTransf,
        claimActivationFailedTransf, moveStake_fst_apply])
      (by simp [auctionStakeCallback, auctionStakeCallbackOk, auctionStakeCallbackFail,
        auctionUnstakeCallback, auctionUnstakeCallbackFail, auctionClaimCallback,
        activateFinishOkTransf, activateFinishFailTransf, unstakeFinishFailTransf,
        claimActivationFailedTransf, moveStake_fst_apply])

/-- Every block a callback that succeeds records is the block of its answer or 0: an unstake
confirmation dates its nodes and its bucket with the block of the answer, an unbond
confirmation resets its nodes' unstake blocks to 0, and the unbond flow moves dated stake with
its date. -/
theorem runCallback_datedBy {blockNonce : UInt64} {closure : CallbackClosure}
    {result : CallResult} {after : Storage} {holds : UInt64 → Prop}
    (ran : runCallback config blockNonce closure result before = .ok after)
    (dated : before.DatedBy holds) (now : holds blockNonce) (zero : holds 0) :
    after.DatedBy holds := by
  obtain ⟨callback, nodeIds⟩ := closure
  cases callback <;> cases result <;>
    simp only [runCallback, auctionUnbondCallback, auctionUnstakeCallback, Except.ok.injEq, pure,
      Except.pure] at ran
  case auctionUnbondCallback.ok nodeIdsOk nodeIdsFail =>
    obtain ⟨confirmed, confirmedOk, ⟨⟩⟩ := bind_eq_ok.mp ran
    obtain ⟨-, rfl⟩ := auctionUnbondCallbackOk_eq_ok.mp confirmedOk
    have unbonded : ({ before with
        nodeState := setNodeStatesTo .inactive nodeIdsOk before.nodeState
        blNonceOfUnstake := setNodeStatesTo 0 nodeIdsOk before.blNonceOfUnstake } :
          Storage).DatedBy holds :=
      ⟨Storage.DatedBy.setNodeStatesTo zero nodeIdsOk dated.blNonceOfUnstake, dated.unBondPeriod,
        dated.pendingUnBond⟩
    exact ((unbonded.unbondFinishOkTransf _).unbondFinishFailTransf _).congr rfl rfl rfl
  case auctionUnbondCallback.err =>
    subst ran; exact (dated.unbondFinishFailTransf _).congr rfl rfl rfl
  case auctionUnstakeCallback.ok nodeIdsOk nodeIdsFail =>
    subst ran
    have confirmed := dated.unstakeFinishOkTransf now (nodeIdsOk.length * config.stakePerNode)
    exact ⟨Storage.DatedBy.setNodeStatesTo now nodeIdsOk dated.blNonceOfUnstake,
      confirmed.unBondPeriod, confirmed.pendingUnBond⟩
  -- the other callbacks record no block
  all_goals
    subst ran
    exact dated.congr rfl rfl rfl

/-- The unstake block a callback gives a node it confirms: the block of the answer for an
unstake, 0 for an unbond; the other callbacks keep the old one. -/
def Callback.confirmedUnstakeBlock (blockNonce : UInt64) : Callback → UInt64 → UInt64
  | .auctionUnstakeCallback, _ => blockNonce
  | .auctionUnbondCallback, _ => 0
  | .auctionStakeCallback, old | .auctionClaimCallback, old => old

/-- The unstake blocks a callback that succeeds leaves on a duplicate-free request: a node
the callback confirms gets the block `Callback.confirmedUnstakeBlock` gives it, every other
node keeps its own. -/
theorem runCallback_blNonceOfUnstake {blockNonce : UInt64} {closure : CallbackClosure}
    {result : CallResult} {after : Storage}
    (ran : runCallback config blockNonce closure result before = .ok after)
    (splits : result.Splits closure.nodeIds) (nodup : closure.nodeIds.Nodup) (n : Nat) :
    after.blNonceOfUnstake n =
      if n ∈ closure.nodeIds ∧ closure.callback.fails result n = false then
        closure.callback.confirmedUnstakeBlock blockNonce (before.blNonceOfUnstake n)
      else before.blNonceOfUnstake n := by
  obtain ⟨callback, nodeIds⟩ := closure
  cases callback <;> cases result <;>
    simp only [runCallback, auctionUnbondCallback, Except.ok.injEq, pure, Except.pure] at ran
  case auctionUnstakeCallback.ok nodeIdsOk nodeIdsFail =>
    subst ran
    simp only [auctionUnstakeCallback, auctionUnstakeCallbackFail, auctionUnstakeCallbackOk,
      setNodeStatesTo_apply, Callback.fails, ← splits.mem_ok_iff nodup,
      Callback.confirmedUnstakeBlock]
  case auctionUnbondCallback.ok nodeIdsOk nodeIdsFail =>
    obtain ⟨confirmed, confirmedOk, ⟨⟩⟩ := bind_eq_ok.mp ran
    obtain ⟨-, rfl⟩ := auctionUnbondCallbackOk_eq_ok.mp confirmedOk
    simp only [auctionUnbondCallbackFail, unbondFinishFailTransf, unbondFinishOkTransf,
      setNodeStatesTo_apply, Callback.fails, ← splits.mem_ok_iff nodup,
      Callback.confirmedUnstakeBlock]
  -- every other answer keeps the unstake blocks, and an error confirms no node
  all_goals
    subst ran
    split
    · rename_i confirmed
      first | rfl | exact absurd confirmed.2 (by simp [Callback.fails, CallResult.failed])
    · rfl

end Callbacks

end Delegation.V04
