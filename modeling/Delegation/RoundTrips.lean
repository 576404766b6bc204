/-
Module: Delegation.RoundTrips
Layer: Proofs
Purpose: The round trips of the specification's tests (§8): one request and the auction's
  answer to it. Staking nodes that the auction all confirms leaves them Active, and in
  version 0.4 moves the stake of as many nodes from free to active. When the stake request
  fails as a whole, the latest version puts every node back where it was, while version 0.4
  parks the nodes and their stake in ActivationFailed; an answer that confirms some nodes and
  rejects others settles each node and its stake by its own verdict. A rejected unstake of
  version 0.4 puts nodes and ledger back exactly. A whole lifecycle, stake, unstake and
  unbond each confirmed, leaves no trace in either version: the proof composes one lemma per
  phase, each the request and its confirmation. Version 0.4 needs a block past the unbond
  delay in between; the latest version needs none.
Trusted boundary: none
Main exports: Latest.stake_reverts_on_failure, V04.stake_parks_failed_nodes,
  V04.stake_settles_each_node, V04.unstake_reverts_on_failure, V04.step_call_confirmed,
  V04.stake_confirmed, V04.unstake_confirmed, V04.unbond_confirmed, V04.lifecycleRun,
  V04.lifecycle_round_trip, Latest.step_call_confirmed, Latest.stake_confirmed,
  Latest.unstake_confirmed, Latest.unbond_confirmed, Latest.lifecycleRun,
  Latest.lifecycle_leaves_no_trace, and a run of each on nodes 1 and 2
-/
import Delegation.Latest.Endpoints
import Delegation.V04.Endpoints
import Delegation.V04.Callbacks

namespace Delegation

/-! ### Latest version -/

/-- Staking keys, then the auction's answer: when it confirms every node, the nodes are
Active; when the request fails as a whole, every node is back where it was. -/
theorem Latest.stake_reverts_on_failure {reg : NodeRegistry} {env : Latest.Env}
    {amountToStake : Nat} {blsKeys : List BLSKey} {before after : Nat → Latest.NodeState}
    {asyncCall : Latest.AsyncCall}
    (ran : Latest.stakeNodes reg env amountToStake blsKeys before = .ok (after, asyncCall))
    (blockNonce : UInt64) (errMsg : String) :
    asyncCall.callback = some ⟨.auctionStakeCallback, blsKeys.map reg.getNodeId⟩ ∧
    Latest.runCallback blockNonce ⟨.auctionStakeCallback, blsKeys.map reg.getNodeId⟩
        (.ok (blsKeys.map reg.getNodeId) []) after =
      .ok (fun n => if n ∈ blsKeys.map reg.getNodeId then .active else before n) ∧
    Latest.runCallback blockNonce ⟨.auctionStakeCallback, blsKeys.map reg.getNodeId⟩
        (.err errMsg) after = .ok before := by
  obtain ⟨-, -, -, -, -, loop, rfl⟩ := Latest.stakeNodes_eq_ok.mp ran
  obtain ⟨-, moved, rfl⟩ := setNodeStates_eq_ok_to Latest.stakeTransition_oneShot
    (fun _ _ _ step => (Latest.stakeTransition_eq_ok.mp step).2.2) loop
  refine ⟨rfl, congrArg Except.ok (funext fun n => ?confirmed),
    congrArg Except.ok (funext fun n => ?failed)⟩
  case confirmed =>
    simp only [Latest.auctionStakeCallback, Latest.auctionStakeCallbackFail,
      Latest.auctionStakeCallbackOk, setNodeStatesTo_apply, List.not_mem_nil, if_false]
    split_ifs <;> rfl
  case failed =>
    simp only [Latest.auctionStakeCallback, Latest.auctionStakeCallbackFail,
      setNodeStatesTo_apply]
    split_ifs with member
    · exact (Latest.stakeTransition_eq_ok.mp (moved n member)).2.1.symm
    · rfl

/-- Node `1` staked, then a stake request that fails: every node is Inactive again. -/
theorem Latest.stake_reverts_on_failure_sample :
    ∃ after asyncCall, Latest.stakeNodes sampleRegistry Latest.ownerEnv 0 [⟨[1]⟩]
        (fun _ => .inactive) = .ok (after, asyncCall) ∧
      Latest.runCallback 0 ⟨.auctionStakeCallback, [1]⟩ (.err "") after =
        .ok fun _ => .inactive :=
  ⟨_, _, rfl, (@Latest.stake_reverts_on_failure sampleRegistry Latest.ownerEnv 0 [⟨[1]⟩]
    (fun _ => .inactive) _ _ rfl 0 "").2.2⟩

/-! ### Version 0.4 -/

/-- Staking keys paid for by the free stake, then the auction's answer: when it confirms
every node, the nodes are Active and the stake of as many nodes has moved from free to
active; when the request fails as a whole, the nodes and their stake are parked in
ActivationFailed. -/
theorem V04.stake_parks_failed_nodes {config : V04.Config} {env : V04.Env}
    {blsKeys : List BLSKey} {before after : V04.Storage} {asyncCall : V04.AsyncCall}
    (ran : V04.stakeNodes config env blsKeys before = .ok (after, asyncCall))
    (paid : blsKeys.length * config.stakePerNode ≤ before.userStake .inactive)
    (blockNonce : UInt64) (errMsg : String) :
    asyncCall.callback = ⟨.auctionStakeCallback, blsKeys.map config.reg.getNodeId⟩ ∧
    V04.runCallback config blockNonce asyncCall.callback
        (.ok (blsKeys.map config.reg.getNodeId) []) after =
      .ok { before with
        nodeState := fun n =>
          if n ∈ blsKeys.map config.reg.getNodeId then .active else before.nodeState n
        userStake := (V04.moveStake .inactive .active (blsKeys.length * config.stakePerNode)
          before.userStake).1 } ∧
    V04.runCallback config blockNonce asyncCall.callback (.err errMsg) after =
      .ok { before with
        nodeState := fun n =>
          if n ∈ blsKeys.map config.reg.getNodeId then .activationFailed else before.nodeState n
        userStake := (V04.moveStake .inactive .activationFailed
          (blsKeys.length * config.stakePerNode) before.userStake).1 } := by
  obtain ⟨-, nodeState, loop, performed⟩ := V04.stakeNodes_eq_ok.mp ran
  obtain ⟨-, rfl, rfl⟩ := V04.performStakeNodes_eq_ok.mp performed
  obtain ⟨-, -, rfl⟩ := setNodeStates_eq_ok_to V04.stakeTransition_oneShot
    (fun _ _ _ step => (V04.stakeTransition_eq_ok.mp step).2) loop
  refine ⟨rfl, congrArg Except.ok ?confirmed, congrArg Except.ok ?failed⟩
  case confirmed =>
    simp only [V04.auctionStakeCallback, V04.auctionStakeCallbackFail,
      V04.auctionStakeCallbackOk, V04.activateFinishFailTransf, V04.activateFinishOkTransf,
      V04.activateStartTransf, List.length_map, List.length_nil, Nat.zero_mul,
      V04.moveStake_zero, V04.Storage.mk.injEq, true_and, and_true]
    refine ⟨funext fun n => ?_, V04.moveStake_moveStake (by decide) (by decide) (by decide) paid⟩
    simp only [setNodeStatesTo_apply, List.not_mem_nil, if_false]
    split_ifs <;> rfl
  case failed =>
    simp only [V04.auctionStakeCallback, V04.auctionStakeCallbackFail,
      V04.activateFinishFailTransf, V04.activateStartTransf, List.length_map,
      V04.Storage.mk.injEq, true_and, and_true]
    refine ⟨funext fun n => ?_, V04.moveStake_moveStake (by decide) (by decide) (by decide) paid⟩
    simp only [setNodeStatesTo_apply]
    split_ifs <;> rfl

/-- A deposit of 1, node `1` staked, then a stake request that fails: the node and its unit
of stake are parked in ActivationFailed. -/
theorem V04.stake_parks_failed_nodes_sample :
    ∃ after asyncCall, V04.stakeNodes V04.sampleConfig V04.ownerEnv [⟨[1]⟩]
        (V04.sampleRun [.deposit 1]).storage = .ok (after, asyncCall) ∧
      ∃ parked, V04.runCallback V04.sampleConfig 0 asyncCall.callback (.err "") after =
        .ok parked ∧ parked.nodeState 1 = .activationFailed ∧
        parked.userStake .activationFailed = 1 ∧ parked.userStake .inactive = 0 :=
  ⟨_, _, rfl, _, (@V04.stake_parks_failed_nodes V04.sampleConfig V04.ownerEnv [⟨[1]⟩]
    (V04.sampleRun [.deposit 1]).storage _ _ rfl (by decide) 0 "").2.2, by decide, by decide,
    by decide⟩

/-- Staking keys paid for by the free stake, then an answer of the auction that confirms some
of the nodes and rejects the others (spec §8): the confirmed nodes are Active, the rejected
ones parked in ActivationFailed and every other node is where it was; the free stake is down
by the stake of every node, the Active stake up by that of the confirmed ones, the
ActivationFailed stake up by that of the rejected ones, and no other phase moves. -/
theorem V04.stake_settles_each_node {config : V04.Config} {env : V04.Env}
    {blsKeys : List BLSKey} {before after : V04.Storage} {asyncCall : V04.AsyncCall}
    (ran : V04.stakeNodes config env blsKeys before = .ok (after, asyncCall))
    (paid : blsKeys.length * config.stakePerNode ≤ before.userStake .inactive)
    {nodeIdsOk nodeIdsFail : List Nat}
    (splits : (CallResult.ok nodeIdsOk nodeIdsFail).Splits (blsKeys.map config.reg.getNodeId))
    (blockNonce : UInt64) :
    ∃ settled, V04.runCallback config blockNonce asyncCall.callback
        (.ok nodeIdsOk nodeIdsFail) after = .ok settled ∧
      (∀ n, settled.nodeState n =
        if n ∈ nodeIdsOk then .active
        else if n ∈ nodeIdsFail then .activationFailed else before.nodeState n) ∧
      settled.blNonceOfUnstake = before.blNonceOfUnstake ∧
      settled.userStake =
        Function.update (Function.update (Function.update before.userStake
          .inactive (before.userStake .inactive - blsKeys.length * config.stakePerNode))
          .active (before.userStake .active + nodeIdsOk.length * config.stakePerNode))
          .activationFailed
          (before.userStake .activationFailed + nodeIdsFail.length * config.stakePerNode) := by
  obtain ⟨-, nodeState, loop, performed⟩ := V04.stakeNodes_eq_ok.mp ran
  obtain ⟨-, rfl, rfl⟩ := V04.performStakeNodes_eq_ok.mp performed
  obtain ⟨nodup, -, rfl⟩ := setNodeStates_eq_ok_to V04.stakeTransition_oneShot
    (fun _ _ _ step => (V04.stakeTransition_eq_ok.mp step).2) loop
  have counted : nodeIdsOk.length + nodeIdsFail.length = blsKeys.length := by
    simpa using splits.length_eq
  refine ⟨_, rfl, fun n => ?nodes, rfl, funext fun phase => ?stake⟩
  case nodes =>
    simp only [V04.auctionStakeCallback, V04.auctionStakeCallbackFail,
      V04.auctionStakeCallbackOk, setNodeStatesTo_apply, splits.mem_iff]
    by_cases ok : n ∈ nodeIdsOk
    · simp [ok, splits.not_mem_fail nodup ok]
    · by_cases fail : n ∈ nodeIdsFail <;> simp [ok, fail]
  case stake =>
    have stakeCounted : nodeIdsOk.length * config.stakePerNode +
        nodeIdsFail.length * config.stakePerNode = blsKeys.length * config.stakePerNode := by
      rw [← Nat.add_mul, counted]
    simp only [V04.auctionStakeCallback, V04.auctionStakeCallbackFail,
      V04.auctionStakeCallbackOk, V04.activateFinishFailTransf, V04.activateFinishOkTransf,
      V04.activateStartTransf, List.length_map]
    generalize nodeIdsOk.length * config.stakePerNode = okStake at stakeCounted ⊢
    generalize nodeIdsFail.length * config.stakePerNode = failStake at stakeCounted ⊢
    generalize blsKeys.length * config.stakePerNode = allStake at stakeCounted paid ⊢
    -- each of the three moves finds all it has to move
    have okFits : okStake ≤ before.userStake .pendingActivation + allStake := by omega
    have failFits : failStake ≤ before.userStake .pendingActivation + allStake - okStake := by
      omega
    simp only [reduceCtorEq, if_true, if_false, Nat.min_eq_left paid, Nat.min_eq_left okFits,
      Nat.min_eq_left failFits,
      V04.moveStake_fst_apply (by decide : UserStakeState.pendingActivation ≠ .activationFailed),
      V04.moveStake_fst_apply (by decide : UserStakeState.pendingActivation ≠ .active),
      V04.moveStake_fst_apply (by decide : UserStakeState.inactive ≠ .pendingActivation)]
    cases phase <;> simp only [Function.update_apply, reduceCtorEq, if_true, if_false]
    -- the stake pending activation is back where it was
    omega

/-- Two units deposited and nodes `1` and `2` staked; the auction confirms node `1` and
rejects node `2`: node `1` is Active and node `2` parked in ActivationFailed, with one unit of
stake each. -/
theorem V04.stake_settles_each_node_sample :
    ∃ after asyncCall, V04.stakeNodes V04.sampleConfig V04.ownerEnv [⟨[1]⟩, ⟨[2]⟩]
        (V04.sampleRun [.deposit 2]).storage = .ok (after, asyncCall) ∧
      ∃ settled, V04.runCallback V04.sampleConfig 0 asyncCall.callback (.ok [1] [2]) after =
          .ok settled ∧
        settled.nodeState 1 = .active ∧ settled.nodeState 2 = .activationFailed ∧
        settled.userStake .inactive = 0 ∧ settled.userStake .active = 1 ∧
        settled.userStake .activationFailed = 1 := by
  refine ⟨_, _, rfl, ?_⟩
  obtain ⟨settled, answered, nodes, -, stake⟩ :=
    @V04.stake_settles_each_node V04.sampleConfig V04.ownerEnv [⟨[1]⟩, ⟨[2]⟩]
      (V04.sampleRun [.deposit 2]).storage _ _ rfl (by decide) [1] [2] (by decide) 0
  exact ⟨settled, answered, (nodes 1).trans (by decide), (nodes 2).trans (by decide),
    (congrFun stake _).trans (by decide), (congrFun stake _).trans (by decide),
    (congrFun stake _).trans (by decide)⟩

/-- After a move of an amount its source holds, the target holds at least that amount. -/
theorem V04.le_moveStake_target {source target : V04.UserStakeState} {amount : Nat}
    {userStake : V04.UserStakeState → Nat} (distinct : source ≠ target)
    (enough : amount ≤ userStake source) :
    amount ≤ (V04.moveStake source target amount userStake).1 target := by
  rw [V04.moveStake_fst_apply distinct, if_pos rfl]
  omega

/-- A call that issues a request, then the auction's confirmation of every node of it: the
storage is what the callback leaves, and the request is spent. -/
theorem V04.step_call_confirmed {config : V04.Config} {s : V04.State} {env : V04.Env}
    {call : V04.Call} {blockNonce : UInt64} {before storage after : V04.Storage}
    {asyncCall : V04.AsyncCall} {callback : V04.Callback} {nodeIds : List Nat}
    (ran : V04.runEndpoint config env blockNonce call before = .ok (storage, some asyncCall))
    (issued : asyncCall.callback = ⟨callback, nodeIds⟩)
    (confirmed : V04.runCallback config blockNonce ⟨callback, nodeIds⟩ (.ok nodeIds []) storage =
      .ok after)
    (atBlock : s.blockNonce = blockNonce) (holds : s.storage = before) :
    V04.step config (V04.step config s (.call env call))
        (.deliver ⟨callback, nodeIds⟩ (.ok nodeIds [])) =
      { s with storage := after } := by
  subst atBlock holds
  have called : V04.step config s (.call env call) =
      { s with storage, inFlight := ⟨callback, nodeIds⟩ :: s.inFlight } := by
    simp only [V04.step, ran, V04.registered, issued, List.singleton_append]
  rw [called]
  simp only [V04.step, confirmed, List.erase_cons_head,
    if_pos (And.intro (List.mem_cons_self _ _) (CallResult.splits_confirm nodeIds))]

/-- Staking distinct Inactive nodes, confirmed in full: the nodes are Active, and the stake
of as many nodes has moved from free to active when the free stake pays for them. -/
theorem V04.stake_confirmed {config : V04.Config} {env : V04.Env} {blsKeys : List BLSKey}
    {before : V04.Storage} (owner : env.ownerCalled = true)
    (shareValid : env.validateOwnerStakeShare = .ok ())
    (nodup : (blsKeys.map config.reg.getNodeId).Nodup)
    (idle : ∀ n ∈ blsKeys.map config.reg.getNodeId, before.nodeState n = .inactive)
    (paid : blsKeys.length * config.stakePerNode ≤ before.userStake .inactive)
    (blockNonce : UInt64) :
    ∃ pending asyncCall after,
      V04.runEndpoint config env blockNonce (.stakeNodes blsKeys) before =
        .ok (pending, some asyncCall) ∧
      asyncCall.callback = ⟨.auctionStakeCallback, blsKeys.map config.reg.getNodeId⟩ ∧
      V04.runCallback config blockNonce ⟨.auctionStakeCallback, blsKeys.map config.reg.getNodeId⟩
          (.ok (blsKeys.map config.reg.getNodeId) []) pending = .ok after ∧
      after =
        { before with
          nodeState := setNodeStatesTo .active (blsKeys.map config.reg.getNodeId) before.nodeState
          userStake := (V04.moveStake .inactive .active (blsKeys.length * config.stakePerNode)
            before.userStake).1 } := by
  have loop := setNodeStates_eq_setNodeStatesTo V04.stakeTransition_oneShot
    (fun _ _ _ step => (V04.stakeTransition_eq_ok.mp step).2) nodup
    fun n member => V04.stakeTransition_eq_ok.mpr ⟨idle n member, rfl⟩
  exact ⟨_, _, _, by
    simp only [V04.runEndpoint, V04.stakeNodes, V04.performStakeNodes, require, owner, if_true,
      loop, shareValid, bind, Except.bind, pure, Except.pure, Except.map]
    exact rfl, by rfl, by
    simp only [V04.runCallback, V04.auctionStakeCallback, V04.auctionStakeCallbackFail,
      V04.auctionStakeCallbackOk, V04.activateFinishFailTransf, V04.activateFinishOkTransf,
      V04.activateStartTransf, List.length_map, List.length_nil, Nat.zero_mul,
      V04.moveStake_zero, setNodeStatesTo_nil, setNodeStatesTo_setNodeStatesTo,
      V04.moveStake_moveStake (by decide : UserStakeState.inactive ≠ .pendingActivation)
        (by decide : UserStakeState.pendingActivation ≠ .active) (by decide) paid], rfl⟩

/-- Unstaking distinct Active nodes whose stake is active, confirmed in full in the block
`blockNonce`: the nodes and their stake enter the unbond period, which starts at
`blockNonce`. -/
theorem V04.unstake_confirmed {config : V04.Config} {env : V04.Env} {blsKeys : List BLSKey}
    {before : V04.Storage} (owner : env.ownerCalled = true)
    (nodup : (blsKeys.map config.reg.getNodeId).Nodup)
    (active : ∀ n ∈ blsKeys.map config.reg.getNodeId, before.nodeState n = .active)
    (backed : blsKeys.length * config.stakePerNode ≤ before.userStake .active)
    (blockNonce : UInt64) :
    ∃ pending asyncCall after,
      V04.runEndpoint config env blockNonce (.unStakeNodes blsKeys) before =
        .ok (pending, some asyncCall) ∧
      asyncCall.callback = ⟨.auctionUnstakeCallback, blsKeys.map config.reg.getNodeId⟩ ∧
      V04.runCallback config blockNonce ⟨.auctionUnstakeCallback, blsKeys.map config.reg.getNodeId⟩
          (.ok (blsKeys.map config.reg.getNodeId) []) pending = .ok after ∧
      after =
        { nodeState :=
            setNodeStatesTo .unBondPeriod (blsKeys.map config.reg.getNodeId) before.nodeState
          blNonceOfUnstake :=
            setNodeStatesTo blockNonce (blsKeys.map config.reg.getNodeId) before.blNonceOfUnstake
          userStake := (V04.moveStake .active .unBondPeriod
            (blsKeys.length * config.stakePerNode) before.userStake).1
          unBondPeriodStake := V04.depositDated blockNonce
            (blsKeys.length * config.stakePerNode) before.unBondPeriodStake
          pendingUnBondStake := before.pendingUnBondStake } := by
  have loop := setNodeStates_eq_setNodeStatesTo V04.unstakeTransition_oneShot
    (fun _ _ _ step => (V04.unstakeTransition_eq_ok.mp step).2) nodup
    fun n member => V04.unstakeTransition_eq_ok.mpr ⟨active n member, rfl⟩
  exact ⟨_, _, _, by
    simp only [V04.runEndpoint, V04.unstakeNodes, V04.performUnstakeNodes, require, owner,
      if_true, loop, bind, Except.bind, pure, Except.pure, Except.map]
    exact rfl, by rfl, by
    simp only [V04.runCallback, V04.auctionUnstakeCallback, V04.auctionUnstakeCallbackFail,
      V04.auctionUnstakeCallbackOk, V04.unstakeFinishFailTransf, V04.unstakeFinishOkTransf,
      V04.unstakeStartTransf, List.length_map, List.length_nil, Nat.zero_mul,
      V04.moveStake_zero, setNodeStatesTo_nil, setNodeStatesTo_setNodeStatesTo,
      V04.moveStake_moveStake (by decide : UserStakeState.active ≠ .pendingDeactivation)
        (by decide : UserStakeState.pendingDeactivation ≠ .unBondPeriod) (by decide) backed,
      V04.moveStake_snd_of_le (V04.le_moveStake_target
        (by decide : UserStakeState.active ≠ .pendingDeactivation) backed), Nat.sub_zero], rfl⟩

/-- Unbonding distinct nodes in their unbond period, each past the unbond delay, whose stake
is the last bucket the unbond period received, itself past the delay, confirmed in full: the
nodes are Inactive with no unstake block, their stake is free again, and the bucket is gone
from the unbond flow. -/
theorem V04.unbond_confirmed {config : V04.Config} {blsKeys : List BLSKey}
    {before : V04.Storage} {blockNonce created : UInt64} {rest : List V04.DatedStake}
    (nodup : (blsKeys.map config.reg.getNodeId).Nodup)
    (due : ∀ n ∈ blsKeys.map config.reg.getNodeId, before.nodeState n = .unBondPeriod ∧
      before.blNonceOfUnstake n + config.nBlocksBeforeUnbond < blockNonce)
    (covered : blsKeys.length * config.stakePerNode ≤ before.userStake .unBondPeriod)
    (dated : before.unBondPeriodStake =
      V04.depositDated created (blsKeys.length * config.stakePerNode) rest)
    (old : created + config.nBlocksBeforeUnbond < blockNonce) (env : V04.Env) :
    ∃ pending asyncCall after,
      V04.runEndpoint config env blockNonce (.unBondNodes blsKeys) before =
        .ok (pending, some asyncCall) ∧
      asyncCall.callback = ⟨.auctionUnbondCallback, blsKeys.map config.reg.getNodeId⟩ ∧
      V04.runCallback config blockNonce ⟨.auctionUnbondCallback, blsKeys.map config.reg.getNodeId⟩
          (.ok (blsKeys.map config.reg.getNodeId) []) pending = .ok after ∧
      after =
        { nodeState :=
            setNodeStatesTo .inactive (blsKeys.map config.reg.getNodeId) before.nodeState
          blNonceOfUnstake :=
            setNodeStatesTo 0 (blsKeys.map config.reg.getNodeId) before.blNonceOfUnstake
          userStake := (V04.moveStake .unBondPeriod .inactive
            (blsKeys.length * config.stakePerNode) before.userStake).1
          unBondPeriodStake := rest
          pendingUnBondStake := before.pendingUnBondStake } := by
  have loop := setNodeStates_eq_setNodeStatesTo (V04.unbondTransition_oneShot _ _ _)
    (fun _ _ _ step => (V04.unbondTransition_eq_ok.mp step).2.2) nodup
    fun n member => V04.unbondTransition_eq_ok.mpr ⟨(due n member).1, (due n member).2, rfl⟩
  -- the walk of the unbond meets the bucket first and takes it whole, both times
  have started := @V04.takeDated_depositDated (fun created => decide
    (created + config.nBlocksBeforeUnbond < blockNonce)) _ (decide_eq_true old)
    (blsKeys.length * config.stakePerNode) rest
  have finished := @V04.takeDated_depositDated (fun _ => true) created rfl
    (blsKeys.length * config.stakePerNode) before.pendingUnBondStake
  rw [← dated] at started
  have performed := V04.unbondNodes_eq_ok.mpr ⟨_, loop, V04.performUnbond_eq_ok.mpr
    ⟨by rw [List.length_map]; exact congrArg (·.2.1) started, rfl, rfl⟩⟩
  exact ⟨_, _, _, by rw [V04.runEndpoint, performed]; rfl, by rfl, by
    simp only [V04.runCallback, V04.auctionUnbondCallback, V04.auctionUnbondCallbackOk,
      V04.auctionUnbondCallbackFail, V04.unbondFinishFailTransf, V04.unbondFinishOkTransf,
      V04.unbondStartTransf, List.length_map, List.length_nil, Nat.zero_mul, started, finished,
      V04.takeDated_zero, V04.depositDated_nil_append, List.nil_append, Nat.sub_zero,
      V04.moveStake_zero, setNodeStatesTo_nil, setNodeStatesTo_setNodeStatesTo,
      V04.moveStake_moveStake (by decide : UserStakeState.unBondPeriod ≠ .pendingUnBond)
        (by decide : UserStakeState.pendingUnBond ≠ .inactive) (by decide) covered]
    rfl, rfl⟩

/-- A batch's whole lifecycle in version 0.4, each request confirmed in full by the auction:
the owner stakes the keys and then unstakes them; a block past the unbond delay comes, and
anyone unbonds them. -/
def V04.lifecycleRun (config : V04.Config) (env : V04.Env) (blsKeys : List BLSKey)
    (unbondBlock : UInt64) : List V04.Label :=
  [.call env (.stakeNodes blsKeys),
    .deliver ⟨.auctionStakeCallback, blsKeys.map config.reg.getNodeId⟩
      (.ok (blsKeys.map config.reg.getNodeId) []),
    .call env (.unStakeNodes blsKeys),
    .deliver ⟨.auctionUnstakeCallback, blsKeys.map config.reg.getNodeId⟩
      (.ok (blsKeys.map config.reg.getNodeId) []),
    .newBlock unbondBlock, .call env (.unBondNodes blsKeys),
    .deliver ⟨.auctionUnbondCallback, blsKeys.map config.reg.getNodeId⟩
      (.ok (blsKeys.map config.reg.getNodeId) [])]

/-- The lifecycle of a batch of nodes leaves no trace in version 0.4. Take distinct Inactive
nodes with no unstake block whose stake the free stake pays for, and the owner calling with
a valid owner share. Staking them, unstaking them and, in a block past the unbond delay,
unbonding them, each confirmed in full, gives the storage back exactly as it was: every
node's state and unstake block, and the stake of every phase. The requests in flight are
those of before. -/
theorem V04.lifecycle_round_trip {config : V04.Config} {env : V04.Env} {s : V04.State}
    {blsKeys : List BLSKey} {unbondBlock : UInt64} (owner : env.ownerCalled = true)
    (shareValid : env.validateOwnerStakeShare = .ok ())
    (nodup : (blsKeys.map config.reg.getNodeId).Nodup)
    (idle : ∀ n ∈ blsKeys.map config.reg.getNodeId,
      s.storage.nodeState n = .inactive ∧ s.storage.blNonceOfUnstake n = 0)
    (paid : blsKeys.length * config.stakePerNode ≤ s.storage.userStake .inactive)
    (due : s.blockNonce + config.nBlocksBeforeUnbond < unbondBlock) :
    run (V04.step config) s (V04.lifecycleRun config env blsKeys unbondBlock) =
      { s with blockNonce := unbondBlock } := by
  obtain ⟨_, _, staked, stakeRan, stakeIssued, stakeConfirmed, stakedEq⟩ :=
    V04.stake_confirmed owner shareValid nodup (fun n member => (idle n member).1) paid
      s.blockNonce
  have activated : blsKeys.length * config.stakePerNode ≤ staked.userStake .active := by
    rw [stakedEq]
    exact V04.le_moveStake_target (by decide : UserStakeState.inactive ≠ .active) paid
  obtain ⟨_, _, unstaked, unstakeRan, unstakeIssued, unstakeConfirmed, unstakedEq⟩ :=
    V04.unstake_confirmed owner nodup
      (fun n member => by simp only [stakedEq, setNodeStatesTo_apply, if_pos member])
      activated s.blockNonce
  have unbonding : blsKeys.length * config.stakePerNode ≤ unstaked.userStake .unBondPeriod := by
    rw [unstakedEq]
    exact V04.le_moveStake_target (by decide : UserStakeState.active ≠ .unBondPeriod) activated
  obtain ⟨_, _, unbonded, unbondRan, unbondIssued, unbondConfirmed, unbondedEq⟩ :=
    V04.unbond_confirmed nodup
      (fun n member => by
        simpa only [unstakedEq, setNodeStatesTo_apply, if_pos member, true_and] using due)
      unbonding (by rw [unstakedEq]) due env
  simp only [V04.lifecycleRun, run, List.foldl]
  rw [V04.step_call_confirmed stakeRan stakeIssued stakeConfirmed rfl rfl,
    V04.step_call_confirmed unstakeRan unstakeIssued unstakeConfirmed,
    V04.step_call_confirmed unbondRan unbondIssued unbondConfirmed]
  · -- each phase undoes the one before it
    have restored : unbonded = s.storage := by
      rw [unbondedEq, unstakedEq, stakedEq]
      simp only [setNodeStatesTo_setNodeStatesTo,
        setNodeStatesTo_of_forall fun n member => (idle n member).1,
        setNodeStatesTo_of_forall fun n member => (idle n member).2,
        V04.moveStake_moveStake (by decide : UserStakeState.inactive ≠ .active)
          (by decide : UserStakeState.active ≠ .unBondPeriod) (by decide) paid,
        V04.moveStake_moveStake_back (by decide : UserStakeState.inactive ≠ .unBondPeriod) paid]
    rw [restored]
    rfl
  all_goals rfl

/-- Two units deposited; nodes `1` and `2` staked, unstaked and, at block 61, unbonded: the
contract is back where it was, at block 61. -/
theorem V04.lifecycle_round_trip_sample :
    run (V04.step V04.sampleConfig) (V04.sampleRun [.deposit 2])
        (V04.lifecycleRun V04.sampleConfig V04.ownerEnv [⟨[1]⟩, ⟨[2]⟩] 61) =
      { V04.sampleRun [.deposit 2] with blockNonce := 61 } :=
  V04.lifecycle_round_trip rfl rfl (by decide) (by decide) (by decide) (by decide)

/-! ### A whole lifecycle in the latest version -/

/-- The environment lets the owner through every check but the funds one: the owner calls,
the contract is out of bootstrap mode, no global operation runs, and the owner's share is
valid. -/
structure Latest.Env.OwnerClear (env : Latest.Env) : Prop where
  owner : env.ownerCalled = true
  bootstrap : env.isBootstrapMode = false
  globalOp : env.isGlobalOpInProgress = false
  shareValid : env.validateOwnerStakeShare = .ok ()

/-- A call that issues a request, then the auction's confirmation of every node of it: the
nodes are as the callback leaves them, and the request is spent. -/
theorem Latest.step_call_confirmed {reg : NodeRegistry} {s : Latest.State} {env : Latest.Env}
    {call : Latest.Call} {blockNonce : UInt64} {before pending after : Nat → Latest.NodeState}
    {asyncCall : Latest.AsyncCall} {closure : Latest.CallbackClosure}
    (ran : Latest.runEndpoint reg env call before = .ok (pending, some asyncCall))
    (issued : asyncCall.callback = some closure)
    (confirmed : Latest.runCallback blockNonce closure (.ok closure.nodeIds []) pending =
      .ok after)
    (atBlock : s.blockNonce = blockNonce) (holds : s.nodeState = before) :
    Latest.step reg (Latest.step reg s (.call env call)) (.deliver closure (.ok closure.nodeIds [])) =
      { s with nodeState := after } := by
  obtain ⟨call, _⟩ := asyncCall
  subst issued atBlock holds
  simp only [Latest.step, ran, Latest.registered, List.singleton_append, List.erase_cons_head,
    if_pos (And.intro (List.mem_cons_self _ _) (CallResult.splits_confirm closure.nodeIds)),
    confirmed]

section LatestLifecycle

variable {reg : NodeRegistry} {env : Latest.Env} {blsKeys : List BLSKey}
  {before : Nat → Latest.NodeState}

/-- Staking distinct registered Inactive nodes, confirmed in full: they are Active. -/
theorem Latest.stake_confirmed (clear : env.OwnerClear) {amountToStake : Nat}
    (funded : amountToStake ≤ env.totalUnprotected)
    (known : ∀ blsKey ∈ blsKeys, reg.getNodeId blsKey ≠ 0)
    (nodup : (blsKeys.map reg.getNodeId).Nodup)
    (idle : ∀ n ∈ blsKeys.map reg.getNodeId, before n = .inactive) (blockNonce : UInt64) :
    ∃ pending asyncCall,
      Latest.runEndpoint reg env (.stakeNodes amountToStake blsKeys) before =
        .ok (pending, some asyncCall) ∧
      asyncCall.callback = some ⟨.auctionStakeCallback, blsKeys.map reg.getNodeId⟩ ∧
      Latest.runCallback blockNonce ⟨.auctionStakeCallback, blsKeys.map reg.getNodeId⟩
        (.ok (blsKeys.map reg.getNodeId) []) pending =
          .ok (setNodeStatesTo .active (blsKeys.map reg.getNodeId) before) := by
  have loop := setNodeStates_eq_setNodeStatesTo Latest.stakeTransition_oneShot
    (fun _ _ _ step => (Latest.stakeTransition_eq_ok.mp step).2.2) nodup fun n member =>
      Latest.stakeTransition_eq_ok.mpr ⟨by
        obtain ⟨key, keyMember, rfl⟩ := List.mem_map.mp member
        exact known key keyMember, idle n member, rfl⟩
  have ran := Latest.stakeNodes_eq_ok.mpr
    ⟨clear.owner, clear.bootstrap, clear.globalOp, funded, clear.shareValid, loop, rfl⟩
  exact ⟨_, _, by simp only [Latest.runEndpoint, ran, Except.map]; exact rfl, by rfl, by
    simp only [Latest.runCallback, Latest.auctionStakeCallback, Latest.auctionStakeCallbackFail,
      Latest.auctionStakeCallbackOk, setNodeStatesTo_nil, setNodeStatesTo_setNodeStatesTo]⟩

/-- Unstaking distinct registered Active nodes, confirmed in full in the block `blockNonce`:
their unbond period starts at `blockNonce`. -/
theorem Latest.unstake_confirmed (clear : env.OwnerClear)
    (known : ∀ blsKey ∈ blsKeys, reg.getNodeId blsKey ≠ 0)
    (nodup : (blsKeys.map reg.getNodeId).Nodup)
    (active : ∀ n ∈ blsKeys.map reg.getNodeId, before n = .active) (blockNonce : UInt64) :
    ∃ pending asyncCall,
      Latest.runEndpoint reg env (.unStakeNodes blsKeys) before =
        .ok (pending, some asyncCall) ∧
      asyncCall.callback = some ⟨.auctionUnstakeCallback, blsKeys.map reg.getNodeId⟩ ∧
      Latest.runCallback blockNonce ⟨.auctionUnstakeCallback, blsKeys.map reg.getNodeId⟩
        (.ok (blsKeys.map reg.getNodeId) []) pending =
          .ok (setNodeStatesTo (.unBondPeriod blockNonce) (blsKeys.map reg.getNodeId) before) := by
  have loop := setNodeStates_eq_setNodeStatesTo Latest.unstakeTransition_oneShot
    (fun _ _ _ step => (Latest.unstakeTransition_eq_ok.mp step).2) nodup fun n member =>
      Latest.unstakeTransition_eq_ok.mpr ⟨active n member, rfl⟩
  have ran := (@Latest.unstakeNodes_eq_ok reg env false blsKeys before _ _).mpr
    ⟨clear.owner, clear.globalOp, known, loop, rfl⟩
  exact ⟨_, _, by simp only [Latest.runEndpoint, ran, Except.map]; exact rfl, by rfl, by
    simp only [Latest.runCallback, Latest.auctionUnstakeCallback,
      Latest.auctionUnstakeCallbackFail, Latest.auctionUnstakeCallbackOk, setNodeStatesTo_nil,
      setNodeStatesTo_setNodeStatesTo]⟩

/-- Unbonding distinct registered nodes whose unbond period started at `started`, confirmed
in full: they are Inactive. The latest version waits for no delay before an unbond. -/
theorem Latest.unbond_confirmed (clear : env.OwnerClear) (nonempty : blsKeys ≠ [])
    (known : ∀ blsKey ∈ blsKeys, reg.getNodeId blsKey ≠ 0)
    (nodup : (blsKeys.map reg.getNodeId).Nodup) {started : UInt64}
    (unbonding : ∀ n ∈ blsKeys.map reg.getNodeId, before n = .unBondPeriod started)
    (blockNonce : UInt64) :
    ∃ pending asyncCall,
      Latest.runEndpoint reg env (.unBondNodes blsKeys) before =
        .ok (pending, some asyncCall) ∧
      asyncCall.callback = some ⟨.auctionUnbondCallback, blsKeys.map reg.getNodeId⟩ ∧
      Latest.runCallback blockNonce ⟨.auctionUnbondCallback, blsKeys.map reg.getNodeId⟩
        (.ok (blsKeys.map reg.getNodeId) []) pending =
          .ok (setNodeStatesTo .inactive (blsKeys.map reg.getNodeId) before) := by
  have loop : setNodeStates Latest.unbondTransition (blsKeys.map reg.getNodeId) before =
      .ok (setNodeStatesTo (.pendingUnBond started) (blsKeys.map reg.getNodeId) before) :=
    (setNodeStates_eq_ok_iff Latest.unbondTransition_oneShot).mpr ⟨nodup, fun n member => by
      rw [setNodeStatesTo_apply, if_pos member]
      obtain ⟨key, keyMember, rfl⟩ := List.mem_map.mp member
      exact Latest.unbondTransition_eq_ok.mpr ⟨known key keyMember, started,
        unbonding _ (List.mem_map_of_mem _ keyMember), rfl⟩,
      fun n notMember => by rw [setNodeStatesTo_apply, if_neg notMember]⟩
  have ran := Latest.unbondSpecificNodes_eq_ok.mpr
    ⟨clear.owner, clear.globalOp, nonempty, loop, rfl⟩
  exact ⟨_, _, by simp only [Latest.runEndpoint, ran, Except.map]; exact rfl, by rfl, by
    simp only [Latest.runCallback, Latest.auctionUnbondCallback, Latest.auctionUnbondCallbackFail,
      Latest.auctionUnbondCallbackOk, setNodeStates, setNodeStatesTo_setNodeStatesTo]⟩

end LatestLifecycle

/-- A batch's whole lifecycle in the latest version, each request confirmed in full by the
auction: the owner stakes the keys, unstakes them and unbonds them. -/
def Latest.lifecycleRun (reg : NodeRegistry) (env : Latest.Env) (amountToStake : Nat)
    (blsKeys : List BLSKey) : List Latest.Label :=
  [.call env (.stakeNodes amountToStake blsKeys),
    .deliver ⟨.auctionStakeCallback, blsKeys.map reg.getNodeId⟩
      (.ok (blsKeys.map reg.getNodeId) []),
    .call env (.unStakeNodes blsKeys),
    .deliver ⟨.auctionUnstakeCallback, blsKeys.map reg.getNodeId⟩
      (.ok (blsKeys.map reg.getNodeId) []),
    .call env (.unBondNodes blsKeys),
    .deliver ⟨.auctionUnbondCallback, blsKeys.map reg.getNodeId⟩
      (.ok (blsKeys.map reg.getNodeId) [])]

/-- The lifecycle of a batch of nodes leaves no trace in the latest version, and needs no
block to pass. Take a non-empty list of registered keys naming distinct Inactive nodes, and
the owner calling with every check passing and the funds to stake. Staking the nodes,
unstaking them and unbonding them, each confirmed in full, gives back the contract state
exactly: every node's state, the block, and the requests in flight. -/
theorem Latest.lifecycle_leaves_no_trace {reg : NodeRegistry} {env : Latest.Env}
    {s : Latest.State} {amountToStake : Nat} {blsKeys : List BLSKey} (clear : env.OwnerClear)
    (funded : amountToStake ≤ env.totalUnprotected) (nonempty : blsKeys ≠ [])
    (known : ∀ blsKey ∈ blsKeys, reg.getNodeId blsKey ≠ 0)
    (nodup : (blsKeys.map reg.getNodeId).Nodup)
    (idle : ∀ n ∈ blsKeys.map reg.getNodeId, s.nodeState n = .inactive) :
    run (Latest.step reg) s (Latest.lifecycleRun reg env amountToStake blsKeys) = s := by
  obtain ⟨_, _, stakeRan, stakeIssued, stakeConfirmed⟩ :=
    Latest.stake_confirmed clear funded known nodup idle s.blockNonce
  obtain ⟨_, _, unstakeRan, unstakeIssued, unstakeConfirmed⟩ :=
    @Latest.unstake_confirmed reg env blsKeys
      (setNodeStatesTo .active (blsKeys.map reg.getNodeId) s.nodeState) clear known
      nodup (fun n member => by rw [setNodeStatesTo_apply, if_pos member]) s.blockNonce
  obtain ⟨_, _, unbondRan, unbondIssued, unbondConfirmed⟩ :=
    @Latest.unbond_confirmed reg env blsKeys
      (setNodeStatesTo (.unBondPeriod s.blockNonce) (blsKeys.map reg.getNodeId)
        (setNodeStatesTo .active (blsKeys.map reg.getNodeId) s.nodeState))
      clear nonempty known nodup s.blockNonce
      (fun n member => by rw [setNodeStatesTo_apply, if_pos member]) s.blockNonce
  simp only [Latest.lifecycleRun, run, List.foldl]
  rw [Latest.step_call_confirmed stakeRan stakeIssued stakeConfirmed,
    Latest.step_call_confirmed unstakeRan unstakeIssued unstakeConfirmed,
    Latest.step_call_confirmed unbondRan unbondIssued unbondConfirmed]
  · simp only [setNodeStatesTo_setNodeStatesTo, setNodeStatesTo_of_forall idle]
  all_goals rfl

/-- Nodes `1` and `2` staked, unstaked and unbonded from the initial state: the contract is
back in it. -/
theorem Latest.lifecycle_leaves_no_trace_sample :
    run (Latest.step sampleRegistry) (Latest.initial 0)
        (Latest.lifecycleRun sampleRegistry Latest.ownerEnv 0 [⟨[1]⟩, ⟨[2]⟩]) =
      Latest.initial 0 :=
  Latest.lifecycle_leaves_no_trace ⟨rfl, rfl, rfl, rfl⟩ (Nat.le_refl 0) (by decide) (by decide)
    (by decide) (by decide)

end Delegation
