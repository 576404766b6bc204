/-
Module: Delegation.Latest.Endpoints
Layer: Proofs
Purpose: One lemma per endpoint and per callback of the latest module saying what it does,
  whole, so that the run-level results never unfold them. A successful call either leaves
  the nodes alone or issues one request whose distinct, registered nodes all move from the
  state their flow starts in to the pending state its callback waits on (`Issues`). A
  callback whose nodes all wait on it succeeds and settles each of them by the auction's
  verdict, touching nothing else (`runCallback_eq`). The scan of `unBondAllPossibleNodes`
  is computed in closed form.
Trusted boundary: none
Main exports: NodeState.isPending, Awaits, Enters, settle, Issues, runEndpoint_issues,
  runCallback_eq, scanIds, unbondAllPossibleNodesLoop_eq, unbondSpecificNodes_eq_ok
-/
import Delegation.Latest.NodeActivation

namespace Delegation.Latest

/-! ### Pending states and the moves into and out of them -/

/-- The states that exist only while a request for the node is outstanding (spec §4.2). -/
def NodeState.isPending : NodeState → Bool
  | .pendingActivation | .pendingDeactivation | .pendingUnBond _ => true
  | _ => false

/-- The pending state a callback expects each of its nodes to be in. -/
def Awaits : Callback → NodeState → Prop
  | .auctionStakeCallback, state => state = .pendingActivation
  | .auctionUnstakeCallback, state => state = .pendingDeactivation
  | .auctionUnbondCallback, state => ∃ started, state = .pendingUnBond started

theorem Awaits.isPending {callback : Callback} {state : NodeState}
    (awaits : Awaits callback state) : state.isPending := by
  cases callback with
  | auctionStakeCallback => cases awaits; rfl
  | auctionUnstakeCallback => cases awaits; rfl
  | auctionUnbondCallback => obtain ⟨_, rfl⟩ := awaits; rfl

/-- The move a request makes a node take when it is issued: from the state its flow
starts in to the pending state its callback waits on. -/
def Enters : Callback → NodeState → NodeState → Prop
  | .auctionStakeCallback, before, after => before = .inactive ∧ after = .pendingActivation
  | .auctionUnstakeCallback, before, after => before = .active ∧ after = .pendingDeactivation
  | .auctionUnbondCallback, before, after =>
      ∃ started, before = .unBondPeriod started ∧ after = .pendingUnBond started

namespace Enters

variable {callback : Callback} {before after : NodeState}

theorem awaits (enters : Enters callback before after) : Awaits callback after := by
  cases callback with
  | auctionStakeCallback => exact enters.2
  | auctionUnstakeCallback => exact enters.2
  | auctionUnbondCallback => obtain ⟨started, -, rfl⟩ := enters; exact ⟨started, rfl⟩

theorem not_isPending (enters : Enters callback before after) : before.isPending = false := by
  cases callback with
  | auctionStakeCallback => rw [enters.1]; rfl
  | auctionUnstakeCallback => rw [enters.1]; rfl
  | auctionUnbondCallback => obtain ⟨_, rfl, -⟩ := enters; rfl

end Enters

/-- What a callback makes of one of its nodes, given whether the auction failed it: the
confirm or the revert transition of spec §4.2. -/
def settle (blockNonce : UInt64) : Callback → Bool → NodeState → NodeState
  | .auctionStakeCallback, failed, _ => if failed then .inactive else .active
  | .auctionUnstakeCallback, failed, _ =>
      if failed then .active else .unBondPeriod blockNonce
  | .auctionUnbondCallback, failed, state =>
      if failed then
        match state with
        | .pendingUnBond unbondStarted => .unBondPeriod unbondStarted
        | state => state
      else .inactive

theorem settle_not_isPending {blockNonce : UInt64} {callback : Callback} {failed : Bool}
    {state : NodeState} (awaits : Awaits callback state) :
    (settle blockNonce callback failed state).isPending = false := by
  cases callback with
  | auctionStakeCallback => cases failed <;> rfl
  | auctionUnstakeCallback => cases failed <;> rfl
  | auctionUnbondCallback => obtain ⟨_, rfl⟩ := awaits; cases failed <;> rfl

/-! ### The per-node transitions -/

@[simp] theorem stakeTransition_eq_ok {nodeId : Nat} {state state' : NodeState} :
    stakeTransition nodeId state = .ok state' ↔
      nodeId ≠ 0 ∧ state = .inactive ∧ state' = .pendingActivation := by
  simp [stakeTransition, bind_eq_ok, pure, Except.pure, @eq_comm _ NodeState.pendingActivation]

@[simp] theorem unstakeTransition_eq_ok {nodeId : Nat} {state state' : NodeState} :
    unstakeTransition nodeId state = .ok state' ↔
      state = .active ∧ state' = .pendingDeactivation := by
  simp [unstakeTransition, bind_eq_ok, pure, Except.pure,
    @eq_comm _ NodeState.pendingDeactivation]

@[simp] theorem unbondTransition_eq_ok {nodeId : Nat} {state state' : NodeState} :
    unbondTransition nodeId state = .ok state' ↔
      nodeId ≠ 0 ∧ ∃ started, state = .unBondPeriod started ∧
        state' = .pendingUnBond started := by
  cases state <;>
    simp [unbondTransition, prepareNodeForUnbondIfPossible, bind_eq_ok, pure, Except.pure,
      @eq_comm _ (NodeState.pendingUnBond _)]

@[simp] theorem unbondFailTransition_eq_ok {nodeId : Nat} {state state' : NodeState} :
    unbondFailTransition nodeId state = .ok state' ↔
      ∃ started, state = .pendingUnBond started ∧ state' = .unBondPeriod started := by
  cases state <;> simp [unbondFailTransition, eq_comm]

theorem stakeTransition_oneShot : OneShot stakeTransition := by
  intro _ _ _ moved _; simp_all

theorem unstakeTransition_oneShot : OneShot unstakeTransition := by
  intro _ _ _ moved _; simp_all

theorem unbondTransition_oneShot : OneShot unbondTransition := by
  intro _ _ _ moved _; simp only [unbondTransition_eq_ok] at moved ⊢; aesop

theorem unbondFailTransition_oneShot : OneShot unbondFailTransition := by
  intro _ _ _ moved _; simp only [unbondFailTransition_eq_ok] at moved ⊢; aesop

/-! ### Endpoints -/

section Endpoints

variable {reg : NodeRegistry} {env : Env}

/-- What a successful call does to the nodes: each request it issues names distinct
registered nodes that all enter the request's pending state, and no other node changes. -/
structure Issues (reg : NodeRegistry) (before after : Nat → NodeState)
    (closures : List CallbackClosure) : Prop where
  nodup : ∀ c ∈ closures, c.nodeIds.Nodup
  registered : ∀ c ∈ closures, ∀ n ∈ c.nodeIds, 1 ≤ n ∧ n ≤ reg.numNodes
  enters : ∀ c ∈ closures, ∀ n ∈ c.nodeIds, Enters c.callback (before n) (after n)
  frame : ∀ n, (∀ c ∈ closures, n ∉ c.nodeIds) → after n = before n

theorem Issues.none (nodeState : Nat → NodeState) : Issues reg nodeState nodeState [] :=
  ⟨by simp, by simp, by simp, fun _ _ => rfl⟩

/-- A checked loop over keys' ids issues one request for them, when each step it admits is
the request's entry move and the ids are non-zero. -/
theorem issues_of_setNodeStates {next : Nat → NodeState → Except String NodeState}
    (callback : Callback) (oneShot : OneShot next)
    (enters : ∀ n state state', next n state = .ok state' → Enters callback state state')
    {blsKeys : List BLSKey} {before after : Nat → NodeState}
    (nonzero : ∀ n ∈ blsKeys.map reg.getNodeId, n ≠ 0)
    (loop : setNodeStates next (blsKeys.map reg.getNodeId) before = .ok after) :
    Issues reg before after [⟨callback, blsKeys.map reg.getNodeId⟩] := by
  obtain ⟨nodup, moved, frame⟩ := (setNodeStates_eq_ok_iff oneShot).mp loop
  refine ⟨by simpa using nodup, ?_, ?_, ?_⟩
  · simp only [List.mem_singleton, forall_eq]
    intro n member
    obtain ⟨key, -, rfl⟩ := List.mem_map.mp member
    exact ⟨Nat.pos_of_ne_zero (nonzero _ member), reg.getNodeId_le key⟩
  · simp only [List.mem_singleton, forall_eq]
    exact fun n member => enters _ _ _ (moved n member)
  · simpa using frame

theorem stakeNodes_eq_ok {amountToStake : Nat} {blsKeys : List BLSKey}
    {before after : Nat → NodeState} {asyncCall : AsyncCall} :
    stakeNodes reg env amountToStake blsKeys before = .ok (after, asyncCall) ↔
      env.ownerCalled = true ∧ env.isBootstrapMode = false ∧
        env.isGlobalOpInProgress = false ∧ amountToStake ≤ env.totalUnprotected ∧
        env.validateOwnerStakeShare = .ok () ∧
        setNodeStates stakeTransition (blsKeys.map reg.getNodeId) before = .ok after ∧
        asyncCall = performStakeNodes (blsKeys.map reg.getNodeId)
          (blsKeys.map fun blsKey => (blsKey, reg.getNodeSignature (reg.getNodeId blsKey)))
          amountToStake := by
  simp only [stakeNodes, requireNoGlobalOp, bind_eq_ok, require_eq_ok, pure, Except.pure,
    Except.ok.injEq, Prod.mk.injEq, Unique.exists_iff, Bool.not_eq_true', decide_eq_true_eq]
  constructor
  · rintro ⟨owner, bootstrap, globalOp, funded, share, _, loop, rfl, rfl⟩
    exact ⟨owner, bootstrap, globalOp, funded, share, loop, rfl⟩
  · rintro ⟨owner, bootstrap, globalOp, funded, share, loop, rfl⟩
    exact ⟨owner, bootstrap, globalOp, funded, share, _, loop, rfl, rfl⟩

theorem stakeNodes_issues {amountToStake : Nat} {blsKeys : List BLSKey}
    {before after : Nat → NodeState} {asyncCall : AsyncCall}
    (ran : stakeNodes reg env amountToStake blsKeys before = .ok (after, asyncCall)) :
    Issues reg before after (registered (some asyncCall)) := by
  obtain ⟨-, -, -, -, -, loop, rfl⟩ := stakeNodes_eq_ok.mp ran
  have moved := ((setNodeStates_eq_ok_iff stakeTransition_oneShot).mp loop).2.1
  exact issues_of_setNodeStates .auctionStakeCallback stakeTransition_oneShot
    (fun _ _ _ step => (stakeTransition_eq_ok.mp step).2)
    (fun n member => (stakeTransition_eq_ok.mp (moved n member)).1) loop

theorem unstakeNodes_eq_ok {unstakeTokens : Bool} {blsKeys : List BLSKey}
    {before after : Nat → NodeState} {asyncCall : AsyncCall} :
    unstakeNodes reg env unstakeTokens blsKeys before = .ok (after, asyncCall) ↔
      env.ownerCalled = true ∧ env.isGlobalOpInProgress = false ∧
        (∀ blsKey ∈ blsKeys, reg.getNodeId blsKey ≠ 0) ∧
        setNodeStates unstakeTransition (blsKeys.map reg.getNodeId) before = .ok after ∧
        asyncCall =
          { call := if unstakeTokens then .unStake blsKeys else .unStakeNodes blsKeys
            callback := some ⟨.auctionUnstakeCallback, blsKeys.map reg.getNodeId⟩ } := by
  simp only [unstakeNodes, performUnstakeNodes, requireNoGlobalOp, bind_eq_ok, require_eq_ok,
    pure, Except.pure, Except.ok.injEq, Prod.mk.injEq, Unique.exists_iff, Bool.not_eq_true',
    List.all_eq_true, List.forall_mem_map, bne_iff_ne, ne_eq]
  constructor
  · rintro ⟨owner, globalOp, known, _, loop, rfl, rfl⟩
    exact ⟨owner, globalOp, known, loop, rfl⟩
  · rintro ⟨owner, globalOp, known, loop, rfl⟩
    exact ⟨owner, globalOp, known, _, loop, rfl, rfl⟩

theorem unstakeNodes_issues {unstakeTokens : Bool} {blsKeys : List BLSKey}
    {before after : Nat → NodeState} {asyncCall : AsyncCall}
    (ran : unstakeNodes reg env unstakeTokens blsKeys before = .ok (after, asyncCall)) :
    Issues reg before after (registered (some asyncCall)) := by
  obtain ⟨-, -, known, loop, rfl⟩ := unstakeNodes_eq_ok.mp ran
  exact issues_of_setNodeStates .auctionUnstakeCallback unstakeTransition_oneShot
    (fun _ _ _ step => unstakeTransition_eq_ok.mp step)
    (fun n member => by obtain ⟨key, keyMember, rfl⟩ := List.mem_map.mp member; exact known key keyMember)
    loop

theorem unbondSpecificNodes_eq_ok {blsKeys : List BLSKey} {before after : Nat → NodeState}
    {asyncCall : AsyncCall} :
    unbondSpecificNodes reg env blsKeys before = .ok (after, asyncCall) ↔
      env.ownerCalled = true ∧ env.isGlobalOpInProgress = false ∧ blsKeys ≠ [] ∧
        setNodeStates unbondTransition (blsKeys.map reg.getNodeId) before = .ok after ∧
        asyncCall = performUnbond (blsKeys.map reg.getNodeId) blsKeys := by
  simp only [unbondSpecificNodes, requireNoGlobalOp, bind_eq_ok, require_eq_ok,
    pure, Except.pure, Except.ok.injEq, Prod.mk.injEq, Unique.exists_iff, Bool.not_eq_true',
    List.isEmpty_eq_false, ne_eq]
  constructor
  · rintro ⟨owner, globalOp, nonempty, _, loop, rfl, rfl⟩
    exact ⟨owner, globalOp, nonempty, loop, rfl⟩
  · rintro ⟨owner, globalOp, nonempty, loop, rfl⟩
    exact ⟨owner, globalOp, nonempty, _, loop, rfl, rfl⟩

theorem unbondSpecificNodes_issues {blsKeys : List BLSKey} {before after : Nat → NodeState}
    {asyncCall : AsyncCall}
    (ran : unbondSpecificNodes reg env blsKeys before = .ok (after, asyncCall)) :
    Issues reg before after (registered (some asyncCall)) := by
  obtain ⟨-, -, -, loop, rfl⟩ := unbondSpecificNodes_eq_ok.mp ran
  have moved := ((setNodeStates_eq_ok_iff unbondTransition_oneShot).mp loop).2.1
  exact issues_of_setNodeStates .auctionUnbondCallback unbondTransition_oneShot
    (fun _ _ _ step => (unbondTransition_eq_ok.mp step).2)
    (fun n member => (unbondTransition_eq_ok.mp (moved n member)).1) loop

/-! ### The descending scan -/

/-- The ids the scan from `top` prepares: those in `1..top` whose node is in its unbond
period, highest first. -/
def scanIds (top : Nat) (nodeState : Nat → NodeState) : List Nat :=
  (List.range' 1 top).reverse.filter fun n =>
    (prepareNodeForUnbondIfPossible (nodeState n)).isSome

/-- The node states the scan from `top` leaves. -/
def scanned (top : Nat) (nodeState : Nat → NodeState) (n : Nat) : NodeState :=
  if 1 ≤ n ∧ n ≤ top then (prepareNodeForUnbondIfPossible (nodeState n)).getD (nodeState n)
  else nodeState n

theorem scanIds_succ (top : Nat) (nodeState : Nat → NodeState) :
    scanIds (top + 1) nodeState =
      if (prepareNodeForUnbondIfPossible (nodeState (top + 1))).isSome then
        (top + 1) :: scanIds top nodeState
      else scanIds top nodeState := by
  simp only [scanIds, List.range'_concat, List.reverse_append, List.reverse_singleton,
    List.singleton_append, List.filter_cons, Nat.one_mul, Nat.add_comm 1 top]

/-- The scan below `top` does not read the node above it. -/
theorem scanIds_update_succ (top : Nat) (nodeState : Nat → NodeState) (state : NodeState) :
    scanIds top (Function.update nodeState (top + 1) state) = scanIds top nodeState := by
  refine List.filter_congr fun n member => ?_
  rw [List.mem_reverse, List.mem_range'_1] at member
  rw [Function.update_noteq (by omega)]

theorem scanned_above (top : Nat) (nodeState : Nat → NodeState) {n : Nat} (above : top < n) :
    scanned top nodeState n = nodeState n := by
  unfold scanned; rw [if_neg (by omega)]

theorem scanned_succ (top : Nat) (nodeState : Nat → NodeState) :
    scanned (top + 1) nodeState =
      Function.update (scanned top nodeState) (top + 1)
        ((prepareNodeForUnbondIfPossible (nodeState (top + 1))).getD (nodeState (top + 1))) := by
  funext n
  by_cases here : n = top + 1
  · subst here; simp [scanned]
  · rw [Function.update_noteq here]; unfold scanned; split_ifs <;> first | rfl | omega

theorem scanned_update_succ (top : Nat) (nodeState : Nat → NodeState) (state : NodeState) :
    scanned top (Function.update nodeState (top + 1) state) =
      Function.update (scanned top nodeState) (top + 1) state := by
  funext n
  by_cases here : n = top + 1
  · subst here
    rw [Function.update_same, scanned_above _ _ (Nat.lt_succ_self top), Function.update_same]
  · rw [Function.update_noteq here]; unfold scanned; rw [Function.update_noteq here]

theorem unbondAllPossibleNodesLoop_eq (top : Nat) (nodeState : Nat → NodeState) :
    unbondAllPossibleNodesLoop reg top nodeState =
      (scanIds top nodeState, (scanIds top nodeState).map reg.getNodeIdToBls,
        scanned top nodeState) := by
  induction top generalizing nodeState with
  | zero =>
      have : scanned 0 nodeState = nodeState := funext fun n => by unfold scanned; rw [if_neg (by omega)]
      simp [unbondAllPossibleNodesLoop, scanIds, this]
  | succ top inductionHypothesis =>
      rw [scanIds_succ, scanned_succ]
      cases prepared : prepareNodeForUnbondIfPossible (nodeState (top + 1)) with
      | none =>
          simp only [unbondAllPossibleNodesLoop, prepared, inductionHypothesis,
            Option.isSome_none, Bool.false_eq_true, if_false, Option.getD_none]
          rw [← scanned_above top nodeState (Nat.lt_succ_self top), Function.update_eq_self]
      | some state =>
          simp only [unbondAllPossibleNodesLoop, prepared, inductionHypothesis,
            scanIds_update_succ, scanned_update_succ, Option.isSome_some, if_true,
            List.map_cons, Option.getD_some]

theorem unbondAllPossibleNodes_eq_ok {before after : Nat → NodeState}
    {asyncCall : Option AsyncCall} :
    unbondAllPossibleNodes reg env before = .ok (after, asyncCall) ↔
      env.ownerCalled = true ∧ env.isGlobalOpInProgress = false ∧
        after = scanned reg.numNodes before ∧
        asyncCall =
          if scanIds reg.numNodes before = [] then none
          else some (performUnbond (scanIds reg.numNodes before)
            ((scanIds reg.numNodes before).map reg.getNodeIdToBls)) := by
  simp only [unbondAllPossibleNodes, unbondAllPossibleNodesLoop_eq, requireNoGlobalOp,
    bind_eq_ok, require_eq_ok, Unique.exists_iff, Bool.not_eq_true', List.isEmpty_iff]
  split <;> simp only [pure, Except.pure, Except.ok.injEq, Prod.mk.injEq, if_pos, if_neg, *] <;>
    exact ⟨fun ⟨owner, globalOp, same, call⟩ => ⟨owner, globalOp, same.symm, call.symm⟩,
      fun ⟨owner, globalOp, same, call⟩ => ⟨owner, globalOp, same.symm, call.symm⟩⟩

/-- A node the scan prepares entered its pending-unbond state; every other node is as it
was. -/
theorem scanned_of_mem {top : Nat} {nodeState : Nat → NodeState} {n : Nat}
    (member : n ∈ scanIds top nodeState) :
    ∃ started, nodeState n = .unBondPeriod started ∧
      scanned top nodeState n = .pendingUnBond started := by
  simp only [scanIds, List.mem_filter, List.mem_reverse, List.mem_range'_1] at member
  obtain ⟨bounds, prepared⟩ := member
  revert prepared
  simp only [scanned, bounds.1, show n ≤ top by omega, and_self, if_true]
  cases nodeState n <;> simp [prepareNodeForUnbondIfPossible]

theorem scanned_of_not_mem {top : Nat} {nodeState : Nat → NodeState} {n : Nat}
    (notMember : n ∉ scanIds top nodeState) : scanned top nodeState n = nodeState n := by
  simp only [scanIds, List.mem_filter, List.mem_reverse, List.mem_range'_1, not_and] at notMember
  unfold scanned
  split
  · have := notMember (by omega)
    revert this; cases nodeState n <;> simp [prepareNodeForUnbondIfPossible]
  · rfl

theorem scanIds_nodup (top : Nat) (nodeState : Nat → NodeState) :
    (scanIds top nodeState).Nodup :=
  (List.nodup_reverse.mpr (List.nodup_range' 1 top)).filter _

theorem unbondAllPossibleNodes_issues {before after : Nat → NodeState}
    {asyncCall : Option AsyncCall}
    (ran : unbondAllPossibleNodes reg env before = .ok (after, asyncCall)) :
    Issues reg before after (registered asyncCall) := by
  obtain ⟨-, -, rfl, rfl⟩ := unbondAllPossibleNodes_eq_ok.mp ran
  split
  · rename_i empty
    have : scanned reg.numNodes before = before :=
      funext fun n => scanned_of_not_mem (by simp [empty])
    simpa [registered, this] using @Issues.none reg before
  · refine ⟨?_, ?_, ?_, ?_⟩ <;> simp only [registered, performUnbond, List.mem_singleton,
      forall_eq]
    · exact scanIds_nodup _ _
    · intro n member
      simp only [scanIds, List.mem_filter, List.mem_reverse, List.mem_range'_1] at member
      omega
    · exact fun n member => scanned_of_mem member
    · exact fun n notMember => scanned_of_not_mem notMember

theorem claimUnusedFunds_eq_ok {asyncCall : AsyncCall} :
    claimUnusedFunds env = .ok asyncCall ↔
      env.ownerCalled = true ∧ env.isGlobalOpInProgress = false ∧
        asyncCall = { call := .claim, callback := none } := by
  simp only [claimUnusedFunds, requireNoGlobalOp, bind_eq_ok, require_eq_ok, pure, Except.pure,
    Except.ok.injEq, Unique.exists_iff, Bool.not_eq_true']
  exact ⟨fun ⟨owner, globalOp, call⟩ => ⟨owner, globalOp, call.symm⟩,
    fun ⟨owner, globalOp, call⟩ => ⟨owner, globalOp, call.symm⟩⟩

theorem unjailNodes_eq_ok {blsKeys : List BLSKey} {finePayment : Nat}
    {nodeState : Nat → NodeState} {asyncCall : AsyncCall} :
    unjailNodes reg env blsKeys finePayment nodeState = .ok asyncCall ↔
      env.ownerCalled = true ∧
        (∀ blsKey ∈ blsKeys, reg.getNodeId blsKey ≠ 0 ∧
          nodeState (reg.getNodeId blsKey) = .active) ∧
        asyncCall = { call := .unJail blsKeys finePayment, callback := none } := by
  simp only [unjailNodes, bind_eq_ok, require_eq_ok, forM_eq_ok, pure, Except.pure,
    Except.ok.injEq, Unique.exists_iff, bne_iff_ne, beq_iff_eq, ne_eq]
  exact ⟨fun ⟨owner, checked, call⟩ => ⟨owner, fun key member => (checked key member), call.symm⟩,
    fun ⟨owner, checked, call⟩ => ⟨owner, fun key member => (checked key member), call.symm⟩⟩

/-- Every successful call issues what `Issues` describes. -/
theorem runEndpoint_issues {call : Call} {before after : Nat → NodeState}
    {asyncCall : Option AsyncCall}
    (ran : runEndpoint reg env call before = .ok (after, asyncCall)) :
    Issues reg before after (registered asyncCall) := by
  cases call with
  | stakeNodes amountToStake blsKeys =>
      obtain ⟨⟨_, a⟩, called, ⟨⟩⟩ := map_eq_ok.mp ran; exact stakeNodes_issues called
  | unStakeNodes blsKeys =>
      obtain ⟨⟨_, a⟩, called, ⟨⟩⟩ := map_eq_ok.mp ran; exact unstakeNodes_issues called
  | unStakeNodesAndTokens blsKeys =>
      obtain ⟨⟨_, a⟩, called, ⟨⟩⟩ := map_eq_ok.mp ran; exact unstakeNodes_issues called
  | unBondNodes blsKeys =>
      obtain ⟨⟨_, a⟩, called, ⟨⟩⟩ := map_eq_ok.mp ran; exact unbondSpecificNodes_issues called
  | unBondAllPossibleNodes => exact unbondAllPossibleNodes_issues ran
  | claimUnusedFunds =>
      obtain ⟨a, called, ⟨⟩⟩ := map_eq_ok.mp ran
      obtain ⟨-, -, rfl⟩ := claimUnusedFunds_eq_ok.mp called
      exact Issues.none before
  | unJailNodes blsKeys finePayment =>
      obtain ⟨a, called, ⟨⟩⟩ := map_eq_ok.mp ran
      obtain ⟨-, -, rfl⟩ := unjailNodes_eq_ok.mp called
      exact Issues.none before

end Endpoints

/-! ### The two unbond paths -/

/-- The per-node change both unbond paths make (spec §4.2): a node in its unbond period
enters the pending unbond carrying its start block; any other node stays as it is. -/
def unbondMove : NodeState → NodeState
  | .unBondPeriod started => .pendingUnBond started
  | state => state

theorem prepareNodeForUnbondIfPossible_getD (state : NodeState) :
    (prepareNodeForUnbondIfPossible state).getD state = unbondMove state := by
  cases state <;> rfl

theorem prepareNodeForUnbondIfPossible_isSome {state : NodeState} :
    (prepareNodeForUnbondIfPossible state).isSome ↔ ∃ started, state = .unBondPeriod started := by
  cases state <;> simp [prepareNodeForUnbondIfPossible]

theorem mem_scanIds {top : Nat} {nodeState : Nat → NodeState} {n : Nat} :
    n ∈ scanIds top nodeState ↔
      1 ≤ n ∧ n ≤ top ∧ ∃ started, nodeState n = .unBondPeriod started := by
  simp only [scanIds, List.mem_filter, List.mem_reverse, List.mem_range'_1,
    prepareNodeForUnbondIfPossible_isSome]
  exact ⟨fun ⟨⟨low, high⟩, due⟩ => ⟨low, by omega, due⟩,
    fun ⟨low, high, due⟩ => ⟨⟨low, by omega⟩, due⟩⟩

/-- The scan visits the ids from the top down, so it lists them in decreasing order. -/
theorem scanIds_decreasing (top : Nat) (nodeState : Nat → NodeState) :
    (scanIds top nodeState).Pairwise (· > ·) :=
  (List.pairwise_reverse.mpr (List.pairwise_lt_range' 1 top)).filter _

theorem scanIds_eq_nil {top : Nat} {nodeState : Nat → NodeState} :
    scanIds top nodeState = [] ↔
      ∀ n, 1 ≤ n → n ≤ top → ∀ started, nodeState n ≠ .unBondPeriod started := by
  simp only [List.eq_nil_iff_forall_not_mem, mem_scanIds, not_and, not_exists, ne_eq]

/-- The owner calling with every check passing. -/
def ownerEnv : Env :=
  { ownerCalled := true, isBootstrapMode := false, isGlobalOpInProgress := false,
    totalUnprotected := 0, validateOwnerStakeShare := .ok () }

/-- The bulk and the targeted unbond agree. The bulk one succeeds for the owner outside a
global operation, moves every registered node in its unbond period and nothing else, and
issues a request, over the moved ids from the highest down, exactly when it moved one. The
targeted one succeeds exactly on a non-empty list of registered keys naming distinct nodes
that are all in their unbond period, and makes the same move on exactly those nodes. -/
theorem unbond_paths_agree (reg : NodeRegistry) (env : Env) (nodeState : Nat → NodeState)
    (blsKeys : List BLSKey) :
    ((∃ result, unbondAllPossibleNodes reg env nodeState = .ok result) ↔
      env.ownerCalled = true ∧ env.isGlobalOpInProgress = false) ∧
    (∀ after asyncCall, unbondAllPossibleNodes reg env nodeState = .ok (after, asyncCall) →
      (∀ n, after n =
        if 1 ≤ n ∧ n ≤ reg.numNodes then unbondMove (nodeState n) else nodeState n) ∧
      (asyncCall = none ↔
        ∀ n, 1 ≤ n → n ≤ reg.numNodes → ∀ started, nodeState n ≠ .unBondPeriod started) ∧
      ∀ call, asyncCall = some call →
        ∃ nodeIds, call.callback = some ⟨.auctionUnbondCallback, nodeIds⟩ ∧
          nodeIds.Pairwise (· > ·) ∧
          ∀ n, n ∈ nodeIds ↔
            1 ≤ n ∧ n ≤ reg.numNodes ∧ ∃ started, nodeState n = .unBondPeriod started) ∧
    ((∃ result, unbondSpecificNodes reg env blsKeys nodeState = .ok result) ↔
      env.ownerCalled = true ∧ env.isGlobalOpInProgress = false ∧ blsKeys ≠ [] ∧
        (blsKeys.map reg.getNodeId).Nodup ∧
        ∀ key ∈ blsKeys, reg.getNodeId key ≠ 0 ∧
          ∃ started, nodeState (reg.getNodeId key) = .unBondPeriod started) ∧
    (∀ after call, unbondSpecificNodes reg env blsKeys nodeState = .ok (after, call) →
      ∀ n, after n =
        if n ∈ blsKeys.map reg.getNodeId then unbondMove (nodeState n) else nodeState n) := by
  refine ⟨?bulkOk, fun after asyncCall ran => ?bulk, ?targetedOk, ?targeted⟩
  case bulkOk =>
    simp only [Prod.exists, unbondAllPossibleNodes_eq_ok]
    exact ⟨fun ⟨_, _, owner, globalOp, _⟩ => ⟨owner, globalOp⟩,
      fun ⟨owner, globalOp⟩ => ⟨_, _, owner, globalOp, rfl, rfl⟩⟩
  case bulk =>
    obtain ⟨-, -, rfl, rfl⟩ := unbondAllPossibleNodes_eq_ok.mp ran
    refine ⟨fun n => by rw [scanned, prepareNodeForUnbondIfPossible_getD],
      by rw [← scanIds_eq_nil]; split <;> simp [*], fun call issued => ?_⟩
    split at issued
    · cases issued
    · cases issued
      exact ⟨_, rfl, scanIds_decreasing _ _, fun _ => mem_scanIds⟩
  case targetedOk =>
    simp only [Prod.exists, unbondSpecificNodes_eq_ok]
    constructor
    · rintro ⟨after, _, owner, globalOp, nonempty, loop, -⟩
      obtain ⟨nodup, moved, -⟩ := (setNodeStates_eq_ok_iff unbondTransition_oneShot).mp loop
      refine ⟨owner, globalOp, nonempty, nodup, fun key member => ?_⟩
      obtain ⟨known, started, due, -⟩ :=
        unbondTransition_eq_ok.mp (moved _ (List.mem_map_of_mem _ member))
      exact ⟨known, started, due⟩
    · rintro ⟨owner, globalOp, nonempty, nodup, due⟩
      obtain ⟨after, loop⟩ := setNodeStates_ok_of_forall nodup fun n member => by
        obtain ⟨key, keyMember, rfl⟩ := List.mem_map.mp member
        obtain ⟨known, started, inPeriod⟩ := due key keyMember
        exact ⟨_, unbondTransition_eq_ok.mpr ⟨known, started, inPeriod, rfl⟩⟩
      exact ⟨after, _, owner, globalOp, nonempty, loop, rfl⟩
  case targeted =>
    intro after call ran n
    obtain ⟨-, -, -, loop, -⟩ := unbondSpecificNodes_eq_ok.mp ran
    obtain ⟨-, moved, frame⟩ := (setNodeStates_eq_ok_iff unbondTransition_oneShot).mp loop
    split
    · obtain ⟨-, started, inPeriod, entered⟩ := unbondTransition_eq_ok.mp (moved n ‹_›)
      rw [entered, inPeriod]; rfl
    · exact frame n ‹_›

theorem unbondNodes_rejects_repeated_key :
    ¬ ∃ result, unbondSpecificNodes sampleRegistry ownerEnv [⟨[1]⟩, ⟨[1]⟩]
      (fun _ => .unBondPeriod 5) = .ok result := fun ran =>
  absurd ((unbond_paths_agree sampleRegistry ownerEnv _ _).2.2.1.mp ran).2.2.2.1 (by decide)

/-- The callback each endpoint registers, if any. -/
def Call.opens : Call → Option Callback
  | .stakeNodes .. => some .auctionStakeCallback
  | .unStakeNodes _ | .unStakeNodesAndTokens _ => some .auctionUnstakeCallback
  | .unBondNodes _ | .unBondAllPossibleNodes => some .auctionUnbondCallback
  | .claimUnusedFunds | .unJailNodes .. => none

/-- The nodes a step can reach: those its key list names, those the scan of
`unBondAllPossibleNodes` visits, or those of the request it answers. -/
def Label.Touches (reg : NodeRegistry) : Label → Nat → Prop
  | .call _ (.stakeNodes _ blsKeys), n | .call _ (.unStakeNodes blsKeys), n
  | .call _ (.unStakeNodesAndTokens blsKeys), n | .call _ (.unBondNodes blsKeys), n
  | .call _ (.unJailNodes blsKeys _), n => n ∈ blsKeys.map reg.getNodeId
  | .call _ .unBondAllPossibleNodes, n => 1 ≤ n ∧ n ≤ reg.numNodes
  | .call _ .claimUnusedFunds, _ => False
  | .deliver closure _, n => n ∈ closure.nodeIds
  | .newBlock _, _ => False

/-- The request a call registers is its endpoint's callback, over nodes the call names. -/
theorem runEndpoint_registers {call : Call} {before after : Nat → NodeState}
    {asyncCall : Option AsyncCall} (ran : runEndpoint reg env call before = .ok (after, asyncCall))
    {closure : CallbackClosure} (issued : closure ∈ registered asyncCall) :
    call.opens = some closure.callback ∧
      ∀ n ∈ closure.nodeIds, (Label.call env call).Touches reg n := by
  cases call with
  | stakeNodes amountToStake blsKeys =>
      obtain ⟨⟨_, a⟩, called, ⟨⟩⟩ := map_eq_ok.mp ran
      obtain ⟨-, -, -, -, -, -, rfl⟩ := stakeNodes_eq_ok.mp called
      simp only [registered, performStakeNodes, List.mem_singleton] at issued
      subst issued; exact ⟨rfl, fun _ => id⟩
  | unStakeNodes blsKeys =>
      obtain ⟨⟨_, a⟩, called, ⟨⟩⟩ := map_eq_ok.mp ran
      obtain ⟨-, -, -, -, rfl⟩ := unstakeNodes_eq_ok.mp called
      simp only [registered, List.mem_singleton] at issued
      subst issued; exact ⟨rfl, fun _ => id⟩
  | unStakeNodesAndTokens blsKeys =>
      obtain ⟨⟨_, a⟩, called, ⟨⟩⟩ := map_eq_ok.mp ran
      obtain ⟨-, -, -, -, rfl⟩ := unstakeNodes_eq_ok.mp called
      simp only [registered, List.mem_singleton] at issued
      subst issued; exact ⟨rfl, fun _ => id⟩
  | unBondNodes blsKeys =>
      obtain ⟨⟨_, a⟩, called, ⟨⟩⟩ := map_eq_ok.mp ran
      obtain ⟨-, -, -, -, rfl⟩ := unbondSpecificNodes_eq_ok.mp called
      simp only [registered, performUnbond, List.mem_singleton] at issued
      subst issued; exact ⟨rfl, fun _ => id⟩
  | unBondAllPossibleNodes =>
      obtain ⟨-, -, -, rfl⟩ := unbondAllPossibleNodes_eq_ok.mp ran
      split at issued
      · simp [registered] at issued
      · simp only [registered, performUnbond, List.mem_singleton] at issued
        subst issued
        refine ⟨rfl, fun n member => ?_⟩
        simp only [scanIds, List.mem_filter, List.mem_reverse, List.mem_range'_1] at member
        exact ⟨member.1.1, by omega⟩
  | claimUnusedFunds =>
      obtain ⟨a, called, ⟨⟩⟩ := map_eq_ok.mp ran
      obtain ⟨-, -, rfl⟩ := claimUnusedFunds_eq_ok.mp called
      simp [registered] at issued
  | unJailNodes blsKeys finePayment =>
      obtain ⟨a, called, ⟨⟩⟩ := map_eq_ok.mp ran
      obtain ⟨-, -, rfl⟩ := unjailNodes_eq_ok.mp called
      simp [registered] at issued

/-! ### Callbacks -/

/-- The revert loop of `auction_unbond_callback_fail` succeeds on distinct nodes that are
all PendingUnBond and gives each its unbond period back. -/
theorem auctionUnbondCallbackFail_eq (blockNonce : UInt64) {nodeIds : List Nat}
    {nodeState : Nat → NodeState}
    (nodup : nodeIds.Nodup) (pending : ∀ n ∈ nodeIds, ∃ started, nodeState n = .pendingUnBond started)
    {target : Nat → NodeState}
    (reverted : ∀ n ∈ nodeIds,
      target n = settle blockNonce .auctionUnbondCallback true (nodeState n))
    (frame : ∀ n ∉ nodeIds, target n = nodeState n) :
    auctionUnbondCallbackFail nodeIds nodeState = .ok target := by
  refine (setNodeStates_eq_ok_iff unbondFailTransition_oneShot).mpr ⟨nodup, fun n member => ?_, frame⟩
  obtain ⟨started, pendingEq⟩ := pending n member
  rw [reverted n member, pendingEq]
  exact unbondFailTransition_eq_ok.mpr ⟨started, rfl, rfl⟩

/-- A callback whose nodes are distinct and all wait on it succeeds on every answer that
splits them, and settles each of its nodes by the verdict on it; no other node changes. -/
theorem runCallback_eq {blockNonce : UInt64} {closure : CallbackClosure} {result : CallResult}
    {nodeState : Nat → NodeState} (nodup : closure.nodeIds.Nodup)
    (awaiting : ∀ n ∈ closure.nodeIds, Awaits closure.callback (nodeState n))
    (splits : result.Splits closure.nodeIds) :
    runCallback blockNonce closure result nodeState = .ok fun n =>
      if n ∈ closure.nodeIds then
        settle blockNonce closure.callback (result.failed n) (nodeState n)
      else nodeState n := by
  obtain ⟨callback, nodeIds⟩ := closure
  cases callback with
  | auctionStakeCallback =>
      cases result with
      | ok nodeIdsOk nodeIdsFail =>
          simp only [runCallback, auctionStakeCallback, auctionStakeCallbackFail,
            auctionStakeCallbackOk, setNodeStatesTo_split splits, settle]
      | err errMsg =>
          simp only [runCallback, auctionStakeCallback, auctionStakeCallbackFail,
            Except.ok.injEq]
          funext n
          simp [settle, CallResult.failed]
  | auctionUnstakeCallback =>
      cases result with
      | ok nodeIdsOk nodeIdsFail =>
          simp only [runCallback, auctionUnstakeCallback, auctionUnstakeCallbackFail,
            auctionUnstakeCallbackOk, setNodeStatesTo_split splits, settle]
      | err errMsg =>
          simp only [runCallback, auctionUnstakeCallback, auctionUnstakeCallbackFail,
            Except.ok.injEq]
          funext n
          simp [settle, CallResult.failed]
  | auctionUnbondCallback =>
      cases result with
      | ok nodeIdsOk nodeIdsFail =>
          refine auctionUnbondCallbackFail_eq blockNonce (splits.nodup_fail nodup) (fun n member => ?_)
            (fun n member => ?_) (fun n notMember => ?_)
          · have notOk : n ∉ nodeIdsOk := fun ok => splits.not_mem_fail nodup ok member
            simpa [auctionUnbondCallbackOk, notOk] using
              awaiting n (splits.mem_iff.mpr (.inr member))
          · have notOk : n ∉ nodeIdsOk := fun ok => splits.not_mem_fail nodup ok member
            simp [auctionUnbondCallbackOk, notOk, splits.mem_iff, member, CallResult.failed]
          · by_cases ok : n ∈ nodeIdsOk
            · simp [auctionUnbondCallbackOk, ok, splits.mem_iff, notMember, CallResult.failed,
                settle]
            · simp [auctionUnbondCallbackOk, ok, splits.mem_iff, notMember]
      | err errMsg =>
          exact auctionUnbondCallbackFail_eq blockNonce nodup awaiting
            (fun n member => by simp [member, CallResult.failed, settle])
            (fun n notMember => by simp [notMember])

end Delegation.Latest
