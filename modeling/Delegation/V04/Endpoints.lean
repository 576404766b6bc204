/-
Module: Delegation.V04.Endpoints
Layer: Proofs
Purpose: One lemma per endpoint and per callback of version 0.4 saying what it does, whole.
  A successful call either changes nothing and issues nothing, or issues one request whose
  distinct nodes all leave the state their flow starts in for the state its callback waits
  on, with the stake of as many nodes (`Issues`); `claimFailedStake` issues its request and
  moves nothing. An unbond request moves the dated stake it finds past the delay, with its
  dates, and fails when it does not find all of it. The scans of `stakeAllAvailable`,
  `unBondAllAvailable` and `claimFailedStake` are computed in closed form.
Trusted boundary: none
Main exports: Callback.origin, Callback.awaited, StartsUnbond, Issues, Issues.datedAgrees,
  Issues.datedBy, stakeNodes_issues, stakeAllAvailableLoop_eq, unstakeNodes_issues, unbondDue,
  performUnbond_eq_ok, unbondNodes_issues, unbondAllAvailableLoop_eq,
  unbondAllAvailable_eq_some, claimFailedStakeLoop_eq, runEndpoint_issues
-/
import Delegation.V04.Ledger

namespace Delegation.V04

/-! ### Flows -/

/-- The state a flow takes its nodes from. -/
def Callback.origin : Callback → NodeState
  | .auctionStakeCallback => .inactive
  | .auctionUnstakeCallback => .active
  | .auctionUnbondCallback => .unBondPeriod
  | .auctionClaimCallback => .activationFailed

/-- The state the nodes of a request wait in for its callback. -/
def Callback.awaited : Callback → NodeState
  | .auctionStakeCallback => .pendingActivation
  | .auctionUnstakeCallback => .pendingDeactivation
  | .auctionUnbondCallback => .pendingUnBond
  | .auctionClaimCallback => .activationFailed

/-! ### The per-node transitions -/

@[simp] theorem stakeTransition_eq_ok {nodeId : Nat} {state state' : NodeState} :
    stakeTransition nodeId state = .ok state' ↔
      state = .inactive ∧ state' = .pendingActivation := by
  unfold stakeTransition
  by_cases idle : state = .inactive <;>
    simp [idle, pure, Except.pure, @eq_comm _ NodeState.pendingActivation]

@[simp] theorem unstakeTransition_eq_ok {nodeId : Nat} {state state' : NodeState} :
    unstakeTransition nodeId state = .ok state' ↔
      state = .active ∧ state' = .pendingDeactivation := by
  unfold unstakeTransition
  by_cases active : state = .active <;>
    simp [active, pure, Except.pure, @eq_comm _ NodeState.pendingDeactivation]

@[simp] theorem unbondTransition_eq_ok {config : Config} {blockNonce : UInt64}
    {blNonceOfUnstake : Nat → UInt64} {nodeId : Nat} {state state' : NodeState} :
    unbondTransition config blockNonce blNonceOfUnstake nodeId state = .ok state' ↔
      state = .unBondPeriod ∧
        blNonceOfUnstake nodeId + config.nBlocksBeforeUnbond < blockNonce ∧
        state' = .pendingUnBond := by
  unfold unbondTransition
  by_cases inPeriod : state = .unBondPeriod
  · by_cases early : blockNonce ≤ blNonceOfUnstake nodeId + config.nBlocksBeforeUnbond
    · simp [inPeriod, early]
    · simp [inPeriod, early, UInt64.not_le.mp early, pure, Except.pure,
        @eq_comm _ NodeState.pendingUnBond]
  · simp [inPeriod]

theorem stakeTransition_oneShot : OneShot stakeTransition := by
  intro _ _ _ moved _; simp_all

theorem unstakeTransition_oneShot : OneShot unstakeTransition := by
  intro _ _ _ moved _; simp_all

theorem unbondTransition_oneShot (config : Config) (blockNonce : UInt64)
    (blNonceOfUnstake : Nat → UInt64) :
    OneShot (unbondTransition config blockNonce blNonceOfUnstake) := by
  intro _ _ _ moved _; simp_all

/-! ### What a call issues -/

/-- What the start of an unbond does to the dated buckets: `amount` is found whole among the
buckets of the unbond period that the age check `eligible` admits, and taken from them,
newest first, to pending unbond with its dates. -/
structure StartsUnbond (eligible : UInt64 → Bool) (amount : Nat) (before after : Storage) :
    Prop where
  found : (takeDated eligible amount before.unBondPeriodStake).2.1 = 0
  unBondPeriod : after.unBondPeriodStake = (takeDated eligible amount before.unBondPeriodStake).2.2
  pendingUnBond : after.pendingUnBondStake =
    (takeDated eligible amount before.unBondPeriodStake).1 ++ before.pendingUnBondStake

/-- An unbond starts only with the stake of its batch there in the unbond period. -/
theorem StartsUnbond.covered {eligible : UInt64 → Bool} {amount : Nat} {before after : Storage}
    (starts : StartsUnbond eligible amount before after) :
    amount ≤ datedSum before.unBondPeriodStake := by
  have sums := @takeDated_sums eligible amount before.unBondPeriodStake
  rw [starts.found] at sums
  omega

/-- What a successful call that issues the request `closure` does to storage: the request's
nodes are distinct and registered and all in the state its flow starts from; they move to
the state its callback waits in; the stake of as many nodes moves between the matching
phases, except for a claim, which moves none; an unbond takes its stake from dated buckets
past the delay, and any other request leaves the dated buckets alone; unstake blocks are
untouched. -/
structure Issues (config : Config) (before after : Storage) (closure : CallbackClosure) :
    Prop where
  nodup : closure.nodeIds.Nodup
  known : ∀ n ∈ closure.nodeIds, 1 ≤ n ∧ n ≤ config.reg.numNodes
  origin : ∀ n ∈ closure.nodeIds, before.nodeState n = closure.callback.origin
  nodeState : after.nodeState =
    setNodeStatesTo closure.callback.awaited closure.nodeIds before.nodeState
  blNonceOfUnstake : after.blNonceOfUnstake = before.blNonceOfUnstake
  userStake : after.userStake =
    if closure.callback = .auctionClaimCallback then before.userStake
    else (moveStake closure.callback.origin.phase closure.callback.awaited.phase
      (closure.nodeIds.length * config.stakePerNode) before.userStake).1
  keepsDated : closure.callback ≠ .auctionUnbondCallback →
    after.unBondPeriodStake = before.unBondPeriodStake ∧
      after.pendingUnBondStake = before.pendingUnBondStake
  startsUnbond : closure.callback = .auctionUnbondCallback → ∃ eligible,
    StartsUnbond eligible (closure.nodeIds.length * config.stakePerNode) before after

/-- The issue of a request for a stake, unstake or unbond flow is a batch move. -/
theorem Issues.batchMove {config : Config} {before after : Storage} {closure : CallbackClosure}
    (issues : Issues config before after closure)
    (notClaim : closure.callback ≠ .auctionClaimCallback) :
    BatchMove config closure.nodeIds closure.callback.origin closure.callback.awaited
      before after :=
  ⟨issues.nodup, issues.known, issues.origin, issues.nodeState,
    by rw [issues.userStake, if_neg notClaim]⟩

/-- Issuing a request keeps the dated buckets of the unbond flow in step with the phase
totals: an unbond moves the same stake in both, and no other request touches either. -/
theorem Issues.datedAgrees {config : Config} {before after : Storage}
    {closure : CallbackClosure} (issues : Issues config before after closure)
    (agrees : before.DatedAgrees) : after.DatedAgrees := by
  by_cases unbond : closure.callback = .auctionUnbondCallback
  · obtain ⟨eligible, starts⟩ := issues.startsUnbond unbond
    have covered := starts.covered
    have sums := @takeDated_sums eligible (closure.nodeIds.length * config.stakePerNode)
      before.unBondPeriodStake
    rw [starts.found] at sums
    have moved : after.userStake = (moveStake .unBondPeriod .pendingUnBond
        (closure.nodeIds.length * config.stakePerNode) before.userStake).1 := by
      rw [issues.userStake, if_neg (by rw [unbond]; nofun), unbond]; rfl
    have period := agrees.unBondPeriod
    have pending := agrees.pendingUnBond
    have distinct : UserStakeState.unBondPeriod ≠ .pendingUnBond := nofun
    constructor
    · rw [starts.unBondPeriod, moved, moveStake_fst_apply distinct, if_neg distinct, if_pos rfl]
      omega
    · rw [starts.pendingUnBond, datedSum_append, moved, moveStake_fst_apply distinct, if_pos rfl]
      omega
  · obtain ⟨period, pending⟩ := issues.keepsDated unbond
    have untouched : ∀ phase, phase = .unBondPeriod ∨ phase = .pendingUnBond →
        after.userStake phase = before.userStake phase := by
      rintro phase (rfl | rfl) <;> rw [issues.userStake] <;> revert unbond <;>
        cases closure.callback <;>
        simp [Callback.origin, Callback.awaited, NodeState.phase, moveStake_fst_apply]
    exact ⟨by rw [period, untouched _ (.inl rfl), agrees.unBondPeriod],
      by rw [pending, untouched _ (.inr rfl), agrees.pendingUnBond]⟩

/-- Issuing a request records no new block: it keeps the unstake blocks, and an unbond moves
dated stake with its date. -/
theorem Issues.datedBy {config : Config} {before after : Storage} {closure : CallbackClosure}
    {holds : UInt64 → Prop} (issues : Issues config before after closure)
    (dated : before.DatedBy holds) : after.DatedBy holds := by
  by_cases unbond : closure.callback = .auctionUnbondCallback
  · obtain ⟨eligible, starts⟩ := issues.startsUnbond unbond
    have taken := @takeDated_dates eligible holds (closure.nodeIds.length * config.stakePerNode)
      _ dated.unBondPeriod
    exact ⟨issues.blNonceOfUnstake ▸ dated.blNonceOfUnstake, starts.unBondPeriod ▸ taken.2,
      starts.pendingUnBond ▸ List.forall_mem_append.mpr ⟨taken.1, dated.pendingUnBond⟩⟩
  · obtain ⟨period, pending⟩ := issues.keepsDated unbond
    exact dated.congr issues.blNonceOfUnstake period pending

/-! ### The ascending scan of `stakeAllAvailable` -/

/-- How many of `available` nodes the free stake `inactiveStake` pays for: all of them when a
node costs nothing. -/
def affordable (stakePerNode inactiveStake available : Nat) : Nat :=
  if stakePerNode = 0 then available else min available (inactiveStake / stakePerNode)

section Affordable

variable {stakePerNode inactiveStake available : Nat}

theorem affordable_le : affordable stakePerNode inactiveStake available ≤ available := by
  unfold affordable; split <;> omega

theorem affordable_mul_le :
    affordable stakePerNode inactiveStake available * stakePerNode ≤ inactiveStake := by
  unfold affordable
  split
  · simp [*]
  · exact (Nat.mul_le_mul_right _ (Nat.min_le_right _ _)).trans (Nat.div_mul_le_self _ _)

theorem affordable_succ (enough : stakePerNode ≤ inactiveStake) :
    affordable stakePerNode inactiveStake (available + 1) =
      affordable stakePerNode (inactiveStake - stakePerNode) available + 1 := by
  unfold affordable
  split
  · rfl
  · have : inactiveStake / stakePerNode = (inactiveStake - stakePerNode) / stakePerNode + 1 := by
      rw [← Nat.sub_add_cancel enough, Nat.add_div_right _ (by omega), Nat.add_sub_cancel]
    omega

theorem affordable_of_lt (short : inactiveStake < stakePerNode) :
    affordable stakePerNode inactiveStake available = 0 := by
  unfold affordable
  rw [if_neg (by omega), Nat.div_eq_of_lt short, Nat.min_zero]

end Affordable

/-- The flat key and signature list the scans send for registered ids: each id's key, then
its signature. -/
def registeredKeysSignatures (reg : NodeRegistry) (nodeIds : List Nat) : List (List UInt8) :=
  nodeIds.flatMap fun n => [(reg.getNodeIdToBls n).bytes, (reg.getNodeSignature n).bytes]

/-- The Inactive ids among the `remaining` from `nodeId` up, lowest first. -/
def inactiveFrom (remaining nodeId : Nat) (nodeState : Nat → NodeState) : List Nat :=
  (List.range' nodeId remaining).filter fun n => nodeState n = .inactive

theorem inactiveFrom_succ (remaining nodeId : Nat) (nodeState : Nat → NodeState) :
    inactiveFrom (remaining + 1) nodeId nodeState =
      if nodeState nodeId = .inactive then nodeId :: inactiveFrom remaining (nodeId + 1) nodeState
      else inactiveFrom remaining (nodeId + 1) nodeState := by
  simp only [inactiveFrom, List.range'_succ, List.filter_cons, decide_eq_true_eq]

/-- The scan above `nodeId` does not read node `nodeId`. -/
theorem inactiveFrom_update (remaining nodeId : Nat) (nodeState : Nat → NodeState)
    (state : NodeState) :
    inactiveFrom remaining (nodeId + 1) (Function.update nodeState nodeId state) =
      inactiveFrom remaining (nodeId + 1) nodeState := by
  refine List.filter_congr fun n member => ?_
  rw [List.mem_range'_1] at member
  rw [Function.update_noteq (by omega)]

/-- The loop of `stake_all_available` in closed form: it takes the lowest Inactive ids, as
many as the free stake pays for, and pays for each. -/
theorem stakeAllAvailableLoop_eq (config : Config) (remaining nodeId inactiveStake : Nat)
    (nodeState : Nat → NodeState) :
    stakeAllAvailableLoop config remaining nodeId inactiveStake nodeState =
      let nodeIds := (inactiveFrom remaining nodeId nodeState).take
        (affordable config.stakePerNode inactiveStake
          (inactiveFrom remaining nodeId nodeState).length)
      (nodeIds, registeredKeysSignatures config.reg nodeIds,
        inactiveStake - nodeIds.length * config.stakePerNode,
        setNodeStatesTo .pendingActivation nodeIds nodeState) := by
  induction remaining generalizing nodeId inactiveStake nodeState with
  | zero => simp [stakeAllAvailableLoop, inactiveFrom, registeredKeysSignatures, setNodeStatesTo]
  | succ remaining inductionHypothesis =>
      rw [inactiveFrom_succ]
      by_cases enough : inactiveStake ≥ config.stakePerNode
      · by_cases idle : nodeState nodeId = .inactive
        · simp only [stakeAllAvailableLoop, if_pos enough, if_pos idle, inductionHypothesis,
            inactiveFrom_update, List.length_cons, affordable_succ enough, List.take_succ_cons,
            registeredKeysSignatures, List.flatMap_cons, List.cons_append, List.nil_append,
            setNodeStatesTo, Prod.mk.injEq, true_and]
          exact ⟨by rw [Nat.succ_mul]; omega, trivial⟩
        · simp only [stakeAllAvailableLoop, if_pos enough, if_neg idle, inductionHypothesis]
      · have short : inactiveStake < config.stakePerNode := by omega
        simp [stakeAllAvailableLoop, enough, affordable_of_lt short, registeredKeysSignatures,
          setNodeStatesTo]

/-- The Inactive registered ids that `stake_all_available` stakes. -/
def stakedIds (config : Config) (storage : Storage) : List Nat :=
  (inactiveFrom config.reg.numNodes 1 storage.nodeState).take
    (affordable config.stakePerNode (storage.userStake .inactive)
      (inactiveFrom config.reg.numNodes 1 storage.nodeState).length)

theorem stakeAllAvailable_eq (config : Config) (env : Env) (storage : Storage) :
    stakeAllAvailable config env storage =
      if stakedIds config storage = [] then .ok (storage, none)
      else (performStakeNodes config env (stakedIds config storage)
          (registeredKeysSignatures config.reg (stakedIds config storage))
          { storage with
            nodeState :=
              setNodeStatesTo .pendingActivation (stakedIds config storage) storage.nodeState }).map
        fun (storage, asyncCall) => (storage, some asyncCall) := by
  unfold stakeAllAvailable
  rw [stakeAllAvailableLoop_eq]
  by_cases empty : stakedIds config storage = []
  · rw [if_pos empty]
    simp only [stakedIds] at empty
    simp only [empty, List.isEmpty_nil, if_true, setNodeStatesTo]
    rfl
  · rw [if_neg empty]
    simp only [stakedIds] at empty
    simp only [stakedIds, List.isEmpty_eq_false.mpr empty, Bool.false_eq_true, if_false]

/-- `stake_all_available` stakes the `k` lowest Inactive registered nodes, `k` being all of
them when a node costs nothing and otherwise as many as the pool's free stake `S` pays for.
Its loop pays `k` times the stake per node out of `S` and never more, so the subtraction in
it never wraps, and it leaves every other node alone; `perform_stake_nodes` is then asked to
stake exactly those `k` nodes, and nothing is sent when `k` is zero. -/
theorem stakeAllAvailable_stakes_lowest_inactive (config : Config) (env : Env)
    (storage : Storage) :
    let inactiveIds := (List.range' 1 config.reg.numNodes).filter fun n =>
      storage.nodeState n = .inactive
    let k := if config.stakePerNode = 0 then inactiveIds.length
      else min inactiveIds.length (storage.userStake .inactive / config.stakePerNode)
    let nodeIds := inactiveIds.take k
    nodeIds.length = k ∧ k * config.stakePerNode ≤ storage.userStake .inactive ∧
    stakeAllAvailableLoop config config.reg.numNodes 1 (storage.userStake .inactive)
        storage.nodeState =
      (nodeIds, registeredKeysSignatures config.reg nodeIds,
        storage.userStake .inactive - k * config.stakePerNode,
        setNodeStatesTo .pendingActivation nodeIds storage.nodeState) ∧
    stakeAllAvailable config env storage =
      if k = 0 then .ok (storage, none)
      else (performStakeNodes config env nodeIds (registeredKeysSignatures config.reg nodeIds)
          { storage with
            nodeState := setNodeStatesTo .pendingActivation nodeIds storage.nodeState }).map
        fun (storage, asyncCall) => (storage, some asyncCall) := by
  intro inactiveIds k nodeIds
  have length : nodeIds.length = k := List.length_take_of_le affordable_le
  have empty : nodeIds = [] ↔ k = 0 := by rw [← List.length_eq_zero, length]
  refine ⟨length, affordable_mul_le, ?_, ?_⟩
  · rw [stakeAllAvailableLoop_eq, ← length]; rfl
  · rw [stakeAllAvailable_eq]
    by_cases zero : k = 0
    · have none : stakedIds config storage = [] := empty.mpr zero
      rw [if_pos zero, if_pos none]
    · have some : ¬stakedIds config storage = [] := mt empty.mp zero
      rw [if_neg zero, if_neg some]; rfl

/-! ### The descending scans -/

/-- The ids the scan of `unBondAllAvailable` takes from `1..top`, highest first: those in
their unbond period whose unstake block plus the delay, in `u64`, is at most the current
block. -/
def dueIds (config : Config) (blockNonce : UInt64) (blNonceOfUnstake : Nat → UInt64)
    (top : Nat) (nodeState : Nat → NodeState) : List Nat :=
  (List.range' 1 top).reverse.filter fun n =>
    nodeState n = .unBondPeriod ∧ blockNonce ≥ blNonceOfUnstake n + config.nBlocksBeforeUnbond

section Scans

variable (config : Config) (blockNonce : UInt64) (blNonceOfUnstake : Nat → UInt64)

theorem dueIds_succ (top : Nat) (nodeState : Nat → NodeState) :
    dueIds config blockNonce blNonceOfUnstake (top + 1) nodeState =
      if nodeState (top + 1) = .unBondPeriod ∧
          blockNonce ≥ blNonceOfUnstake (top + 1) + config.nBlocksBeforeUnbond then
        (top + 1) :: dueIds config blockNonce blNonceOfUnstake top nodeState
      else dueIds config blockNonce blNonceOfUnstake top nodeState := by
  simp only [dueIds, List.range'_concat, List.reverse_append, List.reverse_singleton,
    List.singleton_append, List.filter_cons, Nat.one_mul, Nat.add_comm 1 top, decide_eq_true_eq]

/-- The scan below `top + 1` does not read node `top + 1`. -/
theorem dueIds_update_succ (top : Nat) (nodeState : Nat → NodeState) (state : NodeState) :
    dueIds config blockNonce blNonceOfUnstake top
        (Function.update nodeState (top + 1) state) =
      dueIds config blockNonce blNonceOfUnstake top nodeState := by
  refine List.filter_congr fun n member => ?_
  rw [List.mem_reverse, List.mem_range'_1] at member
  rw [Function.update_noteq (by omega)]

theorem unbondAllAvailableLoop_eq (top : Nat) (nodeState : Nat → NodeState) :
    unbondAllAvailableLoop config blockNonce blNonceOfUnstake top nodeState =
      (dueIds config blockNonce blNonceOfUnstake top nodeState,
        (dueIds config blockNonce blNonceOfUnstake top nodeState).map config.reg.getNodeIdToBls,
        setNodeStatesTo .pendingUnBond (dueIds config blockNonce blNonceOfUnstake top nodeState)
          nodeState) := by
  induction top generalizing nodeState with
  | zero => simp [unbondAllAvailableLoop, dueIds, setNodeStatesTo]
  | succ top inductionHypothesis =>
      rw [dueIds_succ]
      by_cases due : nodeState (top + 1) = .unBondPeriod ∧
          blockNonce ≥ blNonceOfUnstake (top + 1) + config.nBlocksBeforeUnbond
      · simp only [unbondAllAvailableLoop, if_pos due, inductionHypothesis, dueIds_update_succ,
          List.map_cons, setNodeStatesTo]
      · simp only [unbondAllAvailableLoop, if_neg due, inductionHypothesis]

theorem mem_dueIds {top : Nat} {nodeState : Nat → NodeState} {n : Nat} :
    n ∈ dueIds config blockNonce blNonceOfUnstake top nodeState ↔
      (1 ≤ n ∧ n ≤ top) ∧ nodeState n = .unBondPeriod ∧
        blockNonce ≥ blNonceOfUnstake n + config.nBlocksBeforeUnbond := by
  simp only [dueIds, List.mem_filter, List.mem_reverse, List.mem_range'_1, decide_eq_true_eq]
  exact and_congr_left fun _ => ⟨fun ⟨low, high⟩ => ⟨low, by omega⟩,
    fun ⟨low, high⟩ => ⟨low, by omega⟩⟩

theorem dueIds_nodup (top : Nat) (nodeState : Nat → NodeState) :
    (dueIds config blockNonce blNonceOfUnstake top nodeState).Nodup :=
  (List.nodup_reverse.mpr (List.nodup_range' 1 top)).filter _

end Scans

/-! ### The two unbond time checks -/

/-- The time checks of the two unbond paths for a registered node in its unbond period, in
unbounded integers: the targeted one lets it through once the block is past its unstake
block plus the delay, the sum wrapped at `2^64`; the bulk scan takes it already when the
block reaches that sum. -/
theorem unbond_time_checks (config : Config) (blockNonce : UInt64)
    (blNonceOfUnstake : Nat → UInt64) (nodeState : Nat → NodeState) {n : Nat}
    (registered : 1 ≤ n ∧ n ≤ config.reg.numNodes) (inPeriod : nodeState n = .unBondPeriod) :
    (unbondTransition config blockNonce blNonceOfUnstake n (nodeState n) = .ok .pendingUnBond ↔
      ((blNonceOfUnstake n).toNat + config.nBlocksBeforeUnbond.toNat) % UInt64.size <
        blockNonce.toNat) ∧
    (n ∈ (unbondAllAvailableLoop config blockNonce blNonceOfUnstake config.reg.numNodes
        nodeState).1 ↔
      ((blNonceOfUnstake n).toNat + config.nBlocksBeforeUnbond.toNat) % UInt64.size ≤
        blockNonce.toNat) := by
  rw [unbondAllAvailableLoop_eq, mem_dueIds, unbondTransition_eq_ok]
  simp only [inPeriod, registered, true_and, and_true]
  exact ⟨Iff.rfl, Iff.rfl⟩

/-- Node `1` in its unbond period since block `unstakedAt`, its stake there in one bucket of
that date, every other node Inactive. -/
def unbondingStorage (unstakedAt : UInt64) : Storage :=
  { nodeState := fun n => if n = 1 then .unBondPeriod else .inactive
    blNonceOfUnstake := fun _ => unstakedAt
    userStake := fun phase => if phase = .unBondPeriod then 1 else 0
    unBondPeriodStake := [⟨unstakedAt, 1⟩]
    pendingUnBondStake := [] }

/-- With a delay of 60 blocks, a node unstaked at block 10 is too soon for
`unBondNodes` at block 70, where `unBondAllAvailable` takes it; and a node
unstaked at block 2^64 - 10 is taken by both at block 51, when the sum has wrapped to 50. -/
theorem unbond_paths_disagree_at_boundary :
    unbondNodes sampleConfig 70 [⟨[1]⟩] (unbondingStorage 10) =
        .error "too soon to unbond node" ∧
      (unbondAllAvailableLoop sampleConfig 70 (unbondingStorage 10).blNonceOfUnstake
        sampleConfig.reg.numNodes (unbondingStorage 10).nodeState).1 = [1] ∧
      (∃ unbonded, unbondNodes sampleConfig 51 [⟨[1]⟩] (unbondingStorage 18446744073709551606) =
        .ok unbonded) ∧
      (unbondAllAvailableLoop sampleConfig 51
        (unbondingStorage 18446744073709551606).blNonceOfUnstake sampleConfig.reg.numNodes
        (unbondingStorage 18446744073709551606).nodeState).1 = [1] :=
  ⟨rfl, by decide, ⟨_, rfl⟩, by decide⟩

/-- The ids the scan of `claimFailedStake` collects from `1..top`, highest first. -/
def failedIds (top : Nat) (nodeState : Nat → NodeState) : List Nat :=
  (List.range' 1 top).reverse.filter fun n => nodeState n = .activationFailed

theorem claimFailedStakeLoop_eq (nodeState : Nat → NodeState) (top : Nat) :
    claimFailedStakeLoop nodeState top = failedIds top nodeState := by
  induction top with
  | zero => rfl
  | succ top inductionHypothesis =>
      simp only [claimFailedStakeLoop, inductionHypothesis, failedIds, List.range'_concat,
        List.reverse_append, List.reverse_singleton, List.singleton_append, List.filter_cons,
        Nat.one_mul, Nat.add_comm 1 top, decide_eq_true_eq]

theorem mem_failedIds {top : Nat} {nodeState : Nat → NodeState} {n : Nat} :
    n ∈ failedIds top nodeState ↔ (1 ≤ n ∧ n ≤ top) ∧ nodeState n = .activationFailed := by
  simp only [failedIds, List.mem_filter, List.mem_reverse, List.mem_range'_1, decide_eq_true_eq]
  exact and_congr_left fun _ => ⟨fun ⟨low, high⟩ => ⟨low, by omega⟩,
    fun ⟨low, high⟩ => ⟨low, by omega⟩⟩

theorem failedIds_nodup (top : Nat) (nodeState : Nat → NodeState) :
    (failedIds top nodeState).Nodup :=
  (List.nodup_reverse.mpr (List.nodup_range' 1 top)).filter _

/-- The scan collects as many nodes as there are in ActivationFailed. -/
theorem length_failedIds (top : Nat) (nodeState : Nat → NodeState) :
    (failedIds top nodeState).length = nodeCount top nodeState .activationFailed := by
  simp [failedIds, nodeCount, List.countP_eq_length_filter]

/-! ### Endpoints -/

section Endpoints

variable {config : Config} {env : Env} {before after : Storage}

theorem performStakeNodes_eq_ok {nodeIds : List Nat} {blsKeysSignatures : List (List UInt8)}
    {asyncCall : AsyncCall} :
    performStakeNodes config env nodeIds blsKeysSignatures before = .ok (after, asyncCall) ↔
      env.validateOwnerStakeShare = .ok () ∧
        after = { before with
          userStake :=
            (activateStartTransf (nodeIds.length * config.stakePerNode) before.userStake).1 } ∧
        asyncCall =
          { call := .stake nodeIds.length blsKeysSignatures (nodeIds.length * config.stakePerNode)
            callback := ⟨.auctionStakeCallback, nodeIds⟩ } := by
  unfold performStakeNodes
  cases env.validateOwnerStakeShare with
  | error message => simp [bind, Except.bind]
  | ok done =>
      simp only [bind, Except.bind, pure, Except.pure, Except.ok.injEq, Prod.mk.injEq, true_and]
      exact ⟨fun ⟨same, call⟩ => ⟨same.symm, call.symm⟩, fun ⟨same, call⟩ => ⟨same.symm, call.symm⟩⟩

/-- The flat key and signature list `stakeNodes` sends: each key, then the signature of the
node it resolves to. -/
def stakedKeysSignatures (reg : NodeRegistry) (blsKeys : List BLSKey) : List (List UInt8) :=
  blsKeys.flatMap fun blsKey => [blsKey.bytes, (reg.getNodeSignature (reg.getNodeId blsKey)).bytes]

theorem stakeNodes_eq_ok {blsKeys : List BLSKey} {asyncCall : AsyncCall} :
    stakeNodes config env blsKeys before = .ok (after, asyncCall) ↔
      env.ownerCalled = true ∧ ∃ nodeState,
        setNodeStates stakeTransition (blsKeys.map config.reg.getNodeId) before.nodeState =
          .ok nodeState ∧
        performStakeNodes config env (blsKeys.map config.reg.getNodeId)
          (stakedKeysSignatures config.reg blsKeys) { before with nodeState } =
          .ok (after, asyncCall) := by
  simp only [stakeNodes, stakedKeysSignatures, bind_eq_ok, require_eq_ok, Unique.exists_iff]

/-- `stakeNodes` over registered keys issues a stake request for the nodes the keys name. -/
theorem stakeNodes_issues {blsKeys : List BLSKey} {asyncCall : AsyncCall}
    (ran : stakeNodes config env blsKeys before = .ok (after, asyncCall))
    (registeredKeys : ∀ blsKey ∈ blsKeys, config.reg.getNodeId blsKey ≠ 0) :
    asyncCall.callback = ⟨.auctionStakeCallback, blsKeys.map config.reg.getNodeId⟩ ∧
      Issues config before after asyncCall.callback := by
  obtain ⟨-, nodeState, loop, performed⟩ := stakeNodes_eq_ok.mp ran
  obtain ⟨-, rfl, rfl⟩ := performStakeNodes_eq_ok.mp performed
  obtain ⟨nodup, moved, rfl⟩ := setNodeStates_eq_ok_to stakeTransition_oneShot
    (fun _ _ _ step => (stakeTransition_eq_ok.mp step).2) loop
  refine ⟨rfl, nodup, fun n member => ?_, fun n member => (stakeTransition_eq_ok.mp
    (moved n member)).1, rfl, rfl, rfl, fun _ => ⟨rfl, rfl⟩, nofun⟩
  obtain ⟨blsKey, keyMember, rfl⟩ := List.mem_map.mp member
  exact ⟨Nat.pos_of_ne_zero (registeredKeys blsKey keyMember), config.reg.getNodeId_le blsKey⟩

theorem mem_stakedIds {config : Config} {storage : Storage} {n : Nat}
    (member : n ∈ stakedIds config storage) :
    (1 ≤ n ∧ n ≤ config.reg.numNodes) ∧ storage.nodeState n = .inactive := by
  have := List.mem_of_mem_take member
  simp only [inactiveFrom, List.mem_filter, List.mem_range'_1, decide_eq_true_eq] at this
  exact ⟨⟨this.1.1, by omega⟩, this.2⟩

theorem stakedIds_nodup (config : Config) (storage : Storage) :
    (stakedIds config storage).Nodup :=
  (List.take_sublist _ _).nodup ((List.nodup_range' 1 _).filter _)

/-- The free stake pays for the nodes `stake_all_available` stakes. -/
theorem stakedIds_funded (config : Config) (storage : Storage) :
    (stakedIds config storage).length * config.stakePerNode ≤ storage.userStake .inactive :=
  (Nat.mul_le_mul_right _ (List.length_take_le _ _)).trans affordable_mul_le

/-- `stakeAllAvailable` issues nothing and changes nothing, or issues a stake request for the
ids of its scan. -/
theorem stakeAllAvailable_issues {asyncCall : Option AsyncCall}
    (ran : stakeAllAvailable config env before = .ok (after, asyncCall)) :
    (asyncCall = none ∧ after = before) ∨
      ∃ issued, asyncCall = some issued ∧
        issued.callback = ⟨.auctionStakeCallback, stakedIds config before⟩ ∧
        Issues config before after issued.callback := by
  rw [stakeAllAvailable_eq] at ran
  split at ran
  · cases ran; exact .inl ⟨rfl, rfl⟩
  · obtain ⟨⟨_, issued⟩, performed, ⟨⟩⟩ := map_eq_ok.mp ran
    obtain ⟨-, rfl, rfl⟩ := performStakeNodes_eq_ok.mp performed
    exact .inr ⟨_, rfl, rfl, stakedIds_nodup config before, fun n member =>
      (mem_stakedIds member).1, fun n member => (mem_stakedIds member).2, rfl, rfl, rfl,
      fun _ => ⟨rfl, rfl⟩, nofun⟩

theorem unstakeNodes_eq_ok {blsKeys : List BLSKey} {asyncCall : AsyncCall} :
    unstakeNodes config env blsKeys before = .ok (after, asyncCall) ↔
      env.ownerCalled = true ∧ ∃ nodeState,
        setNodeStates unstakeTransition (blsKeys.map config.reg.getNodeId) before.nodeState =
          .ok nodeState ∧
        after = { before with
          nodeState,
          userStake :=
            (unstakeStartTransf (blsKeys.length * config.stakePerNode) before.userStake).1 } ∧
        asyncCall =
          { call := .unStake blsKeys
            callback := ⟨.auctionUnstakeCallback, blsKeys.map config.reg.getNodeId⟩ } := by
  simp only [unstakeNodes, performUnstakeNodes, bind_eq_ok, require_eq_ok, Unique.exists_iff,
    pure, Except.pure, Except.ok.injEq, Prod.mk.injEq]
  exact and_congr_right fun _ => exists_congr fun _ => and_congr_right fun _ =>
    ⟨fun ⟨same, call⟩ => ⟨same.symm, call.symm⟩, fun ⟨same, call⟩ => ⟨same.symm, call.symm⟩⟩

/-- `unStakeNodes` issues an unstake request for the nodes the keys name; none of them is
node `0` as long as that one is Inactive. -/
theorem unstakeNodes_issues {blsKeys : List BLSKey} {asyncCall : AsyncCall}
    (ran : unstakeNodes config env blsKeys before = .ok (after, asyncCall))
    (zeroIdle : before.nodeState 0 = .inactive) :
    asyncCall.callback = ⟨.auctionUnstakeCallback, blsKeys.map config.reg.getNodeId⟩ ∧
      Issues config before after asyncCall.callback := by
  obtain ⟨-, nodeState, loop, rfl, rfl⟩ := unstakeNodes_eq_ok.mp ran
  obtain ⟨nodup, moved, rfl⟩ := setNodeStates_eq_ok_to unstakeTransition_oneShot
    (fun _ _ _ step => (unstakeTransition_eq_ok.mp step).2) loop
  have active := fun n member => (unstakeTransition_eq_ok.mp (moved n member)).1
  refine ⟨rfl, nodup, fun n member => ⟨Nat.pos_of_ne_zero fun zero => ?_, ?_⟩, active, rfl,
    rfl, by simp [Callback.origin, Callback.awaited, NodeState.phase, unstakeStartTransf],
    fun _ => ⟨rfl, rfl⟩, nofun⟩
  · have := active n member; rw [zero, zeroIdle] at this; cases this
  · obtain ⟨blsKey, -, rfl⟩ := List.mem_map.mp member; exact config.reg.getNodeId_le blsKey

/-- The age check of `unbond_start_transf` in the block `blockNonce`. -/
def unbondDue (config : Config) (blockNonce created : UInt64) : Bool :=
  decide (created + config.nBlocksBeforeUnbond < blockNonce)

/-- `perform_unbond` goes through exactly when the stake of its batch is found in buckets of
the unbond period past the delay. -/
theorem performUnbond_eq_ok {blockNonce : UInt64} {nodeIds : List Nat} {blsKeys : List BLSKey}
    {asyncCall : AsyncCall} :
    performUnbond config blockNonce nodeIds blsKeys before = .ok (after, asyncCall) ↔
      (takeDated (unbondDue config blockNonce) (nodeIds.length * config.stakePerNode)
          before.unBondPeriodStake).2.1 = 0 ∧
        after = (unbondStartTransf config.nBlocksBeforeUnbond blockNonce
          (nodeIds.length * config.stakePerNode) before).1 ∧
        asyncCall =
          { call := .unBond blsKeys, callback := ⟨.auctionUnbondCallback, nodeIds⟩ } := by
  unfold performUnbond
  dsimp only
  split
  · exact ⟨fun failed => (nomatch failed), fun ⟨found, _⟩ => by
      simp only [unbondStartTransf] at *; unfold unbondDue at found; omega⟩
  · simp only [pure, Except.pure, Except.ok.injEq, Prod.mk.injEq]
    exact ⟨fun ⟨same, call⟩ => ⟨by simp only [unbondStartTransf] at *; unfold unbondDue; omega,
      same.symm, call.symm⟩, fun ⟨_, same, call⟩ => ⟨same.symm, call.symm⟩⟩

/-- When the stake of the batch is found, the start of an unbond moves the batch's stake
between the phase totals, and the dated buckets as `StartsUnbond` says. -/
theorem unbondStartTransf_found {blockNonce : UInt64} {amount : Nat} {storage : Storage}
    (found : (takeDated (unbondDue config blockNonce) amount storage.unBondPeriodStake).2.1 = 0) :
    (unbondStartTransf config.nBlocksBeforeUnbond blockNonce amount storage).1.userStake =
        (moveStake .unBondPeriod .pendingUnBond amount storage.userStake).1 ∧
      StartsUnbond (unbondDue config blockNonce) amount storage
        (unbondStartTransf config.nBlocksBeforeUnbond blockNonce amount storage).1 := by
  unfold unbondDue at found
  exact ⟨by simp only [unbondStartTransf, found, Nat.sub_zero], found, rfl, rfl⟩

theorem unbondNodes_eq_ok {blockNonce : UInt64} {blsKeys : List BLSKey}
    {asyncCall : AsyncCall} :
    unbondNodes config blockNonce blsKeys before = .ok (after, asyncCall) ↔
      ∃ nodeState,
        setNodeStates (unbondTransition config blockNonce before.blNonceOfUnstake)
          (blsKeys.map config.reg.getNodeId) before.nodeState = .ok nodeState ∧
        performUnbond config blockNonce (blsKeys.map config.reg.getNodeId) blsKeys
          { before with nodeState } = .ok (after, asyncCall) := by
  simp only [unbondNodes, bind_eq_ok]

/-- `unBondNodes` issues an unbond request for the nodes the keys name; none of them is node
`0` as long as that one is Inactive. -/
theorem unbondNodes_issues {blockNonce : UInt64} {blsKeys : List BLSKey} {asyncCall : AsyncCall}
    (ran : unbondNodes config blockNonce blsKeys before = .ok (after, asyncCall))
    (zeroIdle : before.nodeState 0 = .inactive) :
    asyncCall.callback = ⟨.auctionUnbondCallback, blsKeys.map config.reg.getNodeId⟩ ∧
      Issues config before after asyncCall.callback := by
  obtain ⟨nodeState, loop, performed⟩ := unbondNodes_eq_ok.mp ran
  obtain ⟨found, rfl, rfl⟩ := performUnbond_eq_ok.mp performed
  obtain ⟨nodup, moved, rfl⟩ := setNodeStates_eq_ok_to (unbondTransition_oneShot _ _ _)
    (fun _ _ _ step => (unbondTransition_eq_ok.mp step).2.2) loop
  have inPeriod := fun n member => (unbondTransition_eq_ok.mp (moved n member)).1
  obtain ⟨totals, starts⟩ := unbondStartTransf_found found
  refine ⟨rfl, nodup, fun n member => ⟨Nat.pos_of_ne_zero fun zero => ?_, ?_⟩, inPeriod, rfl,
    rfl, totals, nofun, fun _ => ⟨_, starts.found, starts.unBondPeriod, starts.pendingUnBond⟩⟩
  · have := inPeriod n member; rw [zero, zeroIdle] at this; cases this
  · obtain ⟨blsKey, -, rfl⟩ := List.mem_map.mp member; exact config.reg.getNodeId_le blsKey

/-- The ids `unBondAllAvailable` unbonds. -/
def unbondedIds (config : Config) (blockNonce : UInt64) (storage : Storage) : List Nat :=
  dueIds config blockNonce storage.blNonceOfUnstake config.reg.numNodes storage.nodeState

theorem unbondAllAvailable_eq (config : Config) (blockNonce : UInt64) (storage : Storage) :
    unbondAllAvailable config blockNonce storage =
      if unbondedIds config blockNonce storage = [] then .ok (storage, none)
      else (performUnbond config blockNonce (unbondedIds config blockNonce storage)
          ((unbondedIds config blockNonce storage).map config.reg.getNodeIdToBls)
          { storage with
            nodeState := setNodeStatesTo .pendingUnBond (unbondedIds config blockNonce storage)
              storage.nodeState }).map
        fun (storage, asyncCall) => (storage, some asyncCall) := by
  unfold unbondAllAvailable
  rw [unbondAllAvailableLoop_eq]
  by_cases empty : unbondedIds config blockNonce storage = []
  · rw [if_pos empty]
    simp only [unbondedIds] at empty
    simp only [empty, List.isEmpty_nil, if_true, setNodeStatesTo]
    rfl
  · rw [if_neg empty]
    simp only [unbondedIds] at empty
    simp only [unbondedIds, List.isEmpty_eq_false.mpr empty, Bool.false_eq_true, if_false]

/-- `unBondAllAvailable` issues nothing and changes nothing, or issues an unbond request for
the ids of its scan. -/
theorem unbondAllAvailable_issues {blockNonce : UInt64} {asyncCall : Option AsyncCall}
    (ran : unbondAllAvailable config blockNonce before = .ok (after, asyncCall)) :
    (asyncCall = none ∧ after = before) ∨
      ∃ issued, asyncCall = some issued ∧
        issued.callback = ⟨.auctionUnbondCallback, unbondedIds config blockNonce before⟩ ∧
        Issues config before after issued.callback := by
  rw [unbondAllAvailable_eq] at ran
  split at ran
  · cases ran; exact .inl ⟨rfl, rfl⟩
  · obtain ⟨⟨_, issued⟩, performed, ⟨⟩⟩ := map_eq_ok.mp ran
    obtain ⟨found, rfl, rfl⟩ := performUnbond_eq_ok.mp performed
    obtain ⟨totals, starts⟩ := unbondStartTransf_found found
    refine .inr ⟨_, rfl, rfl, dueIds_nodup _ _ _ _ _, fun n member => ?_, fun n member => ?_,
      rfl, rfl, totals, nofun,
      fun _ => ⟨_, starts.found, starts.unBondPeriod, starts.pendingUnBond⟩⟩
    · exact ((mem_dueIds _ _ _).mp member).1
    · exact ((mem_dueIds _ _ _).mp member).2.1

/-- When some node is due and the walk over the buckets of the unbond period past the delay
finds the stake of all due nodes, `unBondAllAvailable` issues an unbond request for them. -/
theorem unbondAllAvailable_eq_some {blockNonce : UInt64}
    (due : unbondedIds config blockNonce before ≠ [])
    (found : (takeDated (unbondDue config blockNonce)
      ((unbondedIds config blockNonce before).length * config.stakePerNode)
        before.unBondPeriodStake).2.1 = 0) :
    ∃ after blsKeys, unbondAllAvailable config blockNonce before =
      .ok (after, some ⟨.unBond blsKeys, ⟨.auctionUnbondCallback,
        unbondedIds config blockNonce before⟩⟩) := by
  rw [unbondAllAvailable_eq, if_neg due]
  exact ⟨_, _, map_eq_ok.mpr ⟨_, performUnbond_eq_ok.mpr ⟨found, rfl, rfl⟩, rfl⟩⟩

theorem claimFailedStake_eq_ok {asyncCall : Option AsyncCall} :
    claimFailedStake config env before = .ok asyncCall ↔
      env.ownerCalled = true ∧
        asyncCall =
          if failedIds config.reg.numNodes before.nodeState = [] then none
          else some
            { call := .claim
              callback :=
                ⟨.auctionClaimCallback, failedIds config.reg.numNodes before.nodeState⟩ } := by
  simp only [claimFailedStake, claimFailedStakeLoop_eq, bind_eq_ok, require_eq_ok,
    Unique.exists_iff, List.isEmpty_iff]
  split <;> simp only [pure, Except.pure, Except.ok.injEq, @eq_comm _ asyncCall]

/-- A claim request names every registered node whose activation failed, and moves none. -/
theorem claimFailedStake_issues {asyncCall : Option AsyncCall}
    (ran : claimFailedStake config env before = .ok asyncCall) :
    asyncCall = none ∨
      ∃ issued, asyncCall = some issued ∧
        issued.callback =
          ⟨.auctionClaimCallback, failedIds config.reg.numNodes before.nodeState⟩ ∧
        Issues config before before issued.callback := by
  obtain ⟨-, rfl⟩ := claimFailedStake_eq_ok.mp ran
  split
  · exact .inl rfl
  · have failed : ∀ n ∈ failedIds config.reg.numNodes before.nodeState,
        before.nodeState n = .activationFailed := fun n member => (mem_failedIds.mp member).2
    refine .inr ⟨_, rfl, rfl, failedIds_nodup _ _, fun n member => (mem_failedIds.mp member).1,
      failed, funext fun n => ?_, rfl, (if_pos rfl).symm, fun _ => ⟨rfl, rfl⟩, nofun⟩
    rw [setNodeStatesTo_apply]
    split
    · exact failed n ‹_›
    · rfl

/-- What a successful call does: it issues nothing and changes nothing, or it issues one
request (`Issues`). This needs the keys given to `stakeNodes` to be registered, and node `0`
to be Inactive. -/
theorem runEndpoint_issues {blockNonce : UInt64} {call : Call} {asyncCall : Option AsyncCall}
    (ran : runEndpoint config env blockNonce call before = .ok (after, asyncCall))
    (registeredKeys : ∀ blsKeys, call = .stakeNodes blsKeys →
      ∀ blsKey ∈ blsKeys, config.reg.getNodeId blsKey ≠ 0)
    (zeroIdle : before.nodeState 0 = .inactive) :
    (asyncCall = none ∧ after = before) ∨
      ∃ issued, asyncCall = some issued ∧ Issues config before after issued.callback := by
  cases call with
  | stakeNodes blsKeys =>
      obtain ⟨⟨_, issued⟩, called, ⟨⟩⟩ := map_eq_ok.mp ran
      exact .inr ⟨_, rfl, (stakeNodes_issues called (registeredKeys blsKeys rfl)).2⟩
  | stakeAllAvailable =>
      obtain ⟨-, -, called⟩ := bind_eq_ok.mp ran
      obtain stay | ⟨issued, rfl, -, issues⟩ := stakeAllAvailable_issues called
      · exact .inl stay
      · exact .inr ⟨_, rfl, issues⟩
  | unStakeNodes blsKeys =>
      obtain ⟨⟨_, issued⟩, called, ⟨⟩⟩ := map_eq_ok.mp ran
      exact .inr ⟨_, rfl, (unstakeNodes_issues called zeroIdle).2⟩
  | unBondNodes blsKeys =>
      obtain ⟨⟨_, issued⟩, called, ⟨⟩⟩ := map_eq_ok.mp ran
      exact .inr ⟨_, rfl, (unbondNodes_issues called zeroIdle).2⟩
  | unBondAllAvailable =>
      obtain stay | ⟨issued, rfl, -, issues⟩ := unbondAllAvailable_issues ran
      · exact .inl stay
      · exact .inr ⟨_, rfl, issues⟩
  | claimFailedStake =>
      obtain ⟨issued, called, ⟨⟩⟩ := map_eq_ok.mp ran
      obtain rfl | ⟨issued, rfl, -, issues⟩ := claimFailedStake_issues called
      · exact .inl ⟨rfl, rfl⟩
      · exact .inr ⟨_, rfl, issues⟩

/-- The callback each endpoint registers. -/
def Call.opens : Call → Callback
  | .stakeNodes _ | .stakeAllAvailable => .auctionStakeCallback
  | .unStakeNodes _ => .auctionUnstakeCallback
  | .unBondNodes _ | .unBondAllAvailable => .auctionUnbondCallback
  | .claimFailedStake => .auctionClaimCallback

/-- A call's request is answered by its endpoint's callback. -/
theorem runEndpoint_opens {blockNonce : UInt64} {call : Call} {issued : AsyncCall}
    (ran : runEndpoint config env blockNonce call before = .ok (after, some issued)) :
    issued.callback.callback = call.opens := by
  cases call with
  | stakeNodes blsKeys =>
      obtain ⟨⟨_, issued⟩, called, ⟨⟩⟩ := map_eq_ok.mp ran
      obtain ⟨-, nodeState, -, performed⟩ := stakeNodes_eq_ok.mp called
      obtain ⟨-, -, rfl⟩ := performStakeNodes_eq_ok.mp performed
      rfl
  | stakeAllAvailable =>
      obtain ⟨-, -, called⟩ := bind_eq_ok.mp ran
      obtain ⟨none, -⟩ | ⟨issued, ⟨⟩, opened, -⟩ := stakeAllAvailable_issues called
      · cases none
      · rw [opened]; rfl
  | unStakeNodes blsKeys =>
      obtain ⟨⟨_, issued⟩, called, ⟨⟩⟩ := map_eq_ok.mp ran
      obtain ⟨-, -, -, -, rfl⟩ := unstakeNodes_eq_ok.mp called
      rfl
  | unBondNodes blsKeys =>
      obtain ⟨⟨_, issued⟩, called, ⟨⟩⟩ := map_eq_ok.mp ran
      obtain ⟨nodeState, -, performed⟩ := unbondNodes_eq_ok.mp called
      obtain ⟨-, -, rfl⟩ := performUnbond_eq_ok.mp performed
      rfl
  | unBondAllAvailable =>
      obtain ⟨none, -⟩ | ⟨issued, ⟨⟩, opened, -⟩ := unbondAllAvailable_issues ran
      · cases none
      · rw [opened]; rfl
  | claimFailedStake =>
      obtain ⟨issued, called, ⟨⟩⟩ := map_eq_ok.mp ran
      obtain none | ⟨issued, ⟨⟩, opened, -⟩ := claimFailedStake_issues called
      · cases none
      · rw [opened]; rfl

/-- A stake request is paid for out of the free stake whenever the `stakeNodes` calls are:
`stakeAllAvailable` always is. -/
theorem runEndpoint_stake_funded {blockNonce : UInt64} {call : Call} {issued : AsyncCall}
    (ran : runEndpoint config env blockNonce call before = .ok (after, some issued))
    (stake : issued.callback.callback = .auctionStakeCallback)
    (paid : ∀ blsKeys, call = .stakeNodes blsKeys →
      blsKeys.length * config.stakePerNode ≤ before.userStake .inactive) :
    issued.callback.nodeIds.length * config.stakePerNode ≤ before.userStake .inactive := by
  have opens := (runEndpoint_opens ran).symm.trans stake
  cases call with
  | stakeNodes blsKeys =>
      obtain ⟨⟨_, issued⟩, called, ⟨⟩⟩ := map_eq_ok.mp ran
      obtain ⟨-, nodeState, -, performed⟩ := stakeNodes_eq_ok.mp called
      obtain ⟨-, -, rfl⟩ := performStakeNodes_eq_ok.mp performed
      simpa using paid blsKeys rfl
  | stakeAllAvailable =>
      obtain ⟨-, -, called⟩ := bind_eq_ok.mp ran
      obtain ⟨none, -⟩ | ⟨issued, ⟨⟩, opened, -⟩ := stakeAllAvailable_issues called
      · cases none
      · rw [opened]; exact stakedIds_funded config before
  | _ => cases opens

end Endpoints

end Delegation.V04
