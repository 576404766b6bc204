/-
Module: Delegation.V04.NodeLifecycle
Layer: Proofs
Purpose: The node lifecycle of version 0.4 along every run without the calls `Disciplined`
  leaves out (spec §4.2). A node changes state only along the edges of the lifecycle, by the
  step each edge names, and only when the request the step opens or answers holds it. A
  rejected stake parks its nodes in ActivationFailed, which only a confirmed claim leaves.
  The unstake block of a node changes only when the node enters its unbond period, to the
  block of that step, or leaves it for Inactive, to 0: while a node waits to unbond, the
  block its time checks read is the block of its confirmed unstake, and out of those phases
  it is 0. No callback is ever reverted, and once no request is outstanding no node is
  pending. With every stake paid for, a confirmed claim returns all the failed stake to the
  free stake. On a chain, where a new block never moves the block back, every block the
  storage records stays at most the current one (`Sound`), so the ledger never blocks an
  unbond for long: at any block later than the current one by more than the unbond delay,
  every unbond the nodes allow goes through.
Trusted boundary: none
Main exports: Edge, Label.Holds, RequestsWellFormed.step_cases, RequestsWellFormed.step_edge,
  RequestsWellFormed.step_blNonceOfUnstake, unstakeBlockAfter, disciplined_lifecycle,
  disciplined_callbacks_succeed, disciplined_unstake_block_cleared,
  LockstepOn.covers_unBondPeriod, funded_claim_returns_failed_stake, step_blockNonce,
  Forward, RequestsWellFormed.step_datedBy, Sound, Sound.reach, unbondDelay_passed,
  Sound.unbond_found, funded_unbond_after_delay
-/
import Delegation.V04.Lifecycle

namespace Delegation.V04

/-! ### The lifecycle edges -/

/-- The lifecycle edges of version 0.4 (spec §4.2), each with the step that takes it. -/
inductive Edge : Label → NodeState → NodeState → Prop where
  | stakeNodes (env : Env) (blsKeys : List BLSKey) :
      Edge (.call env (.stakeNodes blsKeys)) .inactive .pendingActivation
  | stakeAllAvailable (env : Env) :
      Edge (.call env .stakeAllAvailable) .inactive .pendingActivation
  | stakeOk (nodeIds : List Nat) (result : CallResult) :
      Edge (.deliver ⟨.auctionStakeCallback, nodeIds⟩ result) .pendingActivation .active
  | stakeFail (nodeIds : List Nat) (result : CallResult) :
      Edge (.deliver ⟨.auctionStakeCallback, nodeIds⟩ result) .pendingActivation
        .activationFailed
  | unStakeNodes (env : Env) (blsKeys : List BLSKey) :
      Edge (.call env (.unStakeNodes blsKeys)) .active .pendingDeactivation
  | unstakeOk (nodeIds : List Nat) (result : CallResult) :
      Edge (.deliver ⟨.auctionUnstakeCallback, nodeIds⟩ result) .pendingDeactivation
        .unBondPeriod
  | unstakeFail (nodeIds : List Nat) (result : CallResult) :
      Edge (.deliver ⟨.auctionUnstakeCallback, nodeIds⟩ result) .pendingDeactivation .active
  | unBondNodes (env : Env) (blsKeys : List BLSKey) :
      Edge (.call env (.unBondNodes blsKeys)) .unBondPeriod .pendingUnBond
  | unBondAllAvailable (env : Env) :
      Edge (.call env .unBondAllAvailable) .unBondPeriod .pendingUnBond
  | unbondOk (nodeIds : List Nat) (result : CallResult) :
      Edge (.deliver ⟨.auctionUnbondCallback, nodeIds⟩ result) .pendingUnBond .inactive
  | unbondFail (nodeIds : List Nat) (result : CallResult) :
      Edge (.deliver ⟨.auctionUnbondCallback, nodeIds⟩ result) .pendingUnBond .unBondPeriod
  | claimOk (nodeIds nodeIdsOk nodeIdsFail : List Nat) :
      Edge (.deliver ⟨.auctionClaimCallback, nodeIds⟩ (.ok nodeIdsOk nodeIdsFail))
        .activationFailed .inactive

/-- A call that moves its nodes takes them along its flow's opening edge. -/
theorem Edge.issue (env : Env) : ∀ call : Call, call.opens.origin ≠ call.opens.awaited →
    Edge (.call env call) call.opens.origin call.opens.awaited
  | .stakeNodes blsKeys, _ => .stakeNodes env blsKeys
  | .stakeAllAvailable, _ => .stakeAllAvailable env
  | .unStakeNodes blsKeys, _ => .unStakeNodes env blsKeys
  | .unBondNodes blsKeys, _ => .unBondNodes env blsKeys
  | .unBondAllAvailable, _ => .unBondAllAvailable env
  | .claimFailedStake, moves => absurd rfl moves

/-- An answer that moves a node of its request takes it along one of its flow's closing
edges. -/
theorem Edge.settle (closure : CallbackClosure) (result : CallResult) (n : Nat)
    (moves : closure.callback.settled (closure.callback.fails result n) ≠
      closure.callback.awaited) :
    Edge (.deliver closure result) closure.callback.awaited
      (closure.callback.settled (closure.callback.fails result n)) := by
  obtain ⟨callback, nodeIds⟩ := closure
  cases callback
  case auctionClaimCallback =>
    cases result with
    | ok nodeIdsOk nodeIdsFail => exact .claimOk nodeIds nodeIdsOk nodeIdsFail
    | err errMsg => exact absurd rfl moves
  all_goals
    simp only [Callback.fails, Callback.settled, Callback.awaited]
    split
  exacts [.stakeFail nodeIds result, .stakeOk nodeIds result, .unstakeFail nodeIds result,
    .unstakeOk nodeIds result, .unbondFail nodeIds result, .unbondOk nodeIds result]

/-- The request a step opens or answers holds node `n`. -/
def Label.Holds (config : Config) (s : State) (n : Nat) : Label → Prop
  | .call env endpoint => ∃ after issued,
      runEndpoint config env s.blockNonce endpoint s.storage = .ok (after, some issued) ∧
        n ∈ issued.callback.nodeIds
  | .deliver closure _ => closure ∈ s.inFlight ∧ n ∈ closure.nodeIds
  | .newBlock _ | .deposit _ | .withdraw _ => False

/-- The unstake block a node has after a step of the block `blockNonce` that moves it from
`before` to `after`, having had `old`: the block of the step when it enters its unbond
period from PendingDeactivation, 0 when it leaves pending unbond for Inactive, and `old`
otherwise. -/
def unstakeBlockAfter (blockNonce : UInt64) : NodeState → NodeState → UInt64 → UInt64
  | .pendingDeactivation, .unBondPeriod, _ => blockNonce
  | .pendingUnBond, .inactive, _ => 0
  | _, _, old => old

@[simp] theorem unstakeBlockAfter_same (blockNonce : UInt64) (state : NodeState) (old : UInt64) :
    unstakeBlockAfter blockNonce state state old = old := by
  cases state <;> rfl

/-- Opening a flow never dates or resets an unstake block. -/
theorem Callback.unstakeBlockAfter_issue (blockNonce : UInt64) (callback : Callback)
    (old : UInt64) : unstakeBlockAfter blockNonce callback.origin callback.awaited old = old := by
  cases callback <;> rfl

/-- Closing a flow sets the unstake block its confirmation gives, or keeps it on a failure. -/
theorem Callback.unstakeBlockAfter_settle (blockNonce : UInt64) (callback : Callback)
    (failed : Bool) (old : UInt64) :
    unstakeBlockAfter blockNonce callback.awaited (callback.settled failed) old =
      if failed = false then callback.confirmedUnstakeBlock blockNonce old else old := by
  cases callback <;> cases failed <;> rfl

/-! ### One step -/

section Steps

variable {config : Config} {s : State}

theorem step_call_storage {env : Env} {call : Call} {after : Storage}
    {asyncCall : Option AsyncCall}
    (ran : runEndpoint config env s.blockNonce call s.storage = .ok (after, asyncCall)) :
    (step config s (.call env call)).storage = after := by
  simp only [step, ran]

theorem step_call_error {env : Env} {call : Call} {errMsg : String}
    (failed : runEndpoint config env s.blockNonce call s.storage = .error errMsg) :
    step config s (.call env call) = s := by
  simp only [step, failed]

theorem step_deliver_storage {closure : CallbackClosure} {result : CallResult} {after : Storage}
    (delivered : closure ∈ s.inFlight ∧ result.Splits closure.nodeIds)
    (ran : runCallback config s.blockNonce closure result s.storage = .ok after) :
    (step config s (.deliver closure result)).storage = after := by
  simp only [step, if_pos delivered, ran]

theorem step_deliver_skip {closure : CallbackClosure} {result : CallResult}
    (skipped : ¬(closure ∈ s.inFlight ∧ result.Splits closure.nodeIds)) :
    step config s (.deliver closure result) = s := by
  simp only [step, if_neg skipped]

/-- Only a new block moves the block. -/
theorem step_blockNonce {label : Label} (notBlock : ∀ blockNonce, label ≠ .newBlock blockNonce) :
    (step config s label).blockNonce = s.blockNonce := by
  cases label with
  | call env call => simp only [step]; split <;> rfl
  | deliver closure result => simp only [step]; split <;> rfl
  | newBlock blockNonce => exact absurd rfl (notBlock blockNonce)
  | deposit amount | withdraw amount => rfl

end Steps

namespace RequestsWellFormed

variable {config : Config} {s : State}

/-- What a step allowed by `Disciplined` can do to the nodes and their unstake blocks:
nothing; or it is a call that issues one request (`Issues`); or it delivers the answer to an
outstanding request, whose callback succeeds. -/
theorem step_cases (wf : RequestsWellFormed config s) {label : Label}
    (allowed : Disciplined config s label) :
    ((V04.step config s label).storage.nodeState = s.storage.nodeState ∧
        (V04.step config s label).storage.blNonceOfUnstake = s.storage.blNonceOfUnstake) ∨
      (∃ env call issued, label = .call env call ∧
        runEndpoint config env s.blockNonce call s.storage =
          .ok ((V04.step config s label).storage, some issued) ∧
        Issues config s.storage (V04.step config s label).storage issued.callback) ∨
      (∃ closure result, label = .deliver closure result ∧ closure ∈ s.inFlight ∧
        result.Splits closure.nodeIds ∧
        runCallback config s.blockNonce closure result s.storage =
          .ok (V04.step config s label).storage) := by
  cases label with
  | call env call =>
      cases ran : runEndpoint config env s.blockNonce call s.storage with
      | error errMsg => exact .inl (by rw [step_call_error ran]; exact ⟨rfl, rfl⟩)
      | ok result =>
          obtain ⟨after, asyncCall⟩ := result
          rw [step_call_storage ran]
          obtain ⟨rfl, rfl⟩ | ⟨issued, rfl, issues⟩ := runEndpoint_issues ran
            (by rintro blsKeys rfl; exact allowed) (wf.unregistered 0 (.inl rfl))
          · exact .inl ⟨rfl, rfl⟩
          · exact .inr (.inl ⟨env, call, issued, rfl, ran, issues⟩)
  | deliver closure result =>
      by_cases delivered : closure ∈ s.inFlight ∧ result.Splits closure.nodeIds
      · obtain ⟨after, ran, -⟩ := wf.answer delivered.1 delivered.2
        rw [step_deliver_storage delivered ran]
        exact .inr (.inr ⟨closure, result, rfl, delivered.1, delivered.2, ran⟩)
      · exact .inl (by rw [step_deliver_skip delivered]; exact ⟨rfl, rfl⟩)
  | newBlock _ | deposit _ | withdraw _ => exact .inl ⟨rfl, rfl⟩

/-- A step allowed by `Disciplined` moves a node only along a lifecycle edge, and only when
the request it opens or answers holds the node. -/
theorem step_edge (wf : RequestsWellFormed config s) {label : Label}
    (allowed : Disciplined config s label) {n : Nat}
    (changed : (V04.step config s label).storage.nodeState n ≠ s.storage.nodeState n) :
    Edge label (s.storage.nodeState n) ((V04.step config s label).storage.nodeState n) ∧
      label.Holds config s n := by
  rcases wf.step_cases allowed with ⟨same, -⟩ | ⟨env, call, issued, rfl, ran, issues⟩ |
    ⟨closure, result, rfl, outstanding, splits, ran⟩
  · exact absurd (congrFun same n) changed
  · generalize (V04.step config s (.call env call)).storage = after at changed ran issues ⊢
    have moved : ∀ n, after.nodeState n = if n ∈ issued.callback.nodeIds then
        issued.callback.callback.awaited else s.storage.nodeState n :=
      fun n => by rw [issues.nodeState, setNodeStatesTo_apply]
    by_cases member : n ∈ issued.callback.nodeIds
    · rw [moved, if_pos member, issues.origin n member, runEndpoint_opens ran] at changed ⊢
      exact ⟨Edge.issue env call (Ne.symm changed), after, issued, ran, member⟩
    · exact absurd (by rw [moved, if_neg member]) changed
  · obtain ⟨after, answered, settled, -⟩ := wf.answer outstanding splits
    obtain rfl := Except.ok.inj (answered.symm.trans ran)
    by_cases member : n ∈ closure.nodeIds
    · simp only [settled, if_pos member, wf.awaiting closure outstanding n member] at changed ⊢
      exact ⟨Edge.settle closure result n changed, outstanding, member⟩
    · exact absurd (by simp only [settled, if_neg member]) changed

/-- What a step allowed by `Disciplined` does to the unstake block of a node: it dates it
from the block of the step when the node enters its unbond period from PendingDeactivation,
resets it to 0 when the node leaves pending unbond for Inactive, and keeps it otherwise. -/
theorem step_blNonceOfUnstake (wf : RequestsWellFormed config s) {label : Label}
    (allowed : Disciplined config s label) (n : Nat) :
    (V04.step config s label).storage.blNonceOfUnstake n =
      unstakeBlockAfter s.blockNonce (s.storage.nodeState n)
        ((V04.step config s label).storage.nodeState n) (s.storage.blNonceOfUnstake n) := by
  rcases wf.step_cases allowed with ⟨nodes, same⟩ | ⟨_, _, issued, -, -, issues⟩ |
    ⟨closure, result, -, outstanding, splits, ran⟩
  · rw [nodes, same, unstakeBlockAfter_same]
  · rw [issues.blNonceOfUnstake, issues.nodeState, setNodeStatesTo_apply]
    split_ifs with member
    · rw [issues.origin n member, Callback.unstakeBlockAfter_issue]
    · rw [unstakeBlockAfter_same]
  · obtain ⟨after, answered, settled, -⟩ := wf.answer outstanding splits
    rw [← Except.ok.inj (answered.symm.trans ran),
      runCallback_blNonceOfUnstake answered splits (wf.nodup _ outstanding), settled]
    by_cases member : n ∈ closure.nodeIds
    · simp only [member, true_and, if_true, wf.awaiting closure outstanding n member,
        Callback.unstakeBlockAfter_settle]
    · simp only [member, false_and, if_false, unstakeBlockAfter_same]

end RequestsWellFormed

/-! ### Along every run -/

/-- The node lifecycle of version 0.4 along every run without the calls `Disciplined` leaves
out. A node changes state only along the edges of spec §4.2, by the step each edge names, and
only when the request the step opens or answers holds it; its unstake block is dated from the
block of the step that takes it into its unbond period, reset when it leaves pending unbond
for Inactive, and kept by every other step. -/
theorem disciplined_lifecycle {config : Config} {start : UInt64} {s : State} {label : Label}
    {n : Nat} (reached : ReachableWhen config start (Disciplined config) s)
    (allowed : Disciplined config s label) :
    ((step config s label).storage.nodeState n ≠ s.storage.nodeState n →
      Edge label (s.storage.nodeState n) ((step config s label).storage.nodeState n) ∧
        label.Holds config s n) ∧
    (step config s label).storage.blNonceOfUnstake n =
      unstakeBlockAfter s.blockNonce (s.storage.nodeState n)
        ((step config s label).storage.nodeState n) (s.storage.blNonceOfUnstake n) :=
  have wf := (RequestsWellFormed.initial start).reach reached
  ⟨wf.step_edge allowed, wf.step_blNonceOfUnstake allowed n⟩

/-- After a deposit of 1, staking node 1 takes it from Inactive to PendingActivation, in the
request the call opens. -/
theorem stake_call_takes_edge :
    Edge (.call ownerEnv (.stakeNodes [⟨[1]⟩])) .inactive .pendingActivation ∧
      (Label.call ownerEnv (.stakeNodes [⟨[1]⟩])).Holds sampleConfig (sampleRun [.deposit 1]) 1 :=
  (@disciplined_lifecycle sampleConfig 0 (sampleRun [.deposit 1])
    (.call ownerEnv (.stakeNodes [⟨[1]⟩])) 1
    (by simp only [sampleRun, run, List.foldl]; exact Reach.step _ .init trivial)
    (by simp only [Disciplined]; decide)).1 (by decide)

/-- Along every run without the calls `Disciplined` leaves out, no callback is reverted: the
callback of every outstanding request succeeds on every answer that splits its nodes, so the
unbond callback never finds too little stake pending unbond. And once no request is
outstanding, no node is left pending. -/
theorem disciplined_callbacks_succeed {config : Config} {start : UInt64} {s : State}
    (reached : ReachableWhen config start (Disciplined config) s) :
    (∀ closure ∈ s.inFlight, ∀ result : CallResult, result.Splits closure.nodeIds →
      ∃ after, runCallback config s.blockNonce closure result s.storage = .ok after) ∧
    (s.inFlight = [] → ∀ n, (s.storage.nodeState n).isPending = false) := by
  have wf := (RequestsWellFormed.initial start).reach reached
  refine ⟨fun closure outstanding result splits => ?answered, fun quiet n => ?settled⟩
  case answered =>
    obtain ⟨after, ran, -⟩ := wf.answer outstanding splits
    exact ⟨after, ran⟩
  case settled =>
    by_contra pending
    obtain ⟨closure, outstanding, -⟩ := wf.owned n (by simpa using pending)
    rw [quiet] at outstanding
    cases outstanding

/-- Node `1` staked and confirmed, unstaked and confirmed at block 10, then unbonded at
block 100. -/
def unbondRun : List Label :=
  [.deposit 1, .call ownerEnv (.stakeNodes [⟨[1]⟩]),
    .deliver ⟨.auctionStakeCallback, [1]⟩ (.ok [1] []), .newBlock 10,
    .call ownerEnv (.unStakeNodes [⟨[1]⟩]), .deliver ⟨.auctionUnstakeCallback, [1]⟩ (.ok [1] []),
    .newBlock 100, .call ownerEnv (.unBondNodes [⟨[1]⟩])]

/-- The auction's confirmation of that unbond is accepted. -/
theorem unbond_confirmation_accepted :
    ∃ after, runCallback sampleConfig 100 ⟨.auctionUnbondCallback, [1]⟩ (.ok [1] [])
      (sampleRun unbondRun).storage = .ok after :=
  (@disciplined_callbacks_succeed sampleConfig 0 (sampleRun unbondRun)
    (reach_run_allowed unbondRun .init (by
      simp only [unbondRun, AllowedAlong, Disciplined, true_and, and_true]
      decide))).1 _ (by decide) _ (by decide)

/-- Along every run without the calls `Disciplined` leaves out, a node keeps an unstake block
only while it waits to unbond: out of its unbond period and of pending unbond, its unstake
block is 0. -/
theorem disciplined_unstake_block_cleared {config : Config} {start : UInt64} {s : State}
    (reached : ReachableWhen config start (Disciplined config) s) :
    ∀ n, s.storage.nodeState n ≠ .unBondPeriod → s.storage.nodeState n ≠ .pendingUnBond →
      s.storage.blNonceOfUnstake n = 0 := by
  induction reached with
  | init => exact fun _ _ _ => rfl
  | @step prev label reachedPrev allowed inductionHypothesis =>
      have wf := (RequestsWellFormed.initial start).reach reachedPrev
      intro n
      rw [wf.step_blNonceOfUnstake allowed n]
      have before := inductionHypothesis n
      by_cases moved : (step config prev label).storage.nodeState n = prev.storage.nodeState n
      · rw [moved, unstakeBlockAfter_same]
        exact before
      · have edge := (wf.step_edge allowed moved).1
        generalize prev.storage.nodeState n = old at edge before
        generalize (step config prev label).storage.nodeState n = new at edge
        cases edge <;> intro idle notPending
        -- an edge out of the unbond phases resets the block; no other edge leaves them
        all_goals first | rfl | exact before (by decide) (by decide) | exact absurd rfl idle |
          exact absurd rfl notPending

/-- After that unbond is confirmed, node `1` is Inactive again and its unstake block, dated
10 by its unstake, is back to 0. -/
theorem unstake_block_cleared_after_unbond :
    (sampleRun (unbondRun ++
      [.deliver ⟨.auctionUnbondCallback, [1]⟩ (.ok [1] [])])).storage.blNonceOfUnstake 1 = 0 :=
  disciplined_unstake_block_cleared (reach_run_allowed _ .init (by
      simp only [unbondRun, List.cons_append, List.nil_append, AllowedAlong, Disciplined,
        true_and, and_true]
      decide)) 1 (by decide) (by decide)

/-! ### With every stake paid for -/

/-- With the requests well formed and the ledger in lockstep, the unbond period holds the
stake of any batch of distinct nodes in it. -/
theorem LockstepOn.covers_unBondPeriod {config : Config} {s : State}
    (lockstep : LockstepOn config (· ≠ .inactive) s.storage) (wf : RequestsWellFormed config s)
    {nodeIds : List Nat} (nodup : nodeIds.Nodup)
    (inPeriod : ∀ n ∈ nodeIds, s.storage.nodeState n = .unBondPeriod) :
    nodeIds.length * config.stakePerNode ≤ s.storage.userStake .unBondPeriod :=
  lockstep.covers (show NodeState.unBondPeriod ≠ .inactive from nofun) nodup
    (fun n member => wf.registered (by rw [inPeriod n member]; nofun)) inPeriod

/-- Along every run without the calls `Funded` leaves out, a claim of the failed stake asks for
every node in ActivationFailed. When the auction confirms it, they all become Inactive and all
the stake in ActivationFailed goes back to the free stake; when it fails, nothing changes and
the claim can be asked again. -/
theorem funded_claim_returns_failed_stake {config : Config} {start : UInt64} {s : State}
    {env : Env} {asyncCall : AsyncCall}
    (reached : ReachableWhen config start (Funded config) s)
    (ran : claimFailedStake config env s.storage = .ok (some asyncCall))
    (blockNonce : UInt64) (nodeIdsOk nodeIdsFail : List Nat) (errMsg : String) :
    asyncCall.callback.callback = .auctionClaimCallback ∧
    (∀ n, n ∈ asyncCall.callback.nodeIds ↔ s.storage.nodeState n = .activationFailed) ∧
    runCallback config blockNonce asyncCall.callback (.ok nodeIdsOk nodeIdsFail) s.storage =
      .ok { s.storage with
        nodeState := fun n =>
          if s.storage.nodeState n = .activationFailed then .inactive else s.storage.nodeState n
        userStake := Function.update
          (Function.update s.storage.userStake .activationFailed 0) .inactive
          (s.storage.userStake .inactive + s.storage.userStake .activationFailed) } ∧
    runCallback config blockNonce asyncCall.callback (.err errMsg) s.storage = .ok s.storage := by
  obtain ⟨wf, lockstep⟩ := LockstepOn.reach (.initial start) (.initial config start) reached
  obtain ⟨-, issued⟩ := claimFailedStake_eq_ok.mp ran
  split at issued
  · cases issued
  cases issued
  have collected : ∀ n, n ∈ failedIds config.reg.numNodes s.storage.nodeState ↔
      s.storage.nodeState n = .activationFailed :=
    fun n => mem_failedIds.trans ⟨And.right, fun failed =>
      ⟨wf.registered (by rw [failed]; nofun), failed⟩⟩
  -- the claim asks for the stake of every failed node, which is all the failed stake
  have held : (failedIds config.reg.numNodes s.storage.nodeState).length * config.stakePerNode =
      s.storage.userStake .activationFailed :=
    calc _ = config.stakePerNode *
          nodeCount config.reg.numNodes s.storage.nodeState .activationFailed := by
          rw [length_failedIds, Nat.mul_comm]
      _ = _ := (lockstep .activationFailed (show NodeState.activationFailed ≠ .inactive from
          nofun)).symm
  refine ⟨rfl, collected, congrArg Except.ok ?_, rfl⟩
  simp only [auctionClaimCallback, claimActivationFailedTransf, moveStake, held, Nat.min_self,
    Nat.sub_self]
  congr
  funext n
  simp only [setNodeStatesTo_apply, collected]

/-- The failed stake of node `1` claimed and confirmed: node `1` is Inactive again and its
unit of stake is free. -/
theorem claim_frees_failed_stake_sample :
    ∃ asyncCall, claimFailedStake sampleConfig ownerEnv (sampleRun (claimOnceRun.take 3)).storage =
        .ok (some asyncCall) ∧
      ∃ after, runCallback sampleConfig 0 asyncCall.callback (.ok [1] [])
          (sampleRun (claimOnceRun.take 3)).storage = .ok after ∧
        after.nodeState 1 = .inactive ∧ after.userStake .inactive = 1 ∧
        after.userStake .activationFailed = 0 :=
  ⟨_, rfl, _, (@funded_claim_returns_failed_stake sampleConfig 0 _ ownerEnv _
    (reach_run_allowed (claimOnceRun.take 3) .init (by
      simp only [claimOnceRun, List.take, AllowedAlong, Funded, Disciplined, true_and, and_true]
      decide)) rfl 0 [1] [] "").2.2.1, by decide, by decide, by decide⟩

/-! ### On a chain whose block never moves back -/

/-- The steps `admissible` allows on a chain, where a new block never moves the block back. -/
def Forward (admissible : State → Label → Prop) (s : State) : Label → Prop
  | .newBlock blockNonce => s.blockNonce ≤ blockNonce
  | label => admissible s label

theorem Forward.funded {config : Config} {s : State} :
    ∀ {label}, Forward (Funded config) s label → Funded config s label
  | .newBlock _, _ => trivial
  | .call .., allowed | .deliver .., allowed | .deposit _, allowed | .withdraw _, allowed =>
      allowed

theorem Forward.forward {admissible : State → Label → Prop} {s : State} :
    ∀ {label}, Forward admissible s label →
      ∀ blockNonce, label = .newBlock blockNonce → s.blockNonce ≤ blockNonce
  | .newBlock _, forward, _, rfl => forward

/-- A block recorded no later than `current` is past the delay at any block later than
`current` by more than the delay, with no sum wrapping in `u64`. -/
theorem unbondDelay_passed {config : Config} {recorded current later : UInt64}
    (past : recorded ≤ current)
    (waited : current.toNat + config.nBlocksBeforeUnbond.toNat < later.toNat) :
    recorded + config.nBlocksBeforeUnbond < later := by
  have before : recorded.toNat ≤ current.toNat := past
  have bounded := later.toNat_lt_size
  show (recorded + config.nBlocksBeforeUnbond).toNat < later.toNat
  rw [toNat_add_of_lt (by omega)]
  omega

/-- A step allowed by `Disciplined` that never moves the block back keeps every block the
storage records at most the current one: a callback dates what it confirms with the block of
its answer or resets it to 0, and no other step records a block. -/
theorem RequestsWellFormed.step_datedBy {config : Config} {s : State}
    (wf : RequestsWellFormed config s) {label : Label} (allowed : Disciplined config s label)
    (forward : ∀ blockNonce, label = .newBlock blockNonce → s.blockNonce ≤ blockNonce)
    (dated : s.storage.DatedBy (· ≤ s.blockNonce)) :
    (V04.step config s label).storage.DatedBy (· ≤ (V04.step config s label).blockNonce) := by
  cases label with
  | newBlock blockNonce => exact dated.mono fun _ past => UInt64.le_trans past (forward _ rfl)
  | deposit amount | withdraw amount => exact dated.congr rfl rfl rfl
  | call env call =>
      rw [@step_blockNonce config s (.call env call) fun _ => nofun]
      cases ran : runEndpoint config env s.blockNonce call s.storage with
      | error errMsg => rw [step_call_error ran]; exact dated
      | ok result =>
          obtain ⟨after, asyncCall⟩ := result
          rw [step_call_storage ran]
          obtain ⟨-, rfl⟩ | ⟨issued, -, issues⟩ := runEndpoint_issues ran
            (by rintro blsKeys rfl; exact allowed) (wf.unregistered 0 (.inl rfl))
          · exact dated
          · exact issues.datedBy dated
  | deliver closure result =>
      rw [@step_blockNonce config s (.deliver closure result) fun _ => nofun]
      by_cases delivered : closure ∈ s.inFlight ∧ result.Splits closure.nodeIds
      · obtain ⟨after, ran, -⟩ := wf.answer delivered.1 delivered.2
        rw [step_deliver_storage delivered ran]
        exact runCallback_datedBy ran dated (UInt64.le_refl _) (Nat.zero_le _)
      · rw [step_deliver_skip delivered]
        exact dated

/-- What every run on a chain with every stake paid for keeps: the requests are well formed,
the ledger is in lockstep with the nodes, and every block the storage records is at most the
current one. -/
structure Sound (config : Config) (s : State) : Prop where
  wf : RequestsWellFormed config s
  lockstep : LockstepOn config (· ≠ .inactive) s.storage
  dated : s.storage.DatedBy (· ≤ s.blockNonce)

namespace Sound

variable {config : Config} {s : State}

theorem initial (config : Config) (start : UInt64) : Sound config (V04.initial start) :=
  ⟨.initial start, .initial config start,
    ⟨fun _ => Nat.zero_le _, List.forall_mem_nil _, List.forall_mem_nil _⟩⟩

theorem step (sound : Sound config s) {label : Label} (allowed : Forward (Funded config) s label) :
    Sound config (V04.step config s label) :=
  ⟨sound.wf.step allowed.funded.disciplined, sound.lockstep.step sound.wf allowed.funded,
    sound.wf.step_datedBy allowed.funded.disciplined allowed.forward sound.dated⟩

theorem reach (sound : Sound config s) {t : State}
    (reached : Reach s (V04.step config) (Forward (Funded config)) t) : Sound config t := by
  induction reached with
  | init => exact sound
  | step label _ allowed inductionHypothesis => exact inductionHypothesis.step allowed

variable {later : UInt64}

/-- Later than the current block by more than the delay, every bucket of the unbond period is
old enough to unbond. -/
theorem unbondDue_all (sound : Sound config s)
    (waited : s.blockNonce.toNat + config.nBlocksBeforeUnbond.toNat < later.toNat) :
    ∀ bucket ∈ s.storage.unBondPeriodStake, unbondDue config later bucket.created = true :=
  fun bucket member => decide_eq_true (unbondDelay_passed (sound.dated.unBondPeriod bucket member)
    waited)

/-- Later than the current block by more than the delay, the walk of `unbond_start_transf` finds
the stake of any batch of distinct nodes in their unbond period. -/
theorem unbond_found (sound : Sound config s)
    (waited : s.blockNonce.toNat + config.nBlocksBeforeUnbond.toNat < later.toNat)
    {nodeIds : List Nat} (nodup : nodeIds.Nodup)
    (inPeriod : ∀ n ∈ nodeIds, s.storage.nodeState n = .unBondPeriod) :
    (takeDated (unbondDue config later) (nodeIds.length * config.stakePerNode)
      s.storage.unBondPeriodStake).2.1 = 0 :=
  takeDated_found (sound.unbondDue_all waited)
    ((sound.lockstep.covers_unBondPeriod sound.wf nodup inPeriod).trans_eq
      sound.wf.datedAgrees.unBondPeriod.symm)

end Sound

/-- Along every run on a chain without the calls `Funded` leaves out, the ledger never blocks an
unbond for long: at any block later than the current one by more than the delay,
`unBondAllAvailable` never fails, and `unBondNodes` on distinct nodes that are all in their
unbond period always goes through. Every node's unstake block and every bucket of the unbond
period is then past the delay, so the walk of `unbond_start_transf` finds the stake of the
batch. -/
theorem funded_unbond_after_delay {config : Config} {start : UInt64} {s : State}
    (reached : ReachableWhen config start (Forward (Funded config)) s) {later : UInt64}
    (waited : s.blockNonce.toNat + config.nBlocksBeforeUnbond.toNat < later.toNat) :
    (∃ result, unbondAllAvailable config later s.storage = .ok result) ∧
    ∀ blsKeys : List BLSKey, (blsKeys.map config.reg.getNodeId).Nodup →
      (∀ n ∈ blsKeys.map config.reg.getNodeId, s.storage.nodeState n = .unBondPeriod) →
      ∃ result, unbondNodes config later blsKeys s.storage = .ok result := by
  have sound := (Sound.initial config start).reach reached
  refine ⟨?bulk, fun blsKeys nodup inPeriod => ?named⟩
  case bulk =>
    rw [unbondAllAvailable_eq]
    split
    · exact ⟨_, rfl⟩
    · exact ⟨_, map_eq_ok.mpr ⟨_, performUnbond_eq_ok.mpr ⟨sound.unbond_found waited
        (dueIds_nodup _ _ _ _ _) (fun n member => ((mem_dueIds _ _ _).mp member).2.1), rfl,
        rfl⟩, rfl⟩⟩
  case named =>
    obtain ⟨nodeState, loop⟩ := setNodeStates_ok_of_forall nodup fun n member =>
      ⟨_, unbondTransition_eq_ok.mpr ⟨inPeriod n member,
        unbondDelay_passed (sound.dated.blNonceOfUnstake n) waited, rfl⟩⟩
    exact ⟨_, unbondNodes_eq_ok.mpr ⟨nodeState, loop, performUnbond_eq_ok.mpr
      ⟨sound.unbond_found waited nodup inPeriod, rfl, rfl⟩⟩⟩

/-- At block 100, node `1`, unstaked at block 10 with a delay of 60 blocks, is unbonded. -/
theorem unbond_due_node_accepted :
    ∃ result, unbondNodes sampleConfig 100 [⟨[1]⟩] (sampleRun (unbondRun.take 6)).storage =
      .ok result :=
  (funded_unbond_after_delay (reach_run_allowed (unbondRun.take 6) .init (by
      simp only [unbondRun, List.take, AllowedAlong, Forward, Funded, Disciplined, true_and,
        and_true]
      decide)) (by decide)).2 [⟨[1]⟩] (by decide) (by decide)

/-- The delay is counted from the bucket's date, strictly: at block 70 the scan of
`unBondAllAvailable` picks node `1`, unstaked at block 10, but its stake is not yet past the
delay. -/
example : unbondAllAvailable sampleConfig 70 (sampleRun (unbondRun.take 6)).storage =
    .error "not enough stake in unbond period" :=
  rfl

end Delegation.V04
