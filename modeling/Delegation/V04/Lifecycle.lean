/-
Module: Delegation.V04.Lifecycle
Layer: Proofs
Purpose: The run-level results of version 0.4. Two kinds of call break its state machine:
  `stakeNodes` with a key the registry does not know activates node `0`, which no key names;
  and `claimFailedStake` while a claim is outstanding issues a second request over nodes the
  first one holds, whose stale answer can later reset a node in the middle of a new flow.
  A `stakeNodes` the pool's free stake does not pay for leaves the ledger short. On the runs
  without such calls the requests stay well formed (`RequestsWellFormed`) and the dated
  buckets of the unbond flow hold the totals of their phases; with every stake paid for the
  ledger stays in lockstep with the nodes.
Trusted boundary: none
Main exports: NodeState.isPending, Disciplined, Funded, RequestsWellFormed,
  disciplined_requestsWellFormed, LockstepOn.step, LockstepOn.reach, funded_lockstep
-/
import Delegation.V04.Callbacks

namespace Delegation.V04

/-- The states that exist only while a request for the node is outstanding (spec §4.2). -/
def NodeState.isPending : NodeState → Bool
  | .pendingActivation | .pendingDeactivation | .pendingUnBond => true
  | _ => false

theorem Callback.settled_not_isPending (callback : Callback) (failed : Bool) :
    (callback.settled failed).isPending = false := by
  cases callback <;> cases failed <;> rfl

theorem Callback.settled_ne_pendingUnBond (callback : Callback) (failed : Bool) :
    callback.settled failed ≠ .pendingUnBond := by
  cases callback <;> cases failed <;> nofun

/-- The state a flow takes its nodes from is none that another request's nodes wait in,
unless both are claims. -/
theorem Callback.origin_ne_awaited {callback other : Callback}
    (notBothClaims : ¬(callback = .auctionClaimCallback ∧ other = .auctionClaimCallback)) :
    callback.origin ≠ other.awaited := by
  cases callback <;> cases other <;> simp_all [Callback.origin, Callback.awaited]

/-! ### The runs the results are about -/

/-- The calls that break the state machine are left out: `stakeNodes` with a key the
registry does not know (it activates node `0`), and `claimFailedStake` while a claim is
outstanding (it issues a second request over the nodes of the first). -/
def Disciplined (config : Config) (s : State) : Label → Prop
  | .call _ (.stakeNodes blsKeys) => ∀ blsKey ∈ blsKeys, config.reg.getNodeId blsKey ≠ 0
  | .call _ .claimFailedStake =>
      ∀ closure ∈ s.inFlight, closure.callback ≠ .auctionClaimCallback
  | _ => True

/-- `Disciplined`, and every `stakeNodes` paid for by the pool's free stake. -/
def Funded (config : Config) (s : State) : Label → Prop
  | .call _ (.stakeNodes blsKeys) =>
      (∀ blsKey ∈ blsKeys, config.reg.getNodeId blsKey ≠ 0) ∧
        blsKeys.length * config.stakePerNode ≤ s.storage.userStake .inactive
  | label => Disciplined config s label

theorem Funded.disciplined {config : Config} {s : State} :
    ∀ {label}, Funded config s label → Disciplined config s label
  | .call _ (.stakeNodes _), funded => funded.1
  | .call _ .stakeAllAvailable, funded | .call _ (.unStakeNodes _), funded
  | .call _ (.unBondNodes _), funded | .call _ .unBondAllAvailable, funded
  | .call _ .claimFailedStake, funded => funded
  | .deliver .., _ | .newBlock _, _ | .deposit _, _ | .withdraw _, _ => trivial

/-! ### Issuing a request, seen from the ledger -/

/-- Issuing a request keeps a lockstep of ledger and nodes whenever the stake its flow moves
into a tracked phase is there to move. A claim moves nothing. -/
theorem LockstepOn.issue {config : Config} {tracked : NodeState → Prop} {before after : Storage}
    {closure : CallbackClosure} (lockstep : LockstepOn config tracked before)
    (issues : Issues config before after closure)
    (funded : closure.callback ≠ .auctionClaimCallback → tracked closure.callback.awaited →
      closure.nodeIds.length * config.stakePerNode ≤ before.userStake closure.callback.origin.phase) :
    LockstepOn config tracked after := by
  by_cases claim : closure.callback = .auctionClaimCallback
  · have sameNodes : after.nodeState = before.nodeState := funext fun n => by
      rw [issues.nodeState, setNodeStatesTo_apply]
      split
      · rw [issues.origin n ‹_›, claim]; rfl
      · rfl
    intro state trackedState
    rw [issues.userStake, if_pos claim, sameNodes]
    exact lockstep state trackedState
  · exact lockstep.batchMove (issues.batchMove claim)
      (Callback.origin_ne_awaited fun ⟨claim', _⟩ => claim claim') (funded claim)

/-! ### Well-formed requests -/

/-- The requests in flight are well formed: each names distinct registered nodes, no node is
in two of them, each node waits in the state its request's callback expects, and a pending
node has a request. Nodes no key names stay Inactive, and the stake pending unbond is that of
the nodes pending unbond, which keeps the unbond callback from failing. The dated buckets of
the unbond flow hold the totals of their phases. -/
structure RequestsWellFormed (config : Config) (s : State) : Prop where
  nodup : ∀ closure ∈ s.inFlight, closure.nodeIds.Nodup
  disjoint : s.inFlight.Pairwise fun a b => a.nodeIds.Disjoint b.nodeIds
  known : ∀ closure ∈ s.inFlight, ∀ n ∈ closure.nodeIds, 1 ≤ n ∧ n ≤ config.reg.numNodes
  awaiting : ∀ closure ∈ s.inFlight, ∀ n ∈ closure.nodeIds,
    s.storage.nodeState n = closure.callback.awaited
  owned : ∀ n, (s.storage.nodeState n).isPending → ∃ closure ∈ s.inFlight, n ∈ closure.nodeIds
  unregistered : ∀ n, (n = 0 ∨ config.reg.numNodes < n) → s.storage.nodeState n = .inactive
  unbondBacked : LockstepOn config (· = .pendingUnBond) s.storage
  datedAgrees : s.storage.DatedAgrees

namespace RequestsWellFormed

variable {config : Config} {s : State}

theorem initial (start : UInt64) : RequestsWellFormed config (V04.initial start) where
  nodup := nofun
  disjoint := .nil
  known := nofun
  awaiting := nofun
  owned := nofun
  unregistered _ _ := rfl
  unbondBacked := by
    rintro _ rfl
    simp [V04.initial, NodeState.phase, nodeCount]
  datedAgrees := ⟨rfl, rfl⟩

/-- A node out of Inactive is a registered one. -/
theorem registered (wf : RequestsWellFormed config s) {n : Nat}
    (moved : s.storage.nodeState n ≠ .inactive) : 1 ≤ n ∧ n ≤ config.reg.numNodes := by
  by_contra outside
  exact moved (wf.unregistered n (by omega))

/-- Issuing a request keeps the requests well formed, provided a claim is issued only while
no other claim is outstanding. -/
theorem issue (wf : RequestsWellFormed config s) {after : Storage} {closure : CallbackClosure}
    (issues : Issues config s.storage after closure)
    (claimFree : closure.callback = .auctionClaimCallback →
      ∀ other ∈ s.inFlight, other.callback ≠ .auctionClaimCallback) :
    RequestsWellFormed config { s with storage := after, inFlight := closure :: s.inFlight } := by
  have fresh : ∀ n ∈ closure.nodeIds, ∀ other ∈ s.inFlight, n ∉ other.nodeIds :=
    fun n member other outstanding held => Callback.origin_ne_awaited
      (fun ⟨claim, otherClaim⟩ => claimFree claim other outstanding otherClaim)
      ((issues.origin n member).symm.trans (wf.awaiting other outstanding n held))
  have moved : ∀ n, after.nodeState n =
      if n ∈ closure.nodeIds then closure.callback.awaited else s.storage.nodeState n :=
    fun n => by rw [issues.nodeState, setNodeStatesTo_apply]
  refine ⟨?nodup, ?disjoint, ?known, ?awaiting, ?owned, ?unregistered, ?backed,
    issues.datedAgrees wf.datedAgrees⟩
  case nodup => exact List.forall_mem_cons.mpr ⟨issues.nodup, wf.nodup⟩
  case disjoint =>
    exact List.pairwise_cons.mpr ⟨fun other outstanding n member held =>
      fresh n member other outstanding held, wf.disjoint⟩
  case known => exact List.forall_mem_cons.mpr ⟨issues.known, wf.known⟩
  case awaiting =>
    refine List.forall_mem_cons.mpr ⟨fun n member => by rw [moved, if_pos member],
      fun other outstanding n held => ?_⟩
    rw [moved, if_neg fun member => fresh n member other outstanding held]
    exact wf.awaiting other outstanding n held
  case owned =>
    intro n pending
    by_cases member : n ∈ closure.nodeIds
    · exact ⟨closure, List.mem_cons_self _ _, member⟩
    · rw [moved, if_neg member] at pending
      obtain ⟨other, outstanding, held⟩ := wf.owned n pending
      exact ⟨other, List.mem_cons_of_mem _ outstanding, held⟩
  case unregistered =>
    intro n outside
    rw [moved, if_neg fun member => by have := issues.known n member; omega]
    exact wf.unregistered n outside
  case backed =>
    refine wf.unbondBacked.issue issues fun _ unbonding => ?_
    have unbond : closure.callback = .auctionUnbondCallback := by
      revert unbonding; cases closure.callback <;> simp [Callback.awaited]
    rw [unbond]
    obtain ⟨_, starts⟩ := issues.startsUnbond unbond
    exact starts.covered.trans_eq wf.datedAgrees.unBondPeriod

/-- A call allowed by `Disciplined` keeps the requests well formed. -/
theorem call (wf : RequestsWellFormed config s) {env : Env} {call : Call}
    (allowed : Disciplined config s (.call env call)) :
    RequestsWellFormed config (V04.step config s (.call env call)) := by
  simp only [V04.step]
  split
  · rename_i after asyncCall ran
    have registeredKeys : ∀ blsKeys, call = .stakeNodes blsKeys →
        ∀ blsKey ∈ blsKeys, config.reg.getNodeId blsKey ≠ 0 := by
      rintro blsKeys rfl; exact allowed
    obtain ⟨rfl, rfl⟩ | ⟨issued, rfl, issues⟩ :=
      runEndpoint_issues ran registeredKeys (wf.unregistered 0 (.inl rfl))
    · exact wf
    · refine wf.issue issues fun claim => ?_
      have opens := (runEndpoint_opens ran).symm.trans claim
      cases call <;> first | exact allowed | cases opens
  · exact wf

/-- The callback of an outstanding request succeeds on every answer that splits its nodes,
settles them and keeps every lockstep that tracks the state they wait in whenever it tracks
the state they settle in (`runCallback_eq`, whose premises the invariant supplies). -/
theorem answer (wf : RequestsWellFormed config s) {closure : CallbackClosure}
    {result : CallResult} (outstanding : closure ∈ s.inFlight)
    (splits : result.Splits closure.nodeIds) :
    ∃ after, runCallback config s.blockNonce closure result s.storage = .ok after ∧
      after.nodeState = (fun n => if n ∈ closure.nodeIds then
        closure.callback.settled (closure.callback.fails result n) else s.storage.nodeState n) ∧
      ∀ tracked : NodeState → Prop, LockstepOn config tracked s.storage →
        (∀ failed, tracked (closure.callback.settled failed) → tracked closure.callback.awaited) →
        LockstepOn config tracked after := by
  refine runCallback_eq s.blockNonce splits (wf.nodup _ outstanding) (wf.known _ outstanding)
    (wf.awaiting _ outstanding) fun unbond => ?_
  have unbonding : ∀ n ∈ closure.nodeIds, s.storage.nodeState n = .pendingUnBond :=
    fun n member => by rw [wf.awaiting _ outstanding n member, unbond]; rfl
  exact (wf.unbondBacked.covers rfl (wf.nodup _ outstanding) (wf.known _ outstanding)
    unbonding).trans_eq wf.datedAgrees.pendingUnBond.symm

/-- The delivery of an answer keeps the requests well formed. -/
theorem deliver (wf : RequestsWellFormed config s) {closure : CallbackClosure}
    {result : CallResult} :
    RequestsWellFormed config (V04.step config s (.deliver closure result)) := by
  simp only [V04.step]
  split
  · rename_i delivered
    obtain ⟨outstanding, splits⟩ := delivered
    obtain ⟨after, ran, settled, lockstep⟩ := wf.answer outstanding splits
    have apart : ∀ other ∈ s.inFlight.erase closure, ∀ n ∈ other.nodeIds, n ∉ closure.nodeIds :=
      fun other remaining n held member =>
        pairwise_of_mem_erase (fun disjoint => List.disjoint_comm.mp disjoint) wf.disjoint
          outstanding remaining member held
    have frame : ∀ n, n ∉ closure.nodeIds → after.nodeState n = s.storage.nodeState n :=
      fun n notMember => by rw [settled]; exact if_neg notMember
    rw [ran]
    refine ⟨fun other remaining => wf.nodup other (List.mem_of_mem_erase remaining),
      wf.disjoint.sublist (List.erase_sublist _ _),
      fun other remaining => wf.known other (List.mem_of_mem_erase remaining),
      fun other remaining n held => ?_, fun n pending => ?_, fun n outside => ?_,
      lockstep _ wf.unbondBacked fun failed unbonding =>
        absurd unbonding (Callback.settled_ne_pendingUnBond _ failed),
      runCallback_datedAgrees ran wf.datedAgrees⟩
    · rw [frame n (apart other remaining n held)]
      exact wf.awaiting other (List.mem_of_mem_erase remaining) n held
    · by_cases member : n ∈ closure.nodeIds
      · simp only [settled, if_pos member, Callback.settled_not_isPending,
          Bool.false_eq_true] at pending
      · rw [frame n member] at pending
        obtain ⟨other, outstanding', held⟩ := wf.owned n pending
        exact ⟨other, (List.mem_erase_of_ne fun same : other = closure => member (same ▸ held)).mpr
          outstanding', held⟩
    · rw [frame n fun member => by have := wf.known _ outstanding n member; omega]
      exact wf.unregistered n outside
  · exact wf

/-- A step allowed by `Disciplined` keeps the requests well formed. -/
theorem step (wf : RequestsWellFormed config s) {label : Label}
    (allowed : Disciplined config s label) : RequestsWellFormed config (V04.step config s label) := by
  cases label with
  | call env call => exact wf.call allowed
  | deliver closure result => exact wf.deliver
  | newBlock blockNonce => exact ⟨wf.1, wf.2, wf.3, wf.4, wf.5, wf.6, wf.7, wf.8⟩
  | deposit amount | withdraw amount =>
      exact ⟨wf.1, wf.2, wf.3, wf.4, wf.5, wf.6, wf.unbondBacked.update_free nofun _,
        wf.datedAgrees.update_inactive _⟩

/-- From a state with well-formed requests, every run without the calls `Disciplined`
leaves out keeps them well formed. -/
theorem reach {start : State} (wf : RequestsWellFormed config start)
    (reached : Reach start (V04.step config) (Disciplined config) s) :
    RequestsWellFormed config s := by
  induction reached with
  | init => exact wf
  | step label _ allowed inductionHypothesis => exact inductionHypothesis.step allowed

end RequestsWellFormed

/-- Along every run without the calls `Disciplined` leaves out, the requests stay well
formed. -/
theorem disciplined_requestsWellFormed {config : Config} {start : UInt64} {s : State}
    (reached : ReachableWhen config start (Disciplined config) s) :
    RequestsWellFormed config s :=
  (RequestsWellFormed.initial start).reach reached

/-! ### The ledger in lockstep with the nodes -/

/-- Every phase but the free one backs nodes. -/
theorem Callback.awaited_ne_inactive (callback : Callback) : callback.awaited ≠ .inactive := by
  cases callback <;> nofun

/-- A step allowed by `Funded` from a state with well-formed requests keeps the ledger in
lockstep with the nodes on every state but the free one. -/
theorem LockstepOn.step {config : Config} {s : State} {label : Label}
    (lockstep : LockstepOn config (· ≠ .inactive) s.storage) (wf : RequestsWellFormed config s)
    (allowed : Funded config s label) :
    LockstepOn config (· ≠ .inactive) (V04.step config s label).storage := by
  cases label with
  | call env call =>
      simp only [V04.step]
      split
      · rename_i after asyncCall ran
        have registeredKeys : ∀ blsKeys, call = .stakeNodes blsKeys →
            ∀ blsKey ∈ blsKeys, config.reg.getNodeId blsKey ≠ 0 := by
          rintro blsKeys rfl; exact allowed.1
        obtain ⟨rfl, rfl⟩ | ⟨issued, rfl, issues⟩ :=
          runEndpoint_issues ran registeredKeys (wf.unregistered 0 (.inl rfl))
        · exact lockstep
        · refine lockstep.issue issues fun _ _ => ?_
          by_cases stake : issued.callback.callback = .auctionStakeCallback
          · rw [stake]
            exact runEndpoint_stake_funded ran stake (by rintro blsKeys rfl; exact allowed.2)
          · refine lockstep.covers ?_ issues.nodup issues.known issues.origin
            revert stake; cases issued.callback.callback <;> simp [Callback.origin]
      · exact lockstep
  | deliver closure result =>
      simp only [V04.step]
      split
      · obtain ⟨outstanding, splits⟩ := ‹_ ∧ _›
        obtain ⟨after, ran, -, keeps⟩ := wf.answer outstanding splits
        rw [ran]
        exact keeps _ lockstep fun _ _ => Callback.awaited_ne_inactive _
      · exact lockstep
  | newBlock blockNonce => exact lockstep
  | deposit amount | withdraw amount => exact lockstep.update_free (fun free => free rfl) _

/-- Along the steps `Funded` allows, from a state whose requests are well formed and whose
ledger is in lockstep with its nodes, both stay so. -/
theorem LockstepOn.reach {config : Config} {start s : State}
    (wf : RequestsWellFormed config start)
    (lockstep : LockstepOn config (· ≠ .inactive) start.storage)
    (reached : Reach start (V04.step config) (Funded config) s) :
    RequestsWellFormed config s ∧ LockstepOn config (· ≠ .inactive) s.storage := by
  induction reached with
  | init => exact ⟨wf, lockstep⟩
  | step label _ allowed inductionHypothesis =>
      obtain ⟨wf, lockstep⟩ := inductionHypothesis
      exact ⟨wf.step allowed.disciplined, lockstep.step wf allowed⟩

/-- No node and no stake backs a node at the start. -/
theorem LockstepOn.initial (config : Config) (start : UInt64) :
    LockstepOn config (· ≠ .inactive) (V04.initial start).storage := fun state idle => by
  simp [V04.initial, nodeCount, Ne.symm idle]

/-- Along every run without the calls `Funded` leaves out, the pool's stake in each phase but
the free one is the stake per node times the number of registered nodes in that state. -/
theorem funded_lockstep {config : Config} {start : UInt64} {s : State}
    (reached : ReachableWhen config start (Funded config) s) :
    LockstepOn config (· ≠ .inactive) s.storage :=
  (LockstepOn.reach (.initial start) (.initial config start) reached).2

/-! ### Runs with an unknown key, an unpaid stake or a second claim -/

/-- Staking, with the stake paid, a key the registry does not know. -/
def unknownKeyRun : List Label :=
  [.deposit 1, .call ownerEnv (.stakeNodes [⟨[7]⟩])]

/-- Staking node `1` with no stake paid in. -/
def unpaidStakeRun : List Label :=
  [.call ownerEnv (.stakeNodes [⟨[1]⟩])]

/-- A paid stake of node `1` that the auction rejects, then one claim of the failed stake. -/
def claimOnceRun : List Label :=
  [.deposit 1, .call ownerEnv (.stakeNodes [⟨[1]⟩]),
    .deliver ⟨.auctionStakeCallback, [1]⟩ (.err ""), .call ownerEnv .claimFailedStake]

/-- The claim asked for a second time while the first is outstanding. -/
def doubleClaimRun : List Label :=
  claimOnceRun ++ [.call ownerEnv .claimFailedStake]

/-- The first claim answered, node `1` staked again with the stake it freed, and then the
stale second claim answered. -/
def staleClaimRun : List Label :=
  doubleClaimRun ++
    [.deliver ⟨.auctionClaimCallback, [1]⟩ (.ok [1] []), .call ownerEnv (.stakeNodes [⟨[1]⟩]),
      .deliver ⟨.auctionClaimCallback, [1]⟩ (.ok [1] [])]

/-- A key the registry does not know puts node `0` in a stake request, and a second claim
puts node `1` in two requests at once. -/
theorem requests_overlap_without_discipline :
    (Reachable sampleConfig 0 (sampleRun unknownKeyRun) ∧
      (sampleRun unknownKeyRun).inFlight = [⟨.auctionStakeCallback, [0]⟩]) ∧
    (Reachable sampleConfig 0 (sampleRun doubleClaimRun) ∧
      (sampleRun doubleClaimRun).inFlight =
        [⟨.auctionClaimCallback, [1]⟩, ⟨.auctionClaimCallback, [1]⟩]) :=
  ⟨⟨reachable_sampleRun _, by decide⟩, ⟨reachable_sampleRun _, by decide⟩⟩

/-- The paid stake of node `1`, rejected, and claimed once is a run `Disciplined` allows. -/
theorem requestsWellFormed_after_claim :
    RequestsWellFormed sampleConfig (sampleRun claimOnceRun) := by
  refine @disciplined_requestsWellFormed sampleConfig 0 _ ?_
  simp only [sampleRun, claimOnceRun, run, List.foldl]
  exact Reach.step _ (Reach.step _ (Reach.step _ (Reach.step _ Reach.init trivial)
    (by simp only [Disciplined]; decide)) trivial) (by simp only [Disciplined]; decide)

/-- The ledger leaves the nodes behind: an unpaid stake has a node pending activation and no
stake there; a stake of an unknown key has stake pending activation and no registered node
there; and the stale claim resets node `1` while its new stake is pending activation. -/
theorem ledger_drifts_without_funding :
    (Reachable sampleConfig 0 (sampleRun unpaidStakeRun) ∧
      (sampleRun unpaidStakeRun).storage.userStake .pendingActivation = 0 ∧
      nodeCount 2 (sampleRun unpaidStakeRun).storage.nodeState .pendingActivation = 1) ∧
    (Reachable sampleConfig 0 (sampleRun unknownKeyRun) ∧
      (sampleRun unknownKeyRun).storage.userStake .pendingActivation = 1 ∧
      nodeCount 2 (sampleRun unknownKeyRun).storage.nodeState .pendingActivation = 0) ∧
    (Reachable sampleConfig 0 (sampleRun staleClaimRun) ∧
      (sampleRun staleClaimRun).storage.userStake .pendingActivation = 1 ∧
      nodeCount 2 (sampleRun staleClaimRun).storage.nodeState .pendingActivation = 0) :=
  ⟨⟨reachable_sampleRun _, by decide, by decide⟩, ⟨reachable_sampleRun _, by decide, by decide⟩,
    ⟨reachable_sampleRun _, by decide, by decide⟩⟩

/-- The paid stake of node `1`, rejected, and claimed once is a run `Funded` allows. -/
theorem lockstep_after_claim :
    LockstepOn sampleConfig (· ≠ .inactive) (sampleRun claimOnceRun).storage := by
  refine @funded_lockstep sampleConfig 0 _ ?_
  simp only [sampleRun, claimOnceRun, run, List.foldl]
  exact Reach.step _ (Reach.step _ (Reach.step _ (Reach.step _ Reach.init trivial)
    (by simp only [Funded]; decide)) trivial) (by simp only [Funded, Disciplined]; decide)

end Delegation.V04
