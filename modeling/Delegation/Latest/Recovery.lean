/-
Module: Delegation.Latest.Recovery
Layer: Proofs
Purpose: No node of the latest module is ever stranded. From every reachable state the owner
  can bring every node back to Inactive, with nothing left in flight
  (`reachable_nodes_recoverable`). The continuation has three phases, each a `CanReach`
  lemma. First it confirms every outstanding request (`RequestsWellFormed.drain`). Then the
  owner unstakes every Active node in one call, and the auction confirms
  (`RequestsWellFormed.unstake_active`). Last, the owner unbonds every node in its unbond
  period in one call, and the auction confirms (`RequestsWellFormed.unbond_all`). The unbond
  of this version has no delay, so no block has to pass. Nodes no key names never move
  (`UnregisteredIdle`). As in version 0.4 this is the possibility form of liveness.
Trusted boundary: none
Main exports: UnregisteredIdle, UnregisteredIdle.reach, activeIds, RequestsWellFormed.confirm,
  RequestsWellFormed.drain, RequestsWellFormed.unstake_active, RequestsWellFormed.unbond_all,
  reachable_nodes_recoverable
-/
import Delegation.Latest.Lifecycle

namespace Delegation.Latest

variable {reg : NodeRegistry} {s : State}

/-! ### Nodes no key names -/

/-- The ids outside `1..numNodes`, which no key resolves to, are Inactive. -/
def UnregisteredIdle (reg : NodeRegistry) (s : State) : Prop :=
  ∀ n, (n = 0 ∨ reg.numNodes < n) → s.nodeState n = .inactive

namespace UnregisteredIdle

theorem initial (start : UInt64) : UnregisteredIdle reg (Latest.initial start) :=
  fun _ _ => rfl

/-- Every request names registered nodes only, so no step moves another one. -/
theorem step (idle : UnregisteredIdle reg s) (wf : RequestsWellFormed reg s) (label : Label) :
    UnregisteredIdle reg (Latest.step reg s label) := by
  intro n outside
  have away : ∀ nodeIds : List Nat, (∀ m ∈ nodeIds, 1 ≤ m ∧ m ≤ reg.numNodes) →
      n ∉ nodeIds := fun nodeIds known member => by have := known n member; omega
  cases label with
  | call env call =>
      simp only [Latest.step]
      split
      · rename_i ran
        have issues := runEndpoint_issues ran
        exact (issues.frame n fun c issued => away _ (issues.registered c issued)).trans
          (idle n outside)
      · exact idle n outside
  | deliver closure result =>
      simp only [Latest.step]
      split
      · rename_i delivered
        simp only [runCallback_eq (wf.nodup closure delivered.1) (wf.awaiting closure delivered.1)
          delivered.2, if_neg (away _ (wf.known closure delivered.1))]
        exact idle n outside
      · exact idle n outside
  | newBlock _ => exact idle n outside

/-- A node out of Inactive is a registered one. -/
theorem registered (idle : UnregisteredIdle reg s) {n : Nat}
    (moved : s.nodeState n ≠ .inactive) : 1 ≤ n ∧ n ≤ reg.numNodes := by
  by_contra outside
  exact moved (idle n (by omega))

theorem reach {start : State} (wf : RequestsWellFormed reg start)
    (idle : UnregisteredIdle reg start)
    (reached : Reach start (Latest.step reg) (fun _ _ => True) s) : UnregisteredIdle reg s := by
  induction reached with
  | init => exact idle
  | step label reachedBefore _ inductionHypothesis =>
      exact inductionHypothesis.step (wf.reach reachedBefore) label

end UnregisteredIdle

/-! ### The phases -/

/-- The registered ids in state Active, lowest first. -/
def activeIds (top : Nat) (nodeState : Nat → NodeState) : List Nat :=
  (List.range' 1 top).filter fun n => nodeState n = .active

theorem mem_activeIds {top : Nat} {nodeState : Nat → NodeState} {n : Nat} :
    n ∈ activeIds top nodeState ↔ (1 ≤ n ∧ n ≤ top) ∧ nodeState n = .active := by
  simp only [activeIds, List.mem_filter, List.mem_range'_1, decide_eq_true_eq]
  exact and_congr_left fun _ => ⟨fun ⟨low, high⟩ => ⟨low, by omega⟩,
    fun ⟨low, high⟩ => ⟨low, by omega⟩⟩

theorem activeIds_nodup (top : Nat) (nodeState : Nat → NodeState) :
    (activeIds top nodeState).Nodup :=
  (List.nodup_range' 1 top).filter _

namespace RequestsWellFormed

/-- Confirming an outstanding request whole: the request is spent, and each of its nodes takes
the confirm transition of its flow. -/
theorem confirm (wf : RequestsWellFormed reg s) {closure : CallbackClosure}
    (outstanding : closure ∈ s.inFlight) :
    (Latest.step reg s (.deliver closure (.ok closure.nodeIds []))).inFlight =
        s.inFlight.erase closure ∧
      ∀ n, (Latest.step reg s (.deliver closure (.ok closure.nodeIds []))).nodeState n =
        if n ∈ closure.nodeIds then settle s.blockNonce closure.callback false (s.nodeState n)
        else s.nodeState n := by
  have splits := CallResult.splits_confirm closure.nodeIds
  simp only [Latest.step, if_pos (And.intro outstanding splits),
    runCallback_eq (wf.nodup closure outstanding) (wf.awaiting closure outstanding) splits,
    CallResult.failed_confirm, implies_true, and_self]

/-- Confirming every outstanding request, one after another, leaves nothing in flight. -/
theorem drain (wf : RequestsWellFormed reg s) :
    CanReach (Latest.step reg) (fun _ _ => True) s fun t => t.inFlight = [] := by
  generalize pending : s.inFlight = requests at wf
  induction requests generalizing s with
  | nil => exact .refl pending
  | cons closure rest inductionHypothesis =>
      have outstanding : closure ∈ s.inFlight := pending ▸ List.mem_cons_self _ _
      refine .step (.deliver closure (.ok closure.nodeIds [])) trivial
        (inductionHypothesis (wf.step _) ?_)
      rw [(wf.confirm outstanding).1, pending, List.erase_cons_head]

/-- From a state with nothing in flight, the owner unstakes every Active node in one call and
the auction confirms: every node that was Active enters its unbond period from the current
block, and every other node stays. -/
theorem unstake_active (wf : RequestsWellFormed reg s) (idle : UnregisteredIdle reg s)
    (quiet : s.inFlight = []) :
    CanReach (Latest.step reg) (fun _ _ => True) s fun t => t.inFlight = [] ∧
      ∀ n, t.nodeState n =
        if s.nodeState n = .active then .unBondPeriod s.blockNonce else s.nodeState n := by
  set nodeIds := activeIds reg.numNodes s.nodeState
  set keys := nodeIds.map reg.getNodeIdToBls
  have collected : ∀ n, n ∈ nodeIds ↔ s.nodeState n = .active := fun n =>
    mem_activeIds.trans ⟨And.right, fun active => ⟨idle.registered (by rw [active]; nofun),
      active⟩⟩
  have resolves : ∀ n ∈ nodeIds, reg.getNodeId (reg.getNodeIdToBls n) = n ∧ 1 ≤ n :=
    fun n member =>
      let ⟨⟨low, high⟩, _⟩ := mem_activeIds.mp member
      ⟨reg.getNodeId_getNodeIdToBls n low high, low⟩
  have named : keys.map reg.getNodeId = nodeIds := by
    rw [List.map_map]
    exact (List.map_congr_left fun n member => (resolves n member).1).trans (List.map_id _)
  obtain ⟨after, loop⟩ := setNodeStates_ok_of_forall (activeIds_nodup _ _) fun n member =>
    ⟨_, unstakeTransition_eq_ok.mpr ⟨(collected n).mp member, rfl⟩⟩
  have ran : runEndpoint reg ownerEnv (.unStakeNodes keys) s.nodeState =
      .ok (after, some ⟨.unStakeNodes keys, some ⟨.auctionUnstakeCallback, nodeIds⟩⟩) := by
    refine map_eq_ok.mpr ⟨_, unstakeNodes_eq_ok.mpr ⟨rfl, rfl, fun key member => ?_,
      by rw [named]; exact loop, by rw [named]; rfl⟩, rfl⟩
    obtain ⟨n, listed, rfl⟩ := List.mem_map.mp member
    rw [(resolves n listed).1]
    exact Nat.pos_iff_ne_zero.mp (resolves n listed).2
  have issues := runEndpoint_issues ran
  have called : Latest.step reg s (.call ownerEnv (.unStakeNodes keys)) =
      { s with nodeState := after, inFlight := [⟨.auctionUnstakeCallback, nodeIds⟩] } := by
    simp only [Latest.step, ran, registered, quiet, List.append_nil]
  have issuedWf := wf.step (.call ownerEnv (.unStakeNodes keys))
  rw [called] at issuedWf
  obtain ⟨spent, settled⟩ := issuedWf.confirm (List.mem_singleton_self _)
  refine .step (.call ownerEnv (.unStakeNodes keys)) trivial ?_
  rw [called]
  refine .step (.deliver ⟨.auctionUnstakeCallback, nodeIds⟩ (.ok nodeIds [])) trivial
    (.refl ⟨by rw [spent, List.erase_cons_head], fun n => ?_⟩)
  rw [settled n]
  by_cases member : n ∈ nodeIds
  · rw [if_pos member, if_pos ((collected n).mp member)]
    rfl
  · rw [if_neg member, if_neg (mt (collected n).mpr member)]
    exact issues.frame n fun c issued => by rw [List.mem_singleton.mp issued]; exact member

/-- From a state with nothing in flight and no Active node, the owner unbonds every node in
its unbond period in one call and the auction confirms: every node is then Inactive. -/
theorem unbond_all (wf : RequestsWellFormed reg s) (idle : UnregisteredIdle reg s)
    (quiet : s.inFlight = []) (notActive : ∀ n, s.nodeState n ≠ .active) :
    CanReach (Latest.step reg) (fun _ _ => True) s fun t =>
      t.inFlight = [] ∧ ∀ n, t.nodeState n = .inactive := by
  -- with nothing in flight no node is pending, so each is Inactive or in its unbond period
  have resting : ∀ n, (∃ started, s.nodeState n = .unBondPeriod started) ∨
      s.nodeState n = .inactive := by
    intro n
    cases state : s.nodeState n with
    | inactive => exact .inr rfl
    | active => exact absurd state (notActive n)
    | unBondPeriod started => exact .inl ⟨started, rfl⟩
    | pendingActivation | pendingDeactivation | pendingUnBond _ =>
        obtain ⟨closure, outstanding, -⟩ := wf.owned n (by rw [state]; rfl)
        exact (List.not_mem_nil closure (quiet ▸ outstanding)).elim
  have idleOff : ∀ n, n ∉ scanIds reg.numNodes s.nodeState → s.nodeState n = .inactive :=
    fun n notScanned => (resting n).resolve_left fun ⟨started, inPeriod⟩ =>
      let ⟨low, high⟩ := idle.registered (by rw [inPeriod]; nofun)
      notScanned (mem_scanIds.mpr ⟨low, high, started, inPeriod⟩)
  by_cases nothingDue : scanIds reg.numNodes s.nodeState = []
  · exact .refl ⟨quiet, fun n => idleOff n (by rw [nothingDue]; exact List.not_mem_nil n)⟩
  have ran : runEndpoint reg ownerEnv .unBondAllPossibleNodes s.nodeState =
      .ok (scanned reg.numNodes s.nodeState, some (performUnbond (scanIds reg.numNodes s.nodeState)
        ((scanIds reg.numNodes s.nodeState).map reg.getNodeIdToBls))) :=
    unbondAllPossibleNodes_eq_ok.mpr ⟨rfl, rfl, rfl, (if_neg nothingDue).symm⟩
  have called : Latest.step reg s (.call ownerEnv .unBondAllPossibleNodes) =
      { s with nodeState := scanned reg.numNodes s.nodeState
               inFlight := [⟨.auctionUnbondCallback, scanIds reg.numNodes s.nodeState⟩] } := by
    simp only [Latest.step, ran, registered, performUnbond, quiet, List.append_nil]
  have issuedWf := wf.step (.call ownerEnv .unBondAllPossibleNodes)
  rw [called] at issuedWf
  obtain ⟨spent, settled⟩ := issuedWf.confirm (List.mem_singleton_self _)
  refine .step (.call ownerEnv .unBondAllPossibleNodes) trivial ?_
  rw [called]
  refine .step (.deliver ⟨.auctionUnbondCallback, scanIds reg.numNodes s.nodeState⟩
    (.ok (scanIds reg.numNodes s.nodeState) [])) trivial
    (.refl ⟨by rw [spent, List.erase_cons_head], fun n => ?_⟩)
  rw [settled n]
  split_ifs with member
  · rfl
  · exact (scanned_of_not_mem member).trans (idleOff n member)

end RequestsWellFormed

/-! ### Every node comes back -/

/-- No node of the latest module is ever stranded: from every reachable state, some
continuation confirms every outstanding request and returns every node to Inactive, with
nothing left in flight. -/
theorem reachable_nodes_recoverable {start : UInt64} (reached : Reachable reg start s) :
    ∃ t, Reach s (Latest.step reg) (fun _ _ => True) t ∧ t.inFlight = [] ∧
      ∀ n, t.nodeState n = .inactive := by
  have wf := (RequestsWellFormed.initial start).reach reached
  have idle := UnregisteredIdle.reach (.initial start) (.initial start) reached
  refine wf.drain.trans fun t drained quiet => ?_
  have drainedWf := wf.reach drained
  have drainedIdle := idle.reach wf drained
  refine (drainedWf.unstake_active drainedIdle quiet).trans
    fun u unstaked ⟨unstakedQuiet, moved⟩ => ?_
  refine (drainedWf.reach unstaked).unbond_all (drainedIdle.reach drainedWf unstaked)
    unstakedQuiet fun n active => ?_
  by_cases wasActive : t.nodeState n = .active
  · rw [moved n, if_pos wasActive] at active
    cases active
  · rw [moved n, if_neg wasActive] at active
    exact wasActive active

/-- From the end of `unbondRun`, with the unbond of node `1` in flight, every node can be
brought back to Inactive. -/
theorem nodes_recoverable_after_unbondRun :
    ∃ t, Reach (run (step sampleRegistry) (initial 0) unbondRun) (step sampleRegistry)
        (fun _ _ => True) t ∧ t.inFlight = [] ∧ ∀ n, t.nodeState n = .inactive :=
  @reachable_nodes_recoverable sampleRegistry _ _ (reach_run unbondRun .init)

end Delegation.Latest
