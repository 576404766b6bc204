/-
Module: Delegation.Latest.Lifecycle
Layer: Proofs
Purpose: The latest module over every run. The requests in flight are well formed in every
  reachable state: each names distinct registered nodes, two of them never share a node,
  each node of a request is in the pending state its callback waits on, and every pending
  node belongs to a request (`RequestsWellFormed`). The callbacks write node states without
  reading them; this invariant is what keeps them from overwriting a node another flow owns.
  From it: every change of a node follows the lifecycle edges of spec §4.2, a failed request
  puts its nodes back where they were, an unbond period always dates from the last
  confirmed unstake, and no callback is ever reverted.
Trusted boundary: none
Main exports: RequestsWellFormed, RequestsWellFormed.reach, reachable_requestsWellFormed,
  Edge, node_lifecycle, callbacks_succeed
-/
import Delegation.Latest.Endpoints

namespace Delegation.Latest

variable {reg : NodeRegistry}

/-- The requests in flight and the node states agree: each request names distinct registered
nodes, all waiting on its callback; requests are pairwise disjoint; and a node is pending
only while a request for it is outstanding. -/
structure RequestsWellFormed (reg : NodeRegistry) (s : State) : Prop where
  nodup : ∀ c ∈ s.inFlight, c.nodeIds.Nodup
  disjoint : s.inFlight.Pairwise fun c d => c.nodeIds.Disjoint d.nodeIds
  known : ∀ c ∈ s.inFlight, ∀ n ∈ c.nodeIds, 1 ≤ n ∧ n ≤ reg.numNodes
  awaiting : ∀ c ∈ s.inFlight, ∀ n ∈ c.nodeIds, Awaits c.callback (s.nodeState n)
  owned : ∀ n, (s.nodeState n).isPending → ∃ c ∈ s.inFlight, n ∈ c.nodeIds

theorem registered_pairwise {R : CallbackClosure → CallbackClosure → Prop}
    (asyncCall : Option AsyncCall) : (registered asyncCall).Pairwise R := by
  rcases asyncCall with _ | ⟨_, _ | _⟩ <;> simp [registered]

namespace RequestsWellFormed

variable {s : State}

theorem initial (start : UInt64) : RequestsWellFormed reg (initial start) :=
  ⟨by simp [Latest.initial], by simp [Latest.initial], by simp [Latest.initial],
    by simp [Latest.initial], by simp [Latest.initial, NodeState.isPending]⟩

/-- A node of an outstanding request is in no state a new request starts from. -/
theorem not_mem_issued (wf : RequestsWellFormed reg s) {after : Nat → NodeState}
    {closures : List CallbackClosure} (issues : Issues reg s.nodeState after closures)
    {c d : CallbackClosure} (issued : c ∈ closures) (outstanding : d ∈ s.inFlight) {n : Nat}
    (member : n ∈ d.nodeIds) : n ∉ c.nodeIds := fun memberC => by
  have pending := (wf.awaiting d outstanding n member).isPending
  rw [(issues.enters c issued n memberC).not_isPending] at pending
  exact Bool.false_ne_true pending

/-- A successful call keeps the requests well formed. -/
theorem call (wf : RequestsWellFormed reg s) {after : Nat → NodeState}
    {closures : List CallbackClosure} (issues : Issues reg s.nodeState after closures)
    (pairwise : closures.Pairwise fun c d => c.nodeIds.Disjoint d.nodeIds) :
    RequestsWellFormed reg { s with nodeState := after, inFlight := closures ++ s.inFlight } := by
  have unchanged : ∀ d ∈ s.inFlight, ∀ n ∈ d.nodeIds, after n = s.nodeState n :=
    fun d outstanding n member =>
      issues.frame n fun c issued => wf.not_mem_issued issues issued outstanding member
  refine ⟨?_, ?_, ?_, ?_, ?_⟩ <;> simp only [List.mem_append]
  · rintro c (issued | outstanding)
    exacts [issues.nodup c issued, wf.nodup c outstanding]
  · refine List.pairwise_append.mpr ⟨pairwise, wf.disjoint, ?_⟩
    intro c issued d outstanding n memberC memberD
    exact wf.not_mem_issued issues issued outstanding memberD memberC
  · rintro c (issued | outstanding)
    exacts [issues.registered c issued, wf.known c outstanding]
  · rintro c (issued | outstanding) n member
    · exact (issues.enters c issued n member).awaits
    · rw [unchanged c outstanding n member]; exact wf.awaiting c outstanding n member
  · intro n pending
    by_cases fresh : ∀ c ∈ closures, n ∉ c.nodeIds
    · rw [issues.frame n fresh] at pending
      obtain ⟨d, outstanding, member⟩ := wf.owned n pending
      exact ⟨d, .inr outstanding, member⟩
    · push_neg at fresh
      obtain ⟨c, issued, member⟩ := fresh
      exact ⟨c, .inl issued, member⟩

/-- The delivery of an answer to an outstanding request keeps the requests well formed. -/
theorem deliver (wf : RequestsWellFormed reg s) {closure : CallbackClosure}
    (outstanding : closure ∈ s.inFlight) (result : CallResult) :
    RequestsWellFormed reg
      { s with
        nodeState := fun n => if n ∈ closure.nodeIds then
          settle s.blockNonce closure.callback (result.failed n) (s.nodeState n)
          else s.nodeState n
        inFlight := s.inFlight.erase closure } := by
  have apart : ∀ d ∈ s.inFlight.erase closure, ∀ n ∈ d.nodeIds, n ∉ closure.nodeIds :=
    fun d remaining n member memberC =>
      pairwise_of_mem_erase (fun disjoint => List.disjoint_comm.mp disjoint) wf.disjoint
        outstanding remaining memberC member
  refine ⟨fun d remaining => wf.nodup d (List.mem_of_mem_erase remaining),
    wf.disjoint.sublist (List.erase_sublist _ _),
    fun d remaining => wf.known d (List.mem_of_mem_erase remaining), ?_, ?_⟩
  · intro d remaining n member
    simp only [apart d remaining n member, if_false]
    exact wf.awaiting d (List.mem_of_mem_erase remaining) n member
  · intro n pending
    by_cases memberC : n ∈ closure.nodeIds
    · simp only [memberC, if_true] at pending
      rw [settle_not_isPending (wf.awaiting closure outstanding n memberC)] at pending
      exact absurd pending Bool.false_ne_true
    · simp only [memberC, if_false] at pending
      obtain ⟨d, other, member⟩ := wf.owned n pending
      have ne : d ≠ closure := fun same => memberC (same ▸ member)
      exact ⟨d, (List.mem_erase_of_ne ne).mpr other, member⟩

/-- Every step keeps the requests well formed. -/
theorem step (wf : RequestsWellFormed reg s) (label : Label) :
    RequestsWellFormed reg (step reg s label) := by
  cases label with
  | call env call =>
      simp only [Latest.step]
      split
      · rename_i ran
        exact wf.call (runEndpoint_issues ran) (registered_pairwise _)
      · exact wf
  | deliver closure result =>
      simp only [Latest.step]
      split
      · rename_i delivered
        obtain ⟨outstanding, splits⟩ := delivered
        rw [runCallback_eq (wf.nodup closure outstanding) (wf.awaiting closure outstanding)
          splits]
        exact wf.deliver outstanding result
      · exact wf
  | newBlock blockNonce =>
      exact ⟨wf.nodup, wf.disjoint, wf.known, wf.awaiting, wf.owned⟩

/-- From a state with well-formed requests, every run keeps them well formed. -/
theorem reach {start : State} (wf : RequestsWellFormed reg start)
    (reached : Reach start (Latest.step reg) (fun _ _ => True) s) : RequestsWellFormed reg s := by
  induction reached with
  | init => exact wf
  | step label _ _ inductionHypothesis => exact inductionHypothesis.step label

end RequestsWellFormed

/-- In every reachable state of the latest module the requests in flight are well formed:
no request names a node twice, two requests never share a node, every node they name is a
registered one, each is in the pending state its callback waits on, and every pending node
belongs to an outstanding request. -/
theorem reachable_requestsWellFormed {start : UInt64} {s : State}
    (reached : Reachable reg start s) : RequestsWellFormed reg s :=
  (RequestsWellFormed.initial start).reach reached

theorem requestsWellFormed_after_stakeNodes :
    Reachable sampleRegistry 0
        (step sampleRegistry (initial 0) (.call ownerEnv (.stakeNodes 0 [⟨[1]⟩]))) ∧
      RequestsWellFormed sampleRegistry
        (step sampleRegistry (initial 0) (.call ownerEnv (.stakeNodes 0 [⟨[1]⟩]))) :=
  have reached := Reach.step _ Reach.init trivial
  ⟨reached, reachable_requestsWellFormed reached⟩

/-! ### One step, one node -/

/-- What one step does to one node of a state whose requests are well formed: a call leaves
it, or makes it enter the pending state of the callback its endpoint registers; an answer
to the request that holds it settles it by the verdict; nothing else moves it. -/
theorem RequestsWellFormed.step_nodeState {s : State} (wf : RequestsWellFormed reg s)
    (label : Label) (n : Nat) :
    (Latest.step reg s label).nodeState n = s.nodeState n ∨
      (∃ env call callback, label = .call env call ∧ call.opens = some callback ∧
        label.Touches reg n ∧ Enters callback (s.nodeState n) ((Latest.step reg s label).nodeState n)) ∨
      (∃ closure result, label = .deliver closure result ∧ closure ∈ s.inFlight ∧
        result.Splits closure.nodeIds ∧ n ∈ closure.nodeIds ∧
        Awaits closure.callback (s.nodeState n) ∧
        (Latest.step reg s label).nodeState n =
          settle s.blockNonce closure.callback (result.failed n) (s.nodeState n)) := by
  cases label with
  | call env call =>
      simp only [Latest.step]
      split
      · rename_i after asyncCall ran
        have issues := runEndpoint_issues ran
        by_cases fresh : ∀ c ∈ registered asyncCall, n ∉ c.nodeIds
        · exact .inl (issues.frame n fresh)
        · push_neg at fresh
          obtain ⟨c, issued, member⟩ := fresh
          obtain ⟨opens, touches⟩ := runEndpoint_registers ran issued
          exact .inr (.inl ⟨env, call, c.callback, rfl, opens, touches n member,
            issues.enters c issued n member⟩)
      · exact .inl rfl
  | deliver closure result =>
      simp only [Latest.step]
      split
      · rename_i delivered
        obtain ⟨outstanding, splits⟩ := delivered
        rw [runCallback_eq (wf.nodup closure outstanding) (wf.awaiting closure outstanding)
          splits]
        by_cases member : n ∈ closure.nodeIds
        · exact .inr (.inr ⟨closure, result, rfl, outstanding, splits, member,
            wf.awaiting closure outstanding n member, by simp [member]⟩)
        · exact .inl (by simp [member])
      · exact .inl rfl
  | newBlock blockNonce => exact .inl rfl

/-- The lifecycle edges of spec §4.2, each with the step that takes it; `blockNonce` is the
block the step runs in. -/
inductive Edge (blockNonce : UInt64) : Label → NodeState → NodeState → Prop where
  | stakeNodes (env : Env) (amountToStake : Nat) (blsKeys : List BLSKey) :
      Edge blockNonce (.call env (.stakeNodes amountToStake blsKeys))
        .inactive .pendingActivation
  | stakeOk (nodeIds : List Nat) (result : CallResult) :
      Edge blockNonce (.deliver ⟨.auctionStakeCallback, nodeIds⟩ result)
        .pendingActivation .active
  | stakeFail (nodeIds : List Nat) (result : CallResult) :
      Edge blockNonce (.deliver ⟨.auctionStakeCallback, nodeIds⟩ result)
        .pendingActivation .inactive
  | unStakeNodes (env : Env) (blsKeys : List BLSKey) :
      Edge blockNonce (.call env (.unStakeNodes blsKeys)) .active .pendingDeactivation
  | unStakeNodesAndTokens (env : Env) (blsKeys : List BLSKey) :
      Edge blockNonce (.call env (.unStakeNodesAndTokens blsKeys)) .active .pendingDeactivation
  | unstakeOk (nodeIds : List Nat) (result : CallResult) :
      Edge blockNonce (.deliver ⟨.auctionUnstakeCallback, nodeIds⟩ result)
        .pendingDeactivation (.unBondPeriod blockNonce)
  | unstakeFail (nodeIds : List Nat) (result : CallResult) :
      Edge blockNonce (.deliver ⟨.auctionUnstakeCallback, nodeIds⟩ result)
        .pendingDeactivation .active
  | unBondNodes (env : Env) (blsKeys : List BLSKey) (started : UInt64) :
      Edge blockNonce (.call env (.unBondNodes blsKeys))
        (.unBondPeriod started) (.pendingUnBond started)
  | unBondAllPossibleNodes (env : Env) (started : UInt64) :
      Edge blockNonce (.call env .unBondAllPossibleNodes)
        (.unBondPeriod started) (.pendingUnBond started)
  | unbondOk (nodeIds : List Nat) (result : CallResult) (started : UInt64) :
      Edge blockNonce (.deliver ⟨.auctionUnbondCallback, nodeIds⟩ result)
        (.pendingUnBond started) .inactive
  | unbondFail (nodeIds : List Nat) (result : CallResult) (started : UInt64) :
      Edge blockNonce (.deliver ⟨.auctionUnbondCallback, nodeIds⟩ result)
        (.pendingUnBond started) (.unBondPeriod started)

theorem edge_of_enters {blockNonce : UInt64} {env : Env} {call : Call} {callback : Callback}
    {before after : NodeState} (opens : call.opens = some callback)
    (enters : Enters callback before after) : Edge blockNonce (.call env call) before after := by
  cases call <;> simp only [Call.opens, Option.some.injEq, reduceCtorEq] at opens <;>
    subst opens
  case stakeNodes => obtain ⟨rfl, rfl⟩ := enters; exact .stakeNodes ..
  case unStakeNodes => obtain ⟨rfl, rfl⟩ := enters; exact .unStakeNodes ..
  case unStakeNodesAndTokens => obtain ⟨rfl, rfl⟩ := enters; exact .unStakeNodesAndTokens ..
  case unBondNodes => obtain ⟨_, rfl, rfl⟩ := enters; exact .unBondNodes ..
  case unBondAllPossibleNodes => obtain ⟨_, rfl, rfl⟩ := enters; exact .unBondAllPossibleNodes ..

theorem edge_of_settle {blockNonce : UInt64} {closure : CallbackClosure} {result : CallResult}
    {failed : Bool} {before : NodeState} (awaits : Awaits closure.callback before) :
    Edge blockNonce (.deliver closure result) before
      (settle blockNonce closure.callback failed before) := by
  obtain ⟨callback, nodeIds⟩ := closure
  cases callback with
  | auctionStakeCallback =>
      cases awaits; cases failed
      exacts [.stakeOk nodeIds result, .stakeFail nodeIds result]
  | auctionUnstakeCallback =>
      cases awaits; cases failed
      exacts [.unstakeOk nodeIds result, .unstakeFail nodeIds result]
  | auctionUnbondCallback =>
      obtain ⟨started, rfl⟩ := awaits; cases failed
      exacts [.unbondOk nodeIds result started, .unbondFail nodeIds result started]

/-- A failed answer takes a node back along the edge it came in by. -/
theorem settle_failed_of_enters {blockNonce : UInt64} {entered awaited : Callback}
    {before after : NodeState} (enters : Enters entered before after)
    (awaits : Awaits awaited after) : settle blockNonce awaited true after = before := by
  cases entered with
  | auctionStakeCallback =>
      obtain ⟨rfl, rfl⟩ := enters
      cases awaited <;> simp [Awaits, settle] at awaits ⊢
  | auctionUnstakeCallback =>
      obtain ⟨rfl, rfl⟩ := enters
      cases awaited <;> simp [Awaits, settle] at awaits ⊢
  | auctionUnbondCallback =>
      obtain ⟨_, rfl, rfl⟩ := enters
      cases awaited <;> simp [Awaits, settle] at awaits ⊢

/-! ### The node lifecycle along every run -/

namespace RequestsWellFormed

variable {s : State}

/-- A node that changes follows a lifecycle edge, and the step names it. -/
theorem step_edge (wf : RequestsWellFormed reg s) {label : Label} {n : Nat}
    (changed : (Latest.step reg s label).nodeState n ≠ s.nodeState n) :
    Edge s.blockNonce label (s.nodeState n) ((Latest.step reg s label).nodeState n) ∧
      label.Touches reg n := by
  rcases wf.step_nodeState label n with same | ⟨_, _, _, rfl, opens, touches, enters⟩ |
    ⟨_, _, rfl, -, -, member, awaits, settled⟩
  · exact absurd same changed
  · exact ⟨edge_of_enters opens enters, touches⟩
  · rw [settled]; exact ⟨edge_of_settle awaits, member⟩

/-- The answer to a request, at one of its nodes. -/
theorem deliver_nodeState (wf : RequestsWellFormed reg s) {closure : CallbackClosure}
    {result : CallResult} (outstanding : closure ∈ s.inFlight)
    (splits : result.Splits closure.nodeIds) {n : Nat} (member : n ∈ closure.nodeIds) :
    (Latest.step reg s (.deliver closure result)).nodeState n =
      settle s.blockNonce closure.callback (result.failed n) (s.nodeState n) := by
  simp only [Latest.step, if_pos (And.intro outstanding splits),
    runCallback_eq (wf.nodup closure outstanding) (wf.awaiting closure outstanding) splits]
  simp [member]

end RequestsWellFormed

/-- A step answers the request holding `n`. -/
def AnswersFor (s : State) (label : Label) (n : Nat) : Prop :=
  ∃ closure result, label = .deliver closure result ∧ closure ∈ s.inFlight ∧
    result.Splits closure.nodeIds ∧ n ∈ closure.nodeIds

/-- A pending node stays as it is until its request is answered. -/
theorem RequestsWellFormed.step_pending {s : State} (wf : RequestsWellFormed reg s)
    {label : Label} {n : Nat} (pending : (s.nodeState n).isPending)
    (unanswered : ¬ AnswersFor s label n) :
    (Latest.step reg s label).nodeState n = s.nodeState n := by
  rcases wf.step_nodeState label n with same | ⟨_, _, _, _, _, _, enters⟩ |
    ⟨closure, result, rfl, outstanding, splits, member, -, -⟩
  · exact same
  · rw [enters.not_isPending] at pending; exact absurd pending Bool.false_ne_true
  · exact absurd ⟨closure, result, rfl, outstanding, splits, member⟩ unanswered

/-- Along steps that do not answer its request, a pending node keeps its state. -/
theorem pending_held {start : UInt64} {a b : State} {n : Nat} (reached : Reachable reg start a)
    (pending : (a.nodeState n).isPending)
    (waited : Relation.ReflTransGen
      (fun x y => ∃ label, ¬ AnswersFor x label n ∧ y = step reg x label) a b) :
    Reachable reg start b ∧ b.nodeState n = a.nodeState n := by
  induction waited with
  | refl => exact ⟨reached, rfl⟩
  | tail _ next inductionHypothesis =>
      obtain ⟨label, unanswered, rfl⟩ := next
      obtain ⟨reachedX, stateX⟩ := inductionHypothesis
      refine ⟨.step label reachedX trivial, ?_⟩
      rw [(reachable_requestsWellFormed reachedX).step_pending (stateX ▸ pending) unanswered,
        stateX]

/-- A request that the auction fails for a node puts the node back in the state it had
before the request was issued, whatever ran in between. -/
theorem failed_answer_restores {start : UInt64} {s0 s2 : State} {env : Env} {call : Call}
    {n : Nat} {closure : CallbackClosure} {result : CallResult}
    (reached : Reachable reg start s0)
    (issued : (step reg s0 (.call env call)).nodeState n ≠ s0.nodeState n)
    (waited : Relation.ReflTransGen
      (fun a b => ∃ label, ¬ AnswersFor a label n ∧ b = step reg a label)
      (step reg s0 (.call env call)) s2)
    (outstanding : closure ∈ s2.inFlight) (member : n ∈ closure.nodeIds)
    (splits : result.Splits closure.nodeIds) (failed : result.failed n = true) :
    (step reg s2 (.deliver closure result)).nodeState n = s0.nodeState n := by
  have entered : ∃ callback, Enters callback (s0.nodeState n)
      ((step reg s0 (.call env call)).nodeState n) := by
    rcases (reachable_requestsWellFormed reached).step_nodeState (.call env call) n with
      same | ⟨_, _, callback, -, -, -, enters⟩ | ⟨_, _, contra, -⟩
    exacts [absurd same issued, ⟨callback, enters⟩, nomatch contra]
  obtain ⟨callback, enters⟩ := entered
  obtain ⟨reached2, state2⟩ := pending_held (.step _ reached trivial)
    enters.awaits.isPending waited
  have wf2 := reachable_requestsWellFormed reached2
  rw [wf2.deliver_nodeState outstanding splits member, failed, state2]
  exact settle_failed_of_enters enters (state2 ▸ wf2.awaiting closure outstanding n member)

/-- The unbond period of a node, and the pending unbond that carries it, always start at
the block of the node's last confirmed unstake: the unstake callback that confirmed it ran in
that block, and the node has been in that unbond period or pending unbond ever since. -/
theorem unbond_start_is_last_unstake {start : UInt64} {s : State} {n : Nat} {started : UInt64}
    (reached : Reachable reg start s)
    (inPeriod : s.nodeState n = .unBondPeriod started ∨ s.nodeState n = .pendingUnBond started) :
    ∃ a nodeIds result, Reachable reg start a ∧ a.nodeState n = .pendingDeactivation ∧
      a.blockNonce = started ∧
      (step reg a (.deliver ⟨.auctionUnstakeCallback, nodeIds⟩ result)).nodeState n =
        .unBondPeriod started ∧
      Relation.ReflTransGen
        (fun x y => ∃ label, y = step reg x label ∧
          (y.nodeState n = .unBondPeriod started ∨ y.nodeState n = .pendingUnBond started))
        (step reg a (.deliver ⟨.auctionUnstakeCallback, nodeIds⟩ result)) s := by
  induction reached with
  | init => simp [Latest.initial] at inPeriod
  | @step a label reachedA _ inductionHypothesis =>
      by_cases before : a.nodeState n = .unBondPeriod started ∨
          a.nodeState n = .pendingUnBond started
      · obtain ⟨a', nodeIds, result, reached', pending, nonce, confirmed, since⟩ :=
          inductionHypothesis before
        exact ⟨a', nodeIds, result, reached', pending, nonce, confirmed,
          since.tail ⟨label, rfl, inPeriod⟩⟩
      · have changed : (step reg a label).nodeState n ≠ a.nodeState n :=
          fun same => before (same ▸ inPeriod)
        obtain ⟨edge, -⟩ := (reachable_requestsWellFormed reachedA).step_edge changed
        generalize oldEq : a.nodeState n = old at edge before
        generalize newEq : (step reg a label).nodeState n = new at edge inPeriod
        cases edge with
        | unstakeOk nodeIds result =>
            simp only [NodeState.unBondPeriod.injEq, reduceCtorEq, or_false] at inPeriod
            exact ⟨a, nodeIds, result, reachedA, oldEq, inPeriod, inPeriod ▸ newEq, .refl⟩
        | _ => simp at inPeriod before <;> exact absurd inPeriod before

/-- The node lifecycle of the latest module along every run. A node changes only along the
edges of spec §4.2, taken by the step each edge names, and only when the step names the
node; a request that the auction fails for a node puts it back in the state it had before
the request; and an unbond period, or the pending unbond carrying it, dates from the block
of the node's last confirmed unstake. -/
theorem node_lifecycle (reg : NodeRegistry) (start : UInt64) :
    (∀ s label n, Reachable reg start s →
      (step reg s label).nodeState n ≠ s.nodeState n →
      Edge s.blockNonce label (s.nodeState n) ((step reg s label).nodeState n) ∧
        label.Touches reg n) ∧
    (∀ s0 s2 env call n closure result, Reachable reg start s0 →
      (step reg s0 (.call env call)).nodeState n ≠ s0.nodeState n →
      Relation.ReflTransGen
        (fun a b => ∃ label, ¬ AnswersFor a label n ∧ b = step reg a label)
        (step reg s0 (.call env call)) s2 →
      closure ∈ s2.inFlight → n ∈ closure.nodeIds → result.Splits closure.nodeIds →
      result.failed n = true →
      (step reg s2 (.deliver closure result)).nodeState n = s0.nodeState n) ∧
    (∀ s n started, Reachable reg start s →
      (s.nodeState n = .unBondPeriod started ∨ s.nodeState n = .pendingUnBond started) →
      ∃ a nodeIds result, Reachable reg start a ∧ a.nodeState n = .pendingDeactivation ∧
        a.blockNonce = started ∧
        (step reg a (.deliver ⟨.auctionUnstakeCallback, nodeIds⟩ result)).nodeState n =
          .unBondPeriod started ∧
        Relation.ReflTransGen
          (fun x y => ∃ label, y = step reg x label ∧
            (y.nodeState n = .unBondPeriod started ∨ y.nodeState n = .pendingUnBond started))
          (step reg a (.deliver ⟨.auctionUnstakeCallback, nodeIds⟩ result)) s) :=
  ⟨fun _ _ _ reached changed => (reachable_requestsWellFormed reached).step_edge changed,
    fun _ _ _ _ _ _ _ reached issued waited outstanding member splits failed =>
      failed_answer_restores reached issued waited outstanding member splits failed,
    fun _ _ _ reached inPeriod => unbond_start_is_last_unstake reached inPeriod⟩

theorem node_lifecycle_stakeNodes_edge :
    Edge 0 (.call ownerEnv (.stakeNodes 0 [⟨[1]⟩])) .inactive .pendingActivation ∧
      (Label.call ownerEnv (.stakeNodes 0 [⟨[1]⟩])).Touches sampleRegistry 1 :=
  (node_lifecycle sampleRegistry 0).1 (initial 0) _ 1 Reach.init (by decide)

/-- In every reachable state of the latest module no callback is reverted: the callback of
every outstanding request succeeds on every answer that splits its nodes and settles each of
them by the verdict on it, so the revert loop of `auction_unbond_callback_fail` never meets a
node that is not PendingUnBond. And once no request is outstanding, no node is pending. -/
theorem callbacks_succeed {start : UInt64} {s : State} (reached : Reachable reg start s) :
    (∀ closure ∈ s.inFlight, ∀ result : CallResult, result.Splits closure.nodeIds →
      runCallback s.blockNonce closure result s.nodeState = .ok fun n =>
        if n ∈ closure.nodeIds then
          settle s.blockNonce closure.callback (result.failed n) (s.nodeState n)
        else s.nodeState n) ∧
    (s.inFlight = [] → ∀ n, (s.nodeState n).isPending = false) := by
  have wf := (RequestsWellFormed.initial start).reach reached
  refine ⟨fun closure outstanding _ splits =>
    runCallback_eq (wf.nodup closure outstanding) (wf.awaiting closure outstanding) splits,
    fun quiet n => ?settled⟩
  by_contra pending
  obtain ⟨closure, outstanding, -⟩ := wf.owned n (by simpa using pending)
  rw [quiet] at outstanding
  cases outstanding

/-- Node `1` staked and confirmed, unstaked and confirmed at block 0, then unbonded. -/
def unbondRun : List Label :=
  [.call ownerEnv (.stakeNodes 0 [⟨[1]⟩]), .deliver ⟨.auctionStakeCallback, [1]⟩ (.ok [1] []),
    .call ownerEnv (.unStakeNodes [⟨[1]⟩]), .deliver ⟨.auctionUnstakeCallback, [1]⟩ (.ok [1] []),
    .call ownerEnv (.unBondNodes [⟨[1]⟩])]

/-- The auction's rejection of that unbond is accepted, and gives the node its unbond period
back. -/
theorem unbond_rejection_reverted :
    ∃ after, runCallback 0 ⟨.auctionUnbondCallback, [1]⟩ (.err "")
        (run (step sampleRegistry) (initial 0) unbondRun).nodeState = .ok after ∧
      after 1 = .unBondPeriod 0 :=
  ⟨_, (@callbacks_succeed sampleRegistry 0 _ (reach_run unbondRun .init)).1
    ⟨.auctionUnbondCallback, [1]⟩ (by decide) (.err "") trivial, by decide⟩

end Delegation.Latest
