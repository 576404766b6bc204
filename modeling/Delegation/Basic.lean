/-
Module: Delegation.Basic
Purpose: Vocabulary shared by both versions of the node-activation module: BLS keys and
  signatures, the node registry of `node_config`, the auction's answer to a batch, the
  `require!` guard, the two loops the module runs over a batch of node ids, and reachability
  for a step function, forwards (`Reach`) and as a possible continuation (`CanReach`).
Trusted boundary: `node_config` and `split_node_ids_by_err` are not in the source. The
  registry enters as a structure whose fields carry the spec's contract for it (ids
  `1..num_nodes`, `0` for an unknown key); the split enters as a pair of lists that must
  partition the batch.
Main exports: BLSKey, BLSSignature, NodeRegistry, CallResult, require, setNodeStates,
  setNodeStatesTo, setNodeStates_eq_ok_iff, setNodeStates_ok_of_forall,
  setNodeStates_eq_setNodeStatesTo, Reach, Reach.trans,
  CanReach, CanReach.step, CanReach.trans, run, AllowedAlong, reach_run_allowed,
  toNat_add_of_lt, toNat_add_add_one
-/
import Mathlib.Logic.Function.Basic
import Mathlib.Data.List.Nodup

namespace Delegation

/-- A BLS public key: the fixed-size byte string a node is registered under. -/
structure BLSKey where
  bytes : List UInt8
deriving DecidableEq, Repr

/-- A BLS signature, sent to the auction beside its key when a node is staked. -/
structure BLSSignature where
  bytes : List UInt8
deriving DecidableEq, Repr

/-- The node registry of `node_config`, which this core reads and never writes. Ids run over
`1..numNodes` and `0` answers an unknown key (spec §3, §6); the last field is the registry's
promise that the key it stores for a registered id resolves back to that id. -/
structure NodeRegistry where
  numNodes : Nat
  getNodeId : BLSKey → Nat
  getNodeIdToBls : Nat → BLSKey
  getNodeSignature : Nat → BLSSignature
  getNodeId_le : ∀ key, getNodeId key ≤ numNodes
  getNodeId_getNodeIdToBls :
    ∀ nodeId, 1 ≤ nodeId → nodeId ≤ numNodes → getNodeId (getNodeIdToBls nodeId) = nodeId

/-- A registry of two nodes, with keys `[1]` and `[2]`, on which the concrete runs of both
versions are played. -/
def sampleRegistry : NodeRegistry where
  numNodes := 2
  getNodeId key := if key = ⟨[1]⟩ then 1 else if key = ⟨[2]⟩ then 2 else 0
  getNodeIdToBls nodeId := if nodeId = 1 then ⟨[1]⟩ else ⟨[2]⟩
  getNodeSignature _ := ⟨[]⟩
  getNodeId_le key := by dsimp only; split_ifs <;> omega
  getNodeId_getNodeIdToBls nodeId low high := by
    obtain rfl | rfl : nodeId = 1 ∨ nodeId = 2 := by omega
    all_goals decide

/-- A sum of two block nonces that fits in `u64` does not wrap. -/
theorem toNat_add_of_lt {first second : UInt64} (fits : first.toNat + second.toNat < UInt64.size) :
    (first + second).toNat = first.toNat + second.toNat :=
  Nat.mod_eq_of_lt fits

/-- The block after a block plus a delay, when it fits in `u64`. -/
theorem toNat_add_add_one {first second : UInt64}
    (fits : first.toNat + second.toNat + 1 < UInt64.size) :
    (first + second + 1).toNat = first.toNat + second.toNat + 1 := by
  rw [toNat_add_of_lt (by rw [toNat_add_of_lt (by omega)]; exact fits), toNat_add_of_lt (by omega)]
  rfl

/-- The auction's answer to a batch as a callback receives it: a transport error covering
the whole batch, or the batch split by `split_node_ids_by_err` into the nodes the auction
confirmed and those it rejected. -/
inductive CallResult where
  | ok (nodeIdsOk nodeIdsFail : List Nat)
  | err (errMsg : String)
deriving DecidableEq, Repr

namespace CallResult

/-- The answers the callback of `nodeIds` can receive. The spec requires the split to be a
partition of the requested list (§4.2), which is all the callbacks rely on. -/
def Splits (nodeIds : List Nat) : CallResult → Prop
  | .ok nodeIdsOk nodeIdsFail => (nodeIdsOk ++ nodeIdsFail).Perm nodeIds
  | .err _ => True

instance decidableSplits (nodeIds : List Nat) :
    (result : CallResult) → Decidable (result.Splits nodeIds)
  | .ok nodeIdsOk nodeIdsFail =>
      inferInstanceAs (Decidable ((nodeIdsOk ++ nodeIdsFail).Perm nodeIds))
  | .err _ => inferInstanceAs (Decidable True)

/-- Whether the answer reports `nodeId` as failed: every node is on a transport error. -/
def failed (result : CallResult) (nodeId : Nat) : Bool :=
  match result with
  | .ok _ nodeIdsFail => decide (nodeId ∈ nodeIdsFail)
  | .err _ => true

theorem Splits.mem_iff {nodeIds nodeIdsOk nodeIdsFail : List Nat}
    (splits : (CallResult.ok nodeIdsOk nodeIdsFail).Splits nodeIds) {nodeId : Nat} :
    nodeId ∈ nodeIds ↔ nodeId ∈ nodeIdsOk ∨ nodeId ∈ nodeIdsFail := by
  rw [← List.mem_append]; exact (List.Perm.mem_iff splits).symm

/-- On a duplicate-free batch the two halves of a split are disjoint. -/
theorem Splits.not_mem_fail {nodeIds nodeIdsOk nodeIdsFail : List Nat}
    (splits : (CallResult.ok nodeIdsOk nodeIdsFail).Splits nodeIds) (nodup : nodeIds.Nodup)
    {nodeId : Nat} (member : nodeId ∈ nodeIdsOk) : nodeId ∉ nodeIdsFail :=
  (List.nodup_append.mp ((List.Perm.nodup_iff splits).mpr nodup)).2.2 member

/-- On a duplicate-free batch a node is confirmed exactly when it is in the batch and not
reported failed. -/
theorem Splits.mem_ok_iff {nodeIds nodeIdsOk nodeIdsFail : List Nat}
    (splits : (CallResult.ok nodeIdsOk nodeIdsFail).Splits nodeIds) (nodup : nodeIds.Nodup)
    {nodeId : Nat} :
    nodeId ∈ nodeIdsOk ↔
      nodeId ∈ nodeIds ∧ (CallResult.ok nodeIdsOk nodeIdsFail).failed nodeId = false := by
  rw [splits.mem_iff, failed, decide_eq_false_iff_not]
  exact ⟨fun ok => ⟨.inl ok, splits.not_mem_fail nodup ok⟩,
    fun ⟨member, notFailed⟩ => member.resolve_right notFailed⟩

theorem Splits.nodup_ok {nodeIds nodeIdsOk nodeIdsFail : List Nat}
    (splits : (CallResult.ok nodeIdsOk nodeIdsFail).Splits nodeIds) (nodup : nodeIds.Nodup) :
    nodeIdsOk.Nodup :=
  (List.nodup_append.mp ((List.Perm.nodup_iff splits).mpr nodup)).1

theorem Splits.nodup_fail {nodeIds nodeIdsOk nodeIdsFail : List Nat}
    (splits : (CallResult.ok nodeIdsOk nodeIdsFail).Splits nodeIds) (nodup : nodeIds.Nodup) :
    nodeIdsFail.Nodup :=
  (List.nodup_append.mp ((List.Perm.nodup_iff splits).mpr nodup)).2.1

/-- Confirming every node of the batch is a split of it. -/
theorem splits_confirm (nodeIds : List Nat) : (CallResult.ok nodeIds []).Splits nodeIds :=
  List.Perm.of_eq (List.append_nil nodeIds)

/-- An answer that confirms the whole batch fails no node. -/
theorem failed_confirm (nodeIds : List Nat) (nodeId : Nat) :
    (CallResult.ok nodeIds []).failed nodeId = false :=
  rfl

end CallResult

/-! ### Failing computations -/

theorem bind_eq_ok {ε α β : Type} {x : Except ε α} {f : α → Except ε β} {b : β} :
    x >>= f = .ok b ↔ ∃ a, x = .ok a ∧ f a = .ok b := by
  cases x <;> simp [bind, Except.bind]

theorem map_eq_ok {ε α β : Type} {x : Except ε α} {f : α → β} {b : β} :
    x.map f = .ok b ↔ ∃ a, x = .ok a ∧ f a = b := by
  cases x <;> simp [Except.map]

theorem forM_eq_ok {ε α : Type} {f : α → Except ε Unit} {xs : List α} {done : Unit} :
    xs.forM f = .ok done ↔ ∀ x ∈ xs, f x = .ok () := by
  induction xs with
  | nil => simp [List.forM, pure, Except.pure]
  | cons x rest inductionHypothesis =>
      simp [List.forM, bind_eq_ok, inductionHypothesis, Unique.exists_iff]

/-- `require!(condition, message)`: the call fails with `message` unless `condition`. -/
def require (condition : Bool) (message : String) : Except String Unit :=
  if condition then .ok () else .error message

@[simp] theorem require_eq_ok {condition : Bool} {message : String} {done : Unit} :
    require condition message = .ok done ↔ condition = true := by
  cases condition <;> simp [require]

/-! ### The loops over a batch -/

section Loops

variable {σ : Type}

/-- The checked loop of the endpoints: each node in turn must admit the transition `next`
offers from its current state, else the whole call fails with `next`'s message, and takes
the state `next` yields. Later nodes see the writes of earlier ones, so a node named twice
meets its own new state. -/
def setNodeStates (next : Nat → σ → Except String σ) :
    List Nat → (Nat → σ) → Except String (Nat → σ)
  | [], nodeState => .ok nodeState
  | nodeId :: nodeIds, nodeState => do
      let state ← next nodeId (nodeState nodeId)
      setNodeStates next nodeIds (Function.update nodeState nodeId state)

/-- The unchecked loop of the callbacks: every listed node is set to `state`. -/
def setNodeStatesTo (state : σ) : List Nat → (Nat → σ) → Nat → σ
  | [], nodeState => nodeState
  | nodeId :: nodeIds, nodeState =>
      setNodeStatesTo state nodeIds (Function.update nodeState nodeId state)

@[simp] theorem setNodeStatesTo_apply (state : σ) (nodeIds : List Nat) (nodeState : Nat → σ)
    (nodeId : Nat) :
    setNodeStatesTo state nodeIds nodeState nodeId =
      if nodeId ∈ nodeIds then state else nodeState nodeId := by
  induction nodeIds generalizing nodeState with
  | nil => simp [setNodeStatesTo]
  | cons head rest inductionHypothesis =>
      by_cases here : nodeId = head
      · subst here; simp [setNodeStatesTo, inductionHypothesis]
      · simp [setNodeStatesTo, inductionHypothesis, here, Function.update_noteq]

@[simp] theorem setNodeStatesTo_nil (state : σ) (nodeState : Nat → σ) :
    setNodeStatesTo state [] nodeState = nodeState := rfl

/-- A second write to the same nodes overrides the first. -/
@[simp] theorem setNodeStatesTo_setNodeStatesTo (first second : σ) (nodeIds : List Nat)
    (nodeState : Nat → σ) :
    setNodeStatesTo second nodeIds (setNodeStatesTo first nodeIds nodeState) =
      setNodeStatesTo second nodeIds nodeState := by
  funext n
  simp only [setNodeStatesTo_apply]
  split_ifs <;> rfl

/-- Writing to nodes the state they are already in changes nothing. -/
theorem setNodeStatesTo_of_forall {state : σ} {nodeIds : List Nat} {nodeState : Nat → σ}
    (already : ∀ n ∈ nodeIds, nodeState n = state) :
    setNodeStatesTo state nodeIds nodeState = nodeState := by
  funext n
  rw [setNodeStatesTo_apply]
  split_ifs with member
  · exact (already n member).symm
  · rfl

/-- The two unchecked loops of a callback given a split answer: the rejected nodes end in
`failState`, the confirmed ones in `okState`. -/
theorem setNodeStatesTo_split {okState failState : σ} {nodeIds nodeIdsOk nodeIdsFail : List Nat}
    (splits : (CallResult.ok nodeIdsOk nodeIdsFail).Splits nodeIds) (nodeState : Nat → σ) :
    setNodeStatesTo failState nodeIdsFail (setNodeStatesTo okState nodeIdsOk nodeState) =
      fun n => if n ∈ nodeIds then
        (if (CallResult.ok nodeIdsOk nodeIdsFail).failed n then failState else okState)
      else nodeState n := by
  funext n
  simp only [setNodeStatesTo_apply, CallResult.failed, splits.mem_iff]
  by_cases fail : n ∈ nodeIdsFail <;> by_cases ok : n ∈ nodeIdsOk <;> simp [fail, ok]

/-- A transition no node takes twice in a row: it refuses every state it yields. Each
checked loop of the module has this shape, and it is what rejects a repeated key. -/
def OneShot (next : Nat → σ → Except String σ) : Prop :=
  ∀ nodeId state state', next nodeId state = .ok state' →
    ∀ state'', next nodeId state' ≠ .ok state''

/-- What the checked loop does, whole: it succeeds exactly on a duplicate-free batch whose
every node admits the transition, writes each of them once, and nothing else. -/
theorem setNodeStates_eq_ok_iff {next : Nat → σ → Except String σ} (oneShot : OneShot next)
    {nodeIds : List Nat} {nodeState nodeState' : Nat → σ} :
    setNodeStates next nodeIds nodeState = .ok nodeState' ↔
      nodeIds.Nodup ∧ (∀ n ∈ nodeIds, next n (nodeState n) = .ok (nodeState' n)) ∧
        ∀ n ∉ nodeIds, nodeState' n = nodeState n := by
  induction nodeIds generalizing nodeState with
  | nil => simp [setNodeStates, funext_iff, eq_comm]
  | cons head rest inductionHypothesis =>
      cases headEq : next head (nodeState head) with
      | error message =>
          simp [setNodeStates, headEq, bind, Except.bind]
      | ok state =>
          simp only [setNodeStates, headEq, bind, Except.bind, inductionHypothesis,
            List.nodup_cons, List.mem_cons, forall_eq_or_imp, not_or]
          constructor
          · rintro ⟨restNodup, restNext, restFrame⟩
            have fresh : head ∉ rest := fun member => by
              have again := restNext head member
              rw [Function.update_same] at again
              exact oneShot head _ _ headEq _ again
            have headState : nodeState' head = state := by
              rw [restFrame head fresh, Function.update_same]
            refine ⟨⟨fresh, restNodup⟩, ⟨by rw [headState], fun n member => ?_⟩, ?_⟩
            · have ne : n ≠ head := fun same => fresh (same ▸ member)
              simpa [Function.update_noteq ne] using restNext n member
            · rintro n ⟨ne, notMember⟩
              rw [restFrame n notMember, Function.update_noteq ne]
          · rintro ⟨⟨fresh, restNodup⟩, ⟨headNext, restNext⟩, frame⟩
            have headState : nodeState' head = state := (Except.ok.inj headNext).symm
            refine ⟨restNodup, fun n member => ?_, fun n notMember => ?_⟩
            · have ne : n ≠ head := fun same => fresh (same ▸ member)
              rw [Function.update_noteq ne]; exact restNext n member
            · by_cases here : n = head
              · subst here; rw [Function.update_same, headState]
              · rw [Function.update_noteq here]; exact frame n ⟨here, notMember⟩

/-- The checked loop succeeds on every duplicate-free batch whose nodes all admit it. -/
theorem setNodeStates_ok_of_forall {next : Nat → σ → Except String σ}
    {nodeIds : List Nat} {nodeState : Nat → σ} (nodup : nodeIds.Nodup)
    (admits : ∀ n ∈ nodeIds, ∃ state, next n (nodeState n) = .ok state) :
    ∃ nodeState', setNodeStates next nodeIds nodeState = .ok nodeState' := by
  induction nodeIds generalizing nodeState with
  | nil => exact ⟨nodeState, rfl⟩
  | cons head rest inductionHypothesis =>
      obtain ⟨fresh, restNodup⟩ := List.nodup_cons.mp nodup
      obtain ⟨headState, headEq⟩ := admits head (List.mem_cons_self _ _)
      have restAdmits : ∀ n ∈ rest,
          ∃ state, next n (Function.update nodeState head headState n) = .ok state := by
        intro n member
        have ne : n ≠ head := fun same => fresh (same ▸ member)
        simpa [Function.update_noteq ne] using admits n (List.mem_cons_of_mem _ member)
      obtain ⟨nodeState', restEq⟩ := inductionHypothesis restNodup restAdmits
      exact ⟨nodeState', by simp [setNodeStates, headEq, bind, Except.bind, restEq]⟩

/-- The checked loop of a transition that always yields `target`: on success it wrote
`target` to every listed node, each of which admitted the transition. -/
theorem setNodeStates_eq_ok_to {next : Nat → σ → Except String σ} (oneShot : OneShot next)
    {target : σ} (yields : ∀ nodeId state state', next nodeId state = .ok state' → state' = target)
    {nodeIds : List Nat} {nodeState nodeState' : Nat → σ}
    (loop : setNodeStates next nodeIds nodeState = .ok nodeState') :
    nodeIds.Nodup ∧ (∀ n ∈ nodeIds, next n (nodeState n) = .ok target) ∧
      nodeState' = setNodeStatesTo target nodeIds nodeState := by
  obtain ⟨nodup, moved, frame⟩ := (setNodeStates_eq_ok_iff oneShot).mp loop
  have landed : ∀ n ∈ nodeIds, nodeState' n = target := fun n member =>
    yields _ _ _ (moved n member)
  refine ⟨nodup, fun n member => landed n member ▸ moved n member, funext fun n => ?_⟩
  rw [setNodeStatesTo_apply]
  split
  · exact landed n ‹_›
  · exact frame n ‹_›

/-- The checked loop over a duplicate-free batch whose every node admits the transition to
`target` succeeds, and writes `target` to each of them. -/
theorem setNodeStates_eq_setNodeStatesTo {next : Nat → σ → Except String σ}
    (oneShot : OneShot next) {target : σ}
    (yields : ∀ nodeId state state', next nodeId state = .ok state' → state' = target)
    {nodeIds : List Nat} {nodeState : Nat → σ} (nodup : nodeIds.Nodup)
    (admits : ∀ n ∈ nodeIds, next n (nodeState n) = .ok target) :
    setNodeStates next nodeIds nodeState = .ok (setNodeStatesTo target nodeIds nodeState) := by
  obtain ⟨nodeState', loop⟩ :=
    setNodeStates_ok_of_forall nodup fun n member => ⟨target, admits n member⟩
  rw [loop, (setNodeStates_eq_ok_to oneShot yields loop).2.2]

end Loops

/-- Two distinct entries of a pairwise-related list are related: the one removed and any
that stays. -/
theorem pairwise_of_mem_erase {α : Type} [DecidableEq α] {R : α → α → Prop}
    (symm : ∀ {a b}, R a b → R b a) {l : List α} (pairwise : l.Pairwise R) {a b : α}
    (memA : a ∈ l) (memB : b ∈ l.erase a) : R a b := by
  induction l with
  | nil => simp at memA
  | cons x rest inductionHypothesis =>
      rw [List.pairwise_cons] at pairwise
      by_cases here : a = x
      · subst here
        rw [List.erase_cons_head] at memB
        exact pairwise.1 b memB
      · have rest_a : a ∈ rest := (List.mem_cons.mp memA).resolve_left here
        rw [List.erase_cons_tail (by simpa using Ne.symm here), List.mem_cons] at memB
        rcases memB with rfl | memB
        · exact symm (pairwise.1 a rest_a)
        · exact inductionHypothesis pairwise.2 rest_a memB

/-! ### Runs of a step function -/

section Runs

variable {State Label : Type}

/-- The states `step` reaches from `init` when every step taken is one `admissible` allows.
With `admissible` always true these are the reachable states. -/
inductive Reach (init : State) (step : State → Label → State)
    (admissible : State → Label → Prop) : State → Prop where
  | init : Reach init step admissible init
  | step {state : State} (label : Label) :
      Reach init step admissible state → admissible state label →
        Reach init step admissible (step state label)

/-- A run every step of which a stricter rule allows is a run under a looser one. -/
theorem Reach.mono {init : State} {step : State → Label → State}
    {admissible admissible' : State → Label → Prop}
    (looser : ∀ state label, admissible state label → admissible' state label) {state : State}
    (reached : Reach init step admissible state) : Reach init step admissible' state := by
  induction reached with
  | init => exact .init
  | step label _ allowed inductionHypothesis =>
      exact .step label inductionHypothesis (looser _ _ allowed)

/-- A run from a state reached by a run continues it. -/
theorem Reach.trans {init middle : State} {step : State → Label → State}
    {admissible : State → Label → Prop} (first : Reach init step admissible middle)
    {state : State} (second : Reach middle step admissible state) :
    Reach init step admissible state := by
  induction second with
  | init => exact first
  | step label _ allowed inductionHypothesis => exact .step label inductionHypothesis allowed

/-- Some run of steps `admissible` allows takes `state` to one where `goal` holds. -/
def CanReach (step : State → Label → State) (admissible : State → Label → Prop)
    (state : State) (goal : State → Prop) : Prop :=
  ∃ final, Reach state step admissible final ∧ goal final

namespace CanReach

variable {transition : State → Label → State} {admissible : State → Label → Prop} {state : State}
  {goal : State → Prop}

theorem refl (holds : goal state) : CanReach transition admissible state goal :=
  ⟨state, .init, holds⟩

/-- A step in front of a run. -/
theorem step (label : Label) (allowed : admissible state label)
    (next : CanReach transition admissible (transition state label) goal) :
    CanReach transition admissible state goal :=
  let ⟨final, reached, holds⟩ := next
  ⟨final, Reach.trans (.step label .init allowed) reached, holds⟩

/-- A run to `middle`, continued from every state it reaches there by one to `goal`. -/
theorem trans {middle : State → Prop} (first : CanReach transition admissible state middle)
    (rest : ∀ other, Reach state transition admissible other → middle other →
      CanReach transition admissible other goal) : CanReach transition admissible state goal :=
  let ⟨other, reached, holds⟩ := first
  let ⟨final, continued, goalHolds⟩ := rest other reached holds
  ⟨final, reached.trans continued, goalHolds⟩

theorem mono {weaker : State → Prop} (reaches : CanReach transition admissible state goal)
    (implies : ∀ final, goal final → weaker final) : CanReach transition admissible state weaker :=
  let ⟨final, reached, holds⟩ := reaches
  ⟨final, reached, implies final holds⟩

end CanReach

/-- Replay a list of labels. -/
def run (step : State → Label → State) (state : State) (labels : List Label) : State :=
  labels.foldl step state

/-- A replayed run of unrestricted steps ends in a reachable state. -/
theorem reach_run {init : State} {step : State → Label → State} (labels : List Label) :
    ∀ {state}, Reach init step (fun _ _ => True) state →
      Reach init step (fun _ _ => True) (run step state labels) := by
  induction labels with
  | nil => exact id
  | cons label rest inductionHypothesis =>
      exact fun reached => inductionHypothesis (.step label reached trivial)

/-- Every label of a replayed run is one `admissible` allows in the state it is taken in. -/
def AllowedAlong (step : State → Label → State) (admissible : State → Label → Prop) :
    State → List Label → Prop
  | _, [] => True
  | state, label :: rest =>
      admissible state label ∧ AllowedAlong step admissible (step state label) rest

/-- A replayed run whose every step `admissible` allows ends in a state reached under it. -/
theorem reach_run_allowed {init : State} {step : State → Label → State}
    {admissible : State → Label → Prop} (labels : List Label) :
    ∀ {state}, Reach init step admissible state → AllowedAlong step admissible state labels →
      Reach init step admissible (run step state labels) := by
  induction labels with
  | nil => exact fun reached _ => reached
  | cons label rest inductionHypothesis =>
      exact fun reached allowed => inductionHypothesis (.step label reached allowed.1) allowed.2

end Runs

end Delegation
