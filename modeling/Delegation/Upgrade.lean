/-
Module: Delegation.Upgrade
Layer: Proofs
Purpose: Version 0.4 against the latest node-activation module. The latest module has no
  ActivationFailed state (a refused activation goes straight back to Inactive), keeps the
  unstake block inside the unbond-period states, and has no claim of failed stake. Read
  through that map (`V04.State.toLatest`), each step of version 0.4 allowed by `Disciplined`
  is a step of the latest module or leaves the reading unchanged
  (`RequestsWellFormed.toLatest_step`). So every state such a run reaches reads as a state
  the latest module reaches (`disciplined_runs_refine_latest`), and what holds of every
  reachable latest state holds of that reading.
Trusted boundary: none
Main exports: Latest.reissue, Latest.runEndpoint_reissue, NodeState.toLatest, Storage.toLatest,
  CallbackClosure.toLatest, State.toLatest, RequestsWellFormed.toLatest_step,
  disciplined_runs_refine_latest
-/
import Delegation.Latest.Endpoints
import Delegation.V04.Lifecycle

namespace Delegation

/-! ### Requests dropped from a list, seen through a partial map -/

section Requests

variable {α β : Type} [DecidableEq α] {f : α → Option β} {a : α}

/-- Removing an entry the map drops changes nothing the map keeps. -/
theorem filterMap_erase_of_none (dropped : f a = none) (l : List α) :
    (l.erase a).filterMap f = l.filterMap f := by
  induction l with
  | nil => rfl
  | cons x rest inductionHypothesis =>
      by_cases here : x = a
      · subst here; rw [List.erase_cons_head, List.filterMap_cons_none dropped]
      · rw [List.erase_cons_tail (by simpa using here), List.filterMap_cons,
          List.filterMap_cons, inductionHypothesis]

/-- Removing an entry the map keeps, and keeps apart from every other, removes its image. -/
theorem filterMap_erase [DecidableEq β] {b : β} (image : f a = some b) (injective : ∀ x, f x = some b → x = a)
    (l : List α) : (l.erase a).filterMap f = (l.filterMap f).erase b := by
  induction l with
  | nil => rfl
  | cons x rest inductionHypothesis =>
      by_cases here : x = a
      · subst here
        rw [List.erase_cons_head, List.filterMap_cons_some image, List.erase_cons_head]
      · rw [List.erase_cons_tail (by simpa using here)]
        cases imageX : f x with
        | none => rw [List.filterMap_cons_none imageX, List.filterMap_cons_none imageX,
            inductionHypothesis]
        | some c =>
            have other : c ≠ b := fun same => here (injective x (same ▸ imageX))
            rw [List.filterMap_cons_some imageX, List.filterMap_cons_some imageX,
              List.erase_cons_tail (by simpa using other), inductionHypothesis]

end Requests

/-! ### The latest module issuing a given request -/

namespace Latest

theorem State.ext {a b : State} (nodeState : a.nodeState = b.nodeState)
    (blockNonce : a.blockNonce = b.blockNonce) (inFlight : a.inFlight = b.inFlight) : a = b := by
  cases a; cases b; cases nodeState; cases blockNonce; cases inFlight; rfl

/-- The owner's call that issues a given request: a stake with nothing to pay, an unstake
of the nodes only, or a targeted unbond, each over the keys of the request's nodes. -/
def reissue (reg : NodeRegistry) (closure : CallbackClosure) : Call :=
  match closure.callback with
  | .auctionStakeCallback => .stakeNodes 0 (closure.nodeIds.map reg.getNodeIdToBls)
  | .auctionUnstakeCallback => .unStakeNodes (closure.nodeIds.map reg.getNodeIdToBls)
  | .auctionUnbondCallback => .unBondNodes (closure.nodeIds.map reg.getNodeIdToBls)

/-- The keys the registry stores for registered ids resolve back to them. -/
theorem map_getNodeId_getNodeIdToBls {reg : NodeRegistry} {nodeIds : List Nat}
    (known : ∀ n ∈ nodeIds, 1 ≤ n ∧ n ≤ reg.numNodes) :
    (nodeIds.map reg.getNodeIdToBls).map reg.getNodeId = nodeIds := by
  rw [List.map_map]
  exact (List.map_congr_left fun n member =>
    reg.getNodeId_getNodeIdToBls n (known n member).1 (known n member).2).trans (List.map_id _)

/-- The owner can issue every request over distinct registered nodes, at least one, that all
admit the request's entry move: `reissue` makes exactly that move and registers exactly that
request. -/
theorem runEndpoint_reissue {reg : NodeRegistry} {closure : CallbackClosure}
    {before after : Nat → NodeState} (nodup : closure.nodeIds.Nodup)
    (known : ∀ n ∈ closure.nodeIds, 1 ≤ n ∧ n ≤ reg.numNodes) (nonempty : closure.nodeIds ≠ [])
    (enters : ∀ n ∈ closure.nodeIds, Enters closure.callback (before n) (after n))
    (frame : ∀ n ∉ closure.nodeIds, after n = before n) :
    ∃ asyncCall, runEndpoint reg ownerEnv (reissue reg closure) before = .ok (after, asyncCall) ∧
      registered asyncCall = [closure] := by
  obtain ⟨callback, nodeIds⟩ := closure
  have resolved := map_getNodeId_getNodeIdToBls known
  have nonzero : ∀ n ∈ nodeIds, n ≠ 0 := fun n member => Nat.one_le_iff_ne_zero.mp (known n member).1
  have loop : ∀ {next : Nat → NodeState → Except String NodeState}, OneShot next →
      (∀ n ∈ nodeIds, next n (before n) = .ok (after n)) →
      setNodeStates next ((nodeIds.map reg.getNodeIdToBls).map reg.getNodeId) before =
        .ok after :=
    fun oneShot moves => resolved ▸ (setNodeStates_eq_ok_iff oneShot).mpr ⟨nodup, moves, frame⟩
  cases callback with
  | auctionStakeCallback =>
      have ran := (@stakeNodes_eq_ok reg ownerEnv 0 _ before after _).mpr ⟨rfl, rfl, rfl, Nat.zero_le _, rfl,
        loop stakeTransition_oneShot fun n member =>
          stakeTransition_eq_ok.mpr ⟨nonzero n member, enters n member⟩, rfl⟩
      exact ⟨_, by simp only [reissue, runEndpoint, ran, Except.map]; exact rfl,
        by simp only [registered, performStakeNodes, resolved]⟩
  | auctionUnstakeCallback =>
      have ran := (@unstakeNodes_eq_ok reg ownerEnv false _ before after _).mpr ⟨rfl, rfl, fun key keyMember => by
          obtain ⟨n, member, rfl⟩ := List.mem_map.mp keyMember
          rw [reg.getNodeId_getNodeIdToBls n (known n member).1 (known n member).2]
          exact nonzero n member,
        loop unstakeTransition_oneShot fun n member => unstakeTransition_eq_ok.mpr (enters n member),
        rfl⟩
      exact ⟨_, by simp only [reissue, runEndpoint, ran, Except.map]; exact rfl,
        by simp only [registered, resolved, ite_false]⟩
  | auctionUnbondCallback =>
      have ran := (@unbondSpecificNodes_eq_ok reg ownerEnv _ before after _).mpr ⟨rfl, rfl, by simpa using nonempty,
        loop unbondTransition_oneShot fun n member =>
          unbondTransition_eq_ok.mpr ⟨nonzero n member, enters n member⟩, rfl⟩
      exact ⟨_, by simp only [reissue, runEndpoint, ran, Except.map]; exact rfl,
        by simp only [registered, performUnbond, resolved]⟩

end Latest

/-! ### Version 0.4 read by the latest module -/

namespace V04

/-- How the latest module reads a node of version 0.4: a node parked in ActivationFailed is
Inactive, and the unbond-period states carry the node's unstake block, which version 0.4
keeps in a map of its own. -/
def NodeState.toLatest (unstakeBlock : UInt64) : NodeState → Latest.NodeState
  | .inactive | .activationFailed => .inactive
  | .pendingActivation => .pendingActivation
  | .active => .active
  | .pendingDeactivation => .pendingDeactivation
  | .unBondPeriod => .unBondPeriod unstakeBlock
  | .pendingUnBond => .pendingUnBond unstakeBlock

/-- The node states of a storage, read by the latest module. -/
def Storage.toLatest (storage : Storage) (nodeId : Nat) : Latest.NodeState :=
  (storage.nodeState nodeId).toLatest (storage.blNonceOfUnstake nodeId)

/-- The latest module's callback for the same flow; it has no claim. -/
def Callback.toLatest : Callback → Option Latest.Callback
  | .auctionStakeCallback => some .auctionStakeCallback
  | .auctionUnstakeCallback => some .auctionUnstakeCallback
  | .auctionUnbondCallback => some .auctionUnbondCallback
  | .auctionClaimCallback => none

/-- The request the latest module reads: none for a claim or for a request over no node. -/
def CallbackClosure.toLatest (closure : CallbackClosure) : Option Latest.CallbackClosure :=
  if closure.nodeIds = [] then none
  else closure.callback.toLatest.map fun callback => ⟨callback, closure.nodeIds⟩

/-- A contract state of version 0.4, read as one of the latest module. -/
def State.toLatest (s : State) : Latest.State :=
  { nodeState := s.storage.toLatest
    blockNonce := s.blockNonce
    inFlight := s.inFlight.filterMap CallbackClosure.toLatest }

/-! ### Flows in both versions -/

namespace Callback

variable {callback : Callback} {latest : Latest.Callback}

/-- Issuing a request of a flow both versions have is, read by the latest module, that
flow's entry move. -/
theorem enters_toLatest (image : callback.toLatest = some latest) (unstakeBlock : UInt64) :
    Latest.Enters latest (callback.origin.toLatest unstakeBlock)
      (callback.awaited.toLatest unstakeBlock) := by
  cases callback <;> simp only [toLatest, Option.some.injEq, reduceCtorEq] at image <;>
    subst image
  exacts [⟨rfl, rfl⟩, ⟨rfl, rfl⟩, ⟨unstakeBlock, rfl, rfl⟩]

theorem awaits_toLatest (image : callback.toLatest = some latest) (unstakeBlock : UInt64) :
    Latest.Awaits latest (callback.awaited.toLatest unstakeBlock) :=
  (enters_toLatest image unstakeBlock).awaits

theorem toLatest_injective {other : Callback} (image : callback.toLatest = some latest)
    (same : other.toLatest = some latest) : other = callback := by
  cases callback <;> cases other <;>
    simp only [toLatest, Option.some.injEq, reduceCtorEq] at image same <;>
    (subst image; first | rfl | cases same)

theorem fails_of_toLatest (image : callback.toLatest = some latest) (result : CallResult)
    (n : Nat) : callback.fails result n = result.failed n := by
  cases callback <;> first | rfl | cases image

/-- Settling a node, read by the latest module, is the latest module settling the node as
it reads it; the unstake block is the one the callback leaves. -/
theorem settled_toLatest (image : callback.toLatest = some latest) (blockNonce : UInt64)
    (failed : Bool) (unstakeBlock : UInt64) :
    (callback.settled failed).toLatest
        (if failed = false then callback.confirmedUnstakeBlock blockNonce unstakeBlock
          else unstakeBlock) =
      Latest.settle blockNonce latest failed (callback.awaited.toLatest unstakeBlock) := by
  cases callback <;> simp only [toLatest, Option.some.injEq, reduceCtorEq] at image <;>
    subst image <;> cases failed <;> rfl

/-- The flow the latest module lacks, the claim, moves nothing the latest module sees: it
takes ActivationFailed nodes, waits on them there, and leaves them there or Inactive. -/
theorem origin_toLatest_of_none (dropped : callback.toLatest = none) (unstakeBlock : UInt64) :
    callback.awaited.toLatest unstakeBlock = callback.origin.toLatest unstakeBlock := by
  cases callback <;> first | rfl | cases dropped

theorem settled_toLatest_of_none (dropped : callback.toLatest = none) (failed : Bool)
    (unstakeBlock unstakeBlock' : UInt64) :
    (callback.settled failed).toLatest unstakeBlock' =
      callback.awaited.toLatest unstakeBlock := by
  cases callback <;> first | (cases failed <;> rfl) | cases dropped

end Callback

namespace CallbackClosure

theorem toLatest_eq_none {closure : CallbackClosure} (dropped : closure.toLatest = none) {n : Nat}
    (member : n ∈ closure.nodeIds) : closure.callback.toLatest = none := by
  have nonempty : closure.nodeIds ≠ [] := List.ne_nil_of_mem member
  simpa [toLatest, nonempty] using dropped

theorem toLatest_eq_some {closure : CallbackClosure} {latest : Latest.CallbackClosure}
    (image : closure.toLatest = some latest) :
    closure.nodeIds ≠ [] ∧ closure.callback.toLatest = some latest.callback ∧
      latest.nodeIds = closure.nodeIds := by
  unfold toLatest at image
  split_ifs at image with empty
  obtain ⟨callback, mapped, rfl⟩ := Option.map_eq_some'.mp image
  exact ⟨empty, mapped, rfl⟩

/-- Two requests the latest module reads alike are the same request. -/
theorem toLatest_injective {closure other : CallbackClosure} {latest : Latest.CallbackClosure}
    (image : closure.toLatest = some latest) (same : other.toLatest = some latest) :
    other = closure := by
  obtain ⟨-, callbackImage, nodeIds⟩ := toLatest_eq_some image
  obtain ⟨-, callbackSame, nodeIdsSame⟩ := toLatest_eq_some same
  obtain ⟨callback, ids⟩ := closure
  obtain ⟨callback', ids'⟩ := other
  cases Callback.toLatest_injective callbackImage callbackSame
  cases nodeIdsSame.symm.trans nodeIds
  rfl

end CallbackClosure

/-! ### One step, read by the latest module -/

section Refinement

variable {config : Config} {s : State}

theorem Issues.toLatest_frame {before after : Storage} {closure : CallbackClosure}
    (issues : Issues config before after closure) {n : Nat} (notMember : n ∉ closure.nodeIds) :
    after.toLatest n = before.toLatest n := by
  simp only [Storage.toLatest, issues.nodeState, issues.blNonceOfUnstake, setNodeStatesTo_apply,
    if_neg notMember]

theorem Issues.toLatest_member {before after : Storage} {closure : CallbackClosure}
    (issues : Issues config before after closure) {n : Nat} (member : n ∈ closure.nodeIds) :
    before.toLatest n = closure.callback.origin.toLatest (before.blNonceOfUnstake n) ∧
      after.toLatest n = closure.callback.awaited.toLatest (before.blNonceOfUnstake n) := by
  simp only [Storage.toLatest, issues.nodeState, issues.blNonceOfUnstake, setNodeStatesTo_apply,
    if_pos member, issues.origin n member, and_self]

/-- A call of version 0.4 is, read by the latest module, no change or the owner's
`reissue` of the request it issues. -/
theorem RequestsWellFormed.toLatest_call (wf : RequestsWellFormed config s) {env : Env}
    {call : Call} (allowed : Disciplined config s (.call env call)) :
    (V04.step config s (.call env call)).toLatest = s.toLatest ∨
      ∃ label, (V04.step config s (.call env call)).toLatest =
        Latest.step config.reg s.toLatest label := by
  simp only [V04.step]
  split
  · rename_i after asyncCall ran
    have registeredKeys : ∀ blsKeys, call = .stakeNodes blsKeys →
        ∀ blsKey ∈ blsKeys, config.reg.getNodeId blsKey ≠ 0 := by
      rintro blsKeys rfl; exact allowed
    obtain ⟨rfl, rfl⟩ | ⟨issued, rfl, issues⟩ :=
      runEndpoint_issues ran registeredKeys (wf.unregistered 0 (.inl rfl))
    · exact .inl rfl
    · cases image : issued.callback.toLatest with
      | none =>
          refine .inl (Latest.State.ext (funext fun n => ?_) rfl ?_)
          · by_cases member : n ∈ issued.callback.nodeIds
            · obtain ⟨wasOrigin, nowAwaited⟩ := issues.toLatest_member member
              show after.toLatest n = s.storage.toLatest n
              rw [nowAwaited, wasOrigin, Callback.origin_toLatest_of_none
                (CallbackClosure.toLatest_eq_none image member)]
            · exact issues.toLatest_frame member
          · exact List.filterMap_cons_none image
      | some latest =>
          obtain ⟨nonempty, callbackImage, nodeIds⟩ := CallbackClosure.toLatest_eq_some image
          obtain ⟨asyncCall, reissued, registers⟩ :=
            @Latest.runEndpoint_reissue config.reg latest s.storage.toLatest after.toLatest
              (nodeIds ▸ issues.nodup) (nodeIds ▸ issues.known) (nodeIds ▸ nonempty)
              (fun n member => by
                obtain ⟨wasOrigin, nowAwaited⟩ := issues.toLatest_member (nodeIds ▸ member)
                rw [wasOrigin, nowAwaited]
                exact Callback.enters_toLatest callbackImage _)
              (fun n notMember => issues.toLatest_frame (nodeIds ▸ notMember))
          refine .inr ⟨.call Latest.ownerEnv (Latest.reissue config.reg latest), ?_⟩
          simp only [Latest.step, State.toLatest, reissued, registers]
          exact Latest.State.ext rfl rfl (List.filterMap_cons_some image)
  · exact .inl rfl

/-- The answer to a request of version 0.4 is, read by the latest module, no change or the
same answer to the request the latest module reads. -/
theorem RequestsWellFormed.toLatest_deliver (wf : RequestsWellFormed config s)
    {closure : CallbackClosure} {result : CallResult} :
    (V04.step config s (.deliver closure result)).toLatest = s.toLatest ∨
      ∃ label, (V04.step config s (.deliver closure result)).toLatest =
        Latest.step config.reg s.toLatest label := by
  by_cases delivered : closure ∈ s.inFlight ∧ result.Splits closure.nodeIds
  swap
  · exact .inl (by simp only [V04.step, if_neg delivered])
  obtain ⟨outstanding, splits⟩ := delivered
  obtain ⟨after, ran, settled, -⟩ := wf.answer outstanding splits
  have stepped : V04.step config s (.deliver closure result) =
      { s with storage := after, inFlight := s.inFlight.erase closure } := by
    simp only [V04.step, if_pos (And.intro outstanding splits), ran]
  have unstakeBlock := runCallback_blNonceOfUnstake ran splits (wf.nodup _ outstanding)
  have frame : ∀ n ∉ closure.nodeIds, after.toLatest n = s.storage.toLatest n :=
    fun n notMember => by
      simp only [Storage.toLatest, settled, unstakeBlock, notMember, false_and, ↓reduceIte]
  rw [stepped]
  cases image : closure.toLatest with
  | none =>
      refine .inl (Latest.State.ext (funext fun n => ?_) rfl (filterMap_erase_of_none image _))
      by_cases member : n ∈ closure.nodeIds
      · simp only [State.toLatest, Storage.toLatest, settled, if_pos member,
          wf.awaiting _ outstanding n member]
        exact Callback.settled_toLatest_of_none (CallbackClosure.toLatest_eq_none image member) _ _ _
      · exact frame n member
  | some latest =>
      obtain ⟨-, callbackImage, nodeIds⟩ := CallbackClosure.toLatest_eq_some image
      have awaiting : ∀ n ∈ latest.nodeIds, Latest.Awaits latest.callback (s.storage.toLatest n) :=
        fun n member => by
          rw [Storage.toLatest, wf.awaiting _ outstanding n (nodeIds ▸ member)]
          exact Callback.awaits_toLatest callbackImage _
      refine .inr ⟨.deliver latest result, ?_⟩
      simp only [Latest.step, State.toLatest, if_pos (And.intro
          (List.mem_filterMap.mpr ⟨closure, outstanding, image⟩) (nodeIds ▸ splits)),
        Latest.runCallback_eq ((nodeIds ▸ wf.nodup _ outstanding)) awaiting (nodeIds ▸ splits)]
      refine Latest.State.ext (funext fun n => ?_) rfl
        (filterMap_erase image (fun other same => CallbackClosure.toLatest_injective image same) _)
      rw [nodeIds]
      dsimp only
      split_ifs with member
      · simp only [Storage.toLatest, settled, unstakeBlock, member, true_and, ↓reduceIte,
          wf.awaiting _ outstanding n member, Callback.fails_of_toLatest callbackImage]
        exact Callback.settled_toLatest callbackImage _ _ _
      · exact frame n member

/-- Each step of version 0.4 that `Disciplined` allows, from a state whose requests are well
formed, is read by the latest module as no change or as one of its own steps. -/
theorem RequestsWellFormed.toLatest_step (wf : RequestsWellFormed config s) {label : Label}
    (allowed : Disciplined config s label) :
    (V04.step config s label).toLatest = s.toLatest ∨
      ∃ latest, (V04.step config s label).toLatest = Latest.step config.reg s.toLatest latest := by
  cases label with
  | call env call => exact wf.toLatest_call allowed
  | deliver closure result => exact wf.toLatest_deliver
  | newBlock blockNonce => exact .inr ⟨.newBlock blockNonce, rfl⟩
  | deposit amount | withdraw amount => exact .inl rfl

/-- From a state whose requests are well formed, every run `Disciplined` allows is read by
the latest module as one of its runs. -/
theorem RequestsWellFormed.toLatest_reach {start : State} (wf : RequestsWellFormed config start)
    (reached : Reach start (V04.step config) (Disciplined config) s) :
    Reach start.toLatest (Latest.step config.reg) (fun _ _ => True) s.toLatest := by
  induction reached with
  | init => exact .init
  | step label reached allowed inductionHypothesis =>
      rcases (wf.reach reached).toLatest_step allowed with same | ⟨latest, stepped⟩
      · rw [same]; exact inductionHypothesis
      · rw [stepped]; exact .step latest inductionHypothesis trivial

end Refinement

/-- Every state version 0.4 reaches without the calls `Disciplined` leaves out is, read by
the latest module, a state the latest module reaches from the same block. -/
theorem disciplined_runs_refine_latest {config : Config} {start : UInt64} {s : State}
    (reached : ReachableWhen config start (Disciplined config) s) :
    Latest.Reachable config.reg start s.toLatest :=
  (RequestsWellFormed.initial start).toLatest_reach reached

/-- Node `1` staked with its stake paid, refused, and its stake claimed: the latest module
reads the parked node as Inactive and drops the claim. -/
theorem claimOnceRun_refines_latest :
    Latest.Reachable sampleConfig.reg 0 (sampleRun claimOnceRun).toLatest := by
  refine disciplined_runs_refine_latest ?_
  simp only [sampleRun, claimOnceRun, run, List.foldl]
  exact Reach.step _ (Reach.step _ (Reach.step _ (Reach.step _ Reach.init trivial)
    (by simp only [Disciplined]; decide)) trivial) (by simp only [Disciplined]; decide)

end V04

end Delegation
