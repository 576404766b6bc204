/-
Module: Delegation.V04.Recovery
Layer: Proofs
Purpose: No stake of version 0.4 is ever locked. From every state that a run on a chain with
  every stake paid for reaches, while the block plus the unbond delay leaves room for one more
  block in `u64`, some continuation returns every node to Inactive with nothing left in
  flight; the pool's whole stake is then free stake and the dated buckets of the unbond flow
  hold nothing (`funded_pool_recoverable`). The continuation takes only recovery steps
  (`Recovering`): calls `Funded` allows, answers, and new blocks that never move the block
  back. It is built in phases, each a `CanReach` lemma: confirm every outstanding request
  (`Sound.drain`); then, node by node and in the same block, claim a failed stake
  (`Sound.claim_parks`) and unstake an active node (`Sound.unstake_parks`), which leaves every
  node Inactive or in its unbond period (`Sound.park_upTo`); then one block later than the
  current one by more than the delay, where every unstake block and every bucket of the unbond
  period is past the delay, and one `unBondAllAvailable`, confirmed (`Sound.unbond_parked`).
  The model has no fairness, so this is the possibility form of liveness: recovery can always
  happen, not that it does.
Trusted boundary: none
Main exports: Recovering, Sound.recover, Sound.confirm, Sound.call_confirmed, Sound.drain,
  NodeState.Parked, Parked, Sound.park, Sound.park_upTo, Sound.unbond_parked,
  funded_pool_recoverable
-/
import Delegation.V04.NodeLifecycle
import Delegation.V04.Conservation

namespace Delegation.V04

/-! ### Recovery steps -/

/-- The steps a recovery takes: calls `Funded` allows, answers to outstanding requests, and
new blocks that never move the block back; no deposit or withdrawal of free stake. -/
def Recovering (config : Config) (s : State) : Label → Prop
  | .call env call => Funded config s (.call env call)
  | .deliver _ _ => True
  | .newBlock blockNonce => s.blockNonce ≤ blockNonce
  | .deposit _ | .withdraw _ => False

theorem Recovering.forward {config : Config} {s : State} :
    ∀ {label}, Recovering config s label → Forward (Funded config) s label
  | .call _ _, allowed | .newBlock _, allowed => allowed
  | .deliver _ _, _ => trivial
  | .deposit _, allowed | .withdraw _, allowed => allowed.elim

theorem Recovering.internal {config : Config} {s : State} :
    ∀ {label : Label}, Recovering config s label → label.movesFreeStake = false
  | .call _ _, _ | .deliver _ _, _ | .newBlock _, _ => rfl
  | .deposit _, allowed | .withdraw _, allowed => allowed.elim

/-! ### Answers and calls in one block -/

namespace Sound

variable {config : Config} {s : State}

theorem recover (sound : Sound config s) {t : State}
    (reached : Reach s (V04.step config) (Recovering config) t) : Sound config t :=
  sound.reach (reached.mono fun _ _ allowed => allowed.forward)

/-- Confirming an outstanding request whole: the request is spent, and each of its nodes takes
the confirm transition of its flow. -/
theorem confirm (sound : Sound config s) {closure : CallbackClosure}
    (outstanding : closure ∈ s.inFlight) :
    (V04.step config s (.deliver closure (.ok closure.nodeIds []))).inFlight =
        s.inFlight.erase closure ∧
      ∀ n, (V04.step config s (.deliver closure (.ok closure.nodeIds []))).storage.nodeState n =
        if n ∈ closure.nodeIds then closure.callback.settled false else s.storage.nodeState n := by
  have splits := CallResult.splits_confirm closure.nodeIds
  obtain ⟨after, ran, settled, -⟩ := sound.wf.answer outstanding splits
  simp only [V04.step, if_pos (And.intro outstanding splits), ran, settled,
    Callback.fails_confirm, implies_true, and_self]

/-- From a state with nothing in flight, a call that issues a request, then the auction's
confirmation of it: nothing is left in flight, and the request's nodes have taken the confirm
transition of its flow. -/
theorem call_confirmed (sound : Sound config s) (quiet : s.inFlight = []) {env : Env}
    {call : Call} {after : Storage} {issued : AsyncCall}
    (ran : runEndpoint config env s.blockNonce call s.storage = .ok (after, some issued))
    (allowed : Funded config s (.call env call)) :
    CanReach (V04.step config) (Recovering config) s fun t => t.inFlight = [] ∧
      t.blockNonce = s.blockNonce ∧ ∀ n, t.storage.nodeState n =
        if n ∈ issued.callback.nodeIds then issued.callback.callback.settled false
        else s.storage.nodeState n := by
  obtain ⟨⟨⟩, -⟩ | ⟨_, ⟨⟩, issues⟩ := runEndpoint_issues ran
    (by rintro blsKeys rfl; exact allowed.1) (sound.wf.unregistered 0 (.inl rfl))
  have called : V04.step config s (.call env call) =
      { s with storage := after, inFlight := [issued.callback] } := by
    simp only [V04.step, ran, registered, quiet, List.append_nil]
  have issuedSound : Sound config (V04.step config s (.call env call)) := sound.step allowed
  refine .step (.call env call) allowed ?_
  rw [called] at issuedSound ⊢
  obtain ⟨spent, settled⟩ := issuedSound.confirm (List.mem_singleton_self issued.callback)
  refine .step (.deliver issued.callback (.ok issued.callback.nodeIds [])) trivial
    (.refl ⟨?_, step_blockNonce fun _ => nofun, ?_⟩)
  · rw [spent, List.erase_cons_head]
  · intro n
    rw [settled n]
    split_ifs with member
    · rfl
    · show after.nodeState n = _
      rw [issues.nodeState, setNodeStatesTo_apply, if_neg member]

/-- Confirming every outstanding request, one after another, leaves nothing in flight and keeps
the block. -/
theorem drain (sound : Sound config s) :
    CanReach (V04.step config) (Recovering config) s fun t => t.inFlight = [] ∧
      t.blockNonce = s.blockNonce := by
  generalize pending : s.inFlight = requests at sound
  induction requests generalizing s with
  | nil => exact .refl ⟨pending, rfl⟩
  | cons closure rest inductionHypothesis =>
      have outstanding : closure ∈ s.inFlight := pending ▸ List.mem_cons_self _ _
      have answered : Recovering config s (.deliver closure (.ok closure.nodeIds [])) := trivial
      refine .step _ answered ((inductionHypothesis (sound.step answered.forward) ?_).mono
        fun t ⟨quiet, same⟩ => ⟨quiet, same.trans (step_blockNonce fun _ => nofun)⟩)
      rw [(sound.confirm outstanding).1, pending, List.erase_cons_head]

end Sound

/-! ### Each node Inactive or in its unbond period -/

/-- A node the last phase of a recovery can finish: Inactive, or in its unbond period. -/
def NodeState.Parked (state : NodeState) : Prop :=
  state = .inactive ∨ state = .unBondPeriod

/-- What parking node `n` from `s` leaves: nothing in flight, the block of `s`, node `n`
parked, and every node parked in `s` as it was. -/
def Parked (s : State) (n : Nat) (t : State) : Prop :=
  t.inFlight = [] ∧ t.blockNonce = s.blockNonce ∧ (t.storage.nodeState n).Parked ∧
    ∀ m, (s.storage.nodeState m).Parked → t.storage.nodeState m = s.storage.nodeState m

/-- A flow confirmed into a parked state, over nodes none of which was parked, parks each node
of its request. -/
theorem Parked.of_settled {s t : State} {nodeIds : List Nat} {n : Nat} {state : NodeState}
    (member : n ∈ nodeIds) (parked : state.Parked)
    (moving : ∀ m ∈ nodeIds, ¬(s.storage.nodeState m).Parked)
    (settled : t.inFlight = [] ∧ t.blockNonce = s.blockNonce ∧ ∀ m, t.storage.nodeState m =
      if m ∈ nodeIds then state else s.storage.nodeState m) : Parked s n t :=
  ⟨settled.1, settled.2.1, by rw [settled.2.2, if_pos member]; exact parked,
    fun m stays => by rw [settled.2.2, if_neg fun member => moving m member stays]⟩

namespace Sound

variable {config : Config} {s : State}

/-- A node whose activation failed, from a state with nothing in flight: the owner claims the
failed stake and the auction confirms the claim. -/
theorem claim_parks (sound : Sound config s) (quiet : s.inFlight = []) {n : Nat}
    (failed : s.storage.nodeState n = .activationFailed) :
    CanReach (V04.step config) (Recovering config) s (Parked s n) := by
  have member : n ∈ failedIds config.reg.numNodes s.storage.nodeState :=
    mem_failedIds.mpr ⟨sound.wf.registered (by rw [failed]; nofun), failed⟩
  have ran : runEndpoint config ownerEnv s.blockNonce .claimFailedStake s.storage =
      .ok (s.storage, some ⟨.claim, ⟨.auctionClaimCallback,
        failedIds config.reg.numNodes s.storage.nodeState⟩⟩) :=
    map_eq_ok.mpr ⟨_, claimFailedStake_eq_ok.mpr ⟨rfl, (if_neg (List.ne_nil_of_mem member)).symm⟩,
      rfl⟩
  exact (sound.call_confirmed quiet ran fun closure outstanding =>
    (List.not_mem_nil closure (quiet ▸ outstanding)).elim).mono fun _ =>
      Parked.of_settled member (.inl rfl) fun m claimed => by
        rw [NodeState.Parked, (mem_failedIds.mp claimed).2]; decide

/-- An active node, from a state with nothing in flight: the owner unstakes it and the auction
confirms, which starts its unbond period. -/
theorem unstake_parks (sound : Sound config s) (quiet : s.inFlight = []) {n : Nat}
    (active : s.storage.nodeState n = .active) :
    CanReach (V04.step config) (Recovering config) s (Parked s n) := by
  have named : [config.reg.getNodeIdToBls n].map config.reg.getNodeId = [n] := by
    obtain ⟨low, high⟩ := sound.wf.registered (by rw [active]; nofun)
    rw [List.map_singleton, config.reg.getNodeId_getNodeIdToBls n low high]
  obtain ⟨nodeState, loop⟩ := setNodeStates_ok_of_forall (List.nodup_singleton n)
    fun m member => ⟨_, unstakeTransition_eq_ok.mpr
      ⟨(List.eq_of_mem_singleton member).symm ▸ active, rfl⟩⟩
  have ran : runEndpoint config ownerEnv s.blockNonce
      (.unStakeNodes [config.reg.getNodeIdToBls n]) s.storage =
      .ok (_, some ⟨.unStake [config.reg.getNodeIdToBls n], ⟨.auctionUnstakeCallback, [n]⟩⟩) :=
    map_eq_ok.mpr ⟨_, unstakeNodes_eq_ok.mpr ⟨rfl, nodeState, by rw [named]; exact loop, rfl,
      by rw [named]⟩, rfl⟩
  exact (sound.call_confirmed quiet ran trivial).mono fun _ =>
    Parked.of_settled (List.mem_singleton_self n) (.inr rfl) fun m named => by
      rw [NodeState.Parked, List.eq_of_mem_singleton named, active]; decide

/-- From a state with nothing in flight, any node can be parked in the same block, without
moving a node that is parked. -/
theorem park (sound : Sound config s) (quiet : s.inFlight = []) (n : Nat) :
    CanReach (V04.step config) (Recovering config) s (Parked s n) := by
  cases state : s.storage.nodeState n with
  | inactive => exact .refl ⟨quiet, rfl, .inl state, fun _ _ => rfl⟩
  | unBondPeriod => exact .refl ⟨quiet, rfl, .inr state, fun _ _ => rfl⟩
  | activationFailed => exact sound.claim_parks quiet state
  | active => exact sound.unstake_parks quiet state
  | pendingActivation | pendingDeactivation | pendingUnBond =>
      obtain ⟨closure, outstanding, -⟩ := sound.wf.owned n (by rw [state]; rfl)
      exact (List.not_mem_nil closure (quiet ▸ outstanding)).elim

/-- From a state with nothing in flight, the nodes `0..top` can all be parked in the same
block. -/
theorem park_upTo (sound : Sound config s) (quiet : s.inFlight = []) (top : Nat) :
    CanReach (V04.step config) (Recovering config) s fun t => t.inFlight = [] ∧
      t.blockNonce = s.blockNonce ∧ ∀ n ≤ top, (t.storage.nodeState n).Parked := by
  induction top with
  | zero => exact .refl ⟨quiet, rfl, fun n zero => by
      rw [Nat.le_zero.mp zero]; exact .inl (sound.wf.unregistered 0 (.inl rfl))⟩
  | succ top inductionHypothesis =>
      refine inductionHypothesis.trans fun t reached ⟨quiet', same, below⟩ =>
        ((sound.recover reached).park quiet' (top + 1)).mono
          fun u ⟨finished, same', parked, kept⟩ => ⟨finished, same'.trans same, fun n atMost => ?_⟩
      rcases Nat.lt_or_eq_of_le atMost with lower | rfl
      · have earlier := below n (Nat.lt_succ_iff.mp lower)
        rw [kept n earlier]
        exact earlier
      · exact parked

/-- From a state with nothing in flight and every node parked, while the block plus the delay
leaves room for one more block: a block later than the current one by more than the delay
comes, anyone unbonds every due node, and the auction confirms. Every node in its unbond
period is then due and all the stake of the unbond period old enough, so every node ends
Inactive. -/
theorem unbond_parked (sound : Sound config s) (quiet : s.inFlight = [])
    (parked : ∀ n, (s.storage.nodeState n).Parked)
    (fits : s.blockNonce.toNat + config.nBlocksBeforeUnbond.toNat + 1 < UInt64.size) :
    CanReach (V04.step config) (Recovering config) s fun t =>
      t.inFlight = [] ∧ ∀ n, t.storage.nodeState n = .inactive := by
  obtain ⟨later, laterNat⟩ : ∃ later : UInt64,
      later.toNat = s.blockNonce.toNat + config.nBlocksBeforeUnbond.toNat + 1 :=
    ⟨_, toNat_add_add_one fits⟩
  have moved : Recovering config s (.newBlock later) :=
    show s.blockNonce.toNat ≤ later.toNat by omega
  have waited : s.blockNonce.toNat + config.nBlocksBeforeUnbond.toNat < later.toNat := by omega
  have due : ∀ n, s.storage.nodeState n = .unBondPeriod → n ∈ unbondedIds config later s.storage :=
    fun n inPeriod => (mem_dueIds _ _ _).mpr ⟨sound.wf.registered (by rw [inPeriod]; nofun),
      inPeriod, Nat.le_of_lt (unbondDelay_passed (sound.dated.blNonceOfUnstake n) waited)⟩
  have idle : ∀ n, n ∉ unbondedIds config later s.storage → s.storage.nodeState n = .inactive :=
    fun n outside => (parked n).resolve_right fun inPeriod => outside (due n inPeriod)
  by_cases none : unbondedIds config later s.storage = []
  · exact .refl ⟨quiet, fun n => idle n (none ▸ List.not_mem_nil n)⟩
  obtain ⟨after, blsKeys, ran⟩ := unbondAllAvailable_eq_some none (sound.unbond_found waited
    (dueIds_nodup _ _ _ _ _) fun n member => ((mem_dueIds _ _ _).mp member).2.1)
  exact .step (.newBlock later) moved (((sound.step moved.forward).call_confirmed quiet
    (show runEndpoint config ownerEnv later .unBondAllAvailable s.storage = _ from ran)
    trivial).mono fun t ⟨quiet', _, settled⟩ => ⟨quiet', fun n => by
      rw [settled]
      split_ifs with unbonded
      · rfl
      · exact idle n unbonded⟩)

end Sound

/-! ### Every stake comes back -/

/-- No stake is ever locked. From every state a run on a chain with every stake paid for
reaches, while the block plus the unbond delay leaves room for one more block, some
continuation of recovery steps returns every node to Inactive with nothing left in flight; the
pool then holds no stake in any phase but the free one, the dated buckets of the unbond flow
hold nothing, and its free stake is all the stake it held. -/
theorem funded_pool_recoverable {config : Config} {start : UInt64} {s : State}
    (reached : ReachableWhen config start (Forward (Funded config)) s)
    (fits : s.blockNonce.toNat + config.nBlocksBeforeUnbond.toNat + 1 < UInt64.size) :
    ∃ t, Reach s (V04.step config) (Recovering config) t ∧ t.inFlight = [] ∧
      (∀ n, t.storage.nodeState n = .inactive) ∧
      (∀ phase, phase ≠ .inactive → t.storage.userStake phase = 0) ∧
      datedSum t.storage.unBondPeriodStake = 0 ∧ datedSum t.storage.pendingUnBondStake = 0 ∧
      t.storage.userStake .inactive = totalStake s.storage.userStake := by
  have sound := (Sound.initial config start).reach reached
  obtain ⟨t, recovered, quiet, idle⟩ := sound.drain.trans fun t drained ⟨quiet, same⟩ =>
    ((sound.recover drained).park_upTo quiet config.reg.numNodes).trans
      fun u parking ⟨quiet', same', below⟩ =>
        have parkedSound := (sound.recover drained).recover parking
        parkedSound.unbond_parked quiet'
          (fun n => if low : n ≤ config.reg.numNodes then below n low
            else .inl (parkedSound.wf.unregistered n (.inr (by omega))))
          (by rw [same', same]; exact fits)
  have recoveredSound := sound.recover recovered
  -- with every node Inactive, the lockstep leaves no stake outside the free phase
  have backed : ∀ state : NodeState, state ≠ .inactive → t.storage.userStake state.phase = 0 :=
    fun state busy => by
      rw [recoveredSound.lockstep state busy, nodeCount, List.countP_eq_zero.mpr fun n _ => by
        simp [idle n, Ne.symm busy], Nat.mul_zero]
  have empty : ∀ phase, phase ≠ .inactive → t.storage.userStake phase = 0 := by
    intro phase busy
    cases phase
    exacts [absurd rfl busy, backed .pendingActivation nofun, backed .activationFailed nofun,
      backed .active nofun, backed .pendingDeactivation nofun, backed .unBondPeriod nofun,
      backed .pendingUnBond nofun]
  refine ⟨t, recovered, quiet, idle, empty,
    by rw [recoveredSound.wf.datedAgrees.unBondPeriod]; exact empty _ nofun,
    by rw [recoveredSound.wf.datedAgrees.pendingUnBond]; exact empty _ nofun, ?_⟩
  calc t.storage.userStake .inactive = totalStake t.storage.userStake := by
        simp [totalStake, empty]
    _ = totalStake s.storage.userStake :=
        totalStake_conserved (recovered.mono fun _ _ allowed => allowed.internal)

/-- Two units of stake paid in, nodes `1` and `2` staked, node `2` rejected into
ActivationFailed, and node `1` unstaked, its answer still to come. -/
def recoveryRun : List Label :=
  [.deposit 2, .call ownerEnv (.stakeNodes [⟨[1]⟩, ⟨[2]⟩]),
    .deliver ⟨.auctionStakeCallback, [1, 2]⟩ (.ok [1] [2]),
    .call ownerEnv (.unStakeNodes [⟨[1]⟩])]

/-- From the end of `recoveryRun` both nodes can be brought back to Inactive, with both units
of stake free. -/
theorem pool_recoverable_sample :
    ∃ t, Reach (sampleRun recoveryRun) (V04.step sampleConfig) (Recovering sampleConfig) t ∧
      t.inFlight = [] ∧ (∀ n, t.storage.nodeState n = .inactive) ∧
      t.storage.userStake .inactive = 2 := by
  obtain ⟨t, recovered, quiet, idle, -, -, -, free⟩ := @funded_pool_recoverable sampleConfig 0 _
    (reach_run_allowed recoveryRun .init (by
      simp only [recoveryRun, AllowedAlong, Forward, Funded, Disciplined, true_and, and_true]
      decide)) (by decide)
  exact ⟨t, recovered, quiet, idle, free.trans (by decide)⟩

end Delegation.V04
