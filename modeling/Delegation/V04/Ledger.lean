/-
Module: Delegation.V04.Ledger
Layer: Proofs
Purpose: The ledger side of version 0.4. A node in a state other than Inactive is backed by
  stake in the user-stake phase of the same name (`NodeState.phase`); the ledger is in
  lockstep with the nodes on a set of states when the pool's stake in each such phase is the
  stake per node times the number of registered nodes in that state. Every flow of the
  module moves a batch of distinct registered nodes from one state to another together with
  the stake of as many nodes (`BatchMove`); such a move keeps the lockstep whenever the
  stake it has to move is there. The walk over dated buckets moves stake without making or
  losing any and keeps its dates; the dated buckets agree with the totals of their phases
  (`Storage.DatedAgrees`), the blocks the storage records satisfy a predicate
  (`Storage.DatedBy`), and every transformation keeps both.
Trusted boundary: none
Main exports: NodeState.phase, moveStake_fst_apply, moveStake_snd, moveStake_snd_of_le,
  moveStake_zero, moveStake_moveStake, moveStake_moveStake_back, datedSum_append,
  takeDated_sums, takeDated_left, takeDated_found, takeDated_dates, takeDated_depositDated,
  Storage.DatedAgrees, Storage.DatedBy, nodeCount, nodeCount_setNodeStatesTo, LockstepOn,
  BatchMove, LockstepOn.batchMove, LockstepOn.update_free
-/
import Delegation.V04.NodeActivation

namespace Delegation.V04

/-- The user-stake phase of the stake backing a node in this state. -/
def NodeState.phase : NodeState → UserStakeState
  | .inactive => .inactive
  | .pendingActivation => .pendingActivation
  | .active => .active
  | .pendingDeactivation => .pendingDeactivation
  | .unBondPeriod => .unBondPeriod
  | .pendingUnBond => .pendingUnBond
  | .activationFailed => .activationFailed

theorem NodeState.phase_injective : Function.Injective NodeState.phase := by
  intro x y same; cases x <;> cases y <;> first | rfl | cases same

@[simp] theorem NodeState.phase_inj {x y : NodeState} : x.phase = y.phase ↔ x = y :=
  NodeState.phase_injective.eq_iff

/-! ### Moving stake between phases -/

section MoveStake

variable {source target : UserStakeState} {amount : Nat} {userStake : UserStakeState → Nat}

theorem moveStake_fst_apply (distinct : source ≠ target) (phase : UserStakeState) :
    (moveStake source target amount userStake).1 phase =
      if phase = target then userStake target + min amount (userStake source)
      else if phase = source then userStake source - min amount (userStake source)
      else userStake phase := by
  unfold moveStake
  by_cases atTarget : phase = target
  · subst atTarget; simp
  · by_cases atSource : phase = source
    · subst atSource; simp [distinct]
    · simp [atTarget, atSource]

/-- The rest a transformation leaves is what the source phase lacked. -/
theorem moveStake_snd : (moveStake source target amount userStake).2 = amount - userStake source := by
  simp only [moveStake]; omega

/-- A move finds all it has to move when the source holds it. -/
theorem moveStake_snd_of_le (enough : amount ≤ userStake source) :
    (moveStake source target amount userStake).2 = 0 := by
  rw [moveStake_snd]; omega

@[simp] theorem moveStake_zero : (moveStake source target 0 userStake).1 = userStake := by
  funext phase
  simp only [moveStake, Nat.zero_min, Nat.sub_zero, Nat.add_zero, Function.update_eq_self]

/-- Two moves of an amount the source holds, through a middle phase, are one move. -/
theorem moveStake_moveStake {middle : UserStakeState} (toMiddle : source ≠ middle)
    (fromMiddle : middle ≠ target) (distinct : source ≠ target)
    (enough : amount ≤ userStake source) :
    (moveStake middle target amount (moveStake source middle amount userStake).1).1 =
      (moveStake source target amount userStake).1 := by
  funext phase
  simp only [moveStake_fst_apply toMiddle, moveStake_fst_apply fromMiddle,
    moveStake_fst_apply distinct, if_neg (Ne.symm toMiddle), if_neg fromMiddle, if_pos rfl,
    if_neg distinct, if_neg (Ne.symm fromMiddle)]
  split_ifs <;> subst_vars <;> first | omega | contradiction

/-- A move of an amount the source holds, and the move back, restore the stake. -/
theorem moveStake_moveStake_back (distinct : source ≠ target)
    (enough : amount ≤ userStake source) :
    (moveStake target source amount (moveStake source target amount userStake).1).1 =
      userStake := by
  funext phase
  simp only [moveStake_fst_apply distinct, moveStake_fst_apply (Ne.symm distinct),
    if_neg (Ne.symm distinct), if_pos rfl]
  split_ifs <;> subst_vars <;> omega

end MoveStake

/-! ### Dated buckets -/

section Dated

variable {eligible : UInt64 → Bool}

@[simp] theorem datedSum_nil : datedSum [] = 0 := rfl

@[simp] theorem datedSum_cons (bucket : DatedStake) (rest : List DatedStake) :
    datedSum (bucket :: rest) = bucket.amount + datedSum rest := rfl

@[simp] theorem datedSum_append (front back : List DatedStake) :
    datedSum (front ++ back) = datedSum front + datedSum back := by
  induction front with
  | nil => simp
  | cons bucket rest inductionHypothesis => simp [inductionHypothesis, Nat.add_assoc]

@[simp] theorem datedSum_depositDated (created : UInt64) (amount : Nat)
    (buckets : List DatedStake) :
    datedSum (depositDated created amount buckets) = amount + datedSum buckets := by
  unfold depositDated; split <;> simp_all

@[simp] theorem takeDated_zero (buckets : List DatedStake) :
    takeDated eligible 0 buckets = ([], 0, buckets) := by
  cases buckets <;> simp [takeDated]

/-- The walk moves stake without making or losing any: its pieces and the amount it did not
find make up the amount asked, and its pieces and the buckets it leaves make up the buckets
it was given. -/
theorem takeDated_sums (amount : Nat) (buckets : List DatedStake) :
    datedSum (takeDated eligible amount buckets).1 + (takeDated eligible amount buckets).2.1 =
        amount ∧
      datedSum (takeDated eligible amount buckets).1 +
          datedSum (takeDated eligible amount buckets).2.2 = datedSum buckets := by
  induction buckets generalizing amount with
  | nil => simp [takeDated]
  | cons bucket rest inductionHypothesis =>
      have whole := inductionHypothesis (amount - bucket.amount)
      have skipped := inductionHypothesis amount
      simp only [takeDated]
      split_ifs <;> simp only [datedSum_cons, datedSum_nil] <;> omega

/-- The walk finds the amount asked up to the stake of the buckets it may take from. -/
theorem takeDated_left (amount : Nat) (buckets : List DatedStake) :
    (takeDated eligible amount buckets).2.1 =
      amount - min amount (datedSum (buckets.filter fun bucket => eligible bucket.created)) := by
  induction buckets generalizing amount with
  | nil => simp [takeDated]
  | cons bucket rest inductionHypothesis =>
      have whole := inductionHypothesis (amount - bucket.amount)
      have skipped := inductionHypothesis amount
      simp only [takeDated, List.filter_cons]
      split_ifs <;> simp only [datedSum_cons] at * <;> omega

/-- A walk that may take from every bucket it is given finds all it asks for while the
buckets hold it. -/
theorem takeDated_found {amount : Nat} {buckets : List DatedStake}
    (admitted : ∀ bucket ∈ buckets, eligible bucket.created = true)
    (enough : amount ≤ datedSum buckets) : (takeDated eligible amount buckets).2.1 = 0 := by
  rw [takeDated_left, List.filter_eq_self.mpr admitted]
  omega

theorem takeDated_found_all {amount : Nat} {buckets : List DatedStake}
    (enough : amount ≤ datedSum buckets) : (takeDated (fun _ => true) amount buckets).2.1 = 0 :=
  takeDated_found (fun _ _ => rfl) enough

/-- The walk keeps dates: every date it leaves, on a piece or on a bucket, is the date of a
bucket it was given. -/
theorem takeDated_dates (holds : UInt64 → Prop) {amount : Nat} {buckets : List DatedStake}
    (dated : ∀ bucket ∈ buckets, holds bucket.created) :
    (∀ piece ∈ (takeDated eligible amount buckets).1, holds piece.created) ∧
      ∀ bucket ∈ (takeDated eligible amount buckets).2.2, holds bucket.created := by
  induction buckets generalizing amount with
  | nil => simp [takeDated]
  | cons bucket rest inductionHypothesis =>
      have restDated := fun other member => dated other (List.mem_cons_of_mem _ member)
      have here := dated bucket (List.mem_cons_self _ _)
      have whole := @inductionHypothesis (amount - bucket.amount) restDated
      have skipped := @inductionHypothesis amount restDated
      simp only [takeDated]
      split_ifs <;> simp_all

@[simp] theorem depositDated_nil_append (created : UInt64) (amount : Nat)
    (buckets : List DatedStake) :
    depositDated created amount [] ++ buckets = depositDated created amount buckets := by
  unfold depositDated; split <;> rfl

/-- A deposit dates its bucket with the block it is given and keeps the dates of the
others. -/
theorem depositDated_dates (holds : UInt64 → Prop) {created : UInt64} {amount : Nat}
    {buckets : List DatedStake} (now : holds created)
    (dated : ∀ bucket ∈ buckets, holds bucket.created) :
    ∀ bucket ∈ depositDated created amount buckets, holds bucket.created := by
  unfold depositDated
  split
  · exact dated
  · exact List.forall_mem_cons.mpr ⟨now, dated⟩

/-- The walk meets first the bucket deposited last, and takes it whole when it is what is
asked and old enough. -/
theorem takeDated_depositDated {created : UInt64} (admitted : eligible created = true)
    (amount : Nat) (buckets : List DatedStake) :
    takeDated eligible amount (depositDated created amount buckets) =
      (depositDated created amount [], 0, buckets) := by
  unfold depositDated
  split
  · subst_vars; exact takeDated_zero buckets
  · simp [takeDated, *]

end Dated

/-- The dated buckets of the unbond flow hold the pool's stake in their phases. -/
structure Storage.DatedAgrees (storage : Storage) : Prop where
  unBondPeriod : datedSum storage.unBondPeriodStake = storage.userStake .unBondPeriod
  pendingUnBond : datedSum storage.pendingUnBondStake = storage.userStake .pendingUnBond

namespace Storage.DatedAgrees

/-- The agreement reads the dated buckets and the totals of their phases, nothing else. -/
theorem congr {before after : Storage} (agrees : before.DatedAgrees)
    (periodStake : after.unBondPeriodStake = before.unBondPeriodStake)
    (pendingStake : after.pendingUnBondStake = before.pendingUnBondStake)
    (period : after.userStake .unBondPeriod = before.userStake .unBondPeriod)
    (pending : after.userStake .pendingUnBond = before.userStake .pendingUnBond) :
    after.DatedAgrees :=
  ⟨by rw [periodStake, period]; exact agrees.unBondPeriod,
    by rw [pendingStake, pending]; exact agrees.pendingUnBond⟩

variable {storage : Storage} (agrees : storage.DatedAgrees)
include agrees

/-- A move between two phases outside the unbond flow keeps the dated buckets in step. -/
theorem moveStake {source target : UserStakeState} (distinct : source ≠ target)
    (outside : ∀ phase, phase = .unBondPeriod ∨ phase = .pendingUnBond →
      phase ≠ source ∧ phase ≠ target) (amount : Nat) :
    ({ storage with userStake := (V04.moveStake source target amount storage.userStake).1 } :
      Storage).DatedAgrees := by
  obtain ⟨period, periodTarget⟩ := outside .unBondPeriod (.inl rfl)
  obtain ⟨pending, pendingTarget⟩ := outside .pendingUnBond (.inr rfl)
  exact ⟨by simp only [moveStake_fst_apply distinct, if_neg periodTarget, if_neg period,
      agrees.unBondPeriod],
    by simp only [moveStake_fst_apply distinct, if_neg pendingTarget, if_neg pending,
      agrees.pendingUnBond]⟩

/-- Deposits and withdrawals of free stake keep the dated buckets in step. -/
theorem update_inactive (value : Nat) :
    ({ storage with userStake := Function.update storage.userStake .inactive value } :
      Storage).DatedAgrees :=
  agrees.congr rfl rfl
    (Function.update_noteq (show UserStakeState.unBondPeriod ≠ .inactive from nofun) value _)
    (Function.update_noteq (show UserStakeState.pendingUnBond ≠ .inactive from nofun) value _)

theorem unstakeFinishOkTransf (blockNonce : UInt64) (amount : Nat) :
    (unstakeFinishOkTransf blockNonce amount storage).1.DatedAgrees := by
  have period := agrees.unBondPeriod
  have pending := agrees.pendingUnBond
  constructor <;> simp only [V04.unstakeFinishOkTransf, datedSum_depositDated, moveStake_snd,
    moveStake_fst_apply (show UserStakeState.pendingDeactivation ≠ .unBondPeriod from nofun),
    if_pos, if_neg, reduceCtorEq, not_false_eq_true] <;> omega

theorem unbondStartTransf (nBlocksBeforeUnbond blockNonce : UInt64) (amount : Nat) :
    (unbondStartTransf nBlocksBeforeUnbond blockNonce amount storage).1.DatedAgrees := by
  have period := agrees.unBondPeriod
  have pending := agrees.pendingUnBond
  have sums := @takeDated_sums (fun created => decide (created + nBlocksBeforeUnbond < blockNonce))
    amount storage.unBondPeriodStake
  constructor <;> simp only [V04.unbondStartTransf, datedSum_append,
    moveStake_fst_apply (show UserStakeState.unBondPeriod ≠ .pendingUnBond from nofun),
    if_pos, if_neg, reduceCtorEq, not_false_eq_true] <;> omega

theorem unbondFinishOkTransf (amount : Nat) :
    (unbondFinishOkTransf amount storage).1.DatedAgrees := by
  have period := agrees.unBondPeriod
  have pending := agrees.pendingUnBond
  have sums := @takeDated_sums (fun _ => true) amount storage.pendingUnBondStake
  constructor <;> simp only [V04.unbondFinishOkTransf,
    moveStake_fst_apply (show UserStakeState.pendingUnBond ≠ .inactive from nofun),
    if_pos, if_neg, reduceCtorEq, not_false_eq_true] <;> omega

theorem unbondFinishFailTransf (amount : Nat) :
    (unbondFinishFailTransf amount storage).1.DatedAgrees := by
  have period := agrees.unBondPeriod
  have pending := agrees.pendingUnBond
  have sums := @takeDated_sums (fun _ => true) amount storage.pendingUnBondStake
  constructor <;> simp only [V04.unbondFinishFailTransf, datedSum_append,
    moveStake_fst_apply (show UserStakeState.pendingUnBond ≠ .unBondPeriod from nofun),
    if_pos, if_neg, reduceCtorEq, not_false_eq_true] <;> omega

end Storage.DatedAgrees

/-- Every block the storage records satisfies `holds`: the unstake block of every node and
the date of every bucket of the unbond flow. -/
structure Storage.DatedBy (holds : UInt64 → Prop) (storage : Storage) : Prop where
  blNonceOfUnstake : ∀ n, holds (storage.blNonceOfUnstake n)
  unBondPeriod : ∀ bucket ∈ storage.unBondPeriodStake, holds bucket.created
  pendingUnBond : ∀ bucket ∈ storage.pendingUnBondStake, holds bucket.created

namespace Storage.DatedBy

variable {holds : UInt64 → Prop}

theorem mono {weaker : UInt64 → Prop} {storage : Storage} (dated : storage.DatedBy holds)
    (implies : ∀ block, holds block → weaker block) : storage.DatedBy weaker :=
  ⟨fun n => implies _ (dated.blNonceOfUnstake n),
    fun bucket member => implies _ (dated.unBondPeriod bucket member),
    fun bucket member => implies _ (dated.pendingUnBond bucket member)⟩

/-- The dates read the unstake blocks and the dated buckets, nothing else. -/
theorem congr {before after : Storage} (dated : before.DatedBy holds)
    (blocks : after.blNonceOfUnstake = before.blNonceOfUnstake)
    (periodStake : after.unBondPeriodStake = before.unBondPeriodStake)
    (pendingStake : after.pendingUnBondStake = before.pendingUnBondStake) :
    after.DatedBy holds :=
  ⟨blocks ▸ dated.blNonceOfUnstake, periodStake ▸ dated.unBondPeriod,
    pendingStake ▸ dated.pendingUnBond⟩

/-- Setting the unstake blocks of some nodes to a block that satisfies `holds`. -/
theorem setNodeStatesTo {block : UInt64} (now : holds block) (nodeIds : List Nat)
    {blocks : Nat → UInt64} (dated : ∀ n, holds (blocks n)) (n : Nat) :
    holds (setNodeStatesTo block nodeIds blocks n) := by
  rw [setNodeStatesTo_apply]
  split
  · exact now
  · exact dated n

variable {storage : Storage} (dated : storage.DatedBy holds)
include dated

theorem unstakeFinishOkTransf {blockNonce : UInt64} (now : holds blockNonce) (amount : Nat) :
    (unstakeFinishOkTransf blockNonce amount storage).1.DatedBy holds :=
  ⟨dated.blNonceOfUnstake, depositDated_dates holds now dated.unBondPeriod, dated.pendingUnBond⟩

theorem unbondStartTransf (nBlocksBeforeUnbond blockNonce : UInt64) (amount : Nat) :
    (unbondStartTransf nBlocksBeforeUnbond blockNonce amount storage).1.DatedBy holds :=
  have taken := @takeDated_dates (fun created => decide (created + nBlocksBeforeUnbond <
    blockNonce)) holds amount _ dated.unBondPeriod
  ⟨dated.blNonceOfUnstake, taken.2, List.forall_mem_append.mpr ⟨taken.1, dated.pendingUnBond⟩⟩

theorem unbondFinishOkTransf (amount : Nat) :
    (unbondFinishOkTransf amount storage).1.DatedBy holds :=
  ⟨dated.blNonceOfUnstake, dated.unBondPeriod,
    (@takeDated_dates (fun _ => true) holds amount _ dated.pendingUnBond).2⟩

theorem unbondFinishFailTransf (amount : Nat) :
    (unbondFinishFailTransf amount storage).1.DatedBy holds :=
  have taken := @takeDated_dates (fun _ => true) holds amount _ dated.pendingUnBond
  ⟨dated.blNonceOfUnstake, List.forall_mem_append.mpr ⟨taken.1, dated.unBondPeriod⟩, taken.2⟩

end Storage.DatedBy

/-! ### Counting nodes -/

/-- The number of registered nodes, ids `1..numNodes`, in `state`. -/
def nodeCount (numNodes : Nat) (nodeState : Nat → NodeState) (state : NodeState) : Nat :=
  (List.range' 1 numNodes).countP fun n => nodeState n = state

/-- Rewriting one node of a duplicate-free list of ids moves one unit of its count from
the old state to the new. -/
theorem countP_update_add {ids : List Nat} (nodup : ids.Nodup) {nodeId : Nat}
    (member : nodeId ∈ ids) (nodeState : Nat → NodeState) (new state : NodeState) :
    (ids.countP fun n => Function.update nodeState nodeId new n = state) +
        (if nodeState nodeId = state then 1 else 0) =
      (ids.countP fun n => nodeState n = state) + (if new = state then 1 else 0) := by
  induction ids with
  | nil => cases member
  | cons head rest inductionHypothesis =>
      obtain ⟨fresh, restNodup⟩ := List.nodup_cons.mp nodup
      by_cases here : head = nodeId
      · subst here
        have untouched : (rest.countP fun n => Function.update nodeState head new n = state) =
            rest.countP fun n => nodeState n = state :=
          List.countP_congr fun n member => by
            rw [Function.update_noteq (fun same : n = head => fresh (same ▸ member))]
        simp only [List.countP_cons, Function.update_same, untouched, decide_eq_true_eq]
        omega
      · have restMember : nodeId ∈ rest := (List.mem_cons.mp member).resolve_left (Ne.symm here)
        simp only [List.countP_cons, Function.update_noteq here, decide_eq_true_eq]
        have := inductionHypothesis restNodup restMember
        omega

/-- Moving a batch of distinct registered nodes, all in state `a`, to state `b` moves the
batch's size from the count of `a` to the count of `b`. -/
theorem nodeCount_setNodeStatesTo {numNodes : Nat} {nodeIds : List Nat} (nodup : nodeIds.Nodup)
    (known : ∀ n ∈ nodeIds, 1 ≤ n ∧ n ≤ numNodes) {nodeState : Nat → NodeState}
    {a : NodeState} (source : ∀ n ∈ nodeIds, nodeState n = a) (b state : NodeState) :
    nodeCount numNodes (setNodeStatesTo b nodeIds nodeState) state +
        (if a = state then nodeIds.length else 0) =
      nodeCount numNodes nodeState state + (if b = state then nodeIds.length else 0) := by
  induction nodeIds generalizing nodeState with
  | nil => simp [setNodeStatesTo]
  | cons head rest inductionHypothesis =>
      obtain ⟨fresh, restNodup⟩ := List.nodup_cons.mp nodup
      have headKnown : head ∈ List.range' 1 numNodes := by
        have := known head (List.mem_cons_self _ _); rw [List.mem_range'_1]; omega
      have restSource : ∀ n ∈ rest, Function.update nodeState head b n = a := fun n member => by
        rw [Function.update_noteq (fun same : n = head => fresh (same ▸ member))]
        exact source n (List.mem_cons_of_mem _ member)
      have step := countP_update_add (List.nodup_range' 1 numNodes) headKnown nodeState b state
      have restCounted := inductionHypothesis restNodup
        (fun n member => known n (List.mem_cons_of_mem _ member)) restSource
      rw [source head (List.mem_cons_self _ _)] at step
      simp only [setNodeStatesTo, List.length_cons, nodeCount] at restCounted step ⊢
      split_ifs at step restCounted ⊢ <;> omega

/-- A batch of distinct registered nodes all in state `a` is no larger than the count of
`a`. -/
theorem length_le_nodeCount {numNodes : Nat} {nodeIds : List Nat} (nodup : nodeIds.Nodup)
    (known : ∀ n ∈ nodeIds, 1 ≤ n ∧ n ≤ numNodes) {nodeState : Nat → NodeState} {a : NodeState}
    (source : ∀ n ∈ nodeIds, nodeState n = a) :
    nodeIds.length ≤ nodeCount numNodes nodeState a := by
  obtain ⟨b, distinct⟩ : ∃ b : NodeState, b ≠ a :=
    ⟨if a = .inactive then .active else .inactive, by split <;> simp_all [eq_comm]⟩
  have counted := nodeCount_setNodeStatesTo nodup known source b a
  rw [if_pos rfl, if_neg distinct] at counted
  omega

/-! ### Lockstep of ledger and nodes -/

/-- The ledger is in lockstep with the nodes on the states `tracked`: the pool's stake in the
phase of each tracked state is the stake per node times the number of registered nodes in
that state. -/
def LockstepOn (config : Config) (tracked : NodeState → Prop) (storage : Storage) : Prop :=
  ∀ state, tracked state →
    storage.userStake state.phase =
      config.stakePerNode * nodeCount config.reg.numNodes storage.nodeState state

/-- What every flow does to the storage it touches: a batch of distinct registered nodes, all
in state `a`, moves to state `b`, and the stake of as many nodes moves from the phase of `a`
to the phase of `b` (as much of it as there is). -/
structure BatchMove (config : Config) (nodeIds : List Nat) (a b : NodeState)
    (before after : Storage) : Prop where
  nodup : nodeIds.Nodup
  known : ∀ n ∈ nodeIds, 1 ≤ n ∧ n ≤ config.reg.numNodes
  source : ∀ n ∈ nodeIds, before.nodeState n = a
  nodeState : after.nodeState = setNodeStatesTo b nodeIds before.nodeState
  userStake : after.userStake =
    (moveStake a.phase b.phase (nodeIds.length * config.stakePerNode) before.userStake).1

namespace LockstepOn

variable {config : Config} {tracked : NodeState → Prop} {storage : Storage}

/-- A tracked state holds at least the stake of any batch of its nodes. -/
theorem covers (lockstep : LockstepOn config tracked storage) {a : NodeState} (trackedA : tracked a)
    {nodeIds : List Nat} (nodup : nodeIds.Nodup)
    (known : ∀ n ∈ nodeIds, 1 ≤ n ∧ n ≤ config.reg.numNodes)
    (source : ∀ n ∈ nodeIds, storage.nodeState n = a) :
    nodeIds.length * config.stakePerNode ≤ storage.userStake a.phase := by
  rw [lockstep a trackedA, Nat.mul_comm]
  exact Nat.mul_le_mul_left _ (length_le_nodeCount nodup known source)

/-- A batch move keeps the lockstep when the stake it moves into a tracked phase is all
there to move. -/
theorem batchMove (lockstep : LockstepOn config tracked before) {nodeIds : List Nat}
    {a b : NodeState} {after : Storage} (move : BatchMove config nodeIds a b before after)
    (distinct : a ≠ b)
    (funded : tracked b → nodeIds.length * config.stakePerNode ≤ before.userStake a.phase) :
    LockstepOn config tracked after := by
  intro state trackedState
  have counted := nodeCount_setNodeStatesTo move.nodup move.known move.source b state
  rw [move.nodeState, move.userStake, moveStake_fst_apply (mt NodeState.phase_inj.mp distinct)]
  simp only [NodeState.phase_inj]
  by_cases atB : state = b
  · subst atB
    rw [if_neg distinct, Nat.add_zero, if_pos rfl] at counted
    rw [if_pos rfl, Nat.min_eq_left (funded trackedState), lockstep state trackedState, counted,
      Nat.mul_add, Nat.mul_comm nodeIds.length]
  · by_cases atA : state = a
    · subst atA
      rw [if_pos rfl, if_neg (Ne.symm atB), Nat.add_zero] at counted
      have scaled := congrArg (config.stakePerNode * ·) counted
      simp only [Nat.mul_add] at scaled
      rw [if_neg atB, if_pos rfl,
        Nat.min_eq_left (lockstep.covers trackedState move.nodup move.known move.source),
        lockstep state trackedState, Nat.mul_comm nodeIds.length]
      omega
    · rw [if_neg (Ne.symm atA), if_neg (Ne.symm atB)] at counted
      rw [if_neg atB, if_neg atA, lockstep state trackedState, Nat.add_right_cancel counted]

/-- A batch move keeps the lockstep when its source state is tracked whenever its target
is: the stake to move is then there by the lockstep itself. -/
theorem batchMove_of_source (lockstep : LockstepOn config tracked before)
    {nodeIds : List Nat} {a b : NodeState} {after : Storage}
    (move : BatchMove config nodeIds a b before after) (distinct : a ≠ b)
    (sourceTracked : tracked b → tracked a) : LockstepOn config tracked after :=
  lockstep.batchMove move distinct fun trackedB =>
    lockstep.covers (sourceTracked trackedB) move.nodup move.known move.source

/-- A lockstep that does not track Inactive ignores the free stake. -/
theorem update_free (lockstep : LockstepOn config tracked storage)
    (untracked : ¬tracked .inactive) (amount : Nat) :
    LockstepOn config tracked
      { storage with userStake := Function.update storage.userStake .inactive amount } :=
  fun state trackedState => by
    have backed : state.phase ≠ .inactive := fun free => by
      have idle : state = .inactive := NodeState.phase_injective free
      exact untracked (idle ▸ trackedState)
    exact (Function.update_noteq backed _ _).trans (lockstep state trackedState)

end LockstepOn

end Delegation.V04
