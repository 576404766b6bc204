/-
Module: Delegation.Alignment
Layer: Proofs
Purpose: The batches both versions send to the auction line up with the node ids their
  callbacks receive. Position `i` of the key list belongs to the node at position `i` of the
  id list; in the flat key and signature list of version 0.4, entries `2i` and `2i + 1` do.
  The auction answers node by node, and the callbacks match the answers back to ids, so a
  misaligned batch would settle the wrong node.
Trusted boundary: the registry's lookups, inverse to each other on registered ids
  (`NodeRegistry`).
Main exports: KeysAligned, FlatAligned, keysAligned_map, keysAligned_registered,
  flatAligned_flatMap, batches_aligned
-/
import Delegation.Latest.Endpoints
import Delegation.V04.Endpoints

namespace Delegation

/-! ### Aligned batches -/

/-- Position by position, the key resolves to the node id. -/
def KeysAligned (reg : NodeRegistry) (nodeIds : List Nat) (blsKeys : List BLSKey) : Prop :=
  List.Forall₂ (fun nodeId blsKey => reg.getNodeId blsKey = nodeId) nodeIds blsKeys

/-- The flat key and signature list has two entries per node id: at `2i` the key of a node
that resolves to the id at `i`, at `2i + 1` that node's signature. -/
def FlatAligned (reg : NodeRegistry) (nodeIds : List Nat) (flat : List (List UInt8)) : Prop :=
  flat.length = 2 * nodeIds.length ∧
    ∀ i nodeId, nodeIds[i]? = some nodeId → ∃ blsKey, reg.getNodeId blsKey = nodeId ∧
      flat[2 * i]? = some blsKey.bytes ∧
      flat[2 * i + 1]? = some (reg.getNodeSignature nodeId).bytes

section Aligned

variable (reg : NodeRegistry)

/-- Ids resolved from keys line up with the keys. -/
theorem keysAligned_map (blsKeys : List BLSKey) :
    KeysAligned reg (blsKeys.map reg.getNodeId) blsKeys :=
  List.forall₂_map_left_iff.mpr (List.forall₂_same.mpr fun _ _ => rfl)

/-- Keys looked up for registered ids line up with the ids. -/
theorem keysAligned_registered {nodeIds : List Nat}
    (known : ∀ n ∈ nodeIds, 1 ≤ n ∧ n ≤ reg.numNodes) :
    KeysAligned reg nodeIds (nodeIds.map reg.getNodeIdToBls) :=
  List.forall₂_map_right_iff.mpr <| List.forall₂_same.mpr fun n member =>
    reg.getNodeId_getNodeIdToBls n (known n member).1 (known n member).2

theorem length_flatMap_pair {α β : Type} (f g : α → β) (l : List α) :
    (l.flatMap fun x => [f x, g x]).length = 2 * l.length := by
  induction l with
  | nil => rfl
  | cons x rest inductionHypothesis =>
      simp only [List.flatMap_cons, List.length_append, inductionHypothesis]
      simp only [List.length_cons, List.length_nil]
      omega

theorem getElem?_flatMap_pair {α β : Type} (f g : α → β) (l : List α) (i : Nat) :
    (l.flatMap fun x => [f x, g x])[2 * i]? = l[i]?.map f ∧
      (l.flatMap fun x => [f x, g x])[2 * i + 1]? = l[i]?.map g := by
  induction l generalizing i with
  | nil => simp
  | cons x rest inductionHypothesis =>
      cases i with
      | zero => simp
      | succ i => simpa [List.flatMap_cons, Nat.mul_succ] using inductionHypothesis i

/-- A flat list built as the key of each entry, then the signature of the node it resolves
to, is aligned with the ids the entries resolve to. -/
theorem flatAligned_flatMap {α : Type} (l : List α) (key : α → BLSKey) (nodeId : α → Nat)
    (resolves : ∀ x ∈ l, reg.getNodeId (key x) = nodeId x) :
    FlatAligned reg (l.map nodeId)
      (l.flatMap fun x => [(key x).bytes, (reg.getNodeSignature (nodeId x)).bytes]) := by
  refine ⟨by rw [length_flatMap_pair, List.length_map], fun i n found => ?_⟩
  rw [List.getElem?_map] at found
  obtain ⟨x, atI, rfl⟩ := Option.map_eq_some'.mp found
  obtain ⟨atKey, atSignature⟩ := getElem?_flatMap_pair (fun x => (key x).bytes)
    (fun x => (reg.getNodeSignature (nodeId x)).bytes) l i
  exact ⟨key x, resolves x (List.getElem?_mem atI), by rw [atKey, atI]; rfl,
    by rw [atSignature, atI]; rfl⟩

end Aligned

/-! ### Every batch builder -/

/-- Every batch a successful call sends is aligned with the ids its callback receives. In
the latest version, `stakeNodes` pairs each key with the signature of the node at the same
position, and `unStakeNodes` (with or without tokens), `unBondNodes` and
`unBondAllPossibleNodes` send keys that resolve to the ids at the same positions. In
version 0.4, `stakeNodes` and `stakeAllAvailable` send a flat list with the key and the
signature of the node at position `i` at entries `2i` and `2i + 1`, and `unStakeNodes`,
`unBondNodes` and `unBondAllAvailable` send keys that resolve to the ids at the same
positions. -/
theorem batches_aligned (reg : NodeRegistry) (latestEnv : Latest.Env) (config : V04.Config)
    (env : V04.Env) (blockNonce : UInt64) :
    (∀ amountToStake blsKeys before after asyncCall,
      Latest.stakeNodes reg latestEnv amountToStake blsKeys before = .ok (after, asyncCall) →
      ∃ nodeIds blsKeysSignatures,
        asyncCall = { call := .stake nodeIds.length blsKeysSignatures amountToStake
                      callback := some ⟨.auctionStakeCallback, nodeIds⟩ } ∧
        List.Forall₂ (fun nodeId keySignature => reg.getNodeId keySignature.1 = nodeId ∧
          keySignature.2 = reg.getNodeSignature nodeId) nodeIds blsKeysSignatures) ∧
    (∀ unstakeTokens blsKeys before after asyncCall,
      Latest.unstakeNodes reg latestEnv unstakeTokens blsKeys before = .ok (after, asyncCall) →
      ∃ nodeIds,
        asyncCall = { call := if unstakeTokens then .unStake blsKeys else .unStakeNodes blsKeys
                      callback := some ⟨.auctionUnstakeCallback, nodeIds⟩ } ∧
        KeysAligned reg nodeIds blsKeys) ∧
    (∀ blsKeys before after asyncCall,
      Latest.unbondSpecificNodes reg latestEnv blsKeys before = .ok (after, asyncCall) →
      ∃ nodeIds,
        asyncCall = { call := .unBondNodes blsKeys
                      callback := some ⟨.auctionUnbondCallback, nodeIds⟩ } ∧
        KeysAligned reg nodeIds blsKeys) ∧
    (∀ before after issued,
      Latest.unbondAllPossibleNodes reg latestEnv before = .ok (after, some issued) →
      ∃ nodeIds blsKeys,
        issued = { call := .unBondNodes blsKeys
                   callback := some ⟨.auctionUnbondCallback, nodeIds⟩ } ∧
        KeysAligned reg nodeIds blsKeys) ∧
    (∀ blsKeys before after asyncCall,
      V04.stakeNodes config env blsKeys before = .ok (after, asyncCall) →
      ∃ nodeIds flat,
        asyncCall = { call := .stake nodeIds.length flat (nodeIds.length * config.stakePerNode)
                      callback := ⟨.auctionStakeCallback, nodeIds⟩ } ∧
        FlatAligned config.reg nodeIds flat) ∧
    (∀ before after issued,
      V04.stakeAllAvailable config env before = .ok (after, some issued) →
      ∃ nodeIds flat,
        issued = { call := .stake nodeIds.length flat (nodeIds.length * config.stakePerNode)
                   callback := ⟨.auctionStakeCallback, nodeIds⟩ } ∧
        FlatAligned config.reg nodeIds flat) ∧
    (∀ blsKeys before after asyncCall,
      V04.unstakeNodes config env blsKeys before = .ok (after, asyncCall) →
      ∃ nodeIds,
        asyncCall = { call := .unStake blsKeys, callback := ⟨.auctionUnstakeCallback, nodeIds⟩ } ∧
        KeysAligned config.reg nodeIds blsKeys) ∧
    (∀ blsKeys before after asyncCall,
      V04.unbondNodes config blockNonce blsKeys before = .ok (after, asyncCall) →
      ∃ nodeIds,
        asyncCall = { call := .unBond blsKeys, callback := ⟨.auctionUnbondCallback, nodeIds⟩ } ∧
        KeysAligned config.reg nodeIds blsKeys) ∧
    (∀ before after issued,
      V04.unbondAllAvailable config blockNonce before = .ok (after, some issued) →
      ∃ nodeIds blsKeys,
        issued = { call := .unBond blsKeys, callback := ⟨.auctionUnbondCallback, nodeIds⟩ } ∧
        KeysAligned config.reg nodeIds blsKeys) := by
  refine ⟨?latestStake, ?latestUnstake, ?latestUnbond, ?latestUnbondAll, ?stake, ?stakeAll,
    ?unstake, ?unbond, ?unbondAll⟩
  case latestStake =>
    intro amountToStake blsKeys before after asyncCall ran
    obtain ⟨-, -, -, -, -, -, rfl⟩ := Latest.stakeNodes_eq_ok.mp ran
    refine ⟨_, _, rfl, List.forall₂_map_left_iff.mpr (List.forall₂_map_right_iff.mpr ?_)⟩
    exact List.forall₂_same.mpr fun _ _ => ⟨rfl, rfl⟩
  case latestUnstake =>
    intro unstakeTokens blsKeys before after asyncCall ran
    obtain ⟨-, -, -, -, rfl⟩ := Latest.unstakeNodes_eq_ok.mp ran
    exact ⟨_, rfl, keysAligned_map reg blsKeys⟩
  case latestUnbond =>
    intro blsKeys before after asyncCall ran
    obtain ⟨-, -, -, -, rfl⟩ := Latest.unbondSpecificNodes_eq_ok.mp ran
    exact ⟨_, rfl, keysAligned_map reg blsKeys⟩
  case latestUnbondAll =>
    intro before after issued ran
    obtain ⟨-, -, -, called⟩ := Latest.unbondAllPossibleNodes_eq_ok.mp ran
    split at called
    · cases called
    · cases called
      exact ⟨_, _, rfl, keysAligned_registered reg fun n member =>
        (Latest.mem_scanIds.mp member).imp_right And.left⟩
  case stake =>
    intro blsKeys before after asyncCall ran
    obtain ⟨-, nodeState, -, performed⟩ := V04.stakeNodes_eq_ok.mp ran
    obtain ⟨-, -, rfl⟩ := V04.performStakeNodes_eq_ok.mp performed
    exact ⟨_, _, rfl, flatAligned_flatMap config.reg blsKeys id config.reg.getNodeId
      fun _ _ => rfl⟩
  case stakeAll =>
    intro before after issued ran
    rw [V04.stakeAllAvailable_eq] at ran
    split at ran
    · cases ran
    · obtain ⟨⟨_, issued⟩, performed, ⟨⟩⟩ := map_eq_ok.mp ran
      obtain ⟨-, -, rfl⟩ := V04.performStakeNodes_eq_ok.mp performed
      have aligned := flatAligned_flatMap config.reg (V04.stakedIds config before)
        config.reg.getNodeIdToBls id fun n member =>
          config.reg.getNodeId_getNodeIdToBls n (V04.mem_stakedIds member).1.1
            (V04.mem_stakedIds member).1.2
      rw [List.map_id] at aligned
      exact ⟨_, _, rfl, aligned⟩
  case unstake =>
    intro blsKeys before after asyncCall ran
    obtain ⟨-, -, -, -, rfl⟩ := V04.unstakeNodes_eq_ok.mp ran
    exact ⟨_, rfl, keysAligned_map config.reg blsKeys⟩
  case unbond =>
    intro blsKeys before after asyncCall ran
    obtain ⟨nodeState, -, performed⟩ := V04.unbondNodes_eq_ok.mp ran
    obtain ⟨-, -, rfl⟩ := V04.performUnbond_eq_ok.mp performed
    exact ⟨_, rfl, keysAligned_map config.reg blsKeys⟩
  case unbondAll =>
    intro before after issued ran
    rw [V04.unbondAllAvailable_eq] at ran
    split at ran
    · cases ran
    · obtain ⟨⟨_, issued⟩, performed, ⟨⟩⟩ := map_eq_ok.mp ran
      obtain ⟨-, -, rfl⟩ := V04.performUnbond_eq_ok.mp performed
      exact ⟨_, _, rfl, keysAligned_registered config.reg fun n member =>
        ((V04.mem_dueIds _ _ _).mp member).1⟩

end Delegation
