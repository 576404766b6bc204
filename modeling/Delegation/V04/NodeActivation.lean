/-
Module: Delegation.V04.NodeActivation
Layer: Model
Purpose: The node-activation module of contract version 0.4 (`src/v0_4/src/node_activation.rs`)
  as functions over its storage: node states, the block of each node's confirmed unstake,
  and the pool's stake per user-stake phase, which every flow moves in step with its nodes.
  The stake of the unbond period and of pending unbond is also kept bucket by bucket, each
  bucket dated by the block of the unstake confirmation it comes from, so that
  `unbond_start_transf` can take only stake past the unbond delay. The contract in its
  environment is a step function: an endpoint call (reverted whole when it fails), the
  delivery of one registered callback with any answer the auction can give, a new block, or
  a deposit or withdrawal of free stake by the rest of the contract.
Trusted boundary: the fund transformations of `fund_transf_module` are not in this version's
  source; they enter from the spec (§3, §4.2, §4.3). Each moves `min requested available`
  from one phase to another and leaves the rest in its amount; those of the unbond flow move
  dated buckets along, newest first, and `unbond_start_transf` takes only buckets older than
  the unbond delay (an amount-bounded, age-filtered move), by the strict comparison
  `created + n_blocks_before_unbond < block` that `unbond_nodes` makes for a node. The requester and force-unstake
  delay of `unstake_start_transf` are left out. The caller check, `caller_can_activate` and
  `validate_owner_stake_share` enter as an `Env` chosen freely at each call; rewards and
  events are not modelled.
Main exports: NodeState, UserStakeState, moveStake, DatedStake, datedSum, depositDated,
  takeDated, Config, Env, Storage, unstakeFinishOkTransf, unbondStartTransf,
  unbondFinishOkTransf, unbondFinishFailTransf, stakeNodes, stakeAllAvailableEndpoint,
  unstakeNodes, unbondNodes, unbondAllAvailable, claimFailedStake, runCallback, State, Label,
  step, Reachable, sampleConfig, sampleRun
-/
import Delegation.Basic

namespace Delegation.V04

/-- Validator state of a node. Version 0.4 keeps the unbond period's start block in a storage
map of its own, and parks a node whose activation the auction refused in
`activationFailed` until the owner claims its stake back. -/
inductive NodeState where
  | inactive
  | pendingActivation
  | active
  | pendingDeactivation
  | unBondPeriod
  | pendingUnBond
  | activationFailed
deriving DecidableEq, Repr

/-- The phases of user stake the module moves. `ActiveForSale` is counted with `active`;
free stake is `inactive`. -/
inductive UserStakeState where
  | inactive
  | pendingActivation
  | activationFailed
  | active
  | pendingDeactivation
  | unBondPeriod
  | pendingUnBond
deriving DecidableEq, Repr

/-! ### Fund transformations -/

/-- Modelled from the spec: the fund transformations this module calls, missing from the
source, as the move of `min amount available` of the pool's stake from phase `source` to
phase `target`. The second component is the unmoved rest, left in the caller's amount. -/
def moveStake (source target : UserStakeState) (amount : Nat)
    (userStake : UserStakeState → Nat) : (UserStakeState → Nat) × Nat :=
  let moved := min amount (userStake source)
  (Function.update (Function.update userStake source (userStake source - moved)) target
    (userStake target + moved), amount - moved)

/-- Modelled from the spec: `activate_start_transf`. -/
def activateStartTransf := moveStake .inactive .pendingActivation

/-- Modelled from the spec: `activate_finish_ok_transf`. -/
def activateFinishOkTransf := moveStake .pendingActivation .active

/-- Modelled from the spec: `activate_finish_fail_transf`. -/
def activateFinishFailTransf := moveStake .pendingActivation .activationFailed

/-- Modelled from the spec: `unstake_start_transf`, with no requester and its force-unstake
delay left out. -/
def unstakeStartTransf := moveStake .active .pendingDeactivation

/-- Modelled from the spec: `unstake_finish_fail_transf`. -/
def unstakeFinishFailTransf := moveStake .pendingDeactivation .active

/-- Modelled from the spec: `claim_activation_failed_transf`. -/
def claimActivationFailedTransf := moveStake .activationFailed .inactive

/-! ### Dated stake -/

/-- Modelled from the spec (§3 "Fund bucket"): a bucket of the pool's stake in the unbond
flow, dated by the block of the unstake confirmation it comes from. -/
structure DatedStake where
  created : UInt64
  amount : Nat
deriving DecidableEq, Repr

/-- The stake of a list of buckets. -/
def datedSum : List DatedStake → Nat
  | [] => 0
  | bucket :: rest => bucket.amount + datedSum rest

/-- Modelled from the spec (§4.1 `deposit`): a new bucket at the head of the list, the first
a walk meets; none for a zero amount. -/
def depositDated (created : UInt64) (amount : Nat) (buckets : List DatedStake) :
    List DatedStake :=
  if amount = 0 then buckets else ⟨created, amount⟩ :: buckets

/-- Modelled from the spec (§4.3 `split_convert_max_by_type`, its predicate on the bucket's
date): the walk of a transformation over dated buckets, from the head. Each bucket whose
date `eligible` admits gives up as much as is still asked, a bucket given up whole leaves the
list, and the walk stops once nothing more is asked. Returns the pieces taken, in walk order
and with their buckets' dates, the amount not found, and the buckets left. -/
def takeDated (eligible : UInt64 → Bool) :
    Nat → List DatedStake → List DatedStake × Nat × List DatedStake
  | amount, [] => ([], amount, [])
  | amount, bucket :: rest =>
      if amount = 0 then ([], 0, bucket :: rest)
      else if eligible bucket.created then
        if amount < bucket.amount then
          ([⟨bucket.created, amount⟩], 0, ⟨bucket.created, bucket.amount - amount⟩ :: rest)
        else
          let walked := takeDated eligible (amount - bucket.amount) rest
          (bucket :: walked.1, walked.2.1, walked.2.2)
      else
        let walked := takeDated eligible amount rest
        (walked.1, walked.2.1, bucket :: walked.2.2)

/-! ### Storage and environment -/

/-- What the module reads and never writes: the node registry, the stake per node and the
unbond delay of the settings. -/
structure Config where
  reg : NodeRegistry
  stakePerNode : Nat
  nBlocksBeforeUnbond : UInt64

/-- What an endpoint reads besides storage: whether the owner called, whether the caller may
trigger automatic activation, and the owner-share check. -/
structure Env where
  ownerCalled : Bool
  callerCanActivate : Bool
  validateOwnerStakeShare : Except String Unit

/-- The storage the module writes: node states, the block of each node's confirmed unstake,
the pool's stake (`USER_STAKE_TOTALS_ID`) in each phase, and the stake of the unbond period
and of pending unbond bucket by bucket, newest first. -/
structure Storage where
  nodeState : Nat → NodeState
  blNonceOfUnstake : Nat → UInt64
  userStake : UserStakeState → Nat
  unBondPeriodStake : List DatedStake
  pendingUnBondStake : List DatedStake

/-! ### The transformations of the unbond flow -/

/-- Modelled from the spec: `unstake_finish_ok_transf`. The confirmed stake enters the unbond
period as one bucket dated by the block the confirmation runs in. -/
def unstakeFinishOkTransf (blockNonce : UInt64) (amount : Nat) (storage : Storage) :
    Storage × Nat :=
  let moved := moveStake .pendingDeactivation .unBondPeriod amount storage.userStake
  ({ storage with
      userStake := moved.1
      unBondPeriodStake := depositDated blockNonce (amount - moved.2) storage.unBondPeriodStake },
    moved.2)

/-- Modelled from the spec: `unbond_start_transf`, an amount-bounded, age-filtered move
(§4.2). In the block `blockNonce`, only buckets of the unbond period more than
`nBlocksBeforeUnbond` blocks old give up stake, the sum taken in `u64` as the source's own
age checks take it, and the pieces keep their dates pending unbond. -/
def unbondStartTransf (nBlocksBeforeUnbond blockNonce : UInt64) (amount : Nat)
    (storage : Storage) : Storage × Nat :=
  let taken := takeDated (fun created => decide (created + nBlocksBeforeUnbond < blockNonce))
    amount storage.unBondPeriodStake
  ({ storage with
      userStake :=
        (moveStake .unBondPeriod .pendingUnBond (amount - taken.2.1) storage.userStake).1
      unBondPeriodStake := taken.2.2
      pendingUnBondStake := taken.1 ++ storage.pendingUnBondStake },
    taken.2.1)

/-- Modelled from the spec: `unbond_finish_ok_transf`, stake pending unbond to free stake. -/
def unbondFinishOkTransf (amount : Nat) (storage : Storage) : Storage × Nat :=
  let taken := takeDated (fun _ => true) amount storage.pendingUnBondStake
  ({ storage with
      userStake := (moveStake .pendingUnBond .inactive (amount - taken.2.1) storage.userStake).1
      pendingUnBondStake := taken.2.2 },
    taken.2.1)

/-- Modelled from the spec: `unbond_finish_fail_transf`, stake pending unbond back to the
unbond period, with the dates it carried. -/
def unbondFinishFailTransf (amount : Nat) (storage : Storage) : Storage × Nat :=
  let taken := takeDated (fun _ => true) amount storage.pendingUnBondStake
  ({ storage with
      userStake :=
        (moveStake .pendingUnBond .unBondPeriod (amount - taken.2.1) storage.userStake).1
      unBondPeriodStake := taken.1 ++ storage.unBondPeriodStake
      pendingUnBondStake := taken.2.2 },
    taken.2.1)

/-- The auction endpoints the module calls, with their arguments and EGLD payment. -/
inductive AuctionCall where
  | stake (numNodes : Nat) (blsKeysSignatures : List (List UInt8)) (payment : Nat)
  | unStake (blsKeys : List BLSKey)
  | unBond (blsKeys : List BLSKey)
  | claim
deriving DecidableEq, Repr

/-- The module's four callbacks. -/
inductive Callback where
  | auctionStakeCallback
  | auctionUnstakeCallback
  | auctionUnbondCallback
  | auctionClaimCallback
deriving DecidableEq, Repr

/-- A callback registered with the node ids it will be given (its `#[callback_arg]`). -/
structure CallbackClosure where
  callback : Callback
  nodeIds : List Nat
deriving DecidableEq, Repr

/-- An outgoing asynchronous call and the callback that receives its answer. -/
structure AsyncCall where
  call : AuctionCall
  callback : CallbackClosure
deriving DecidableEq, Repr

/-! ### Endpoints -/

section Endpoints

variable (config : Config) (env : Env)

/-- One node of the `stakeNodes` loop: an Inactive node becomes PendingActivation. The loop
does not check that the key resolved to a registered id. -/
def stakeTransition (_nodeId : Nat) (state : NodeState) : Except String NodeState :=
  if state != .inactive then .error "node not inactive" else pure .pendingActivation

/-- `perform_stake_nodes`: after the owner-share check, the stake of the batch leaves the
free phase (what the transformation could not move is dropped) and goes to the auction with
the keys and signatures, answered by `auction_stake_callback(node_ids)`. -/
def performStakeNodes (nodeIds : List Nat) (blsKeysSignatures : List (List UInt8))
    (storage : Storage) : Except String (Storage × AsyncCall) := do
  env.validateOwnerStakeShare
  let stake := nodeIds.length * config.stakePerNode
  let (userStake, _) := activateStartTransf stake storage.userStake
  pure ({ storage with userStake },
    { call := .stake nodeIds.length blsKeysSignatures stake
      callback := ⟨.auctionStakeCallback, nodeIds⟩ })

/-- `stakeNodes`: the owner activates the named nodes, sending each key followed by the
signature of the node it resolves to. -/
def stakeNodes (blsKeys : List BLSKey) (storage : Storage) :
    Except String (Storage × AsyncCall) := do
  require env.ownerCalled "only owner can activate nodes individually"
  let nodeIds := blsKeys.map config.reg.getNodeId
  let nodeState ← setNodeStates stakeTransition nodeIds storage.nodeState
  performStakeNodes config env nodeIds
    (blsKeys.flatMap fun blsKey =>
      [blsKey.bytes, (config.reg.getNodeSignature (config.reg.getNodeId blsKey)).bytes])
    { storage with nodeState }

/-- The loop of `stake_all_available` over the `remaining` ids from `nodeId` up: while the
free stake covers one more node, each Inactive node becomes PendingActivation and its key
and signature are pushed. Returns the ids taken, the flat key and signature list, the free
stake left and the node states. -/
def stakeAllAvailableLoop : (remaining nodeId inactiveStake : Nat) → (Nat → NodeState) →
    List Nat × List (List UInt8) × Nat × (Nat → NodeState)
  | 0, _, inactiveStake, nodeState => ([], [], inactiveStake, nodeState)
  | remaining + 1, nodeId, inactiveStake, nodeState =>
      if inactiveStake ≥ config.stakePerNode then
        if nodeState nodeId = .inactive then
          let (nodeIds, blsKeysSignatures, inactiveStake, nodeState) :=
            stakeAllAvailableLoop remaining (nodeId + 1) (inactiveStake - config.stakePerNode)
              (Function.update nodeState nodeId .pendingActivation)
          (nodeId :: nodeIds,
            (config.reg.getNodeIdToBls nodeId).bytes ::
              (config.reg.getNodeSignature nodeId).bytes :: blsKeysSignatures,
            inactiveStake, nodeState)
        else stakeAllAvailableLoop remaining (nodeId + 1) inactiveStake nodeState
      else ([], [], inactiveStake, nodeState)

/-- `stake_all_available`: stake as many Inactive nodes, lowest id first, as the pool's free
stake pays for; no call at all when there is none. -/
def stakeAllAvailable (storage : Storage) : Except String (Storage × Option AsyncCall) :=
  let (nodeIds, blsKeysSignatures, _, nodeState) :=
    stakeAllAvailableLoop config config.reg.numNodes 1 (storage.userStake .inactive)
      storage.nodeState
  if nodeIds.isEmpty then pure ({ storage with nodeState }, none)
  else (performStakeNodes config env nodeIds blsKeysSignatures { storage with nodeState }).map
    fun (storage, asyncCall) => (storage, some asyncCall)

/-- `stakeAllAvailable`: open to whoever may trigger automatic activation. -/
def stakeAllAvailableEndpoint (storage : Storage) :
    Except String (Storage × Option AsyncCall) := do
  require env.callerCanActivate "not allowed to activate"
  stakeAllAvailable config env storage

/-- One node of the `perform_unstake_nodes` loop: an Active node becomes
PendingDeactivation. -/
def unstakeTransition (_nodeId : Nat) (state : NodeState) : Except String NodeState :=
  if state != .active then .error "node not active" else pure .pendingDeactivation

/-- `perform_unstake_nodes`: move the nodes to PendingDeactivation, the stake of as many
nodes as keys from the active phase (what could not move is dropped), and call `unStake`,
answered by `auction_unstake_callback(node_ids)`. -/
def performUnstakeNodes (nodeIds : List Nat) (blsKeys : List BLSKey) (storage : Storage) :
    Except String (Storage × AsyncCall) := do
  let nodeState ← setNodeStates unstakeTransition nodeIds storage.nodeState
  let (userStake, _) := unstakeStartTransf (blsKeys.length * config.stakePerNode)
    storage.userStake
  pure ({ storage with nodeState, userStake },
    { call := .unStake blsKeys, callback := ⟨.auctionUnstakeCallback, nodeIds⟩ })

/-- `unStakeNodes`: the owner deactivates the named nodes. -/
def unstakeNodes (blsKeys : List BLSKey) (storage : Storage) :
    Except String (Storage × AsyncCall) := do
  require env.ownerCalled "only owner can deactivate nodes individually"
  performUnstakeNodes config (blsKeys.map config.reg.getNodeId) blsKeys storage

/-- One node of the `unBondNodes` loop, in the block `blockNonce`: a node in its unbond
period becomes PendingUnBond once more than the unbond delay has passed since its unstake,
the sum taken in `u64`. -/
def unbondTransition (blockNonce : UInt64) (blNonceOfUnstake : Nat → UInt64) (nodeId : Nat)
    (state : NodeState) : Except String NodeState :=
  if state != .unBondPeriod then .error "node not in unbond period"
  else if blockNonce ≤ blNonceOfUnstake nodeId + config.nBlocksBeforeUnbond then
    .error "too soon to unbond node"
  else pure .pendingUnBond

/-- `perform_unbond`, in the block `blockNonce`: move the stake of the batch from the unbond
period past its delay to pending unbond, failing when it is not all there, and call
`unBond`, answered by `auction_unbond_callback(node_ids)`. -/
def performUnbond (blockNonce : UInt64) (nodeIds : List Nat) (blsKeys : List BLSKey)
    (storage : Storage) : Except String (Storage × AsyncCall) :=
  let transformed := unbondStartTransf config.nBlocksBeforeUnbond blockNonce
    (nodeIds.length * config.stakePerNode) storage
  if transformed.2 > 0 then .error "not enough stake in unbond period"
  else pure (transformed.1,
    { call := .unBond blsKeys, callback := ⟨.auctionUnbondCallback, nodeIds⟩ })

/-- `unBondNodes`: anyone unbonds the named nodes. -/
def unbondNodes (blockNonce : UInt64) (blsKeys : List BLSKey) (storage : Storage) :
    Except String (Storage × AsyncCall) := do
  let nodeIds := blsKeys.map config.reg.getNodeId
  let nodeState ← setNodeStates (unbondTransition config blockNonce storage.blNonceOfUnstake)
    nodeIds storage.nodeState
  performUnbond config blockNonce nodeIds blsKeys { storage with nodeState }

/-- The scan of `unBondAllAvailable` from `nodeId` down to `1`: a node in its unbond period
whose unstake block plus the delay, in `u64`, is at most the current block becomes
PendingUnBond. Returns the ids taken and their keys, in scan order, and the node states. -/
def unbondAllAvailableLoop (blockNonce : UInt64) (blNonceOfUnstake : Nat → UInt64) :
    Nat → (Nat → NodeState) → List Nat × List BLSKey × (Nat → NodeState)
  | 0, nodeState => ([], [], nodeState)
  | nodeId + 1, nodeState =>
      if nodeState (nodeId + 1) = .unBondPeriod ∧
          blockNonce ≥ blNonceOfUnstake (nodeId + 1) + config.nBlocksBeforeUnbond then
        let (nodeIds, blsKeys, nodeState) :=
          unbondAllAvailableLoop blockNonce blNonceOfUnstake nodeId
            (Function.update nodeState (nodeId + 1) .pendingUnBond)
        ((nodeId + 1) :: nodeIds, config.reg.getNodeIdToBls (nodeId + 1) :: blsKeys, nodeState)
      else unbondAllAvailableLoop blockNonce blNonceOfUnstake nodeId nodeState

/-- `unBondAllAvailable`: anyone unbonds every node that is due; no call at all when none
is. -/
def unbondAllAvailable (blockNonce : UInt64) (storage : Storage) :
    Except String (Storage × Option AsyncCall) :=
  let (nodeIds, blsKeys, nodeState) :=
    unbondAllAvailableLoop config blockNonce storage.blNonceOfUnstake config.reg.numNodes
      storage.nodeState
  if nodeIds.isEmpty then pure ({ storage with nodeState }, none)
  else (performUnbond config blockNonce nodeIds blsKeys { storage with nodeState }).map
    fun (storage, asyncCall) => (storage, some asyncCall)

/-- The scan of `claimFailedStake` from `nodeId` down to `1`: the ids in ActivationFailed. -/
def claimFailedStakeLoop (nodeState : Nat → NodeState) : Nat → List Nat
  | 0 => []
  | nodeId + 1 =>
      if nodeState (nodeId + 1) = .activationFailed then
        (nodeId + 1) :: claimFailedStakeLoop nodeState nodeId
      else claimFailedStakeLoop nodeState nodeId

/-- `claimFailedStake`: the owner asks the auction back for the stake of every node whose
activation failed, answered by `auction_claim_callback(node_ids)`. No node changes state
before the answer. -/
def claimFailedStake (storage : Storage) : Except String (Option AsyncCall) := do
  require env.ownerCalled "only owner can activate nodes individually"
  let nodeIds := claimFailedStakeLoop storage.nodeState config.reg.numNodes
  if nodeIds.isEmpty then pure none
  else pure (some { call := .claim, callback := ⟨.auctionClaimCallback, nodeIds⟩ })

end Endpoints

/-! ### Callbacks

Each `_ok` and `_fail` half returns early on an empty list; with no node the transformation
moves nothing and the loop writes nothing, so the early return is left out. The stake moved
is recomputed from the number of nodes answered. -/

section Callbacks

variable (config : Config)

/-- `auction_stake_callback_ok`: the confirmed nodes' stake becomes active, and so do they. -/
def auctionStakeCallbackOk (nodeIds : List Nat) (storage : Storage) : Storage :=
  let (userStake, _) :=
    activateFinishOkTransf (nodeIds.length * config.stakePerNode) storage.userStake
  { storage with userStake, nodeState := setNodeStatesTo .active nodeIds storage.nodeState }

/-- `auction_stake_callback_fail`: the rejected nodes and their stake are parked in
ActivationFailed. -/
def auctionStakeCallbackFail (nodeIds : List Nat) (storage : Storage) : Storage :=
  let (userStake, _) :=
    activateFinishFailTransf (nodeIds.length * config.stakePerNode) storage.userStake
  { storage with
    userStake, nodeState := setNodeStatesTo .activationFailed nodeIds storage.nodeState }

/-- `auction_stake_callback`. -/
def auctionStakeCallback (nodeIds : List Nat) (result : CallResult) (storage : Storage) :
    Storage :=
  match result with
  | .ok nodeIdsOk nodeIdsFail =>
      auctionStakeCallbackFail config nodeIdsFail (auctionStakeCallbackOk config nodeIdsOk storage)
  | .err _ => auctionStakeCallbackFail config nodeIds storage

/-- `auction_unstake_callback_ok`: the confirmed nodes and their stake enter the unbond
period, which for each node, and for the stake's bucket, starts at the block the callback
runs in. -/
def auctionUnstakeCallbackOk (blockNonce : UInt64) (nodeIds : List Nat) (storage : Storage) :
    Storage :=
  { (unstakeFinishOkTransf blockNonce (nodeIds.length * config.stakePerNode) storage).1 with
    nodeState := setNodeStatesTo .unBondPeriod nodeIds storage.nodeState
    blNonceOfUnstake := setNodeStatesTo blockNonce nodeIds storage.blNonceOfUnstake }

/-- `auction_unstake_callback_fail`: the rejected nodes and their stake go back to active. -/
def auctionUnstakeCallbackFail (nodeIds : List Nat) (storage : Storage) : Storage :=
  let (userStake, _) :=
    unstakeFinishFailTransf (nodeIds.length * config.stakePerNode) storage.userStake
  { storage with userStake, nodeState := setNodeStatesTo .active nodeIds storage.nodeState }

/-- `auction_unstake_callback`. -/
def auctionUnstakeCallback (blockNonce : UInt64) (nodeIds : List Nat) (result : CallResult)
    (storage : Storage) : Storage :=
  match result with
  | .ok nodeIdsOk nodeIdsFail =>
      auctionUnstakeCallbackFail config nodeIdsFail
        (auctionUnstakeCallbackOk config blockNonce nodeIdsOk storage)
  | .err _ => auctionUnstakeCallbackFail config nodeIds storage

/-- `auction_unbond_callback_ok`: the confirmed nodes become Inactive with their unstake
block reset, and their stake becomes free; the callback fails when that stake is not all
pending unbond. -/
def auctionUnbondCallbackOk (nodeIds : List Nat) (storage : Storage) :
    Except String Storage :=
  let transformed := unbondFinishOkTransf (nodeIds.length * config.stakePerNode)
    { storage with
      nodeState := setNodeStatesTo .inactive nodeIds storage.nodeState
      blNonceOfUnstake := setNodeStatesTo 0 nodeIds storage.blNonceOfUnstake }
  if transformed.2 > 0 then .error "not enough stake pending unbond"
  else pure transformed.1

/-- `auction_unbond_callback_fail`: the rejected nodes and their stake go back to the unbond
period, which keeps its start block. -/
def auctionUnbondCallbackFail (nodeIds : List Nat) (storage : Storage) : Storage :=
  { (unbondFinishFailTransf (nodeIds.length * config.stakePerNode) storage).1 with
    nodeState := setNodeStatesTo .unBondPeriod nodeIds storage.nodeState }

/-- `auction_unbond_callback`: the only callback that can fail. -/
def auctionUnbondCallback (nodeIds : List Nat) (result : CallResult) (storage : Storage) :
    Except String Storage :=
  match result with
  | .ok nodeIdsOk nodeIdsFail => do
      let storage ← auctionUnbondCallbackOk config nodeIdsOk storage
      pure (auctionUnbondCallbackFail config nodeIdsFail storage)
  | .err _ => pure (auctionUnbondCallbackFail config nodeIds storage)

/-- `auction_claim_callback`: on success every claimed node becomes Inactive and the stake of
as many nodes leaves ActivationFailed; on an error nothing changes. The auction answers a
claim with no per-node status, so an `ok` answer stands for `Ok(())` whatever its lists. -/
def auctionClaimCallback (nodeIds : List Nat) (result : CallResult) (storage : Storage) :
    Storage :=
  match result with
  | .ok _ _ =>
      let nodeState := setNodeStatesTo .inactive nodeIds storage.nodeState
      let (userStake, _) :=
        claimActivationFailedTransf (nodeIds.length * config.stakePerNode) storage.userStake
      { storage with nodeState, userStake }
  | .err _ => storage

/-- Run a registered callback on the auction's answer, in the block `blockNonce`. -/
def runCallback (blockNonce : UInt64) (closure : CallbackClosure) (result : CallResult)
    (storage : Storage) : Except String Storage :=
  match closure.callback with
  | .auctionStakeCallback => .ok (auctionStakeCallback config closure.nodeIds result storage)
  | .auctionUnstakeCallback =>
      .ok (auctionUnstakeCallback config blockNonce closure.nodeIds result storage)
  | .auctionUnbondCallback => auctionUnbondCallback config closure.nodeIds result storage
  | .auctionClaimCallback => .ok (auctionClaimCallback config closure.nodeIds result storage)

end Callbacks

/-! ### The contract in its environment -/

/-- The endpoints, with their arguments. -/
inductive Call where
  | stakeNodes (blsKeys : List BLSKey)
  | stakeAllAvailable
  | unStakeNodes (blsKeys : List BLSKey)
  | unBondNodes (blsKeys : List BLSKey)
  | unBondAllAvailable
  | claimFailedStake
deriving DecidableEq, Repr

/-- Run an endpoint in the block `blockNonce`: the storage it leaves and the asynchronous
call it makes, if any. -/
def runEndpoint (config : Config) (env : Env) (blockNonce : UInt64) (call : Call)
    (storage : Storage) : Except String (Storage × Option AsyncCall) :=
  match call with
  | .stakeNodes blsKeys =>
      (stakeNodes config env blsKeys storage).map fun (s, a) => (s, some a)
  | .stakeAllAvailable => stakeAllAvailableEndpoint config env storage
  | .unStakeNodes blsKeys =>
      (unstakeNodes config env blsKeys storage).map fun (s, a) => (s, some a)
  | .unBondNodes blsKeys =>
      (unbondNodes config blockNonce blsKeys storage).map fun (s, a) => (s, some a)
  | .unBondAllAvailable => unbondAllAvailable config blockNonce storage
  | .claimFailedStake => (claimFailedStake config env storage).map fun a => (storage, a)

/-- The contract's storage, the current block, and the callbacks whose answers are still to
come. -/
structure State where
  storage : Storage
  blockNonce : UInt64
  inFlight : List CallbackClosure

/-- What can happen next: a call of an endpoint, the auction's answer to one outstanding
request, a new block, or a deposit or withdrawal of free stake by the rest of the
contract. -/
inductive Label where
  | call (env : Env) (call : Call)
  | deliver (closure : CallbackClosure) (result : CallResult)
  | newBlock (blockNonce : UInt64)
  | deposit (amount : Nat)
  | withdraw (amount : Nat)

/-- The callbacks an asynchronous call registers. -/
def registered : Option AsyncCall → List CallbackClosure
  | some asyncCall => [asyncCall.callback]
  | none => []

/-- One step. A failed call is reverted whole. An answer is delivered once, to a request
that is outstanding, and only as a partition of its node ids; a failing callback is
reverted but its request is spent all the same. Deposits and withdrawals change free stake
only, a withdrawal never more than there is. -/
def step (config : Config) (s : State) : Label → State
  | .call env call =>
      match runEndpoint config env s.blockNonce call s.storage with
      | .ok (storage, asyncCall) =>
          { s with storage, inFlight := registered asyncCall ++ s.inFlight }
      | .error _ => s
  | .deliver closure result =>
      if closure ∈ s.inFlight ∧ result.Splits closure.nodeIds then
        { s with
          storage :=
            match runCallback config s.blockNonce closure result s.storage with
            | .ok storage => storage
            | .error _ => s.storage
          inFlight := s.inFlight.erase closure }
      else s
  | .newBlock blockNonce => { s with blockNonce }
  | .deposit amount =>
      { s with storage.userStake :=
          Function.update s.storage.userStake .inactive (s.storage.userStake .inactive + amount) }
  | .withdraw amount =>
      { s with storage.userStake :=
          Function.update s.storage.userStake .inactive (s.storage.userStake .inactive - amount) }

/-- Every node Inactive with no unstake block, no stake anywhere, nothing in flight. -/
def initial (blockNonce : UInt64) : State :=
  { storage :=
      { nodeState := fun _ => .inactive, blNonceOfUnstake := fun _ => 0,
        userStake := fun _ => 0, unBondPeriodStake := [], pendingUnBondStake := [] }
    blockNonce, inFlight := [] }

/-- The states the contract reaches from `initial start` by steps `admissible` allows. -/
def ReachableWhen (config : Config) (start : UInt64)
    (admissible : State → Label → Prop) : State → Prop :=
  Reach (initial start) (step config) admissible

/-- The states the contract reaches from `initial start`. -/
def Reachable (config : Config) (start : UInt64) : State → Prop :=
  ReachableWhen config start fun _ _ => True

/-! ### A concrete contract -/

/-- The configuration of the concrete runs: the two-node sample registry, one unit of stake
per node and an unbond delay of 60 blocks. -/
def sampleConfig : Config :=
  { reg := sampleRegistry, stakePerNode := 1, nBlocksBeforeUnbond := 60 }

/-- The owner calling, the owner-share check passing. -/
def ownerEnv : Env :=
  { ownerCalled := true, callerCanActivate := true, validateOwnerStakeShare := .ok () }

/-- The state the sample contract reaches from block `0` by `labels`. -/
def sampleRun (labels : List Label) : State :=
  run (step sampleConfig) (initial 0) labels

theorem reachable_sampleRun (labels : List Label) : Reachable sampleConfig 0 (sampleRun labels) :=
  reach_run labels .init

end Delegation.V04
