/-
Module: Delegation.Latest.NodeActivation
Layer: Model
Purpose: The node-activation module of the latest contract (`src/latest/src/node_activation.rs`)
  as functions over node-state storage, and the contract in its environment as a step
  function. A step is an endpoint call (reverted whole when it fails), the delivery of one
  registered callback with any answer the auction can give, or a new block.
Trusted boundary: the caller check, settings, rewards and `validate_owner_stake_share` enter
  as an `Env` chosen freely at each call; events are not modelled.
Main exports: NodeState, Env, AuctionCall, CallbackClosure, AsyncCall, stakeNodes,
  unstakeNodes, unbondSpecificNodes, unbondAllPossibleNodes, claimUnusedFunds, unjailNodes,
  auctionStakeCallback, auctionUnstakeCallback, auctionUnbondCallback, State, Label, step,
  Reachable
-/
import Delegation.Basic

namespace Delegation.Latest

/-- Validator state of a node. `started` is the block at which the auction confirmed the
unstake; the pending-unbond state carries it so that a failed unbond can restore it. -/
inductive NodeState where
  | inactive
  | pendingActivation
  | active
  | pendingDeactivation
  | unBondPeriod (started : UInt64)
  | pendingUnBond (unbondStarted : UInt64)
deriving DecidableEq, Repr

/-- What an endpoint reads besides node storage: whether the owner called, the settings and
checkpoint flags, the unprotected funds of the rewards module and the owner-share check of
the user-stake module. The step function lets any value meet any call. -/
structure Env where
  ownerCalled : Bool
  isBootstrapMode : Bool
  isGlobalOpInProgress : Bool
  totalUnprotected : Nat
  validateOwnerStakeShare : Except String Unit

/-- The auction endpoints the module calls, with their arguments and EGLD payment. -/
inductive AuctionCall where
  | stake (numNodes : Nat) (blsKeysSignatures : List (BLSKey × BLSSignature)) (payment : Nat)
  | unStake (blsKeys : List BLSKey)
  | unStakeNodes (blsKeys : List BLSKey)
  | unBondNodes (blsKeys : List BLSKey)
  | claim
  | unJail (blsKeys : List BLSKey) (payment : Nat)
deriving DecidableEq, Repr

/-- The module's three callbacks. -/
inductive Callback where
  | auctionStakeCallback
  | auctionUnstakeCallback
  | auctionUnbondCallback
deriving DecidableEq, Repr

/-- A callback registered with the node ids it will be given (its `#[callback_arg]`). -/
structure CallbackClosure where
  callback : Callback
  nodeIds : List Nat
deriving DecidableEq, Repr

/-- An outgoing asynchronous call and the callback, if any, that receives its answer. -/
structure AsyncCall where
  call : AuctionCall
  callback : Option CallbackClosure
deriving DecidableEq, Repr

/-! ### Endpoints -/

section Endpoints

variable (reg : NodeRegistry) (env : Env)

/-- The check each endpoint but `unJailNodes` makes before touching a node. -/
def requireNoGlobalOp : Except String Unit :=
  require (!env.isGlobalOpInProgress)
    "node operations are temporarily paused as checkpoint is reset"

/-- One node of the `stakeNodes` loop: a known node that is Inactive becomes
PendingActivation. -/
def stakeTransition (nodeId : Nat) (state : NodeState) : Except String NodeState := do
  require (nodeId != 0) "unknown node provided"
  require (state == .inactive) "node must be inactive"
  pure .pendingActivation

/-- `perform_stake_nodes`: one `stake` call with all the stake, answered by
`auction_stake_callback(node_ids)`. -/
def performStakeNodes (nodeIds : List Nat) (blsKeysSignatures : List (BLSKey × BLSSignature))
    (amountToStake : Nat) : AsyncCall :=
  { call := .stake nodeIds.length blsKeysSignatures amountToStake
    callback := some ⟨.auctionStakeCallback, nodeIds⟩ }

/-- `stakeNodes`: the owner moves the named Inactive nodes to PendingActivation and sends
their keys and signatures to the auction. -/
def stakeNodes (amountToStake : Nat) (blsKeys : List BLSKey) (nodeState : Nat → NodeState) :
    Except String ((Nat → NodeState) × AsyncCall) := do
  require env.ownerCalled "only owner allowed to stake nodes"
  require (!env.isBootstrapMode) "cannot stake nodes in bootstrap mode"
  requireNoGlobalOp env
  require (decide (amountToStake ≤ env.totalUnprotected))
    "not enough funds in contract to stake nodes"
  env.validateOwnerStakeShare
  let nodeIds := blsKeys.map reg.getNodeId
  let nodeState ← setNodeStates stakeTransition nodeIds nodeState
  pure (nodeState, performStakeNodes nodeIds
    (blsKeys.map fun blsKey => (blsKey, reg.getNodeSignature (reg.getNodeId blsKey)))
    amountToStake)

/-- One node of the `perform_unstake_nodes` loop: an Active node becomes
PendingDeactivation. -/
def unstakeTransition (_nodeId : Nat) (state : NodeState) : Except String NodeState := do
  require (state == .active) "node not active"
  pure .pendingDeactivation

/-- `perform_unstake_nodes`: move the nodes to PendingDeactivation and call `unStake` (which
also unstakes tokens) or `unStakeNodes`, answered by `auction_unstake_callback(node_ids)`. -/
def performUnstakeNodes (unstakeTokens : Bool) (nodeIds : List Nat) (blsKeys : List BLSKey)
    (nodeState : Nat → NodeState) : Except String ((Nat → NodeState) × AsyncCall) := do
  let nodeState ← setNodeStates unstakeTransition nodeIds nodeState
  pure (nodeState,
    { call := if unstakeTokens then .unStake blsKeys else .unStakeNodes blsKeys
      callback := some ⟨.auctionUnstakeCallback, nodeIds⟩ })

/-- `unstake_nodes`, behind both `unStakeNodes` and `unStakeNodesAndTokens`. Every key is
resolved before any node is examined. -/
def unstakeNodes (unstakeTokens : Bool) (blsKeys : List BLSKey)
    (nodeState : Nat → NodeState) : Except String ((Nat → NodeState) × AsyncCall) := do
  require env.ownerCalled "only owner allowed to unstake nodes"
  requireNoGlobalOp env
  let nodeIds := blsKeys.map reg.getNodeId
  require (nodeIds.all fun nodeId => nodeId != 0) "unknown node provided"
  performUnstakeNodes unstakeTokens nodeIds blsKeys nodeState

/-- The state change `prepare_node_for_unbond_if_possible` makes: a node in its unbond
period becomes PendingUnBond with the same start block. The source returns whether it
wrote, which is whether this is `some`. -/
def prepareNodeForUnbondIfPossible : NodeState → Option NodeState
  | .unBondPeriod started => some (.pendingUnBond started)
  | _ => none

/-- One node of the `unBondNodes` loop. -/
def unbondTransition (nodeId : Nat) (state : NodeState) : Except String NodeState := do
  require (nodeId != 0) "unknown node provided"
  match prepareNodeForUnbondIfPossible state with
  | some state => pure state
  | none => .error "node cannot be unbonded"

/-- `perform_unbond`: one `unBondNodes` call answered by `auction_unbond_callback(node_ids)`. -/
def performUnbond (nodeIds : List Nat) (blsKeys : List BLSKey) : AsyncCall :=
  { call := .unBondNodes blsKeys, callback := some ⟨.auctionUnbondCallback, nodeIds⟩ }

/-- `unbond_specific_nodes`, behind `unBondNodes`. -/
def unbondSpecificNodes (blsKeys : List BLSKey) (nodeState : Nat → NodeState) :
    Except String ((Nat → NodeState) × AsyncCall) := do
  require env.ownerCalled "only owner allowed to unbond nodes"
  requireNoGlobalOp env
  require (!blsKeys.isEmpty) "no BLS keys provided"
  let nodeIds := blsKeys.map reg.getNodeId
  let nodeState ← setNodeStates unbondTransition nodeIds nodeState
  pure (nodeState, performUnbond nodeIds blsKeys)

/-- The scan of `unBondAllPossibleNodes` from `nodeId` down to `1`: the ids it prepares and
their keys, in scan order, and the node states it leaves. -/
def unbondAllPossibleNodesLoop :
    Nat → (Nat → NodeState) → List Nat × List BLSKey × (Nat → NodeState)
  | 0, nodeState => ([], [], nodeState)
  | nodeId + 1, nodeState =>
      match prepareNodeForUnbondIfPossible (nodeState (nodeId + 1)) with
      | some state =>
          let (nodeIds, blsKeys, nodeState) := unbondAllPossibleNodesLoop nodeId
            (Function.update nodeState (nodeId + 1) state)
          ((nodeId + 1) :: nodeIds, reg.getNodeIdToBls (nodeId + 1) :: blsKeys, nodeState)
      | none => unbondAllPossibleNodesLoop nodeId nodeState

/-- `unBondAllPossibleNodes`: unbond every node in its unbond period; no call at all when
there is none. -/
def unbondAllPossibleNodes (nodeState : Nat → NodeState) :
    Except String ((Nat → NodeState) × Option AsyncCall) := do
  require env.ownerCalled "only owner allowed to unbond nodes"
  requireNoGlobalOp env
  let (nodeIds, blsKeys, nodeState) := unbondAllPossibleNodesLoop reg reg.numNodes nodeState
  if nodeIds.isEmpty then pure (nodeState, none)
  else pure (nodeState, some (performUnbond nodeIds blsKeys))

/-- `claimUnusedFunds`: ask the auction for stake it holds beyond the nodes' needs; no
callback. -/
def claimUnusedFunds : Except String AsyncCall := do
  require env.ownerCalled "only owner can claim inactive stake from auction"
  requireNoGlobalOp env
  pure { call := .claim, callback := none }

/-- `unJailNodes`: check that every named node is known and Active, then forward the fine to
the auction; no callback and no state change. -/
def unjailNodes (blsKeys : List BLSKey) (finePayment : Nat) (nodeState : Nat → NodeState) :
    Except String AsyncCall := do
  require env.ownerCalled "only owner allowed to unjail nodes"
  blsKeys.forM fun blsKey => do
    require (reg.getNodeId blsKey != 0) "unknown node provided"
    require (nodeState (reg.getNodeId blsKey) == .active) "node must be active"
  pure { call := .unJail blsKeys finePayment, callback := none }

end Endpoints

/-! ### Callbacks

The empty-list early returns of the `_ok` and `_fail` halves only skip an event, so they are
left out. -/

/-- `auction_stake_callback_ok`: the confirmed nodes become Active. -/
def auctionStakeCallbackOk (nodeIds : List Nat) (nodeState : Nat → NodeState) :
    Nat → NodeState :=
  setNodeStatesTo .active nodeIds nodeState

/-- `auction_stake_callback_fail`: the rejected nodes go back to Inactive. -/
def auctionStakeCallbackFail (nodeIds : List Nat) (nodeState : Nat → NodeState) :
    Nat → NodeState :=
  setNodeStatesTo .inactive nodeIds nodeState

/-- `auction_stake_callback`. -/
def auctionStakeCallback (nodeIds : List Nat) (result : CallResult)
    (nodeState : Nat → NodeState) : Nat → NodeState :=
  match result with
  | .ok nodeIdsOk nodeIdsFail =>
      auctionStakeCallbackFail nodeIdsFail (auctionStakeCallbackOk nodeIdsOk nodeState)
  | .err _ => auctionStakeCallbackFail nodeIds nodeState

/-- `auction_unstake_callback_ok`: the confirmed nodes enter their unbond period, which
starts at the block the callback runs in. -/
def auctionUnstakeCallbackOk (blockNonce : UInt64) (nodeIds : List Nat)
    (nodeState : Nat → NodeState) : Nat → NodeState :=
  setNodeStatesTo (.unBondPeriod blockNonce) nodeIds nodeState

/-- `auction_unstake_callback_fail`: the rejected nodes go back to Active. -/
def auctionUnstakeCallbackFail (nodeIds : List Nat) (nodeState : Nat → NodeState) :
    Nat → NodeState :=
  setNodeStatesTo .active nodeIds nodeState

/-- `auction_unstake_callback`. -/
def auctionUnstakeCallback (blockNonce : UInt64) (nodeIds : List Nat) (result : CallResult)
    (nodeState : Nat → NodeState) : Nat → NodeState :=
  match result with
  | .ok nodeIdsOk nodeIdsFail =>
      auctionUnstakeCallbackFail nodeIdsFail
        (auctionUnstakeCallbackOk blockNonce nodeIdsOk nodeState)
  | .err _ => auctionUnstakeCallbackFail nodeIds nodeState

/-- `auction_unbond_callback_ok`: the confirmed nodes become Inactive. -/
def auctionUnbondCallbackOk (nodeIds : List Nat) (nodeState : Nat → NodeState) :
    Nat → NodeState :=
  setNodeStatesTo .inactive nodeIds nodeState

/-- One node of the `auction_unbond_callback_fail` loop: a PendingUnBond node gets back its
unbond period with the start block it carried; any other state is a protocol error. -/
def unbondFailTransition (_nodeId : Nat) : NodeState → Except String NodeState
  | .pendingUnBond unbondStarted => .ok (.unBondPeriod unbondStarted)
  | _ => .error "node not pending unbond"

/-- `auction_unbond_callback_fail`. -/
def auctionUnbondCallbackFail (nodeIds : List Nat) (nodeState : Nat → NodeState) :
    Except String (Nat → NodeState) :=
  setNodeStates unbondFailTransition nodeIds nodeState

/-- `auction_unbond_callback`: the only callback that can fail. -/
def auctionUnbondCallback (nodeIds : List Nat) (result : CallResult)
    (nodeState : Nat → NodeState) : Except String (Nat → NodeState) :=
  match result with
  | .ok nodeIdsOk nodeIdsFail =>
      auctionUnbondCallbackFail nodeIdsFail (auctionUnbondCallbackOk nodeIdsOk nodeState)
  | .err _ => auctionUnbondCallbackFail nodeIds nodeState

/-- Run a registered callback on the auction's answer, in the block `blockNonce`. -/
def runCallback (blockNonce : UInt64) (closure : CallbackClosure) (result : CallResult)
    (nodeState : Nat → NodeState) : Except String (Nat → NodeState) :=
  match closure.callback with
  | .auctionStakeCallback => .ok (auctionStakeCallback closure.nodeIds result nodeState)
  | .auctionUnstakeCallback =>
      .ok (auctionUnstakeCallback blockNonce closure.nodeIds result nodeState)
  | .auctionUnbondCallback => auctionUnbondCallback closure.nodeIds result nodeState

/-! ### The contract in its environment -/

/-- The endpoints, with their arguments. -/
inductive Call where
  | stakeNodes (amountToStake : Nat) (blsKeys : List BLSKey)
  | unStakeNodes (blsKeys : List BLSKey)
  | unStakeNodesAndTokens (blsKeys : List BLSKey)
  | unBondNodes (blsKeys : List BLSKey)
  | unBondAllPossibleNodes
  | claimUnusedFunds
  | unJailNodes (blsKeys : List BLSKey) (finePayment : Nat)
deriving DecidableEq, Repr

/-- Run an endpoint: the node states it leaves and the asynchronous call it makes, if any. -/
def runEndpoint (reg : NodeRegistry) (env : Env) (call : Call) (nodeState : Nat → NodeState) :
    Except String ((Nat → NodeState) × Option AsyncCall) :=
  match call with
  | .stakeNodes amountToStake blsKeys =>
      (stakeNodes reg env amountToStake blsKeys nodeState).map fun (s, a) => (s, some a)
  | .unStakeNodes blsKeys =>
      (unstakeNodes reg env false blsKeys nodeState).map fun (s, a) => (s, some a)
  | .unStakeNodesAndTokens blsKeys =>
      (unstakeNodes reg env true blsKeys nodeState).map fun (s, a) => (s, some a)
  | .unBondNodes blsKeys =>
      (unbondSpecificNodes reg env blsKeys nodeState).map fun (s, a) => (s, some a)
  | .unBondAllPossibleNodes => unbondAllPossibleNodes reg env nodeState
  | .claimUnusedFunds => (claimUnusedFunds env).map fun a => (nodeState, some a)
  | .unJailNodes blsKeys finePayment =>
      (unjailNodes reg env blsKeys finePayment nodeState).map fun a => (nodeState, some a)

/-- The contract's node storage, the current block, and the callbacks whose answers are
still to come. -/
structure State where
  nodeState : Nat → NodeState
  blockNonce : UInt64
  inFlight : List CallbackClosure

/-- What can happen next: a call of an endpoint, the auction's answer to one outstanding
request, or a new block. -/
inductive Label where
  | call (env : Env) (call : Call)
  | deliver (closure : CallbackClosure) (result : CallResult)
  | newBlock (blockNonce : UInt64)

/-- The callbacks an asynchronous call registers. -/
def registered : Option AsyncCall → List CallbackClosure
  | some { callback := some closure, .. } => [closure]
  | _ => []

/-- One step. A failed call is reverted whole. An answer is delivered once, to a request
that is outstanding, and only as a partition of its node ids; a failing callback is
reverted but its request is spent all the same. -/
def step (reg : NodeRegistry) (s : State) : Label → State
  | .call env call =>
      match runEndpoint reg env call s.nodeState with
      | .ok (nodeState, asyncCall) =>
          { s with nodeState, inFlight := registered asyncCall ++ s.inFlight }
      | .error _ => s
  | .deliver closure result =>
      if closure ∈ s.inFlight ∧ result.Splits closure.nodeIds then
        { s with
          nodeState :=
            match runCallback s.blockNonce closure result s.nodeState with
            | .ok nodeState => nodeState
            | .error _ => s.nodeState
          inFlight := s.inFlight.erase closure }
      else s
  | .newBlock blockNonce => { s with blockNonce }

/-- Every node Inactive and nothing in flight. -/
def initial (blockNonce : UInt64) : State :=
  { nodeState := fun _ => .inactive, blockNonce, inFlight := [] }

/-- The states the contract reaches from `initial start`. -/
def Reachable (reg : NodeRegistry) (start : UInt64) : State → Prop :=
  Reach (initial start) (step reg) fun _ _ => True

end Delegation.Latest
