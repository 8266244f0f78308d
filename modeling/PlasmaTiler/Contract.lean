import PlasmaTiler.Movement

/-!
# The adapter contract

Observations, acknowledgements and plans the session exchanges with its
adapter. The five plan families (movement, lifecycle, focus, resize, drag)
have plans, dispatches and post-observations of the same shape: `PlanOf`,
`DispatchOf` and `PostOf` are that shape, and each family names its intent,
operation, capability and precondition types. Movement adds its rule,
lifecycle its policy version and resize its second axis.

Every message carries its binding: owner, generation, correlation and the
revision it is based on. Revisions are bounded, so that they can be told
apart by number; a session that has reached the bound plans nothing more.
-/

namespace PlasmaTiler

/-- Lifecycle policy version carried by lifecycle plans. -/
def lifecyclePolicyVersion : Nat := 1
/-- Revision bound (inclusive). -/
def maxRevision : Nat := 1000000
/-- Precondition vector cap. -/
def maxPreconditions : Nat := 8

def isRevision (value : Nat) : Bool := value ≤ maxRevision

/-- Immutable normalized adapter observation; the fingerprint is opaque. -/
structure Observation where
  owner : OwnerId
  generation : GenerationId
  revision : Nat
  fingerprint : Nat
deriving DecidableEq

def Observation.validate (o : Observation) : Bool :=
  isOwnerId o.owner.asStr && isGenerationId o.generation.asStr && isRevision o.revision

/-- Adapter acknowledgement outcome. -/
inductive AckOutcome
  | accepted
  | refusedCapability
  | partialApplication
  | adapterLost
deriving DecidableEq, Repr

/-- Explicit adapter acknowledgement of a dispatched plan. -/
structure AdapterAck where
  correlationId : CorrelationId
  owner : OwnerId
  generation : GenerationId
  baseRevision : Nat
  outcome : AckOutcome
deriving DecidableEq

/-- Typed fail-closed divergence reasons. -/
inductive DivergenceKind
  | staleRevision
  | ownerMismatch
  | generationMismatch
  | correlationMismatch
  | capabilityRefused
  | partialApplication
  | adapterLost
  | postconditionUnverified
  | postconditionMismatch
  | revisionExhausted
deriving DecidableEq, Repr

/-! ## The shared plan shape -/

/-- A plan: the semantic operation with what it asks of the adapter. -/
structure PlanOf (I O C P : Type) where
  intent : I
  operation : O
  requiredCapability : C
  preconditions : List P
deriving DecidableEq

/-- The payload emitted for a plan, with its identity binding. -/
structure DispatchOf (I O C P : Type) where
  correlationId : CorrelationId
  owner : OwnerId
  generation : GenerationId
  baseRevision : Nat
  requiredCapability : C
  preconditions : List P
  intent : I
  operation : O
deriving DecidableEq

/-- A fresh observation after realizing a plan, with what the adapter
verified. -/
structure PostOf (O P : Type) where
  observation : Observation
  correlationId : CorrelationId
  verified : Bool
  verifiedPreconditions : List P
  verifiedOperation : O
deriving DecidableEq

/-! ## Movement -/

structure Dispatch extends DispatchOf MoveIntent MoveOperation Capability Precondition where
  rule : Rule
deriving DecidableEq

abbrev PostObservation := PostOf MoveOperation Precondition

/-! ## Lifecycle -/

inductive LifecycleCapability
  | admitTiled
  | removeTiled
  | moveTiled
  | toggleOrientation
deriving DecidableEq, Repr

structure LifecycleCapabilities where
  admitTiled : Bool
  removeTiled : Bool
  moveTiled : Bool
  toggleOrientation : Bool
deriving DecidableEq, Repr

def LifecycleCapabilities.full : LifecycleCapabilities := ⟨true, true, true, true⟩

def LifecycleCapabilities.supports (c : LifecycleCapabilities) : LifecycleCapability → Bool
  | .admitTiled => c.admitTiled
  | .removeTiled => c.removeTiled
  | .moveTiled => c.moveTiled
  | .toggleOrientation => c.toggleOrientation

inductive LifecyclePrecondition
  | windowObserved
  | desiredTopologyValid
  | adapterMustVerifyPostconditions
deriving DecidableEq, Repr

inductive LifecycleIntent
  | admitTiled (window : WindowId) (output : OutputId) (workspace : WorkspaceId)
  | remove (window : WindowId)
  | moveToWorkspace (window : WindowId) (targetOutput : OutputId) (targetWorkspace : WorkspaceId)
      (follow : Bool)
  | moveToOutput (window : WindowId) (targetOutput : OutputId) (targetWorkspace : WorkspaceId)
      (follow : Bool)
  | toggleOrientation (window : WindowId) (output : OutputId) (workspace : WorkspaceId)
deriving DecidableEq, Repr

inductive LifecycleOperation
  | admitTiled (window : WindowId) (leaf : NodeId) (output : OutputId) (workspace : WorkspaceId)
  | admitDeferred (window : WindowId) (output : OutputId) (workspace : WorkspaceId)
  | remove (window : WindowId) (leaf : NodeId) (output : OutputId) (workspace : WorkspaceId)
  | removeDeferred (window : WindowId) (output : OutputId) (workspace : WorkspaceId)
  | moveTiled (window : WindowId) (leaf : NodeId) (sourceOutput : OutputId)
      (sourceWorkspace : WorkspaceId) (targetOutput : OutputId) (targetWorkspace : WorkspaceId)
  | toggleOrientation (window : WindowId) (leaf group : NodeId) (output : OutputId)
      (workspace : WorkspaceId)
deriving DecidableEq, Repr

def LifecycleOperation.requiredCapability : LifecycleOperation → LifecycleCapability
  | .admitTiled .. | .admitDeferred .. => .admitTiled
  | .remove .. | .removeDeferred .. => .removeTiled
  | .moveTiled .. => .moveTiled
  | .toggleOrientation .. => .toggleOrientation

def LifecycleOperation.preconditions (_ : LifecycleOperation) : List LifecyclePrecondition :=
  [.windowObserved, .desiredTopologyValid, .adapterMustVerifyPostconditions]

structure LifecyclePlan extends
    PlanOf LifecycleIntent LifecycleOperation LifecycleCapability LifecyclePrecondition where
  policyVersion : Nat
deriving DecidableEq

def LifecyclePlan.forOperation (intent : LifecycleIntent) (operation : LifecycleOperation) :
    LifecyclePlan where
  intent
  operation
  requiredCapability := operation.requiredCapability
  preconditions := operation.preconditions
  policyVersion := lifecyclePolicyVersion

structure LifecycleDispatch extends
    DispatchOf LifecycleIntent LifecycleOperation LifecycleCapability LifecyclePrecondition where
  policyVersion : Nat
deriving DecidableEq

abbrev LifecyclePostObservation := PostOf LifecycleOperation LifecyclePrecondition

/-! ## Focus -/

inductive FocusCapability
  | directionalFocus
deriving DecidableEq, Repr

structure FocusCapabilities where
  directionalFocus : Bool
deriving DecidableEq, Repr

def FocusCapabilities.supports (c : FocusCapabilities) : FocusCapability → Bool
  | .directionalFocus => c.directionalFocus

inductive FocusPrecondition
  | focusedLeafOccupiedByFocusedWindow
  | focusedFloatingWindow
  | targetLeafOccupied
  | focusTargetsSameDomain
  | focusTargetsAdjacentOutput
  | adapterMustVerifyPostconditions
deriving DecidableEq, Repr

structure FocusIntent where
  domainOutput : OutputId
  domainWorkspace : WorkspaceId
  focusedLeaf : Option NodeId
  focusedWindow : WindowId
  direction : Direction
deriving DecidableEq, Repr

structure FocusOperation where
  domainOutput : OutputId
  domainWorkspace : WorkspaceId
  fromLeaf : Option NodeId
  toLeaf : NodeId
  fromWindow : WindowId
  toWindow : WindowId
  direction : Direction
  route : List NodeId
  crossSourceOutput : Option OutputId
  crossSourceWorkspace : Option WorkspaceId
deriving DecidableEq, Repr

namespace FocusOperation

def isCrossOutput (o : FocusOperation) : Bool :=
  o.crossSourceOutput.isSome || o.crossSourceWorkspace.isSome

def requiredCapability (_ : FocusOperation) : FocusCapability := .directionalFocus

def preconditions (o : FocusOperation) : List FocusPrecondition :=
  [if o.fromLeaf.isNone then .focusedFloatingWindow else .focusedLeafOccupiedByFocusedWindow,
    .targetLeafOccupied,
    if o.isCrossOutput then .focusTargetsAdjacentOutput else .focusTargetsSameDomain,
    .adapterMustVerifyPostconditions]

end FocusOperation

abbrev FocusPlanContract :=
  PlanOf FocusIntent FocusOperation FocusCapability FocusPrecondition

def FocusPlanContract.forOperation (intent : FocusIntent) (operation : FocusOperation) :
    FocusPlanContract where
  intent
  operation
  requiredCapability := operation.requiredCapability
  preconditions := operation.preconditions

abbrev FocusDispatch := DispatchOf FocusIntent FocusOperation FocusCapability FocusPrecondition

abbrev FocusPostObservation := PostOf FocusOperation FocusPrecondition

/-! ## Resize -/

inductive ResizeCapability
  | keyboardResize
  | pointerResize
deriving DecidableEq, Repr

structure ResizeCapabilities where
  keyboardResize : Bool
  pointerResize : Bool
deriving DecidableEq, Repr

def ResizeCapabilities.supports (c : ResizeCapabilities) : ResizeCapability → Bool
  | .keyboardResize => c.keyboardResize
  | .pointerResize => c.pointerResize

inductive ResizePrecondition
  | focusedLeafOccupiedByFocusedWindow
  | targetBoundaryValid
  | resizeTargetsSameDomain
  | adapterMustVerifyPostconditions
deriving DecidableEq, Repr

inductive ResizeMode
  | inwards
  | outwards
deriving DecidableEq, Repr

structure ResizeIntent where
  domainOutput : OutputId
  domainWorkspace : WorkspaceId
  focusedLeaf : NodeId
  focusedWindow : WindowId
  direction : Direction
  mode : ResizeMode
deriving DecidableEq, Repr

structure ResizeOperation where
  domainOutput : OutputId
  domainWorkspace : WorkspaceId
  focusedLeaf : NodeId
  focusedWindow : WindowId
  direction : Direction
  mode : ResizeMode
  targetGroup : NodeId
  focusedChild : NodeId
  neighborChild : NodeId
  focusedIndex : Nat
  neighborIndex : Nat
  oldShares : List Nat
  newShares : List Nat
deriving DecidableEq, Repr

def ResizeOperation.requiredCapability (_ : ResizeOperation) : ResizeCapability := .keyboardResize

def ResizeOperation.preconditions (_ : ResizeOperation) : List ResizePrecondition :=
  [.focusedLeafOccupiedByFocusedWindow, .targetBoundaryValid, .resizeTargetsSameDomain,
    .adapterMustVerifyPostconditions]

abbrev ResizePlan := PlanOf ResizeIntent ResizeOperation ResizeCapability ResizePrecondition

def ResizePlan.forOperation (intent : ResizeIntent) (operation : ResizeOperation) :
    ResizePlan where
  intent
  operation
  requiredCapability := operation.requiredCapability
  preconditions := operation.preconditions

structure ResizeDispatch extends
    DispatchOf ResizeIntent ResizeOperation ResizeCapability ResizePrecondition where
  secondaryOperation : Option ResizeOperation
deriving DecidableEq

structure ResizePostObservation extends PostOf ResizeOperation ResizePrecondition where
  verifiedSecondaryOperation : Option ResizeOperation
deriving DecidableEq

/-! ## Drag -/

inductive DragCapability
  | placeTiled
deriving DecidableEq, Repr

structure DragCapabilities where
  placeTiled : Bool
deriving DecidableEq, Repr

def DragCapabilities.supports (c : DragCapabilities) : DragCapability → Bool
  | .placeTiled => c.placeTiled

inductive DragPrecondition
  | sourceLeafOccupiedBySourceWindow
  | targetLeafOccupied
  | dragTargetsSameDomain
  | adapterMustVerifyPostconditions
deriving DecidableEq, Repr

/-- Drop side; `center` is the stack zone, which never yields an operation. -/
inductive DragSide
  | left
  | right
  | top
  | bottom
  | center
deriving DecidableEq, Repr

def DragSide.axis : DragSide → Option Axis
  | .left | .right => some .horizontal
  | .top | .bottom => some .vertical
  | .center => none

def DragSide.before : DragSide → Option Bool
  | .left | .top => some true
  | .right | .bottom => some false
  | .center => none

def DragSide.isStack (side : DragSide) : Bool := side == .center

structure DragIntent where
  domainOutput : OutputId
  domainWorkspace : WorkspaceId
  sourceLeaf : NodeId
  sourceWindow : WindowId
  targetLeaf : NodeId
  targetWindow : WindowId
  side : DragSide
deriving DecidableEq, Repr

structure DragOperation where
  domainOutput : OutputId
  domainWorkspace : WorkspaceId
  sourceLeaf : NodeId
  sourceWindow : WindowId
  targetLeaf : NodeId
  targetWindow : WindowId
  side : DragSide
  axis : Axis
  before : Bool
  targetGroup : NodeId
  insertionIndex : Nat
  wrap : Bool
  newGroup : Option NodeId
deriving DecidableEq, Repr

def DragOperation.requiredCapability (_ : DragOperation) : DragCapability := .placeTiled

def DragOperation.preconditions (_ : DragOperation) : List DragPrecondition :=
  [.sourceLeafOccupiedBySourceWindow, .targetLeafOccupied, .dragTargetsSameDomain,
    .adapterMustVerifyPostconditions]

abbrev DragPlan := PlanOf DragIntent DragOperation DragCapability DragPrecondition

def DragPlan.forOperation (intent : DragIntent) (operation : DragOperation) : DragPlan where
  intent
  operation
  requiredCapability := operation.requiredCapability
  preconditions := operation.preconditions

abbrev DragDispatch := DispatchOf DragIntent DragOperation DragCapability DragPrecondition

abbrev DragPostObservation := PostOf DragOperation DragPrecondition

end PlasmaTiler
