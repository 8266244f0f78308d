import PlasmaTiler.Topology

/-!
# Movement model types

The immutable planner input (`Snapshot`), the seven structural operations a
directional move can be, and what each of them asks of the adapter. The
planner over these types is in `PlasmaTiler.Planner`; applying an operation
to a session's trees is a separate function in `PlasmaTiler.Move`.

An operation names nodes by id and carries the shares or slots it is about,
so that it can be checked again by whoever applies it. What it asks of the
adapter is a capability and a list of preconditions, always ended by the
obligation to observe the result.
-/

namespace PlasmaTiler

/-- Window `window` occupies leaf `leaf` on `output` within `workspace`. -/
structure WindowLink where
  window : WindowId
  leaf : NodeId
  output : OutputId
  workspace : WorkspaceId
deriving DecidableEq, Repr, Inhabited

instance : LawfulBEq OutputId := inferInstance

/-- Platform-neutral output topology. -/
structure Output where
  id : OutputId
  workspace : WorkspaceId
  tree : Option Node
  adjacent : BTreeMap Direction OutputId
deriving DecidableEq

/-- Immutable planner input. -/
structure Snapshot where
  outputs : List Output
  windows : List WindowLink
deriving DecidableEq

/-- What a same-axis move onto a leaf neighbor does. -/
inductive SameAxisMove
  | groupWithNeighbor
  | swapWithNeighbor
deriving DecidableEq, Repr, Inhabited

structure MoveIntent where
  sourceOutput : OutputId
  focusedLeaf : NodeId
  focusedWindow : WindowId
  direction : Direction
  sameAxisMove : SameAxisMove
deriving DecidableEq, Repr

/-- Structural rule. -/
inductive Rule
  | r1
  | r2a
  | r2b
  | r2c
  | r3
  | r4
deriving DecidableEq, Repr

/-- Adapter-facing native capability required to realize one operation. -/
inductive Capability
  | swapNeighbor
  | wrapPerpendicular
  | wrapSiblings
  | insertChild
  | splitGroupChild
  | reparentLeaf
  | crossOutputTransfer
deriving DecidableEq, Repr

inductive Precondition
  | focusedLeafOccupiedByFocusedWindow
  | neighborLeafOccupied
  | containerIsDirectParent
  | targetGroupMembership
  | parentGroupMembership
  | sourceRootMembershipAndAdjacentSameWorkspaceOutput
  | adapterMustVerifyPostconditions
deriving DecidableEq, Repr

/-- R2b insertion placement. -/
inductive Insertion
  | midpoint
  | nearEdge
deriving DecidableEq, Repr

/-- R2b split placement of the focused leaf. -/
inductive FocusedSide
  | first
  | second
deriving DecidableEq, Repr

/-- R3 continuation. -/
inductive EscapeContinuation
  | none
  | r1
deriving DecidableEq, Repr

/-- R4 target occupancy. -/
inductive CrossOutputTarget
  | empty
  | occupied
deriving DecidableEq, Repr

/-- Structural operation. -/
inductive MoveOperation
  | wrapPerpendicular (rule : Rule) (container : NodeId) (axis : Axis)
  | swapNeighbor (rule : Rule) (container neighbor : NodeId)
  | insertIntoGroup (rule : Rule) (container targetGroup : NodeId) (insertionIndex : Nat)
      (insertion : Insertion)
  | splitGroupChild (rule : Rule) (container targetGroup targetChild : NodeId)
      (targetChildIndex : Nat) (focusedSide : FocusedSide) (axis : Axis)
  | wrapNeighbor (rule : Rule) (container neighbor : NodeId) (focusedBeforeNeighbor : Bool)
      (axis : Axis)
  | escapeParent (rule : Rule) (container parent : NodeId) (containerChildIndex : Nat)
      (parentInsertionIndex : Option Nat) (continuation : EscapeContinuation)
  | crossOutput (rule : Rule) (targetOutput : OutputId) (targetWorkspace : WorkspaceId)
      (sourceRootChildIndex : Nat) (target : CrossOutputTarget)
deriving DecidableEq, Repr

namespace MoveOperation

def rule : MoveOperation → Rule
  | .wrapPerpendicular rule .. => rule
  | .swapNeighbor rule .. => rule
  | .insertIntoGroup rule .. => rule
  | .splitGroupChild rule .. => rule
  | .wrapNeighbor rule .. => rule
  | .escapeParent rule .. => rule
  | .crossOutput rule .. => rule

def requiredCapability : MoveOperation → Capability
  | .wrapPerpendicular .. => .wrapPerpendicular
  | .swapNeighbor .. => .swapNeighbor
  | .insertIntoGroup .. => .insertChild
  | .splitGroupChild .. => .splitGroupChild
  | .wrapNeighbor .. => .wrapSiblings
  | .escapeParent .. => .reparentLeaf
  | .crossOutput .. => .crossOutputTransfer

/-- What must hold to realize the operation; always terminated by the
postcondition obligation. -/
def preconditions (operation : MoveOperation) : List Precondition :=
  (match operation with
    | .wrapPerpendicular .. =>
        [.focusedLeafOccupiedByFocusedWindow, .containerIsDirectParent]
    | .swapNeighbor .. =>
        [.focusedLeafOccupiedByFocusedWindow, .neighborLeafOccupied, .containerIsDirectParent]
    | .insertIntoGroup .. =>
        [.focusedLeafOccupiedByFocusedWindow, .containerIsDirectParent, .targetGroupMembership]
    | .splitGroupChild .. =>
        [.focusedLeafOccupiedByFocusedWindow, .neighborLeafOccupied, .containerIsDirectParent,
          .targetGroupMembership]
    | .wrapNeighbor .. =>
        [.focusedLeafOccupiedByFocusedWindow, .neighborLeafOccupied, .containerIsDirectParent]
    | .escapeParent .. =>
        [.focusedLeafOccupiedByFocusedWindow, .containerIsDirectParent, .parentGroupMembership]
    | .crossOutput .. =>
        [.focusedLeafOccupiedByFocusedWindow, .sourceRootMembershipAndAdjacentSameWorkspaceOutput])
  ++ [.adapterMustVerifyPostconditions]

end MoveOperation

/-- Adapter-declared capabilities. -/
structure Capabilities where
  swapNeighbor : Bool
  wrapPerpendicular : Bool
  wrapSiblings : Bool
  insertChild : Bool
  splitGroupChild : Bool
  reparentLeaf : Bool
  crossOutputTransfer : Bool
deriving DecidableEq, Repr

namespace Capabilities

def full : Capabilities := ⟨true, true, true, true, true, true, true⟩

def supports (c : Capabilities) : Capability → Bool
  | .swapNeighbor => c.swapNeighbor
  | .wrapPerpendicular => c.wrapPerpendicular
  | .wrapSiblings => c.wrapSiblings
  | .insertChild => c.insertChild
  | .splitGroupChild => c.splitGroupChild
  | .reparentLeaf => c.reparentLeaf
  | .crossOutputTransfer => c.crossOutputTransfer

@[simp] theorem full_supports (c : Capability) : full.supports c = true := by
  cases c <;> rfl

end Capabilities

/-- Deterministic movement plan. -/
structure MovePlan where
  intent : MoveIntent
  rule : Rule
  operation : MoveOperation
  requiredCapability : Capability
  preconditions : List Precondition
deriving DecidableEq, Repr

def MovePlan.forOperation (intent : MoveIntent) (operation : MoveOperation) : MovePlan where
  intent
  rule := operation.rule
  operation
  requiredCapability := operation.requiredCapability
  preconditions := operation.preconditions

inductive NoopReason
  | boundary
  | noAdjacentOutput
  | singleRootLeaf
deriving DecidableEq, Repr

inductive RejectionKind
  | malformedTopology
  | unsupportedTopology
  | focusedLeafNotFound
deriving DecidableEq, Repr

/-- Fail-closed rejection with a diagnostic message. -/
structure Rejection where
  kind : RejectionKind
  message : String
deriving DecidableEq, Repr

inductive MoveOutcome
  | planned (plan : MovePlan)
  | noop (reason : NoopReason)
  | rejected (reason : Rejection)
deriving DecidableEq, Repr

/-- Deterministic tree-relative focus plan; `route` names the descent from
the sibling that is entered down to the leaf. -/
inductive FocusPlan
  | focused (leaf : NodeId) (route : List NodeId)
  | edge
deriving DecidableEq, Repr

end PlasmaTiler
