import PlasmaTiler.ActiveGroup
import PlasmaTiler.Engine
import PlasmaTiler.Seed

/-!
# Requests

Everything an adapter can ask of the engine. A request is the observation of
an event with its command: one that works on a pair of domains or floats a
window, or one over a single domain. Size limits and duplicate windows are
turned away before a request gets here.

The two kinds of command come from two enumerations of the source, and the
second stands in place of the first: a `Request` is an event together with
what its own command does not need. Replies are as the source has them,
because a plan is answered in many shapes (a tiled plan, a resize with the
boundary it answers, a drag preview, a migrated workspace) that the adapter
tells apart, and refusals carry a kind and a text.
-/

namespace PlasmaTiler

/-! ## Commands -/

/-- The commands over one domain, and the migration of a whole workspace. -/
inductive DomainCommand
  | reconcile
  | updateGaps
  | activeGroup
  | releaseDomain
  | toggleOrientation (window : String)
  | resize (window direction mode : String) (pressIndex : Nat)
  | pointerResize (window direction : String) (boundary : Int) (direction2 : Option String)
      (boundary2 : Option Int)
  | migrateWorkspace (direction : String)
  | dragDrop (window : String) (x y : Int) (hoverPrior : Option DragHoverPrior)
      (source : Option DomainKey)
  | dragPreview (window : String) (x y : Int) (hoverPrior : Option DragHoverPrior)
      (source : Option DomainKey)
deriving DecidableEq

/-- An event with what its own command does not need: the carried revision,
the windows kept out of fitting, and the command over one domain that stands
in place of the event's. -/
structure Request where
  event : CoreEvent
  revision : Nat
  fitExcluded : BTreeSet WindowId
  command : Option DomainCommand

/-- What the fit reads of the carried windows. -/
def Request.fitWindows (r : Request) : List Seed.EngineWindow :=
  r.event.windows.map fun entry =>
    ⟨entry.window, entry.rect, entry.floating, r.fitExcluded.contains entry.window⟩

/-! ## Replies -/

/-- The kind of a tiled plan. -/
inductive TiledKind
  | admitted
  | toggleOrientation
  | dragDrop
deriving DecidableEq, Repr

namespace TiledPlan

/-- A lifecycle plan without a float. -/
def fromLifecycle (plan : SessionPlan) : TiledPlan where
  baseRevision := plan.dispatch.baseRevision
  policyVersion := plan.dispatch.policyVersion
  geometry := plan.desiredGeometry
  focusDomain := plan.desiredFocusDomain
  focusLeaf := plan.desiredFocusLeaf
  floatWindow := none
  floatRect := none

def fromDrag (plan : SessionDragPlan) : TiledPlan where
  baseRevision := plan.dispatch.baseRevision
  policyVersion := lifecyclePolicyVersion
  geometry := plan.desiredGeometry
  focusDomain := plan.desiredFocusDomain
  focusLeaf := plan.desiredFocusLeaf
  floatWindow := none
  floatRect := none

/-- A projection reported as a plan. -/
def fromProjection (plan : ProjectionPlan) : TiledPlan where
  baseRevision := plan.baseRevision
  policyVersion := lifecyclePolicyVersion
  geometry := plan.geometry
  focusDomain := plan.focusDomain
  focusLeaf := plan.focusLeaf
  floatWindow := none
  floatRect := none

end TiledPlan

/-- The second axis of a corner resize. -/
structure SecondaryPointerResize where
  direction : Direction
  boundary : Int
  operation : ResizeOperation
deriving DecidableEq

/-- A resize plan with the keyboard mode or the pointer boundary it answers. -/
structure ResizePlanReply where
  baseRevision : Nat
  direction : Direction
  mode : Option ResizeMode
  boundary : Option Int
  operation : ResizeOperation
  secondary : Option SecondaryPointerResize
  geometry : List DesiredGeometry
  focusDomain : Option DomainKey
  focusLeaf : Option NodeId
deriving DecidableEq

namespace ResizePlanReply

def fromKeyboard (direction : Direction) (mode : ResizeMode) (plan : SessionResizePlan) :
    ResizePlanReply where
  baseRevision := plan.dispatch.baseRevision
  direction
  mode := some mode
  boundary := none
  operation := plan.dispatch.operation
  secondary := none
  geometry := plan.desiredGeometry
  focusDomain := plan.desiredFocusDomain
  focusLeaf := plan.desiredFocusLeaf

def fromPointer (direction : Direction) (boundary : Int) (plan : SessionResizePlan) :
    ResizePlanReply where
  baseRevision := plan.dispatch.baseRevision
  direction
  mode := none
  boundary := some boundary
  operation := plan.dispatch.operation
  secondary := none
  geometry := plan.desiredGeometry
  focusDomain := plan.desiredFocusDomain
  focusLeaf := plan.desiredFocusLeaf

def fromPointerCorner (direction : Direction) (boundary : Int) (direction2 : Direction)
    (boundary2 : Int) (plan : SessionResizePlan) : ResizePlanReply :=
  { fromPointer direction boundary plan with
    secondary := plan.secondaryPlan.map fun secondary => ⟨direction2, boundary2, secondary.operation⟩ }

end ResizePlanReply

/-- A migrated workspace. The retained sessions are rekeyed already; the
adapter still has to move the windows and to verify it. -/
structure MigrateWorkspacePlan where
  baseRevision : Nat
  direction : Direction
  source : DomainKey
  target : DomainKey
  geometry : List DesiredGeometry
  focusDomain : Option DomainKey
  focusLeaf : Option NodeId
  activeWindow : Option WindowId
  members : Nat
  floats : Nat
  preconditions : List LifecyclePrecondition
deriving DecidableEq

structure DragPreviewPlan where
  baseRevision : Nat
  preview : DragPreview
deriving DecidableEq

inductive EngineReply
  | core (reply : CoreReply)
  | projection (plan : ProjectionPlan)
  | tiled (kind : TiledKind) (plan : TiledPlan)
  | migrateWorkspace (plan : MigrateWorkspacePlan)
  | resize (reply : ResizePlanReply)
  | activeGroup (found : ActiveGroupFound)
  | noGroup (baseRevision : Option Nat) (reason : NoGroupReason)
  | dragPreview (plan : DragPreviewPlan)
  | released
deriving DecidableEq

namespace RefusalKind

/-- The reply of a refusal. -/
def reply (kind : RefusalKind) : CoreReply := .rejected kind.asStr kind.message

end RefusalKind

def CoreReply.pendingExists : CoreReply := .proposeFailure .pendingExists

def CoreReply.unknownValue : CoreReply :=
  .rejected "unknown-value" "request contains an unknown value"

def CoreReply.outerGapMismatch : CoreReply :=
  .rejected "domain-mismatch" "domain outer gap does not match retained state"

def parseEngineMode : String → Option ResizeMode
  | "inwards" => some .inwards
  | "outwards" => some .outwards
  | _ => none

end PlasmaTiler
