import Mathlib.Data.List.Lex
import PlasmaTiler.Calls

/-!
# Events and replies

What an adapter hands the engine and what it gets back, for the requests that
work on a pair of domains, directional moves and focus changes with a second
output in sight and explicit sends, and for the intentional float. An adapter
builds each domain and its key from the same entry of a request, so the key
is not carried twice.

Replies keep the refusals apart by kind and text: a proposal that fails, a
convergence that fails, a snapshot that is invalid and a request that is
rejected are different things to an adapter, which throws its session away
for a divergence and tries again for a stale revision.
-/

namespace PlasmaTiler

/-! ## Bounds -/

def maxOpaqueIdLen : Nat := 128

/-- A bounded token. -/
def isOpaqueId (value : String) : Bool :=
  isToken maxOpaqueIdLen isTokenChar value

/-! ## Messages -/

namespace DivergenceKind

def asStr : DivergenceKind → String
  | .staleRevision => "stale-revision"
  | .ownerMismatch => "owner-mismatch"
  | .generationMismatch => "generation-mismatch"
  | .correlationMismatch => "correlation-mismatch"
  | .capabilityRefused => "capability-refused"
  | .partialApplication => "partial-application"
  | .adapterLost => "adapter-lost"
  | .postconditionUnverified => "postcondition-unverified"
  | .postconditionMismatch => "postcondition-mismatch"
  | .revisionExhausted => "revision-exhausted"

def message : DivergenceKind → String
  | .staleRevision => "observation revision does not match verified state"
  | .ownerMismatch => "owner token does not pin verified state"
  | .generationMismatch => "generation does not match verified state"
  | .correlationMismatch => "correlation does not match the pending plan"
  | .capabilityRefused => "adapter cannot realize the required capability"
  | .partialApplication => "adapter reported partial application"
  | .adapterLost => "adapter contact was lost"
  | .postconditionUnverified => "adapter did not verify postconditions"
  | .postconditionMismatch => "plan postconditions do not bind the pending plan"
  | .revisionExhausted => "revision bound reached"

end DivergenceKind

namespace RefusalKind

def asStr : RefusalKind → String
  | .duplicateWindow => "duplicate-window"
  | .unknownWindow => "unknown-window"
  | .unknownDomain => "unknown-domain"
  | .focusMismatch => "focus-mismatch"
  | .notTiled => "not-tiled"
  | .plannerNoop => "planner-noop"
  | .plannerRejected => "planner-rejected"
  | .unsupportedCapability => "unsupported-capability"
  | .crossDomainMismatch => "cross-domain-mismatch"
  | .malformedInput => "malformed-input"
  | .malformedTopology => "malformed-topology"
  | .partialObservation => "partial-observation"
  | .exceptionBehaviorUnselected => "exception-behavior-unselected"
  | .unchanged => "unchanged"
  | .pairBelowMinimum => "pair-below-minimum"

def message : RefusalKind → String
  | .duplicateWindow => "window is already known to the session"
  | .unknownWindow => "window is not known to the session"
  | .unknownDomain => "domain is not known to the session"
  | .focusMismatch => "focus does not resolve to the selected domain"
  | .notTiled => "focused window is not a tiled window"
  | .plannerNoop => "planner reports no movement"
  | .plannerRejected => "planner rejects the movement"
  | .unsupportedCapability => "adapter does not declare the required capability"
  | .crossDomainMismatch => "input output or workspace does not match a logical domain"
  | .malformedInput => "command or observation input is malformed"
  | .malformedTopology => "topology or shares are malformed or not projectable"
  | .partialObservation => "observation does not cover the known window set"
  | .exceptionBehaviorUnselected => "exception window requires an explicit behavior selection"
  | .unchanged => "command would not change session state"
  | .pairBelowMinimum => "resize pair is below the minimum size"

end RefusalKind

namespace ProposeError

def kind : ProposeError → String
  | .pendingExists => "pending-exists"
  | .diverged reason => reason.asStr
  | .refused reason => reason.asStr

def message : ProposeError → String
  | .pendingExists => "complete the pending plan before proposing"
  | .diverged reason => reason.message
  | .refused reason => reason.message

end ProposeError

def observationMessage : String := "observation does not cover the known window set"

def opaqueIdMessage : String := "opaque id is invalid"

def directionKind : String := "direction-invalid"

def directionMessage : String := "direction is invalid"

def parseEngineDirection : String → Option Direction
  | "left" => some .left
  | "right" => some .right
  | "up" => some .up
  | "down" => some .down
  | _ => none

/-! ## Events -/

/-- One carried window. -/
structure EngineWindow where
  window : WindowId
  output : OutputId
  workspace : WorkspaceId
  rect : Rect
  floating : Bool
  fullscreen : Bool
  maximized : Bool
  sticky : Bool
  fixedAuto : Bool
  fixedSuppress : Bool
  hints : WindowSizeHints
deriving DecidableEq

def observedWindowFromEngine (entry : EngineWindow) : ObservedWindow where
  window := entry.window
  output := entry.output
  workspace := entry.workspace
  floating := entry.floating
  fullscreen := entry.fullscreen
  maximized := entry.maximized
  sticky := entry.sticky
  fixedAuto := entry.fixedAuto
  fixedSuppress := entry.fixedSuppress
  hints := entry.hints

/-- The carried windows from top to bottom and left to right, the focused one
last. Without a tolerance for ties, two others with one rectangle leave the
order open. -/
def orderSpatialWithFocusLast (windows : List EngineWindow) (focused : WindowId)
    (allowTiedObservations : Bool) : Option (List EngineWindow) :=
  let others := windows.filter (·.window ≠ focused)
  if !allowTiedObservations && !decide (others.map EngineWindow.rect).Nodup then none
  else
    let position (w : EngineWindow) : List Int := [w.rect.y, w.rect.x, w.rect.h, w.rect.w]
    some (windows.mergeSort fun left right =>
      if left.window = focused ∧ right.window ≠ focused then false
      else if left.window ≠ focused ∧ right.window = focused then true
      else decide (position left ≤ position right))

/-- The commands that work on a pair, and the intentional float. -/
inductive CoreCommand
  | move (window direction : String) (crossOutputTransfer : Bool) (sameAxisMove : SameAxisMove)
  | focus (window direction : String) (floatSubject : Bool)
  | sendToWorkspace (window targetOutput targetWorkspace : String) (follow : Bool)
  | sendToOutput (window targetOutput targetWorkspace : String) (follow : Bool)
  | toggleFloat (window : String) (floatRect : Option Rect)
deriving DecidableEq

/-- The validated observation with one command. -/
structure CoreEvent where
  owner : OwnerId
  generation : GenerationId
  correlation : CorrelationId
  fingerprint : Nat
  domain : OutputDomain
  outerGap : Int
  focusedWindow : WindowId
  windows : List EngineWindow
  /-- Source and target of a two-domain request. -/
  directional : Option (OutputDomain × OutputDomain)
  directionalTargetOuterGap : Option Int
  targetDomain : Option OutputDomain
  targetWindows : List EngineWindow
  command : CoreCommand

namespace CoreEvent

variable (event : CoreEvent)

def binding (base : Nat) : Observation := ⟨event.owner, event.generation, base, event.fingerprint⟩

def sessionObservationFor (base : Nat) (windows : List EngineWindow) : SessionObservation :=
  ⟨event.binding base, windows.map observedWindowFromEngine⟩

def focus : Option WindowId :=
  if event.focusedWindow.isEmpty then none else some event.focusedWindow

end CoreEvent

/-! ## Replies -/

structure MoveCrossView where
  rule : Rule
  intentDirection : Direction
  intentWindow : WindowId
  intentLeaf : NodeId
  sourceOutput : OutputId
  sourceWorkspace : WorkspaceId
  targetOutput : OutputId
  targetWorkspace : WorkspaceId
  sourceRootChildIndex : Nat
  target : CrossOutputTarget
  preconditions : List Precondition
deriving DecidableEq

structure MovePlanReply where
  baseRevision : Nat
  rule : Rule
  capability : Capability
  direction : Direction
  geometry : List DesiredGeometry
  focusDomain : Option DomainKey
  focusLeaf : Option NodeId
  cross : Option MoveCrossView
deriving DecidableEq

namespace MovePlanReply

def fromLocal (direction : Direction) (plan : SessionMovePlan) : MovePlanReply where
  baseRevision := plan.dispatch.baseRevision
  rule := plan.dispatch.rule
  capability := plan.dispatch.requiredCapability
  direction
  geometry := plan.desiredGeometry
  focusDomain := plan.desiredFocusDomain
  focusLeaf := plan.desiredFocusLeaf
  cross := none

/-- `none` unless the operation crossed. -/
def fromCross (plan : SessionMovePlan) (sourceOutput : OutputId) (sourceWorkspace : WorkspaceId) :
    Option MovePlanReply :=
  match plan.dispatch.operation with
  | .crossOutput rule targetOutput targetWorkspace sourceRootChildIndex target =>
    some {
      baseRevision := plan.dispatch.baseRevision
      rule
      capability := plan.dispatch.requiredCapability
      direction := plan.dispatch.intent.direction
      geometry := plan.desiredGeometry
      focusDomain := plan.desiredFocusDomain
      focusLeaf := plan.desiredFocusLeaf
      cross := some {
        rule
        intentDirection := plan.dispatch.intent.direction
        intentWindow := plan.dispatch.intent.focusedWindow
        intentLeaf := plan.dispatch.intent.focusedLeaf
        sourceOutput, sourceWorkspace, targetOutput, targetWorkspace, sourceRootChildIndex, target
        preconditions := plan.dispatch.preconditions } }
  | _ => none

end MovePlanReply

structure FocusPlanReply where
  baseRevision : Nat
  direction : Direction
  toWindow : WindowId
  geometry : List DesiredGeometry
  focusDomain : Option DomainKey
  focusLeaf : Option NodeId
  crossOperation : Option FocusOperation
deriving DecidableEq

namespace FocusPlanReply

def fromLocal (direction : Direction) (plan : SessionFocusPlan) : FocusPlanReply where
  baseRevision := plan.dispatch.baseRevision
  direction
  toWindow := plan.dispatch.operation.toWindow
  geometry := plan.desiredGeometry
  focusDomain := plan.desiredFocusDomain
  focusLeaf := plan.desiredFocusLeaf
  crossOperation := none

def fromCross (direction : Direction) (plan : SessionFocusPlan) : FocusPlanReply :=
  { fromLocal direction plan with crossOperation := some plan.dispatch.operation }

end FocusPlanReply

structure SendWorkspacePlan where
  baseRevision : Nat
  policyVersion : Nat
  geometry : List DesiredGeometry
  focusDomain : Option DomainKey
  focusLeaf : Option NodeId
  follow : Bool
  operation : LifecycleOperation
  preconditions : List LifecyclePrecondition
deriving DecidableEq

/-- A tile moved under an explicit send. -/
def SendWorkspacePlan.fromSession (plan : SessionPlan) : Option SendWorkspacePlan :=
  let follow? := match plan.dispatch.intent with
    | .moveToWorkspace _ _ _ follow | .moveToOutput _ _ _ follow => some follow
    | _ => none
  match follow?, plan.dispatch.operation with
  | some follow, .moveTiled .. => some {
      baseRevision := plan.dispatch.baseRevision
      policyVersion := plan.dispatch.policyVersion
      geometry := plan.desiredGeometry
      focusDomain := plan.desiredFocusDomain
      focusLeaf := plan.desiredFocusLeaf
      follow
      operation := plan.dispatch.operation
      preconditions := plan.dispatch.preconditions }
  | _, _ => none

/-- A lifecycle plan, with the float it decided on. -/
structure TiledPlan where
  baseRevision : Nat
  policyVersion : Nat
  geometry : List DesiredGeometry
  focusDomain : Option DomainKey
  focusLeaf : Option NodeId
  floatWindow : Option WindowId
  floatRect : Option Rect
deriving DecidableEq

/-- The floated window is the one the plan removes from its tree. -/
def TiledPlan.forToggleFloat (plan : SessionPlan) (floatRect : Option Rect) : TiledPlan where
  baseRevision := plan.dispatch.baseRevision
  policyVersion := plan.dispatch.policyVersion
  geometry := plan.desiredGeometry
  focusDomain := plan.desiredFocusDomain
  focusLeaf := plan.desiredFocusLeaf
  floatWindow := floatRect.map fun _ =>
    match plan.dispatch.operation with
    | .remove window .. => window
    | _ => ⟨""⟩
  floatRect

inductive CoreReply
  | sendWorkspace (plan : SendWorkspacePlan)
  | sendOutput (plan : SendWorkspacePlan)
  | moveDirectional (reply : MovePlanReply)
  | focusDirectional (reply : FocusPlanReply)
  | tiled (plan : TiledPlan)
  | rejected (kind message : String)
  | snapshotInvalid (message detail : String)
  | diverged (reason : DivergenceKind)
deriving DecidableEq

namespace CoreReply

/-- A plan was committed. -/
def isPlan : CoreReply → Bool
  | .sendWorkspace _ | .sendOutput _ | .moveDirectional _ | .focusDirectional _ | .tiled _ => true
  | _ => false

/-- The refusal of a proposal. -/
def proposeFailure (error : ProposeError) : CoreReply := .rejected error.kind error.message

/-- The refusal of a convergence, divergence told apart. -/
def convergenceFailure : ProposeError → CoreReply
  | .diverged reason => .diverged reason
  | error => proposeFailure error

def commitRejected : CoreReply := .snapshotInvalid observationMessage "commit-rejected"

end CoreReply

end PlasmaTiler
