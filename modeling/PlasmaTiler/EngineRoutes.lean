import PlasmaTiler.Fit
import PlasmaTiler.Requests
import PlasmaTiler.Seeding

/-!
# The routes of one domain

What the requests over one domain share. The source writes them out one by
one, with the same skeleton each time: find the session of the domain,
propose on a copy of it, acknowledge and verify the plan, and store the copy
once it is committed. A `Route` is what differs, how a command is proposed,
answered and committed, and `runRetained` is the skeleton.

A domain that is not retained, or not usable, is taken over from another
output that shows the same workspace, or rebuilt from the screen. Whether a
failed proposal is worth a rebuild is decided by its error (`needsRebuild`).
A domain the request has just converged is never rebuilt, so that what the
convergence kept stays; and a relocation whose route fails is undone, slot
and gap both.

The commands follow with their own parsing and their own refusals, in the
order of the source.
-/

namespace PlasmaTiler

/-- A directional command or a resize names its direction and its mode. -/
def directionRejected : EngineReply := .core (.rejected directionKind directionMessage)

namespace Engine

/-! ## Slots -/

/-- The session to propose on; a slot that cannot be used is retired. -/
def takeUsableSession (e : Engine) (domain : OutputDomain) : Engine × Option Session :=
  match e.sessions[domain.key]? with
  | none => (e, none)
  | some s =>
    if !s.usable || !s.domainMatches domain || s.committedIsEmpty then (e.remove domain.key, none)
    else (e, some s)

/-- The retained domain with the target's workspace on another output, when
there is exactly one. -/
def findUniqueSourceForTarget (e : Engine) (target : DomainKey) : Option DomainKey :=
  match e.sessions.keys.filter fun key =>
      key.workspace == target.workspace && key.output != target.output with
  | [source] => some source
  | _ => none

/-- Move the session of a workspace to the output that shows it now. -/
def tryRelocateForTarget (e : Engine) (target : OutputDomain) (outerGap : Int) : Option Engine := do
  require (validGap outerGap)
  require (!e.contains target.key)
  let source ← e.findUniqueSourceForTarget target.key
  let s ← e.sessions[source]?
  require s.usable
  require (!(s.hasPendingDesired || s.hasDrag))
  require (!s.committedIsEmpty)
  match s.relocateDomain source target.key target.bounds target.gap with
  | (_, false) => none
  | (moved, true) =>
    require (!moved.committedIsEmpty)
    return { e with
      sessions := (e.sessions.erase source).insert target.key moved
      outerGaps := (e.outerGaps.erase source).insert target.key outerGap }

/-- Put a changed copy of a retained session back; the gap stays. -/
def putSession (e : Engine) (key : DomainKey) (s : Session) : Engine :=
  { e with sessions := e.sessions.insert key s }

/-- Update the work area of a retained domain; the session need not be
settled. -/
def reprojectRetained (e : Engine) (key : DomainKey) (bounds : Rect) : Engine :=
  match e.sessions[key]? with
  | none => e
  | some s => e.putSession key (s.reprojectDomain key bounds)

/-! ## Routes -/

/-- How a command over one domain is proposed, answered and committed. -/
structure Route (R : Type) where
  propose : Session → SessionObservation → Session × Except ProposeError R
  reply : R → EngineReply
  commit : Session → R → Nat → Option Session

/-- What became of a route on one session. -/
inductive Attempt
  | stored (s : Session) (reply : EngineReply)
  | commitRejected
  | failed (error : ProposeError)

/-- Run a route on a copy of a session. -/
def Route.run {R : Type} (route : Route R) (event : CoreEvent) (s : Session) : Attempt :=
  let base := s.acceptedRevision
  match route.propose s (event.sessionObservationFor base event.windows) with
  | (_, .error error) => .failed error
  | (s, .ok plan) =>
    match route.commit s plan base with
    | some s => .stored s (route.reply plan)
    | none => .commitRejected

/-- Proposals that fail like this are tried again on a rebuilt session. -/
def needsRebuild : ProposeError → Bool
  | .diverged _ => true
  | .refused kind => kind == .partialObservation
  | .pendingExists => false

def failure (error : ProposeError) : EngineReply := .core (.proposeFailure error)

/-- The refusal of an order the windows do not determine. -/
def ambiguousReply (ambiguousAsSnapshot : Bool) : CoreReply :=
  if ambiguousAsSnapshot then .snapshotInvalid observationMessage "missing-seed-order"
  else .rejected "ambiguous-placement" "window placement is ambiguous"

/-- The tail of a route: seed a new session and run on it, unless the request
has converged the domain. -/
def rebuild {R : Type} (e : Engine) (event : CoreEvent) (converged : Bool)
    (seedOrder : Option (List EngineWindow)) (ambiguousAsSnapshot : Bool) (route : Route R) :
    Engine × EngineReply :=
  match seedOrder with
  | none => (e, .core (ambiguousReply ambiguousAsSnapshot))
  | some order =>
    if converged then (e, .core (RefusalKind.reply .partialObservation))
    else
      match seedSession event.owner event.generation event.fingerprint event.domain order with
      | none => (e, .core (.snapshotInvalid observationMessage "seed-failed"))
      | some s =>
        match route.run event s with
        | .stored s reply => (e.storeCommitted event.domain.key s event.outerGap, reply)
        | .commitRejected => (e, .core .commitRejected)
        | .failed error => (e, failure error)

/-- Whether a slot is not one to propose on. -/
def unfit (e : Engine) (domain : OutputDomain) : Bool :=
  e.sessions[domain.key]?.any fun s =>
    !s.usable || !s.domainMatches domain || s.committedIsEmpty

/-- Run a route on the retained session of a domain, else on the one a
relocation brings, else on a rebuilt one. A failed relocation is undone. -/
def runRetained {R : Type} (e : Engine) (event : CoreEvent) (converged : Bool)
    (seedOrder : Option (List EngineWindow)) (ambiguousAsSnapshot : Bool) (route : Route R) :
    Engine × EngineReply :=
  let targetExisted := e.contains event.domain.key
  let tail (e : Engine) := e.rebuild event converged seedOrder ambiguousAsSnapshot route
  -- a slot that was just converged is not retired, and not proposed on
  match if converged && e.unfit event.domain then (e, none)
    else e.takeUsableSession event.domain with
  | (e, some s) =>
    match route.run event s with
    | .stored s reply => (e.storeCommitted event.domain.key s event.outerGap, reply)
    | .commitRejected => (e.remove event.domain.key, .core .commitRejected)
    | .failed error =>
      if !needsRebuild error || converged then (e, failure error)
      else tail (e.remove event.domain.key)
  | (e, none) =>
    if targetExisted then tail e
    else
      match e.tryRelocateForTarget event.domain event.outerGap with
      | none => tail e
      | some moved =>
        match moved.takeUsableSession event.domain with
        | (_, none) => tail e
        | (moved, some s) =>
          match route.run event s with
          | .stored s reply => (moved.storeCommitted event.domain.key s event.outerGap, reply)
          | .commitRejected => (e, .core .commitRejected)
          | .failed error => if needsRebuild error then tail e else (e, failure error)

/-! ## The commands -/

/-- A command that first follows the observed focus. -/
def focused {α : Type} (event : CoreEvent)
    (propose : Session → SessionObservation → Session × Except ProposeError α) (s : Session)
    (observation : SessionObservation) : Session × Except ProposeError α :=
  propose (s.syncFocusFromWindow event.domain.key event.focusedWindow).1 observation

def commitResize (s : Session) (event : CoreEvent) (plan : SessionResizePlan) (base : Nat) :
    Option Session :=
  commitWith s event base fun s =>
    s.verifyResize { postOf event base plan.dispatch.toDispatchOf with
      verifiedSecondaryOperation := none }

/-- Both operations of a corner are bound. -/
def commitResizeCorner (s : Session) (event : CoreEvent) (plan : SessionResizePlan) (base : Nat) :
    Option Session :=
  commitWith s event base fun s =>
    s.verifyResize { postOf event base plan.dispatch.toDispatchOf with
      verifiedSecondaryOperation := plan.dispatch.secondaryOperation }

def commitDrag (s : Session) (event : CoreEvent) (plan : SessionDragPlan) (base : Nat) :
    Option Session :=
  commitWith s event base fun s => s.verifyDrag (postOf event base plan.dispatch)

def moveRoute (event : CoreEvent) (window : WindowId) (direction : Direction)
    (sameAxisMove : SameAxisMove) : Route SessionMovePlan where
  propose := focused event fun s observation =>
    s.proposeMoveWithSameAxis event.domain.key window direction observation event.correlation .full
      sameAxisMove
  reply plan := .core (.moveDirectional (.fromLocal direction plan))
  commit s plan base := commitDirectionalMove s event plan base

def focusRoute (event : CoreEvent) (window : WindowId) (direction : Direction) :
    Route SessionFocusPlan where
  propose := focused event fun s observation =>
    s.proposeFocus event.domain.key window direction observation event.correlation fullFocus
  reply plan := .core (.focusDirectional (.fromLocal direction plan))
  commit s plan base := commitDirectionalFocus s event plan base

def orientationRoute (event : CoreEvent) (window : WindowId) : Route SessionPlan where
  propose := focused event fun s observation =>
    s.propose (.toggleOrientation window) observation event.correlation .full
  reply plan := .tiled .toggleOrientation (.fromLifecycle plan)
  commit s plan base := commitLifecycle s event plan base

/-- A float is answered with the rectangle it has staged. -/
def floatRoute (event : CoreEvent) (window : WindowId) (floatRect : Option Rect) :
    Route (SessionPlan × Option Rect) where
  propose s observation :=
    match s.propose (.toggleFloat window floatRect) observation event.correlation .full with
    | (s, .error error) => (s, .error error)
    | (s, .ok plan) => (s, .ok (plan, (s.pendingDesired.bind fun desired =>
        desired.exceptions[window]?).bind ExceptionRecord.floatingGeometry))
  reply result := .core (.tiled (.forToggleFloat result.1 result.2))
  commit s result base := commitLifecycle s event result.1 base

def keyboardRoute (event : CoreEvent) (window : WindowId) (direction : Direction)
    (mode : ResizeMode) (pressIndex : Nat) : Route SessionResizePlan where
  propose := focused event fun s observation =>
    s.proposeResize event.domain.key window direction mode pressIndex observation event.correlation
      ⟨true, false⟩
  reply plan := .resize (.fromKeyboard direction mode plan)
  commit s plan base := commitResize s event plan base

def pointerRoute (event : CoreEvent) (window : WindowId) (direction : Direction) (boundary : Int) :
    Route SessionResizePlan where
  propose := focused event fun s observation =>
    s.proposePointerResize event.domain.key window direction boundary observation
      event.correlation ⟨false, true⟩
  reply plan := .resize (.fromPointer direction boundary plan)
  commit s plan base := commitResize s event plan base

def cornerRoute (event : CoreEvent) (window : WindowId) (directionH : Direction) (boundaryH : Int)
    (directionV : Direction) (boundaryV : Int) : Route SessionResizePlan where
  propose := focused event fun s observation =>
    s.proposePointerResizeCorner event.domain.key window directionH boundaryH directionV boundaryV
      observation event.correlation ⟨false, true⟩
  reply plan := .resize (.fromPointerCorner directionH boundaryH directionV boundaryV plan)
  commit s plan base := commitResizeCorner s event plan base

/-- Admit a window beside the focus. -/
def admitRoute (event : CoreEvent) (window : WindowId) : Route SessionPlan where
  propose s observation :=
    s.propose (.admitWindow {
      window
      output := event.domain.id
      workspace := event.domain.workspace
      exceptions := .none
      exceptionBehavior := none
      placementBounds := s.seedTargetBounds event.domain
      suppressFixedFloat := false }) observation event.correlation .full
  reply plan := .tiled .admitted (.fromLifecycle plan)
  commit s plan base := commitLifecycle s event plan base

/-- The order a domain is rebuilt in when its windows may not tie. -/
def strictOrder (event : CoreEvent) : Option (List EngineWindow) :=
  orderSpatialWithFocusLast event.windows event.focusedWindow false

def invalidWindow (detail : String) : EngineReply := .core (.snapshotInvalid opaqueIdMessage detail)

def localMoveRequest (e : Engine) (event : CoreEvent) (converged : Bool)
    (window direction : String) (sameAxisMove : SameAxisMove) : Engine × EngineReply :=
  if !isOpaqueId window then (e, invalidWindow "move-window-invalid")
  else
    match parseEngineDirection direction with
    | none => (e, directionRejected)
    | some direction => e.runRetained event converged (strictOrder event) true
        (moveRoute event ⟨window⟩ direction sameAxisMove)

def localFocusRequest (e : Engine) (event : CoreEvent) (converged : Bool)
    (window direction : String) : Engine × EngineReply :=
  if !isOpaqueId window then (e, invalidWindow "focus-window-invalid")
  else
    match parseEngineDirection direction with
    | none => (e, directionRejected)
    | some direction => e.runRetained event converged (strictOrder event) true
        (focusRoute event ⟨window⟩ direction)

def toggleOrientationRequest (e : Engine) (event : CoreEvent) (converged : Bool)
    (window : String) : Engine × EngineReply :=
  if !isOpaqueId window then (e, invalidWindow "toggle-orient-window-invalid")
  else e.runRetained event converged (strictOrder event) true (orientationRoute event ⟨window⟩)

def resizeRequest (e : Engine) (event : CoreEvent) (converged : Bool)
    (window direction mode : String) (pressIndex : Nat) : Engine × EngineReply :=
  if !isOpaqueId window then (e, invalidWindow "resize-window-invalid")
  else
    match parseEngineDirection direction, parseEngineMode mode with
    | some direction, some mode => e.runRetained event converged (strictOrder event) true
        (keyboardRoute event ⟨window⟩ direction mode pressIndex)
    | _, _ => (e, directionRejected)

/-- The second axis of a corner: it has a direction across the first one, or
it is absent altogether. -/
def cornerOf (direction : Direction) (direction2 : Option String) (boundary2 : Option Int) :
    Except CoreReply (Option (Direction × Int)) :=
  match direction2, boundary2 with
  | none, none => .ok none
  | some raw, some second =>
    match parseEngineDirection raw with
    | none => .error (.rejected directionKind directionMessage)
    | some parsed =>
      if Axis.forDirection direction = Axis.forDirection parsed then
        .error (.rejected directionKind directionMessage)
      else .ok (some (parsed, second))
  | _, _ => .error .unknownValue

def pointerResizeRequest (e : Engine) (event : CoreEvent) (converged : Bool)
    (window direction : String) (boundary : Int) (direction2 : Option String)
    (boundary2 : Option Int) : Engine × EngineReply :=
  if !isOpaqueId window then (e, invalidWindow "pointer-resize-window-invalid")
  else
    match parseEngineDirection direction with
    | none => (e, directionRejected)
    | some direction =>
      match cornerOf direction direction2 boundary2 with
      | .error reply => (e, .core reply)
      | .ok none => e.runRetained event converged (strictOrder event) true
          (pointerRoute event ⟨window⟩ direction boundary)
      | .ok (some (second, secondBoundary)) =>
        -- the horizontal axis comes first, whatever the order on the wire
        e.runRetained event converged (strictOrder event) true
          (if Axis.forDirection direction = .horizontal then
            cornerRoute event ⟨window⟩ direction boundary second secondBoundary
          else cornerRoute event ⟨window⟩ second secondBoundary direction boundary)

end Engine

end PlasmaTiler
