import PlasmaTiler.Events

/-!
# The engine

Per-domain sessions, owned without merging them. A request over two domains
assembles their sessions into a pair, converges the pair on the observation,
runs the ordinary operation on it, and splits it again; the split is stored
right after the convergence and once more after the commit. So a command that
is refused still leaves the two slots converged.

Next to each session the engine keeps the outer gap its domain was laid out
with, which a later reconcile of the domain must repeat. A crossing is the
one place where that record is not the slot's own: the target of a move is
stored with the gap the event carries for it, in place of what was recorded.

A slot is retired, gap and all, when its session tiles nothing and holds no
exception. Adjacency exists in pairs only; a retained session carries its
domain without neighbours (`canonicalComponent`), and the pair puts them back
from the request.

The definitions here are those of the pair routes: directional moves and
focus changes, sends, and the float on a retained domain. `handle` dispatches
them and leaves everything else (`none`) to the routes of one domain.
-/

namespace PlasmaTiler

structure Engine where
  sessions : BTreeMap DomainKey Session
  outerGaps : BTreeMap DomainKey Int
  fixedSizeAdmission : Bool
  maximizedFocusFence : Bool
  fixedSizePredicate : FixedSizePredicate

namespace OutputDomain

/-- Retained identity, bounds and gap; adjacency exists in pairs only. -/
def canonicalComponent (d : OutputDomain) : OutputDomain := { d with adjacent := ∅ }

end OutputDomain

namespace Session

/-- The session carries exactly this domain. -/
def domainMatches (s : Session) (domain : OutputDomain) : Bool :=
  (s.domains.find? fun d => d.id == domain.id && d.workspace == domain.workspace).any fun d =>
    d.bounds == domain.bounds && d.gap == domain.gap && d.adjacent == domain.adjacent

def usable (s : Session) : Bool := s.divergence.isNone && !s.hasPending

/-- No tiled members and no exceptions: not worth a slot. -/
def committedIsEmpty (s : Session) : Bool := s.windows.isEmpty && s.exceptions.isEmpty

end Session

namespace Engine

/-! ## Slots -/

def contains (e : Engine) (key : DomainKey) : Bool := e.sessions.contains key

def adoptFixedAdmission (e : Engine) (s : Session) : Session :=
  ((s.setFixedSizeAdmission e.fixedSizeAdmission).setFixedSizePredicate
    e.fixedSizePredicate).setMaximizedFocusFence e.maximizedFocusFence

/-- Remove a slot and its gap. -/
def remove (e : Engine) (key : DomainKey) : Engine :=
  { e with sessions := e.sessions.erase key, outerGaps := e.outerGaps.erase key }

/-- Empty results retire the slot. -/
def storeCommitted (e : Engine) (key : DomainKey) (s : Session) (outerGap : Int) : Engine :=
  if s.committedIsEmpty then e.remove key
  else
    { e with
      sessions := e.sessions.insert key (e.adoptFixedAdmission s)
      outerGaps := e.outerGaps.insert key outerGap }

/-- Store the target of a split, or retire it. -/
def storeTarget (e : Engine) (key : DomainKey) (target : Option Session) (outerGap : Int) : Engine :=
  match target with
  | some s => e.storeCommitted key s outerGap
  | none => e.remove key

/-- A later reconcile must carry the recorded gap. -/
def outerGapMatches (e : Engine) (key : DomainKey) (outerGap : Int) : Bool :=
  e.outerGaps[key]? == some outerGap

/-! ## Pairs -/

/-- The retained session of a pair component, when it can be used. -/
def component (e : Engine) (domain : OutputDomain) : Option Session :=
  e.sessions[domain.key]?.filter fun s =>
    s.usable && !s.committedIsEmpty && s.domainMatches domain.canonicalComponent

def pairErrorDetail : CanonicalPairError → String
  | .mismatchedIdentity => "canonical-pair-identity-mismatch"
  | .unusableInput => "canonical-pair-unusable"
  | .domainMismatch => "canonical-pair-domain-mismatch"
  | .duplicateState => "canonical-pair-duplicate-state"

/-- The target of a pair: absent when not retained, refused when retained and
unusable. -/
def targetComponent (e : Engine) (domain : OutputDomain) : Except String (Option Session) :=
  if !e.contains domain.key then .ok none
  else (okOr "canonical-pair-unusable" (e.component domain)).map some

def assembleDirectionalPair (e : Engine) (source target : OutputDomain) :
    Except String Session := do
  let sourceSession ← okOr "canonical-source-unavailable" (e.component source)
  let targetSession ← e.targetComponent target
  (Session.pairedFromCanonical sourceSession targetSession source target).mapError pairErrorDetail

/-- Split a pair back into its slots. A new target inherits the carried gap,
an existing one keeps its own. -/
def storeCanonicalPair (e : Engine) (sourceKey targetKey : DomainKey) (pair : Session)
    (sourceOuterGap : Int) : Engine × Bool :=
  match pair.splitCanonicalPair with
  | .error _ => (e, false)
  | .ok (source, target) =>
    let targetOuterGap := e.outerGaps[targetKey]?.getD sourceOuterGap
    ((e.storeCommitted sourceKey source sourceOuterGap).storeTarget targetKey target targetOuterGap,
      true)

/-- Converge a pair once on the whole observation and store it, so that the
convergence stays even when the command is refused. -/
def convergePair (e : Engine) (event : CoreEvent) (windows : List EngineWindow)
    (source target : OutputDomain) (pair : Session) :
    Engine × Except CoreReply (Session × SessionObservation) :=
  let observation := event.sessionObservationFor pair.acceptedRevision windows
  match pair.convergeObservation observation event.focus with
  | (_, .error error) => (e, .error (.convergenceFailure error))
  | (converged, .ok _) =>
    match e.storeCanonicalPair source.key target.key converged event.outerGap with
    | (e, false) => (e, .error .commitRejected)
    | (e, true) => (e, .ok (converged,
        event.sessionObservationFor converged.acceptedRevision windows))

/-! ## Commits -/

def acceptedAck (event : CoreEvent) (base : Nat) : AdapterAck :=
  { correlationId := event.correlation
    owner := event.owner
    generation := event.generation
    baseRevision := base
    outcome := .accepted }

/-- What the adapter reports of a plan it realized. -/
def postOf {I O C P : Type} (event : CoreEvent) (base : Nat) (dispatch : DispatchOf I O C P) :
    PostOf O P where
  observation := event.binding base
  correlationId := event.correlation
  verified := true
  verifiedPreconditions := dispatch.preconditions
  verifiedOperation := dispatch.operation

/-- Acknowledge and verify in one go. -/
def commitWith (s : Session) (event : CoreEvent) (base : Nat)
    (verify : Session → Session × Except VerifyError Commit) : Option Session :=
  match s.acknowledge (acceptedAck event base) with
  | (_, .error _) => none
  | (s, .ok _) =>
    match verify s with
    | (_, .error _) => none
    | (s, .ok _) => some s

def commitDirectionalMove (s : Session) (event : CoreEvent) (plan : SessionMovePlan) (base : Nat) :
    Option Session :=
  commitWith s event base fun s => s.verifyMove (postOf event base plan.dispatch.toDispatchOf)

def commitDirectionalFocus (s : Session) (event : CoreEvent) (plan : SessionFocusPlan)
    (base : Nat) : Option Session :=
  commitWith s event base fun s => s.verifyFocus (postOf event base plan.dispatch)

def commitLifecycle (s : Session) (event : CoreEvent) (plan : SessionPlan) (base : Nat) :
    Option Session :=
  commitWith s event base fun s =>
    s.verifyLifecycle (postOf event base plan.dispatch.toDispatchOf)

/-- Store a committed pair through the canonical split and reply. -/
def storeAndReply (e : Engine) (event : CoreEvent) (source target : OutputDomain)
    (committed : Option Session) (reply : CoreReply) : Engine × CoreReply :=
  match committed with
  | none => (e, .commitRejected)
  | some pair =>
    match e.storeCanonicalPair source.key target.key pair event.outerGap with
    | (e, true) => (e, reply)
    | (e, false) => (e, .commitRejected)

/-! ## Directional moves -/

/-- The target gap a crossing records: the carried one, else none at all. -/
def carriedTargetGap (event : CoreEvent) : Int :=
  (event.directionalTargetOuterGap.filter validGap).getD 0

/-- Commit a planned move. A crossing is split and stored here, with the
carried target gap in place of the recorded one. -/
def commitMove (e : Engine) (event : CoreEvent) (source target : OutputDomain)
    (direction : Direction) (pair : Session) (plan : SessionMovePlan) (base : Nat) :
    Engine × CoreReply :=
  let committed := commitDirectionalMove pair event plan base
  if (Session.crossTarget plan.dispatch.operation).isSome then
    match MovePlanReply.fromCross plan source.id source.workspace, committed with
    | none, _ => (e, .snapshotInvalid observationMessage "domain-invalid")
    | some _, none => (e, .commitRejected)
    | some typed, some pair =>
      match pair.splitCanonicalPair with
      | .error _ => (e, .commitRejected)
      | .ok (sourceSession, targetSession) =>
        ((e.storeCommitted source.key sourceSession event.outerGap).storeTarget target.key
          targetSession (carriedTargetGap event), .moveDirectional typed)
  else
    e.storeAndReply event source target committed
      (.moveDirectional (MovePlanReply.fromLocal direction plan))

def directionalMoveRequest (e : Engine) (event : CoreEvent) (source target : OutputDomain)
    (window direction : String) (crossOutputTransfer : Bool) (sameAxisMove : SameAxisMove) :
    Engine × CoreReply :=
  if !isOpaqueId window then (e, .snapshotInvalid opaqueIdMessage "move-window-invalid")
  else
    match parseEngineDirection direction with
    | none => (e, .rejected directionKind directionMessage)
    | some direction =>
      match e.assembleDirectionalPair source target with
      | .error detail => (e, .snapshotInvalid observationMessage detail)
      | .ok pair =>
        match e.convergePair event event.windows source target pair with
        | (e, .error reply) => (e, reply)
        | (e, .ok (pair, observation)) =>
          let pair := (pair.syncFocusFromWindow source.key event.focusedWindow).1
          match pair.proposeMoveWithSameAxis source.key ⟨window⟩ direction observation
              event.correlation { Capabilities.full with crossOutputTransfer } sameAxisMove with
          | (_, .error error) => (e, .proposeFailure error)
          | (pair, .ok plan) =>
            e.commitMove event source target direction pair plan observation.observation.revision

/-! ## Directional focus -/

def fullFocus : FocusCapabilities := ⟨true⟩

/-- A floating subject must be the active window, observed floating on the
source domain, and goes left or right only. -/
def checkFloatOrigin (event : CoreEvent) (source : OutputDomain) (window : WindowId)
    (direction : Direction) : Except RefusalKind Unit := do
  ensure (direction == .left || direction == .right) .unchanged
  ensure (window == event.focusedWindow) .focusMismatch
  ensure (event.windows.any fun entry => entry.window == window && entry.output == source.id &&
    entry.workspace == source.workspace && entry.floating) .focusMismatch

/-- Local focus first, then, left and right, the adjacent output; a floating
subject crosses at once. The flag tells a crossing. -/
def proposeFocusOnPair (pair : Session) (event : CoreEvent) (source : OutputDomain)
    (window : WindowId) (direction : Direction) (floatSubject : Bool)
    (observation : SessionObservation) :
    Session × Except ProposeError (SessionFocusPlan × Bool) :=
  let crossed (answer : Session × Except ProposeError SessionFocusPlan) :
      Session × Except ProposeError (SessionFocusPlan × Bool) :=
    (answer.1, answer.2.map fun plan => (plan, true))
  if floatSubject then
    match checkFloatOrigin event source window direction with
    | .error kind => (pair, .error (.refused kind))
    | .ok _ => crossed (pair.proposeFloatCrossOutputFocus source.key window direction observation
        event.correlation fullFocus)
  else
    match pair.proposeFocus source.key window direction observation event.correlation fullFocus with
    | (pair, .ok plan) => (pair, .ok (plan, false))
    | (pair, .error error) =>
      if error = .refused .unchanged ∧ (direction = .left ∨ direction = .right) then
        crossed (pair.proposeCrossOutputFocus source.key window direction observation
          event.correlation fullFocus)
      else (pair, .error error)

def directionalFocusRequest (e : Engine) (event : CoreEvent) (source target : OutputDomain)
    (window direction : String) (floatSubject : Bool) : Engine × CoreReply :=
  if !isOpaqueId window then (e, .snapshotInvalid opaqueIdMessage "focus-window-invalid")
  else
    match parseEngineDirection direction with
    | none => (e, .rejected directionKind directionMessage)
    | some direction =>
      match e.assembleDirectionalPair source target with
      | .error detail => (e, .snapshotInvalid observationMessage detail)
      | .ok pair =>
        match e.convergePair event event.windows source target pair with
        | (e, .error reply) => (e, reply)
        | (e, .ok (pair, observation)) =>
          let pair := (pair.syncFocusFromWindow source.key event.focusedWindow).1
          match proposeFocusOnPair pair event source ⟨window⟩ direction floatSubject observation with
          | (_, .error error) => (e, .proposeFailure error)
          | (pair, .ok (plan, crossed)) =>
            e.storeAndReply event source target
              (commitDirectionalFocus pair event plan observation.observation.revision)
              (.focusDirectional (if crossed then FocusPlanReply.fromCross direction plan
                else FocusPlanReply.fromLocal direction plan))

/-! ## Sends -/

/-- Seed an absent source from the observation. The engine's settings are not
adopted here. -/
def seedSource (e : Engine) (event : CoreEvent) : Engine × Option CoreReply :=
  if e.contains event.domain.key then (e, none)
  else
    match Session.new event.owner event.generation 0 event.fingerprint
        [event.domain.canonicalComponent] with
    | .error _ => (e, some (.snapshotInvalid observationMessage "seed-failed"))
    | .ok seeded =>
      match seeded.convergeObservation
          (event.sessionObservationFor seeded.acceptedRevision event.windows) event.focus with
      | (seeded, .ok _) => (e.storeCommitted event.domain.key seeded event.outerGap, none)
      | (_, .error (.refused _)) =>
        (e, some (.snapshotInvalid observationMessage "seed-failed"))
      | (_, .error error) => (e, some (.convergenceFailure error))

/-- The pair of a send: an unobserved target counts as empty. -/
def assembleSendPair (e : Engine) (event : CoreEvent) (target : OutputDomain) :
    Except String Session := do
  let source ← okOr (if e.contains event.domain.key then "canonical-pair-unusable"
    else "canonical-source-unavailable") (e.component event.domain)
  let targetSession ← if event.targetWindows.isEmpty then .ok none else e.targetComponent target
  (Session.pairedFromCanonicalForSend source targetSession event.domain target).mapError
    pairErrorDetail

/-- Propose and commit a send on the converged pair. -/
def sendOnPair (e : Engine) (event : CoreEvent) (target : OutputDomain) (pair : Session)
    (observation : SessionObservation) (window : String) (follow outputSend : Bool) :
    Engine × CoreReply :=
  match pair.syncFocusFromWindow event.domain.key event.focusedWindow with
  | (_, false) => (e, .rejected RefusalKind.focusMismatch.asStr RefusalKind.focusMismatch.message)
  | (pair, true) =>
    let command : SessionCommand :=
      if outputSend then .moveToOutput ⟨window⟩ target.key follow
      else .moveToWorkspace ⟨window⟩ target.key follow
    match pair.propose command observation event.correlation .full with
    | (_, .error error) => (e, .proposeFailure error)
    | (pair, .ok plan) =>
      match SendWorkspacePlan.fromSession plan with
      | none => (e, .snapshotInvalid observationMessage "move-op-invalid")
      | some typed =>
        e.storeAndReply event event.domain target
          (commitLifecycle pair event plan observation.observation.revision)
          (if outputSend then .sendOutput typed else .sendWorkspace typed)

def transferRequest (e : Engine) (event : CoreEvent) (window targetOutput targetWorkspace : String)
    (follow outputSend : Bool) : Engine × CoreReply :=
  match event.targetDomain with
  | none => (e, .rejected "workspace-target-invalid" "target workspace domain is missing")
  | some target =>
    if targetOutput ≠ target.id.raw ∨ targetWorkspace ≠ target.workspace.raw then
      (e, .rejected "target-mismatch" "command target does not match the target domain")
    else if event.focusedWindow.isEmpty then
      (e, .rejected "absent-focus" "no focused window is observed")
    else if window ≠ event.focusedWindow.raw then
      (e, .rejected "focus-mismatch" "the moved window is not the focused window")
    else
      match e.seedSource event with
      | (e, some reply) => (e, reply)
      | (e, none) =>
        match e.assembleSendPair event target with
        | .error detail => (e, .snapshotInvalid observationMessage detail)
        | .ok pair =>
          match e.convergePair event (event.windows ++ event.targetWindows) event.domain target
              pair with
          | (e, .error reply) => (e, reply)
          | (e, .ok (pair, observation)) =>
            e.sendOnPair event target pair observation window follow outputSend

/-! ## The intentional float -/

/-- Converge a retained domain in its slot. -/
def convergeForSingleDomain (e : Engine) (event : CoreEvent) (s : Session) :
    Engine × Option CoreReply :=
  if s.owner ≠ event.owner then (e, some (.diverged .ownerMismatch))
  else if s.generation ≠ event.generation then (e, some (.diverged .generationMismatch))
  else
    let (s, result) := s.convergeObservation
      (event.sessionObservationFor s.acceptedRevision event.windows) event.focus
    let e := { e with sessions := e.sessions.insert event.domain.key s }
    match result with
    | .ok _ => (e, none)
    | .error error => (e, some (.convergenceFailure error))

/-- The refusal of a converged domain that cannot be used. -/
def convergedRefusal (seedOrder : Option (List EngineWindow)) : CoreReply :=
  match seedOrder with
  | none => .snapshotInvalid observationMessage "missing-seed-order"
  | some _ => .rejected RefusalKind.partialObservation.asStr RefusalKind.partialObservation.message

/-- Float or unfloat on a converged retained domain. -/
def toggleFloatRequest (e : Engine) (event : CoreEvent) (window : String)
    (floatRect : Option Rect) : Engine × CoreReply :=
  let candidate := e.sessions[event.domain.key]?.filter fun s =>
    s.usable && s.domainMatches event.domain && !s.committedIsEmpty
  match candidate with
  | none => (e, convergedRefusal (orderSpatialWithFocusLast event.windows event.focusedWindow false))
  | some s =>
    let base := s.acceptedRevision
    match s.propose (.toggleFloat ⟨window⟩ floatRect)
        (event.sessionObservationFor base event.windows) event.correlation .full with
    | (_, .error error) => (e, .proposeFailure error)
    | (s, .ok plan) =>
      let effective := (s.pendingDesired.bind fun desired =>
        desired.exceptions[(⟨window⟩ : WindowId)]?).bind ExceptionRecord.floatingGeometry
      match commitLifecycle s event plan base with
      | some s => (e.storeCommitted event.domain.key s event.outerGap,
          .tiled (.forToggleFloat plan effective))
      | none => (e.remove event.domain.key, .commitRejected)

/-! ## Dispatch -/

/-- The target of a request that works on a pair. -/
def pairTarget (event : CoreEvent) : Option OutputDomain :=
  match event.command with
  | .move .. | .focus .. => event.directional.map Prod.snd
  | .sendToWorkspace .. | .sendToOutput .. => event.targetDomain
  | .toggleFloat .. => none

/-- Handle a request over a pair; moves and focus changes with a single output
in sight take the route of their domain alone. -/
def handlePair (e : Engine) (event : CoreEvent) : Option (Engine × CoreReply) :=
  match event.command, event.directional with
  | .move window direction crossOutputTransfer sameAxisMove, some (source, target) =>
    some (e.directionalMoveRequest event source target window direction crossOutputTransfer
      sameAxisMove)
  | .focus window direction floatSubject, some (source, target) =>
    some (e.directionalFocusRequest event source target window direction floatSubject)
  | .sendToWorkspace window targetOutput targetWorkspace follow, _ =>
    some (e.transferRequest event window targetOutput targetWorkspace follow false)
  | .sendToOutput window targetOutput targetWorkspace follow, _ =>
    some (e.transferRequest event window targetOutput targetWorkspace follow true)
  | _, _ => none

/-- Handle a request over a pair, or a float on a retained domain. A domain
that is not retained is seeded or relocated first. -/
def handle (e : Engine) (event : CoreEvent) : Option (Engine × CoreReply) :=
  match event.command with
  | .toggleFloat window floatRect =>
    e.sessions[event.domain.key]?.map fun s =>
      match e.convergeForSingleDomain event s with
      | (e, some reply) => (e, reply)
      | (e, none) => e.toggleFloatRequest event window floatRect
  | _ => e.handlePair event

end Engine

end PlasmaTiler
