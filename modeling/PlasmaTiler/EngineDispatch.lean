import PlasmaTiler.EngineRequests

/-!
# Migration, drags and the dispatch

A migration takes a whole workspace to another output: the sticky windows
stay behind in a session of their own, and both sides are converged on
copies, so that a refusal leaves the engine as it was. What has moved fills
the target slot, what stays keeps the source slot and its gap, and a side
without members has no slot.

Preview and drop of a drag share their working session, which for a domain
that is not retained is made afresh and kept only by a drop. Nothing of a
preview is kept: the client carries the hover back with its next motion, and
the memory of the drag is rebuilt from it (`beginDragOn`).

`request` answers every command. It asks three questions in order, whether
the request works on a pair, whether its domain has to be converged first,
and which command it is; `EngineOp` adds the settings, which reach all the
retained sessions at once, and `machine` is the engine as a state machine
over these operations.
-/

namespace PlasmaTiler

namespace Engine

/-! ## Migration -/

/-- The carried windows with an id that some entry of this kind has. -/
def carriedWhere (event : CoreEvent) (kind : EngineWindow → Bool) : List EngineWindow :=
  event.windows.filter fun entry =>
    (event.windows.filter kind).any fun other => other.window == entry.window

/-- Converge a copy on carried windows. -/
def convergeOn (s : Session) (event : CoreEvent) (windows : List EngineWindow)
    (focus : Option WindowId) : Except CoreReply Session :=
  match s.convergeObservation (event.sessionObservationFor s.acceptedRevision windows) focus with
  | (_, .error error) => .error (.convergenceFailure error)
  | (s, .ok _) => .ok s

/-- Converge a copy on one part of the observation; a focus outside the part
is none. -/
def convergePart (s : Session) (event : CoreEvent) (part : List EngineWindow) :
    Except CoreReply Session :=
  convergeOn s event part (event.focus.filter fun window => part.any (·.window == window))

/-- Kept out of fitting for no reason an adapter has told. -/
def unexplained (r : Request) (entry : EngineWindow) : Bool :=
  r.fitExcluded.contains entry.window && !entry.floating && !entry.sticky && !entry.fullscreen &&
    !entry.maximized

def migrationPreconditions : List LifecyclePrecondition :=
  [.windowObserved, .desiredTopologyValid, .adapterMustVerifyPostconditions]

/-- The plan of a migration that moves nothing. -/
def emptyMigration (direction : Direction) (source target : DomainKey) (base : Nat)
    (activeWindow : Option WindowId) : MigrateWorkspacePlan where
  baseRevision := base
  direction
  source
  target
  geometry := []
  focusDomain := none
  focusLeaf := none
  activeWindow
  members := 0
  floats := 0
  preconditions := migrationPreconditions

/-- What a migration checks before it looks at the source. -/
def checkMigration (e : Engine) (r : Request) (target : OutputDomain) : Except CoreReply Unit := do
  let event := r.event
  let source := event.domain.key
  ensure (target.key.workspace == source.workspace && target.key.output != source.output)
    (.rejected "cross-domain-mismatch" "command target does not match the target domain")
  ensure (!(event.windows ++ event.targetWindows).any (unexplained r))
    (.rejected "overlay-present" "workspace contains an unexplained fit-excluded member")
  ensure (event.targetWindows.isEmpty && !e.contains target.key) (RefusalKind.reply .unchanged)
  ensure (validGap event.outerGap) .outerGapMismatch

/-- What a migration checks of the source. -/
def checkMigrationSource (e : Engine) (event : CoreEvent) (s : Session) :
    Except CoreReply Unit := do
  let source := event.domain.key
  ensure (s.owner == event.owner) (.diverged .ownerMismatch)
  ensure (s.generation == event.generation) (.diverged .generationMismatch)
  match s.divergence with
  | some reason => .error (.diverged reason)
  | none => .ok ()
  ensure (s.usable && !s.hasPendingDesired && !s.hasDrag) .pendingExists
  ensure (s.domainMatches event.domain && e.outerGapMatches source event.outerGap) .outerGapMismatch
  ensure (event.windows.all fun entry =>
    entry.output == source.output && entry.workspace == source.workspace)
    (RefusalKind.reply .crossDomainMismatch)
  ensure (((values s.windows).map WindowLink.window ++
      (values s.exceptions).map ExceptionRecord.window).all fun id =>
    event.windows.any (·.window == id)) (RefusalKind.reply .partialObservation)
  ensure (event.focusedWindow.isEmpty || event.windows.any (·.window == event.focusedWindow))
    (RefusalKind.reply .focusMismatch)

/-- The rectangles of what has moved; nothing tiled has none. -/
def migratedGeometry (r : Request) (moved : Session) (target : OutputDomain)
    (focus : Option (DomainKey × NodeId)) : Except CoreReply (List DesiredGeometry) :=
  if moved.windows.isEmpty then .ok []
  else
    (okOr (RefusalKind.reply .malformedTopology) (projectRetainedTiledGeometry moved target.key
      target.bounds target.gap focus .reconcile (carriedHints r.event.windows) r.event.windows
      r.fitExcluded)).map ProjectionPlan.geometry

/-- The engine after a migration. What stays keeps the source slot and its
gap; a side without members has no slot. -/
def storeMigrated (e : Engine) (source target : DomainKey) (outerGap : Int) (moved : Session)
    (stay : Option Session) : Engine :=
  let sessions := e.sessions.erase source
  let there : Engine :=
    if moved.committedIsEmpty then { e with sessions }
    else { e with
      sessions := sessions.insert target moved
      outerGaps := e.outerGaps.insert target outerGap }
  match stay with
  | some stay => { there with sessions := there.sessions.insert source stay }
  | none => { there with outerGaps := there.outerGaps.erase source }

/-- What stays behind: the sticky windows, if there are any. -/
def stayPart (s : Session) (event : CoreEvent) : Except CoreReply (Option Session) :=
  if event.windows.any EngineWindow.sticky then
    (convergePart s event (carriedWhere event EngineWindow.sticky)).map some
  else .ok none

/-- Move a retained workspace. -/
def migrateRetained (e : Engine) (r : Request) (direction : Direction) (target : OutputDomain)
    (s : Session) : Except CoreReply (Engine × MigrateWorkspacePlan) := do
  let event := r.event
  let source := event.domain.key
  checkMigrationSource e event s
  if s.committedIsEmpty && event.windows.isEmpty then
    return (e.remove source, emptyMigration direction source target.key s.acceptedRevision none)
  else
    let moved ← convergePart s event (carriedWhere event fun entry => !entry.sticky)
    let stay ← stayPart s event
    match moved.relocateDomain source target.key target.bounds target.gap with
    | (_, false) => .error (RefusalKind.reply .malformedTopology)
    | (moved, true) =>
      let leaf := event.focus.bind fun window =>
        ((values moved.windows).find? (·.window == window)).map WindowLink.leaf
      let geometry ← migratedGeometry r moved target (leaf.map fun leaf => (target.key, leaf))
      let activeWindow := event.focus.filter fun window =>
        tiles moved window || moved.exceptions.contains window
      let there := e.storeMigrated source target.key event.outerGap moved
        (stay.filter fun stay => !stay.committedIsEmpty)
      if moved.committedIsEmpty then
        return (there,
          emptyMigration direction source target.key moved.acceptedRevision activeWindow)
      else
        return (there, {
          baseRevision := moved.acceptedRevision
          direction
          source
          target := target.key
          geometry
          focusDomain := leaf.map fun _ => target.key
          focusLeaf := leaf
          activeWindow
          members := (values moved.windows).length + moved.exceptions.size
          floats := moved.exceptions.size
          preconditions := migrationPreconditions })

/-- A source that is not retained migrates when nothing is on it. -/
def migrateWorkspace (e : Engine) (r : Request) (direction : String) :
    Except CoreReply (Engine × MigrateWorkspacePlan) := do
  let event := r.event
  let direction ← okOr (.rejected directionKind directionMessage) (parseEngineDirection direction)
  let target ← okOr (.rejected "workspace-target-invalid" "target workspace domain is missing")
    event.targetDomain
  e.checkMigration r target
  match e.sessions[event.domain.key]? with
  | some s => e.migrateRetained r direction target s
  | none =>
    ensure (event.windows.isEmpty && event.focusedWindow.isEmpty)
      (RefusalKind.reply .unknownDomain)
    return (e, emptyMigration direction event.domain.key target.key r.revision none)

def migrateWorkspaceRequest (e : Engine) (r : Request) (direction : String) :
    Engine × EngineReply :=
  match e.migrateWorkspace r direction with
  | .error reply => (e, .core reply)
  | .ok (e, plan) => (e, .migrateWorkspace plan)

/-! ## Drags -/

/-- The session of a drag: the retained one, or a fresh one converged on the
observation, which adopts none of the engine's settings. -/
def dragWorking (e : Engine) (event : CoreEvent) : Except CoreReply (Session × Bool) := do
  let key := event.domain.key
  match e.sessions[key]? with
  | none =>
    ensure (validGap event.outerGap && validGap event.domain.gap) .outerGapMismatch
    let fresh ← (Session.new event.owner event.generation 0 event.fingerprint
      [event.domain]).mapError fun _ => .snapshotInvalid observationMessage "seed-failed"
    let fresh ← convergeOn fresh event event.windows event.focus
    ensure (!fresh.committedIsEmpty) (RefusalKind.reply .unknownDomain)
    return (fresh, true)
  | some s =>
    checkSettled s
    ensure ((s.domainAt key).any fun d => d.bounds == event.domain.bounds &&
      d.gap == event.domain.gap) (RefusalKind.reply .unknownDomain)
    ensure (e.outerGapMatches key event.outerGap) .outerGapMismatch
    return (s, false)

/-- The projection of a single window that arrives from another output, with
its leaf and its rectangle. -/
def dragSingletonProject (working : Session) (r : Request) (mover : WindowId)
    (source : Option DomainKey) : Option (ProjectionPlan × NodeId × Rect) := do
  let event := r.event
  let key := event.domain.key
  let binding ← source
  require (isOpaqueId binding.output.raw && isOpaqueId binding.workspace.raw &&
    binding.output != key.output)
  match values working.windows with
  | [link] =>
    require (link.window == mover)
    let plan ← projectRetainedTiledGeometry working key event.domain.bounds event.domain.gap
      (some (key, link.leaf)) .reconcile (carriedHints event.windows) event.windows r.fitExcluded
    let entry ← plan.geometry.find? (·.window == mover)
    return (plan, plan.focusLeaf.getD link.leaf, entry.rect)
  | _ => none

/-- Start the drag on the working session: converge a retained copy for a
preview, follow the focus, capture the tile and restore the carried hover. -/
def beginDragOn (working : Session) (fresh isPreview : Bool) (event : CoreEvent)
    (mover : WindowId) (hoverPrior : Option DragHoverPrior) :
    Except CoreReply (Session × SessionObservation) := do
  let working ← if isPreview && !fresh then convergeOn working event event.windows event.focus
    else .ok working
  ensure (!working.committedIsEmpty) (RefusalKind.reply .unknownDomain)
  let observation := event.sessionObservationFor working.acceptedRevision event.windows
  let working := (working.syncFocusFromWindow event.domain.key
    (if fresh then mover else event.focusedWindow)).1
  match working.beginDrag mover observation with
  | (_, .error error) => .error (.convergenceFailure error)
  | (working, .ok _) =>
    match hoverPrior with
    | some carried => return ((working.carryDragPrior carried).1, observation)
    | none => return (working, observation)

/-- The preview of a window alone on its new output. -/
def singletonPreview (key : DomainKey) (mover : WindowId) (base : Nat) (leaf : NodeId)
    (rect : Rect) : DragPreview where
  domain := key
  sourceLeaf := leaf
  sourceWindow := mover
  revision := base
  sourceRect := rect
  targetLeaf := leaf
  targetWindow := mover
  targetRect := rect
  proposedRect := rect
  side := .left
  axis := .horizontal
  before := true
  wrap := false
  targetGroup := leaf
  insertionIndex := 0
  prior := none

/-- Nothing of a preview is kept. -/
def dragPreviewRequest (e : Engine) (r : Request) (window : String) (x y : Int)
    (hoverPrior : Option DragHoverPrior) (source : Option DomainKey) :
    Except CoreReply DragPreviewPlan := do
  let event := r.event
  ensure (isOpaqueId window) (.snapshotInvalid opaqueIdMessage "drag-drop-window-invalid")
  let (working, fresh) ← e.dragWorking event
  let (working, observation) ← beginDragOn working fresh true event ⟨window⟩ hoverPrior
  let base := observation.observation.revision
  match working.previewDrag x y observation.windows with
  | (_, .ok preview) => return ⟨base, preview⟩
  | (working, .error error) =>
    if error = .refused .unchanged then
      let (_, leaf, rect) ← okOr (.proposeFailure error)
        (dragSingletonProject working r ⟨window⟩ source)
      return ⟨base, singletonPreview event.domain.key ⟨window⟩ base leaf rect⟩
    else .error (.convergenceFailure error)

/-- A fresh session whose plan is not committed is dropped, a retained one is
retired. A window that snaps back stays where its output has it. -/
def dragDropRequest (e : Engine) (r : Request) (window : String) (x y : Int)
    (hoverPrior : Option DragHoverPrior) (source : Option DomainKey) : Engine × EngineReply :=
  let event := r.event
  let key := event.domain.key
  let begun : Except CoreReply (Session × SessionObservation × Bool) := do
    ensure (isOpaqueId window) (.snapshotInvalid opaqueIdMessage "drag-drop-window-invalid")
    let (working, fresh) ← e.dragWorking event
    let (working, observation) ← beginDragOn working fresh false event ⟨window⟩ hoverPrior
    return (working, observation, fresh)
  match begun with
  | .error reply => (e, .core reply)
  | .ok (working, observation, fresh) =>
    match working.dropDrag x y observation event.correlation ⟨true⟩ with
    | (_, .error error) => (e, .core (.convergenceFailure error))
    | (working, .ok (.planned plan)) =>
      match commitDrag working event plan observation.observation.revision with
      | some s => (e.storeCommitted key s event.outerGap, .tiled .dragDrop (.fromDrag plan))
      | none => (if fresh then e else e.remove key, .core .commitRejected)
    | (working, .ok (.snapBack _)) =>
      match dragSingletonProject working r ⟨window⟩ source with
      | none => (e, failure (.refused .unchanged))
      | some (plan, leaf, _) =>
        (if fresh then e.storeCommitted key working event.outerGap else e,
          .tiled .dragDrop { TiledPlan.fromProjection plan with
            focusDomain := some key, focusLeaf := some leaf })

/-! ## Dispatch -/

/-- Converge the domain if it is retained; the flag tells that it was. A
convergence that fails answers the request. -/
def convergeFirst (e : Engine) (event : CoreEvent)
    (command : Engine → Bool → Engine × EngineReply) : Engine × EngineReply :=
  match e.sessions[event.domain.key]? with
  | none => command e false
  | some s =>
    match e.convergeForSingleDomain event s with
    | (e, some reply) => (e, .core reply)
    | (e, none) => command e true

/-- Nothing of the retained domain is on screen any more: it is adopted
afresh. -/
def disjointReconcile (e : Engine) (event : CoreEvent) : Bool :=
  !event.windows.isEmpty && e.sessions[event.domain.key]?.any fun s =>
    s.owner == event.owner && s.generation == event.generation &&
      !event.windows.any fun entry => tiles s entry.window || s.exceptions.contains entry.window

/-- Float or unfloat on a domain that is not retained: floating windows are
kept as exceptions first. -/
def freshToggleFloat (e : Engine) (event : CoreEvent) (window : String) (floatRect : Option Rect) :
    Engine × EngineReply :=
  let run (e : Engine) (converged : Bool) :=
    e.runRetained event converged (strictOrder event) true (floatRoute event ⟨window⟩ floatRect)
  if event.windows.any EngineWindow.floating &&
      (e.findUniqueSourceForTarget event.domain.key).isNone then
    match e.convergeFreshFloating event with
    | (e, .error (some reply)) => (e, .core reply)
    | (e, .error none) => run e false
    | (e, .ok _) => run e (e.contains event.domain.key)
  else run e false

/-- The commands over one domain. -/
def domainRequest (e : Engine) (r : Request) : DomainCommand → Engine × EngineReply
  | .reconcile =>
    let e := if e.disjointReconcile r.event then e.remove r.event.domain.key else e
    e.convergeFirst r.event fun e _ => e.reconcileRequest r
  | .updateGaps => e.convergeFirst r.event fun e _ => e.updateGapsRequest r
  | .activeGroup => e.activeGroupRequest r.event
  | .releaseDomain => e.releaseRequest r.event
  | .toggleOrientation window => e.convergeFirst r.event fun e converged =>
      e.toggleOrientationRequest r.event converged window
  | .resize window direction mode pressIndex => e.convergeFirst r.event fun e converged =>
      e.resizeRequest r.event converged window direction mode pressIndex
  | .pointerResize window direction boundary direction2 boundary2 =>
      e.convergeFirst r.event fun e converged =>
        e.pointerResizeRequest r.event converged window direction boundary direction2 boundary2
  | .migrateWorkspace direction => e.migrateWorkspaceRequest r direction
  | .dragDrop window x y hoverPrior source => e.convergeFirst r.event fun e _ =>
      e.dragDropRequest r window x y hoverPrior source
  | .dragPreview window x y hoverPrior source =>
    match e.dragPreviewRequest r window x y hoverPrior source with
    | .error reply => (e, .core reply)
    | .ok plan => (e, .dragPreview plan)

/-- What `handle` leaves to the routes of one domain. -/
def localRequest (e : Engine) (event : CoreEvent) : Engine × EngineReply :=
  match event.command with
  | .move window direction _ sameAxisMove => e.convergeFirst event fun e converged =>
      e.localMoveRequest event converged window direction sameAxisMove
  | .focus window direction _ => e.convergeFirst event fun e converged =>
      e.localFocusRequest event converged window direction
  | .toggleFloat window floatRect => e.freshToggleFloat event window floatRect
  | .sendToWorkspace .. | .sendToOutput .. => (e, .core .unknownValue)

/-- Answer a request. -/
def request (e : Engine) (r : Request) : Engine × EngineReply :=
  match r.command with
  | some command => e.domainRequest r command
  | none =>
    match e.handle r.event with
    | some (e, reply) => (e, .core reply)
    | none => e.localRequest r.event

/-! ## Settings -/

/-- An engine that retains nothing; the settings are off. -/
def new : Engine where
  sessions := ∅
  outerGaps := ∅
  fixedSizeAdmission := false
  maximizedFocusFence := false
  fixedSizePredicate := .bothAxes

/-- Every setting reaches all retained sessions at once. -/
def setFixedSizeAdmission (e : Engine) (enabled : Bool) : Engine :=
  { e with
    fixedSizeAdmission := enabled
    sessions := e.sessions.map fun _ s => s.setFixedSizeAdmission enabled }

def setMaximizedFocusFence (e : Engine) (enabled : Bool) : Engine :=
  { e with
    maximizedFocusFence := enabled
    sessions := e.sessions.map fun _ s => s.setMaximizedFocusFence enabled }

def setFixedSizePredicate (e : Engine) (predicate : FixedSizePredicate) : Engine :=
  { e with
    fixedSizePredicate := predicate
    sessions := e.sessions.map fun _ s => s.setFixedSizePredicate predicate }

end Engine

/-- What a client does with an engine. -/
inductive EngineOp
  | request (r : Request)
  | setFixedSizeAdmission (enabled : Bool)
  | setMaximizedFocusFence (enabled : Bool)
  | setFixedSizePredicate (predicate : FixedSizePredicate)

namespace Engine

/-- The engine after an operation, whatever it is answered with. -/
def next (e : Engine) : EngineOp → Engine
  | .request r => (e.request r).1
  | .setFixedSizeAdmission enabled => e.setFixedSizeAdmission enabled
  | .setMaximizedFocusFence enabled => e.setMaximizedFocusFence enabled
  | .setFixedSizePredicate predicate => e.setFixedSizePredicate predicate

/-- The engine machine. -/
def machine : Machine Engine EngineOp where
  initial e := e = new
  next := next

end Engine

end PlasmaTiler
