import PlasmaTiler.EngineRoutes

/-!
# The requests of the engine

The requests over one domain that are no routes: admission into a fresh
domain, reconciling, and changing gaps. Before its command, a request over
one retained domain converges it on the observation, and a convergence that
fails answers the request.

A domain that is not retained is seeded by the first reconcile, in one of
three ways. Where the screen looks like a guillotine cut it is adopted as it
is (`fitFresh`), unless the fit would split at a centre or squeeze a window
below its minimum. Floating windows, or windows that will float, are kept as
exceptions by a convergence of an empty session (`convergeFreshFloating`).
Otherwise the windows are admitted one after another in spatial order, which
must not have ties where the anchor would depend on them.

A projection of a retained domain reports what it finds and stores the work
area of the request; nothing is proposed, and the checks it makes are those
of a session that is settled, focused and tiled.
-/

namespace PlasmaTiler

namespace Engine

/-! ## Fresh domains -/

/-- A carried window the engine's settings would float on admission. -/
def isFixedCandidate (e : Engine) (entry : EngineWindow) : Bool :=
  !entry.floating && !entry.fullscreen && !entry.sticky && !entry.fixedSuppress &&
    isFixedSizeWith entry.hints e.fixedSizePredicate

def fixedPresent (e : Engine) (event : CoreEvent) : Bool :=
  e.fixedSizeAdmission && event.windows.any e.isFixedCandidate

/-- Converge a new session of the domain and store it: its revision, or the
reply of a failed convergence; `none` when no session could be made. -/
def convergeFreshFloating (e : Engine) (event : CoreEvent) :
    Engine × Except (Option CoreReply) Nat :=
  match Session.new event.owner event.generation 0 event.fingerprint [event.domain] with
  | .error _ => (e, .error none)
  | .ok fresh =>
    let fresh := e.adoptFixedAdmission fresh
    match fresh.convergeObservation
        (event.sessionObservationFor fresh.acceptedRevision event.windows) event.focus with
    | (_, .error error) => (e, .error (some (.convergenceFailure error)))
    | (fresh, .ok _) =>
      (e.storeCommitted event.domain.key fresh event.outerGap, .ok fresh.acceptedRevision)

/-- Some leaf of a fitted tree cannot have its minimum. -/
def fittedTopologyIsMinInfeasible (domain : OutputDomain) (tree : Node) (links : List WindowLink)
    (windows : List EngineWindow) : Bool :=
  let hints := carriedHints windows
  let byLeaf : BTreeMap NodeId WindowId :=
    links.foldl (fun byLeaf l => byLeaf.insert l.leaf l.window) ∅
  let resolve (leaf : NodeId) : WindowSizeHints :=
    (byLeaf[leaf]?.bind fun window => hints[window]?).getD {}
  match projectWithHints tree domain.bounds domain.gap resolve with
  | .ok hinted => !hinted.overconstrained.isEmpty
  | .error _ => false

/-- Adopt a fitted tree in a new session. -/
def commitFitted (e : Engine) (event : CoreEvent) (window : WindowId) (tree : Node)
    (links : List WindowLink) : Option (Engine × EngineReply) := do
  let focusLeaf ← (links.find? (·.window == window)).map WindowLink.leaf
  let fitted ← (Session.new event.owner event.generation 0 event.fingerprint
    [event.domain]).toOption
  let fitted := e.adoptFixedAdmission fitted
  let base := fitted.acceptedRevision
  let admission : FittedAdmit :=
    { tree, links, focusLeaf, window, output := event.domain.id,
      workspace := event.domain.workspace }
  let (fitted, plan) ← succeeded (fitted.proposeFittedAdmit admission
    (event.sessionObservationFor base event.windows) event.correlation .full)
  let fitted ← commitLifecycle fitted event plan base
  return (e.storeCommitted event.domain.key fitted event.outerGap,
    .tiled .admitted (.fromLifecycle plan))

/-- The fit of a fresh domain, unless it would split at a centre or squeeze a
window below its minimum. -/
def fitFresh (e : Engine) (r : Request) (window : WindowId) : Option (Engine × EngineReply) := do
  let event := r.event
  require (window == event.focusedWindow && !e.contains event.domain.key)
  require (!e.fixedPresent event)
  let (tree, links, centreSplits) ←
    (Seed.tryRecursiveCutFitWithCentreCount event.domain r.fitWindows).toOption
  require (centreSplits == 0)
  require (!fittedTopologyIsMinInfeasible event.domain tree links event.windows)
  e.commitFitted event window tree links

/-- A tile shows the window. -/
def tiles (s : Session) (window : WindowId) : Bool := (values s.windows).any (·.window == window)

/-- Report what a fresh convergence has stored. -/
def projectAdmitted (e : Engine) (r : Request) (s : Session) : Option (Engine × EngineReply) :=
  let event := r.event
  if s.committedIsEmpty then
    some (e, .tiled .admitted (.fromProjection (.empty s.acceptedRevision .reconcile)))
  else do
    let focusDomain ← s.focusedDomain
    let focusLeaf ← s.focusedLeaf
    let plan ← projectRetainedTiledGeometry s event.domain.key event.domain.bounds event.domain.gap
      (some (focusDomain, focusLeaf)) .reconcile (carriedHints event.windows) event.windows
      r.fitExcluded
    return (e.putSession event.domain.key s, .tiled .admitted (.fromProjection plan))

/-- What a fresh convergence has made of the window: a tile, which the focus
follows, or an exception. -/
def projectFresh (e : Engine) (r : Request) (window : WindowId) : Option (Engine × EngineReply) := do
  let s ← e.sessions[r.event.domain.key]?
  if tiles s window then
    e.projectAdmitted r (s.syncFocusFromWindow r.event.domain.key window).1
  else
    require (s.exceptions.contains window)
    e.projectAdmitted r s

/-- The order of a seed in which a window is admitted last, by the route. -/
def admissionOrder (event : CoreEvent) (window : WindowId) : Option (List EngineWindow) :=
  orderSpatialWithFocusLast (event.windows.filter (·.window ≠ window)) event.focusedWindow true

def admitFresh (e : Engine) (event : CoreEvent) (converged : Bool) (window : WindowId) :
    Engine × EngineReply :=
  e.runRetained event converged (admissionOrder event window) false (admitRoute event window)

/-- Whether floating windows, or windows that will float, keep a fresh domain
from being seeded tile by tile. -/
def buildsFloating (e : Engine) (event : CoreEvent) : Bool :=
  !e.contains event.domain.key &&
    (event.windows.any EngineWindow.floating || e.fixedPresent event) &&
    (e.findUniqueSourceForTarget event.domain.key).isNone

/-- Admit everything on screen into a fresh domain. -/
def freshAdmitShared (e : Engine) (r : Request) (window : WindowId) : Engine × EngineReply :=
  match e.fitFresh r window with
  | some answer => answer
  | none =>
    if e.buildsFloating r.event then
      match e.convergeFreshFloating r.event with
      | (e, .error (some reply)) => (e, .core reply)
      | (e, .error none) => e.admitFresh r.event false window
      | (e, .ok _) =>
        match e.projectFresh r window with
        | some answer => answer
        | none => e.admitFresh r.event true window
    else e.admitFresh r.event false window

/-- The focused tile, else the first one. -/
def freshReconcileSeedAnchor (event : CoreEvent) : Option WindowId :=
  if !event.focusedWindow.isEmpty &&
      event.windows.any (fun entry => entry.window == event.focusedWindow && !entry.floating) then
    some event.focusedWindow
  else (event.windows.find? fun entry => !entry.floating).map EngineWindow.window

def freshReconcileRequest (e : Engine) (r : Request) : Engine × EngineReply :=
  if r.event.windows.isEmpty then (e, .projection (.empty 0 .reconcile))
  else
    match freshReconcileSeedAnchor r.event with
    | some anchor => e.freshAdmitShared r anchor
    | none =>
      match e.convergeFreshFloating r.event with
      | (e, .ok base) => (e, .projection (.empty base .reconcile))
      | (e, .error (some reply)) => (e, .core reply)
      | (e, .error none) => (e, .core (.snapshotInvalid observationMessage "seed-failed"))

/-! ## Projections -/

def EngineWindow.homedAt (domain : OutputDomain) (entry : EngineWindow) : Bool :=
  entry.output == domain.id && entry.workspace == domain.workspace

/-- Nothing recorded, pending, staged or dragged. -/
def checkSettled (s : Session) : Except CoreReply Unit :=
  match s.divergence with
  | some reason => .error (.rejected reason.asStr reason.message)
  | none => ensure (!(s.hasPending || s.hasPendingDesired || s.hasDrag)) .pendingExists

/-- A tile is homed on the domain. -/
def hasTiledLinks (s : Session) (key : DomainKey) : Bool :=
  (values s.windows).any fun l => l.output == key.output && l.workspace == key.workspace

/-- The focus, which must be on the domain. -/
def checkFocus (s : Session) (key : DomainKey) : Except CoreReply (DomainKey × NodeId) := do
  let focusDomain ← okOr (RefusalKind.reply .focusMismatch) s.focusedDomain
  let focusLeaf ← okOr (RefusalKind.reply .focusMismatch) s.focusedLeaf
  ensure (focusDomain == key) (RefusalKind.reply .focusMismatch)
  return (focusDomain, focusLeaf)

/-- The source of a reconcile over a domain that is not retained, when it was
laid out with the same gap and the observation shows one of its windows. -/
def relocatesOnReconcile (e : Engine) (event : CoreEvent) : Bool :=
  !e.contains event.domain.key &&
    (e.findUniqueSourceForTarget event.domain.key).any fun source =>
      e.outerGapMatches source event.outerGap &&
        e.sessions[source]?.any fun s => event.windows.any fun entry =>
          tiles s entry.window || s.exceptions.contains entry.window

def reconcileRelocated (e : Engine) (event : CoreEvent) : Option Engine := do
  require (e.relocatesOnReconcile event)
  e.tryRelocateForTarget event.domain event.outerGap

/-- The work area of the request becomes the domain's. -/
def reprojectIf (e : Engine) (changed : Bool) (event : CoreEvent) : Engine :=
  if changed then e.reprojectRetained event.domain.key event.domain.bounds else e

/-- Project a retained domain. Membership was converged before, except for a
domain that was relocated just now. -/
def reconcileRetained (e : Engine) (r : Request) (s : Session) (relocated : Bool) :
    Except CoreReply (Engine × ProjectionPlan) := do
  let event := r.event
  let key := event.domain.key
  checkSettled s
  let retained ← okOr (RefusalKind.reply .unknownDomain) (s.domainAt key)
  ensure (retained.gap == event.domain.gap)
    (.rejected "domain-mismatch" "domain gap does not match retained state")
  ensure (e.outerGapMatches key event.outerGap) .outerGapMismatch
  let boundsChanged := retained.bounds != event.domain.bounds
  ensure (!relocated ||
    decide (observedIds (event.windows.map observedWindowFromEngine) = s.knownWindows))
    (RefusalKind.reply .partialObservation)
  if (s.treeFor key).isNone then
    ensure (!hasTiledLinks s key) (RefusalKind.reply .malformedTopology)
    if s.committedIsEmpty then
      return (e.remove key, .empty s.acceptedRevision .reconcile)
    else
      return (e.reprojectIf boundsChanged event, .empty s.acceptedRevision .reconcile)
  else
    let focus ← checkFocus s key
    let plan ← okOr (RefusalKind.reply .malformedTopology)
      (projectRetainedTiledGeometry s key event.domain.bounds retained.gap (some focus) .reconcile
        (carriedHints event.windows) event.windows r.fitExcluded)
    return (e.reprojectIf boundsChanged event, plan)

/-- A refusal undoes the relocation. -/
def reconcileRequest (e : Engine) (r : Request) : Engine × EngineReply :=
  let key := r.event.domain.key
  let relocated := e.reconcileRelocated r.event
  let there := relocated.getD e
  match there.sessions[key]? with
  | none => e.freshReconcileRequest r
  | some s =>
    match there.reconcileRetained r s relocated.isSome with
    | .error reply => (e, .core reply)
    | .ok (e, plan) => (e, .projection plan)

/-- Adopt new gaps in a retained domain and project it. -/
def updateGapsRetained (e : Engine) (r : Request) (s : Session) :
    Except CoreReply (Engine × ProjectionPlan) := do
  let event := r.event
  let key := event.domain.key
  checkSettled s
  ensure (s.domainAt key).isSome (RefusalKind.reply .unknownDomain)
  if (s.treeFor key).isNone then
    ensure (!hasTiledLinks s key &&
      !event.windows.any fun entry => !entry.floating && EngineWindow.homedAt event.domain entry)
      (RefusalKind.reply .malformedTopology)
    if event.windows.isEmpty && s.committedIsEmpty then
      return (e.remove key, .empty s.acceptedRevision .updateGaps)
    else
      match s.updateDomainGaps key event.domain.bounds event.domain.gap with
      | (_, false) => throw (RefusalKind.reply .malformedTopology)
      | (updated, true) =>
        return ({ e.putSession key updated with
            outerGaps := e.outerGaps.insert key event.outerGap },
          .empty s.acceptedRevision .updateGaps)
  else
    let focus ← checkFocus s key
    let plan ← okOr (RefusalKind.reply .malformedTopology)
      (projectRetainedTiledGeometry s key event.domain.bounds event.domain.gap (some focus)
        .updateGaps (carriedHints event.windows) event.windows r.fitExcluded)
    match s.updateDomainGaps key event.domain.bounds event.domain.gap with
    | (_, false) => throw (RefusalKind.reply .malformedTopology)
    | (updated, true) =>
      return (e.storeCommitted key updated event.outerGap,
        { plan with baseRevision := updated.acceptedRevision })

def updateGapsRequest (e : Engine) (r : Request) : Engine × EngineReply :=
  match e.sessions[r.event.domain.key]? with
  | none => (e, .core (RefusalKind.reply .unknownDomain))
  | some s =>
    match e.updateGapsRetained r s with
    | .error reply => (e, .core reply)
    | .ok (e, plan) => (e, .projection plan)

/-! ## The active group -/

/-- The retained session with the observed focus, when the request is about
the domain as it is retained. -/
def syncedForGroup (s : Session) (event : CoreEvent) : Session × Bool :=
  let bound := (s.domainAt event.domain.key).any fun d =>
    d.bounds == event.domain.bounds && d.gap == event.domain.gap
  if !event.focusedWindow.isEmpty && bound then
    s.syncFocusFromWindow event.domain.key event.focusedWindow
  else (s, false)

/-- The focus is all this request may change, and only to another one. -/
def activeGroupRequest (e : Engine) (event : CoreEvent) : Engine × EngineReply :=
  match e.sessions[event.domain.key]? with
  | none => (e, .noGroup none .noSession)
  | some s =>
    let (synced, moved) := syncedForGroup s event
    let changed := moved &&
      !(synced.focusedDomain == s.focusedDomain && synced.focusedLeaf == s.focusedLeaf)
    (if changed then e.putSession event.domain.key synced else e,
      match resolveActiveGroup synced event with
      | .ok found => .activeGroup found
      | .error reason => .noGroup (some synced.acceptedRevision) reason)

/-- Drop the slot; idempotent. -/
def releaseRequest (e : Engine) (event : CoreEvent) : Engine × EngineReply :=
  (e.remove event.domain.key, .released)

end Engine

end PlasmaTiler
