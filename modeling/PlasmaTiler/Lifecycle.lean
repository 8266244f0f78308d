import PlasmaTiler.Session

/-!
# Lifecycle operations

Admission, removal, the intentional float and the split-axis toggle. Each
`plan` function computes what the operation stages or refuses; the session
itself changes only through `proposeStaged`. Unfloating is the exception: it
plans on a copy whose float record is already gone, and that copy replaces
the session when the plan is accepted.

A window that is admitted becomes a tile, or an exception where its flags or
its fixed size say so; an exception has no place in a tree, and its plan has
no geometry and moves no focus. A removal takes either, and the focus of a
removed tile goes down the stack of its domain.
-/

namespace PlasmaTiler

/-! ## Admission -/

/-- The arguments of an admission. -/
structure AdmitCommand where
  window : WindowId
  output : OutputId
  workspace : WorkspaceId
  exceptions : ExceptionFlags
  exceptionBehavior : Option ExceptionBehavior
  placementBounds : Rect
  /-- Explicit user-tile origin: the fixed-size classifier must not float the
  window. -/
  suppressFixedFloat : Bool
deriving DecidableEq

namespace AdmitCommand

def key (c : AdmitCommand) : DomainKey := ⟨c.output, c.workspace⟩

def intent (c : AdmitCommand) : LifecycleIntent := .admitTiled c.window c.output c.workspace

/-- The record that keeps the window out of the trees. -/
def record (c : AdmitCommand) (flags : ExceptionFlags) : ExceptionRecord :=
  ⟨c.window, c.output, c.workspace, flags, none⟩

/-- The plan of an admission with no place in a tree. -/
def deferredPlan (c : AdmitCommand) : LifecyclePlan :=
  .forOperation c.intent (.admitDeferred c.window c.output c.workspace)

end AdmitCommand

def generateLeafId (window : WindowId) (existing : BTreeSet NodeId) : NodeId :=
  freshId ("leaf-" ++ window.raw) existing

/-- The observation an unfloat is planned against: the window as tiled. The
observed windows are distinct. -/
def SessionObservation.settled (observed : SessionObservation) (window : WindowId) :
    SessionObservation :=
  { observed with windows := observed.windows.map fun entry =>
      if entry.window = window then { entry with floating := false } else entry }

/-- The float state that joins a staged removal. -/
def PendingDesired.floated (desired : PendingDesired) (target : ObservedWindow)
    (window : WindowId) (effective : Rect) : PendingDesired :=
  { desired with
    automaticFixed := desired.automaticFixed.erase window
    fixedTileOverride := desired.fixedTileOverride.erase window
    exceptions := desired.exceptions.insert window
      ⟨window, target.output, target.workspace, .plainFloat, some effective⟩
    retainedFloatGeometry := desired.retainedFloatGeometry.insert window effective }

namespace Session

/-- Exception deferral: no topology effect, the exceptions grow. -/
def planAdmitDeferred (s : Session) (c : AdmitCommand) :
    Except ProposeError (Staging LifecyclePlan) := do
  let exceptions := s.exceptions.insert c.window (c.record c.exceptions)
  refuseUnless (decide (exceptions ≠ s.exceptions)) .unchanged
  return { plan := c.deferredPlan, desired := { s.accepted with exceptions }, geometry := [] }

/-- Whether a normal admission floats as an automatic exception instead. -/
def floatsFixed (s : Session) (c : AdmitCommand) (entry : ObservedWindow) : Bool :=
  s.fixedAdmission && !(s.fixedTileOverride.contains c.window || c.suppressFixedFloat) &&
    !entry.floating && !entry.fullscreen && !entry.sticky && !entry.fixedSuppress &&
    isFixedSizeWith entry.hints s.fixedPredicate

/-- Membership only: no tile, no geometry, no focus change. -/
def admitFixed (s : Session) (c : AdmitCommand) : Staging LifecyclePlan where
  plan := c.deferredPlan
  desired := { s.accepted with
    exceptions := s.exceptions.insert c.window (c.record .plainFloat)
    automaticFixed := s.automaticFixed.insert c.window }
  geometry := []

/-- Normal tiled admission. -/
def planAdmitTiled (s : Session) (c : AdmitCommand) (entry : ObservedWindow)
    (observed : SessionObservation) : Except ProposeError (Staging LifecyclePlan) := do
  refuseUnless (!entry.flags.any) .partialObservation
  let orientation := admissionAxisForRect c.placementBounds
  let leaf := generateLeafId c.window s.allNodeIds
  let inserted := insertTiled (treeAt s.trees c.key) (s.eligibleFocusIn c.key) leaf orientation
    (s.allNodeIds.insert leaf) c.window observed.observation.revision
  let trees := s.trees.insert c.key (inserted.map Prod.fst)
  let windows := s.windows.insert c.window ⟨c.window, leaf, c.output, c.workspace⟩
  refuseUnless (validateTopology s.domains trees windows s.exceptions (some c.key) (some leaf))
    .malformedTopology
  refuseUnless (!(decide (trees = s.trees) && decide (windows = s.windows) &&
    s.focusedDomain == some c.key && s.focusedLeaf == some leaf)) .unchanged
  let geometry ← (projectOutputGeometry (s.domainFor c.output c.workspace) (treeAt trees c.key)
    windows c.key (hintsFromObserved observed.windows)).mapError
      fun _ => .refused .malformedTopology
  refuseUnless (!geometry.isEmpty) .malformedTopology
  -- an explicit suppress origin stages its tile win with the admission
  let wins := c.suppressFixedFloat || (s.fixedAdmission && entry.fixedSuppress)
  return {
    plan := .forOperation c.intent (.admitTiled c.window leaf c.output c.workspace)
    desired := { s.accepted with
      trees, windows
      focusedDomain := some c.key
      focusedLeaf := some leaf
      lastActive := s.updatedLastActive (some c.key) (some leaf) trees windows
      automaticFixed := if wins then s.automaticFixed.erase c.window else s.automaticFixed
      fixedTileOverride :=
        if wins then s.fixedTileOverride.insert c.window else s.fixedTileOverride }
    geometry }

def planAdmit (s : Session) (c : AdmitCommand) (observed : SessionObservation) :
    Except ProposeError (Staging LifecyclePlan) := do
  refuseUnless (!s.isKnown c.window) .duplicateWindow
  refuseUnless (decide (observedIds observed.windows = s.knownWindows.insert c.window))
    .partialObservation
  let entry ← okOr (.refused .partialObservation)
    (observed.windows.find? (·.window == c.window))
  refuseUnless (entry.output == c.output && entry.workspace == c.workspace &&
    entry.flags == c.exceptions) .partialObservation
  refuseUnless (s.observedKnownMatch observed.windows (some c.window)) .partialObservation
  refuseUnless (!(c.exceptions.any && c.exceptionBehavior.isNone)) .exceptionBehaviorUnselected
  refuseUnless (!(!c.exceptions.any && c.exceptionBehavior.isSome)) .malformedInput
  refuseUnless (validRectShape c.placementBounds) .malformedInput
  if c.exceptions.any then s.planAdmitDeferred c
  else if s.floatsFixed c entry then .ok (s.admitFixed c)
  else s.planAdmitTiled c entry observed

/-- Propose a planned lifecycle operation. -/
def proposeLifecyclePlan (s : Session) (planned : Except ProposeError (Staging LifecyclePlan))
    (observation : Observation) (correlationId : CorrelationId)
    (capabilities : LifecycleCapabilities) : Session × Except ProposeError SessionPlan :=
  s.proposeStaged planned
    (fun plan => s.reconciler.proposeLifecycle plan observation correlationId capabilities)
    fun dispatch staging => s.planOf dispatch staging.desired staging.geometry

def proposeAdmit (s : Session) (c : AdmitCommand) (observed : SessionObservation)
    (correlationId : CorrelationId) (capabilities : LifecycleCapabilities) :
    Session × Except ProposeError SessionPlan :=
  s.proposeLifecyclePlan (s.planAdmit c observed) observed.observation correlationId capabilities

/-! ## Removal -/

/-- The first leaf of the first domain that has one. -/
def firstLeafGlobal (domains : List OutputDomain) (trees : Trees) :
    Option (DomainKey × NodeId) :=
  domains.findSome? fun d =>
    (treeAt trees d.key).bind fun tree => tree.leaves.head?.map fun leaf => (d.key, leaf)

/-- Exception removal: the trees are unchanged, and so is a focus that still
resolves. -/
def removeDeferred (s : Session) (window : WindowId) (record : ExceptionRecord) :
    Staging LifecyclePlan :=
  let focus := if validFocus s.trees s.windows s.focusedDomain s.focusedLeaf then
      (s.focusedDomain, s.focusedLeaf)
    else
      let fallback := firstLeafGlobal s.domains s.trees
      (fallback.map Prod.fst, fallback.map Prod.snd)
  { plan := .forOperation (.remove window) (.removeDeferred window record.output record.workspace)
    desired := { s.accepted with
      focusedDomain := focus.1
      focusedLeaf := focus.2
      lastActive := s.updatedLastActive focus.1 focus.2 s.trees s.windows
      exceptions := s.exceptions.erase window }
    geometry := [] }

/-- Where focus goes when a tile leaves: down the domain's stack when the tile
was focused, else nowhere. -/
def focusAfterRemoval (s : Session) (link : WindowLink) (trees : Trees) (windows : Links) :
    Option DomainKey × Option NodeId :=
  if s.focusedLeaf = some link.leaf ∧ s.focusedDomain = some link.key then
    match s.focusStackFallback link.key trees windows with
    | some next => (some link.key, some next)
    | none => (none, none)
  else if validFocus trees windows s.focusedDomain s.focusedLeaf then
    (s.focusedDomain, s.focusedLeaf)
  else (none, none)

def planRemoveTiled (s : Session) (window : WindowId) (link : WindowLink)
    (observed : SessionObservation) : Except ProposeError (Staging LifecyclePlan) := do
  let target := removeLeafFromTree (treeAt s.trees link.key) link.leaf
  let trees := s.trees.insert link.key target
  let windows := s.windows.erase window
  let focus := s.focusAfterRemoval link trees windows
  refuseUnless (validateTopology s.domains trees windows s.exceptions focus.1 focus.2)
    .malformedTopology
  refuseUnless (!(decide (trees = s.trees) && decide (windows = s.windows) &&
    focus.1 == s.focusedDomain && focus.2 == s.focusedLeaf)) .unchanged
  let geometry ← match target with
    | some tree =>
      (projectOutputGeometry (s.domainFor link.output link.workspace) (some tree) windows link.key
        (hintsFromObserved observed.windows)).mapError fun _ => .refused .malformedTopology
    | none => .ok []
  return {
    plan := .forOperation (.remove window) (.remove window link.leaf link.output link.workspace)
    desired := { s.accepted with
      trees, windows
      focusedDomain := focus.1
      focusedLeaf := focus.2
      lastActive := s.updatedLastActive focus.1 focus.2 trees windows }
    geometry }

def planRemove (s : Session) (window : WindowId) (observed : SessionObservation) :
    Except ProposeError (Staging LifecyclePlan) := do
  let tiled := s.windows[window]?
  let deferred := s.exceptions[window]?
  refuseUnless (tiled.isSome || deferred.isSome) .unknownWindow
  refuseUnless (!(tiled.isSome && deferred.isSome)) .malformedTopology
  s.checkComplete observed.windows
  match deferred, tiled with
  | some record, _ => .ok (s.removeDeferred window record)
  | none, some link => s.planRemoveTiled window link observed
  | none, none => .error (.refused .unknownWindow)

def proposeRemove (s : Session) (window : WindowId) (observed : SessionObservation)
    (correlationId : CorrelationId) (capabilities : LifecycleCapabilities) :
    Session × Except ProposeError SessionPlan :=
  s.proposeLifecyclePlan (s.planRemove window observed) observed.observation correlationId
    capabilities

/-! ## Intentional float -/

/-- Centered 60% work-area rectangle. -/
def centeredFloatRect (bounds : Rect) : Rect :=
  let w := max ((bounds.w * 6).tdiv 10) 1
  let h := max ((bounds.h * 6).tdiv 10) 1
  ⟨bounds.x + (bounds.w - w).tdiv 2, bounds.y + (bounds.h - h).tdiv 2, w, h⟩

/-- An explicitly requested rectangle must have a valid shape. -/
def requestedRect : Option Rect → Except ProposeError (Option Rect)
  | some rect => if validRectShape rect then .ok (some rect) else .error (.refused .malformedInput)
  | none => .ok none

/-- The admission placement of a domain under the session's focus. -/
def seedTargetBounds (s : Session) (domain : OutputDomain) : Rect :=
  admissionPlacementFor domain (treeAt s.trees domain.key)
    (s.focusedLeaf.filter fun _ => s.focusedDomain == some domain.key)

/-- The copy an unfloat plans on: the float record is gone, and its placement
is retained. -/
def unfloated (s : Session) (window : WindowId) (retained : Option Rect) : Session :=
  { s with
    exceptions := s.exceptions.erase window
    retainedFloatGeometry := match retained with
      | some rect => s.retainedFloatGeometry.insert window rect
      | none => s.retainedFloatGeometry }

/-- What an unfloat checks before it plans the admission: the copy and the
admission itself. -/
def planUnfloat (s : Session) (window : WindowId) (record : ExceptionRecord)
    (floatGeometry : Option Rect) (observed : SessionObservation) :
    Except ProposeError (Session × AdmitCommand) := do
  refuseUnless (record.flags == .plainFloat) .notTiled
  let target ← okOr (.refused .partialObservation)
    (observed.windows.find? (·.window == window))
  refuseUnless ((if s.fixedAdmission then target.floating == record.flags.floating
      else target.flags == record.flags) &&
    target.output == record.output && target.workspace == record.workspace) .partialObservation
  -- a carried rectangle wins over the one already retained
  let requested ← requestedRect floatGeometry
  let retained := requested <|> record.floatingGeometry <|> s.retainedFloatGeometry[window]?
  let candidate := s.unfloated window retained
  let domain ← okOr (.refused .unknownDomain) (candidate.domainFor target.output target.workspace)
  return (candidate, {
    window
    output := target.output
    workspace := target.workspace
    exceptions := .none
    exceptionBehavior := none
    placementBounds := candidate.seedTargetBounds domain
    suppressFixedFloat := true })

/-- The rectangle a float takes: the requested one, else the retained one,
else the centered default. -/
def planFloat (s : Session) (window : WindowId) (floatGeometry : Option Rect)
    (observed : SessionObservation) : Except ProposeError (ObservedWindow × Rect) := do
  let target ← okOr (.refused .partialObservation)
    (observed.windows.find? (·.window == window))
  refuseUnless (!(target.flags.any || !s.windows.contains window)) .notTiled
  let requested ← requestedRect floatGeometry
  match requested <|> s.retainedFloatGeometry[window]?.filter validRectShape with
  | some rect => return (target, rect)
  | none =>
    let domain ← okOr (.refused .unknownDomain) (s.domainFor target.output target.workspace)
    return (target, centeredFloatRect domain.bounds)

/-- Tile a plainly floating exception again, or float a tile. A proposed
unfloat leaves its working copy behind as the session; the float edits the
removal it has just staged. -/
def proposeToggleFloat (s : Session) (window : WindowId) (floatGeometry : Option Rect)
    (observed : SessionObservation) (correlationId : CorrelationId)
    (capabilities : LifecycleCapabilities) : Session × Except ProposeError SessionPlan :=
  match s.exceptions[window]? with
  | some record =>
    s.attempt (s.planUnfloat window record floatGeometry observed) fun (candidate, command) =>
      match candidate.proposeAdmit command (observed.settled window) correlationId capabilities with
      | (candidate, .ok plan) => (candidate, .ok plan)
      | (_, .error e) => (s, .error e)
  | none =>
    s.attempt (s.planFloat window floatGeometry observed) fun (target, effective) =>
      match s.proposeRemove window observed correlationId capabilities with
      | (s', .error e) => (s', .error e)
      | (s', .ok plan) =>
        match s'.pendingDesired with
        | none => (s', .error (.refused .malformedTopology))
        | some desired =>
          ({ s' with pendingDesired := some (desired.floated target window effective) }, .ok plan)

end Session

/-! ## Split-axis toggle -/

mutual

/-- Flip the axis of the first group with this id; `none` when no group has
it. -/
def flipGroupAxis (group : NodeId) : Node → Option Node
  | .leaf _ => none
  | .group id axis children shares =>
    if id = group then
      some (.group id (match axis with | .horizontal => .vertical | .vertical => .horizontal)
        children shares)
    else (flipChildren group children).map fun children => .group id axis children shares

def flipChildren (group : NodeId) : List Node → Option (List Node)
  | [] => none
  | child :: children =>
    match flipGroupAxis group child with
    | some flipped => some (flipped :: children)
    | none => (flipChildren group children).map (child :: ·)

end

namespace Session

/-- The focus as a tiled window: both parts present, and a window linked to
the leaf. -/
def focusedTile (s : Session) : Except ProposeError (DomainKey × NodeId × WindowId) := do
  let domain ← okOr (.refused .focusMismatch) s.focusedDomain
  let leaf ← okOr (.refused .focusMismatch) s.focusedLeaf
  let window ← okOr (.refused .notTiled) (s.focusedWindowFor leaf domain)
  return (domain, leaf, window)

def planToggleOrientation (s : Session) (window : WindowId) (observed : SessionObservation) :
    Except ProposeError (Staging LifecyclePlan) := do
  s.checkIdle
  refuseUnless s.validateCurrentTopology .malformedTopology
  refuseUnless (!window.isEmpty) .malformedInput
  s.checkObserved observed.windows
  s.checkComplete observed.windows
  s.checkTiled window
  let (domain, leaf, focusedWindow) ← s.focusedTile
  refuseUnless (!s.exceptions.contains focusedWindow) .notTiled
  refuseUnless (window == focusedWindow) .focusMismatch
  -- an overlay is not a tiled subject
  refuseUnless (!((observed.windows.find? (·.window == focusedWindow)).any (·.flags.any))) .notTiled
  let tree ← okOr (.refused .malformedTopology) (treeAt s.trees domain)
  -- a lone root leaf has no group to flip
  let parent ← okOr (.refused .unchanged) (directParentOfLeaf tree leaf)
  let flipped ← okOr (.refused .malformedTopology) (flipGroupAxis parent tree)
  let trees := s.trees.insert domain (some flipped)
  refuseUnless (validateTopology s.domains trees s.windows s.exceptions (some domain) (some leaf))
    .malformedTopology
  let geometry ← (projectOutputGeometry (s.domainFor domain.output domain.workspace) (some flipped)
    s.windows domain (hintsFromObserved observed.windows)).mapError
      fun _ => .refused .malformedTopology
  return {
    plan := .forOperation (.toggleOrientation window domain.output domain.workspace)
      (.toggleOrientation window leaf parent domain.output domain.workspace)
    desired := { s.accepted with
      trees
      focusedDomain := some domain
      focusedLeaf := some leaf
      lastActive := s.updatedLastActive (some domain) (some leaf) s.trees s.windows }
    geometry }

def proposeToggleOrientation (s : Session) (window : WindowId) (observed : SessionObservation)
    (correlationId : CorrelationId) (capabilities : LifecycleCapabilities) :
    Session × Except ProposeError SessionPlan :=
  s.proposeLifecyclePlan (s.planToggleOrientation window observed) observed.observation
    correlationId capabilities

end Session

end PlasmaTiler
