import PlasmaTiler.WorldOps

/-!
# Observation convergence

One call brings the accepted world to a complete observation: missing windows
leave, tiles observed floating become exceptions, floats observed tiled come
back, and new windows are floated, held or admitted. Nothing is asked of the
adapter for this, since all of it has happened on the screen already.

`Converging` is the world in the making; each pass is a fold of one step over
the observed windows, in window order, and the passes run in the source's
order, which decides about a window that several of them could take. What
the user did by hand wins over what the session decided by itself: a float
marked automatic goes back to the tiles as soon as it may, an intentional one
stays.

The operation checks the observation, runs the passes on a copy, validates
the result and adopts it. A convergence that changed nothing commits no
revision, but the focus follows all the same.
-/

namespace PlasmaTiler

/-- Bounded result counts. -/
structure ObservationConvergence where
  removed : Nat
  admitted : Nat
  flagsAdopted : Nat
deriving DecidableEq, Repr

/-- The world in the making. -/
structure Converging where
  trees : Trees
  windows : Links
  exceptions : Exceptions
  automatic : BTreeSet WindowId
  tileOverride : BTreeSet WindowId
  removed : Nat
  admitted : Nat
  flagsAdopted : Nat

/-- Floating and nothing else, with the geometry retained for it. -/
def floatingRecord (window : WindowId) (output : OutputId) (workspace : WorkspaceId)
    (geometry : Option Rect) : ExceptionRecord :=
  ⟨window, output, workspace, .plainFloat, geometry⟩

namespace Converging

variable (c : Converging)

def counted : Converging := { c with flagsAdopted := c.flagsAdopted + 1 }

/-- Take a tile out of its tree and out of the links. -/
def untile (window : WindowId) (link : WindowLink) : Converging :=
  { c with
    trees := c.trees.insert link.key (removeLeafFromTree (treeAt c.trees link.key) link.leaf)
    windows := c.windows.erase window }

/-- Keep a window out of the trees. -/
def float (window : WindowId) (entry : ObservedWindow) (geometry : Option Rect) : Converging :=
  { c with exceptions :=
      c.exceptions.insert window (floatingRecord window entry.output entry.workspace geometry) }

def mark (window : WindowId) : Converging := { c with automatic := c.automatic.insert window }

def unmark (window : WindowId) : Converging := { c with automatic := c.automatic.erase window }

/-- A window in neither membership of the session nor of the world so far. -/
def isBrandNew (s : Session) (window : WindowId) : Bool :=
  !s.windows.contains window && !s.exceptions.contains window && !c.exceptions.contains window

end Converging

namespace Session

/-- The fixed-size classifier of a new window. -/
def fixedFloatsAtAdmit (s : Session) (entry : ObservedWindow) : Bool :=
  s.fixedAdmission && !entry.floating && !entry.fullscreen && !entry.sticky &&
    !entry.fixedSuppress && !s.fixedTileOverride.contains entry.window &&
    isFixedSizeWith entry.hints s.fixedPredicate

/-! ## The passes -/

/-- The start: the accepted world. -/
def converging (s : Session) : Converging :=
  ⟨s.trees, s.windows, s.exceptions, s.automaticFixed, s.fixedTileOverride, 0, 0, 0⟩

/-- A known window that is not observed leaves. -/
def removeStep (observed : BTreeMap WindowId ObservedWindow) (c : Converging) (id : WindowId) :
    Option Converging :=
  if observed.contains id then some c
  else
    match c.windows[id]? with
    | some link => some { c.untile id link with removed := c.removed + 1 }
    | none =>
      if c.exceptions.contains id then
        some { c with exceptions := c.exceptions.erase id, removed := c.removed + 1 }
      else none

/-- A tile observed floating becomes an exception. -/
def floatStep (s : Session) (c : Converging) (p : WindowId × ObservedWindow) : Converging :=
  if !p.2.floating then c
  else
    match c.windows[p.1]? with
    | none => c
    | some link =>
      ((c.untile p.1 link).float p.1 p.2 s.retainedFloatGeometry[p.1]?).counted

/-- The exceptions observed tiled. With the opt-in on a fullscreen one is held. -/
def toTile (s : Session) (observed : BTreeMap WindowId ObservedWindow) (c : Converging) :
    List WindowId :=
  s.exceptions.keys.filter fun id =>
    observed[id]?.any (fun entry => !entry.floating && (!s.fixedAdmission || !entry.fullscreen)) &&
      c.exceptions.contains id

/-- An exception observed tiled stays floating while it is fixed-size, marked
automatic, and retiles otherwise. -/
def retileStep (s : Session) (observed : BTreeMap WindowId ObservedWindow) (c : Converging)
    (id : WindowId) : Converging :=
  match observed[id]? with
  | none => c
  | some entry =>
    let fixedNow := isFixedSizeWith entry.hints s.fixedPredicate
    let wasAutomatic := c.automatic.contains id
    if s.fixedAdmission && wasAutomatic && !entry.fixedSuppress && fixedNow then c.counted
    else if s.fixedAdmission && !wasAutomatic && !entry.fixedSuppress &&
        !s.fixedTileOverride.contains id && !entry.sticky && fixedNow then (c.mark id).counted
    else
      { c.unmark id with
        exceptions := c.exceptions.erase id
        tileOverride := if s.fixedAdmission && entry.fixedSuppress then c.tileOverride.insert id
          else c.tileOverride
        flagsAdopted := c.flagsAdopted + 1 }

/-- Sticky adopts an automatic float as intentional. -/
def stickyStep (c : Converging) (p : WindowId × ObservedWindow) : Converging :=
  if p.2.sticky && c.automatic.contains p.1 then c.unmark p.1 else c

/-- The adapter's origin signal marks a float unless a tile win competes. -/
def originStep (s : Session) (c : Converging) (p : WindowId × ObservedWindow) : Converging :=
  if p.2.floating && p.2.fixedAuto && !p.2.fixedSuppress && !p.2.sticky &&
      c.exceptions.contains p.1 && !c.automatic.contains p.1 &&
      !(s.fixedTileOverride.contains p.1 || c.tileOverride.contains p.1) && s.fixedAdmission then
    (c.mark p.1).counted
  else c

/-- A new floating window is an exception; the origin signal marks it unless
it is born fullscreen. -/
def newFloatStep (s : Session) (c : Converging) (p : WindowId × ObservedWindow) : Converging :=
  if p.2.floating && !s.windows.contains p.1 && !s.exceptions.contains p.1 then
    let floated := c.float p.1 p.2 none
    (if s.fixedAdmission && p.2.fixedAuto && !p.2.fullscreen && !p.2.sticky &&
        !p.2.fixedSuppress && !s.fixedTileOverride.contains p.1 then floated.mark p.1
      else floated).counted
  else c

/-- With the opt-in on a new fullscreen window is held without a mark. -/
def fullscreenStep (s : Session) (c : Converging) (p : WindowId × ObservedWindow) : Converging :=
  if s.fixedAdmission && !p.2.sticky && c.isBrandNew s p.1 && p.2.fullscreen && !p.2.floating then
    (c.float p.1 p.2 none).counted
  else c

/-- A new fixed-size window floats with the automatic mark. -/
def fixedStep (s : Session) (c : Converging) (p : WindowId × ObservedWindow) : Converging :=
  if c.isBrandNew s p.1 && s.fixedFloatsAtAdmit p.2 then
    ((c.float p.1 p.2 none).mark p.1).counted
  else c

/-- The world in the making with the ids in use and the evolving admission
focus. -/
structure Admitting where
  world : Converging
  ids : BTreeSet NodeId
  focusDomain : Option DomainKey
  focusLeaf : Option NodeId

/-- Everything still in neither membership is admitted beside the last one. -/
def admitStep (s : Session) (baseRevision : Nat) (toTile : List WindowId) (a : Admitting)
    (p : WindowId × ObservedWindow) : Except ProposeError Admitting :=
  let c := a.world
  if p.2.floating || c.windows.contains p.1 || c.exceptions.contains p.1 then .ok a
  else do
    let key := p.2.key
    let domain ← okOr (.refused .crossDomainMismatch) (s.domainAt key)
    let eligible := if a.focusDomain = some key ∧ validFocus c.trees c.windows a.focusDomain a.focusLeaf
      then a.focusLeaf else none
    let current := treeAt c.trees key
    let orientation := admissionAxisForRect (admissionPlacementFor domain current eligible)
    let leaf := generateLeafId p.1 a.ids
    let (next, ids) ← okOr (.refused .malformedTopology)
      (insertTiled current eligible leaf orientation (a.ids.insert leaf) p.1 baseRevision)
    -- an observed suppress signal is a tile win
    let wins := s.fixedAdmission && p.2.fixedSuppress
    return {
      world := { c with
        trees := c.trees.insert key (some next)
        windows := c.windows.insert p.1 ⟨p.1, leaf, p.2.output, p.2.workspace⟩
        automatic := if wins then c.automatic.erase p.1 else c.automatic
        tileOverride := if wins then c.tileOverride.insert p.1 else c.tileOverride
        admitted := if toTile.contains p.1 then c.admitted else c.admitted + 1 }
      ids
      focusDomain := some key
      focusLeaf := some leaf }

/-- The passes before admission. -/
def classify (s : Session) (observed : BTreeMap WindowId ObservedWindow) (afterFloat : Converging) :
    Converging :=
  let entries := observed.toList
  let retiled := (s.toTile observed afterFloat).foldl (s.retileStep observed) afterFloat
  let sticky := entries.foldl stickyStep retiled
  let origin := entries.foldl s.originStep sticky
  let newFloats := entries.foldl s.newFloatStep origin
  let held := entries.foldl s.fullscreenStep newFloats
  entries.foldl s.fixedStep held

/-- All passes, from the accepted world to the converged one. -/
def convergePasses (s : Session) (observed : BTreeMap WindowId ObservedWindow)
    (baseRevision : Nat) : Except ProposeError Converging := do
  let present ← okOr (.refused .malformedTopology)
    ((s.windows.keys ++ s.exceptions.keys).foldlM (removeStep observed) s.converging)
  let afterFloat := observed.toList.foldl s.floatStep present
  let classified := s.classify observed afterFloat
  let admitting ← observed.toList.foldlM
    (s.admitStep baseRevision (s.toTile observed afterFloat))
    ⟨classified, nodeIdsOf classified.trees, s.focusedDomain, s.focusedLeaf⟩
  return admitting.world

/-! ## The operation -/

/-- Where the focus goes: the observed tile, the focus that still resolves,
the stack of its domain, nowhere. -/
def convergedFocus (s : Session) (observedFocus : Option WindowId) (trees : Trees)
    (windows : Links) : Option DomainKey × Option NodeId :=
  match observedFocus.bind fun window => windows[window]? with
  | some link => (some link.key, some link.leaf)
  | none =>
    if validFocus trees windows s.focusedDomain s.focusedLeaf then (s.focusedDomain, s.focusedLeaf)
    else
      match s.focusedDomain.bind fun domain =>
          (s.focusStackFallback domain trees windows).map fun leaf => (domain, leaf) with
      | some (domain, leaf) => (some domain, some leaf)
      | none => (none, none)

/-- The binding of a convergence observation, the fault first. -/
def convergenceFault (s : Session) (o : Observation) : Option DivergenceKind :=
  if !o.validate || o.owner ≠ s.owner then
    some (if o.owner ≠ s.owner then .ownerMismatch
      else if !isGenerationId o.generation.asStr then .generationMismatch
      else .staleRevision)
  else if o.generation ≠ s.generation then some .generationMismatch
  else if o.revision ≠ s.acceptedRevision then some .staleRevision
  else none

/-- Retained windows are observed at home: a move between domains is not a
convergence. -/
def convergesInPlace (s : Session) (observed : List ObservedWindow) : Bool :=
  observed.all fun entry =>
    match s.windows[entry.window]? with
    | some link => entry.output == link.output && entry.workspace == link.workspace
    | none => s.exceptions[entry.window]?.all fun record =>
        entry.output == record.output && entry.workspace == record.workspace

/-- A converged world with the focus it gets. -/
structure Converged where
  world : Converging
  focus : Option DomainKey × Option NodeId

/-- Everything up to the commit. -/
def planConvergence (s : Session) (observation : SessionObservation)
    (observedFocus : Option WindowId) : Except ProposeError Converged := do
  refuseUnless (validObservedShapes observation.windows) .malformedInput
  refuseUnless (s.observedHomed observation.windows) .crossDomainMismatch
  refuseUnless (s.convergesInPlace observation.windows) .crossDomainMismatch
  let observed : BTreeMap WindowId ObservedWindow :=
    observation.windows.foldl (fun byId entry => byId.insert entry.window entry) ∅
  let world ← s.convergePasses observed observation.observation.revision
  let focus := s.convergedFocus observedFocus world.trees world.windows
  refuseUnless (validateTopology s.domains world.trees world.windows world.exceptions focus.1
    focus.2) .malformedTopology
  let known (id : WindowId) : Bool := world.windows.contains id || world.exceptions.contains id
  return {
    world := { world with
      automatic := retain world.automatic known
      tileOverride := retain world.tileOverride known }
    focus }

/-- Whether convergence changed anything but the focus. -/
def convergenceChanged (s : Session) (c : Converging) : Bool :=
  decide (c.trees ≠ s.trees) || decide (c.windows ≠ s.windows) ||
    decide (c.exceptions ≠ s.exceptions) || decide (c.automatic ≠ s.automaticFixed) ||
    decide (c.tileOverride ≠ s.fixedTileOverride)

/-- The focus of a convergence takes effect whether or not a revision was
committed. -/
def focusConverged (s : Session) (focus : Option DomainKey × Option NodeId) : Session :=
  { s with
    focusedDomain := focus.1
    focusedLeaf := focus.2
    focusStack := s.updatedFocusStack focus.1 focus.2 s.trees s.windows
    lastActive := s.updatedLastActive focus.1 focus.2 s.trees s.windows }

/-- The converged world as the accepted one. -/
def adoptConverged (s : Session) (c : Converging) (reconciler : Reconciler) (fingerprint : Nat) :
    Session :=
  { s with
    reconciler
    trees := c.trees
    windows := c.windows
    exceptions := c.exceptions
    automaticFixed := c.automatic
    fixedTileOverride := c.tileOverride
    acceptedFingerprint := fingerprint }

def convergeObservation (s : Session) (observation : SessionObservation)
    (observedFocus : Option WindowId) : Session × Except ProposeError ObservationConvergence :=
  match s.divergence with
  | some reason => (s, .error (.diverged reason))
  | none =>
    if s.hasPending || s.hasPendingDesired || s.hasDrag then (s, .error .pendingExists)
    else if !s.validateCurrentTopology then (s, .error (.refused .malformedTopology))
    else
      match s.convergenceFault observation.observation with
      | some reason =>
        let (reconciler, kind) := s.reconciler.divergeConvergence reason
        ({ s with reconciler, pendingDesired := none, drag := none }, .error (.diverged kind))
      | none =>
        s.attempt (s.planConvergence observation observedFocus) fun converged =>
          let c := converged.world
          if !s.convergenceChanged c then (s.focusConverged converged.focus, .ok ⟨0, 0, 0⟩)
          -- refused without recording: the bound must not brick the session
          else if maxRevision ≤ s.acceptedRevision then
            (s, .error (.diverged .revisionExhausted))
          else
            match s.reconciler.commitObservationConvergence observation.observation.fingerprint with
            | .error reason =>
              (if s.divergence.isSome then { s with pendingDesired := none, drag := none } else s,
                .error (.diverged reason))
            | .ok (reconciler, _) =>
              ((s.adoptConverged c reconciler observation.observation.fingerprint).focusConverged
                converged.focus, .ok ⟨c.removed, c.admitted, c.flagsAdopted⟩)

end Session

end PlasmaTiler
