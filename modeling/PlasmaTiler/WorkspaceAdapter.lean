import PlasmaTiler.WorkspaceUpkeep

/-!
# The KWin workspace adapter over time

The adapter with its surface, every event it handles, and runs of events.
What a `World` can do is all of what the compositor can ask of the adapter:
enable and disable it, signal a change of topology, issue any command,
migrate a workspace, go back to the previous view.

What else happens on the surface is free. Outputs come and go, windows move,
the user shows another desktop, and a signal follows at any later time or not
at all; the event `surface` stands for any of it. What is assumed of KWin is
that ids of desktops are not used again, and that only desktops are shown
(`Follows`): a record that survives its desktop would name a stranger
otherwise.

A topology signal is the long one. It prunes the mapping to live desktops,
runs the displacement pass, refreshes what is remembered, rebuilds the output
keys, cleans up, and validates the history; each stage waits where the part
of the surface it needs cannot be read, so a signal may do any prefix of
this.
-/

namespace PlasmaTiler

namespace Native

inductive MigrationSourceRefill
  | lastRemaining
  | mostRecentlyUsed
deriving DecidableEq, Repr

/-- The desktop a source output shows after a migration. -/
def selectMigrationSourceRefill (refill : MigrationSourceRefill) (previous : Option DesktopId)
    (ring : List DesktopId) : Option DesktopId :=
  match refill, previous with
  | .mostRecentlyUsed, some id => if id ≠ "" ∧ id ∈ ring then some id else ring.getLast?
  | _, _ => ring.getLast?

structure Adapter where
  enabled : Bool := false
  mode : WorkspaceMode := .perOutputLocal
  outputKeys : SessionOutputKeys := {}
  mapping : Mapping := {}
  memory : Memory := {}
  history : History := {}
  migrationSourceRefill : MigrationSourceRefill := .lastRemaining

/-- The adapter with its surface. -/
structure World where
  adapter : Adapter
  surface : Surface

namespace World

def desk (w : World) : Desk := ⟨w.adapter.mapping, w.surface⟩

def withDesk (w : World) (d : Desk) : World :=
  { adapter := { w.adapter with mapping := d.mapping }, surface := d.surface }

def withHistory (w : World) (h : History) : World :=
  { w with adapter := { w.adapter with history := h } }

/-! ## Topology signals -/

/-- The pass of a signal. -/
def pass (w : World) (screens : List Output) (live : List DesktopId) : Pass where
  mode := w.adapter.mode
  keys := w.adapter.outputKeys
  screens := screens
  live := live
  currentKeys := w.adapter.outputKeys.screenKeys screens
  prev := w.adapter.mapping.lists w.adapter.mode
  memory := w.adapter.memory

/-- Displace what is gone, return what is back, remember what is there. -/
def reconcileOutputDisplacement (w : World) : World :=
  if w.adapter.mode = .shared then w
  else match w.surface.liveScreens, w.surface.liveOrdered with
  | some screens, some live =>
    let p := w.pass screens live
    let pruned : Desk := { w.desk with mapping := w.adapter.mapping.pruneDisplaced live }
    if p.currentKeys.isEmpty then w.withDesk pruned
    else
      let history := w.adapter.history.recordHistoryObservations p.keys screens p.currentKeys
        w.surface
      let d := p.run pruned
      let memory := (w.adapter.memory.refreshLastVisible p.keys screens p.currentKeys d.surface
        d.mapping).refreshLastKnown p.keys p.currentKeys d.surface d.mapping
      { adapter := { w.adapter with
          mapping := d.mapping
          memory
          history := history.recordHistoryObservations p.keys screens p.currentKeys d.surface }
        surface := d.surface }
  | _, _ => w

/-- The keys follow the screens. -/
def rebuildKeys (w : World) : World :=
  match w.surface.liveScreens with
  | none => w
  | some screens =>
    { w with adapter := { w.adapter with outputKeys := w.adapter.outputKeys.rebuild screens } }

def observeShared (w : World) : World :=
  if w.adapter.mode = .shared then w.withHistory (w.adapter.history.observeSharedHistory w.surface)
  else w

def cleanup (w : World) : World :=
  w.withDesk (w.desk.cleanupDesktops w.adapter.mode w.adapter.outputKeys)

def validate (w : World) : World :=
  w.withHistory (w.adapter.history.validatePreviousEntries w.adapter.mode w.surface
    w.adapter.mapping)

def handleTopologySignal (w : World) : World :=
  if !w.adapter.enabled then w
  else w.rebuildKeys.reconcileOutputDisplacement.observeShared.cleanup.validate

/-! ## Enabling -/

/-- A session starts with empty mappings; only the keys are kept. -/
def resetMappingState (w : World) : World :=
  { w with adapter := { w.adapter with mapping := {}, memory := {}, history := {} } }

def primeHistoryBaselines (keys : SessionOutputKeys) (s : Surface) (h : History) (o : Output) :
    History :=
  match keys.keyFor o, s.currentOnOutput o with
  | some key, some current =>
    { h with historyBaselineByKey := h.historyBaselineByKey.set key current }
  | _, _ => h

def primeDisplacedTracking (w : World) : World :=
  match w.surface.liveScreens with
  | none => w
  | some screens =>
    let a := w.adapter
    let connected := a.outputKeys.screenKeys screens
    { w with adapter := { a with
      memory := (a.memory.refreshLastVisible a.outputKeys screens connected w.surface
        a.mapping).refreshLastKnown a.outputKeys connected w.surface a.mapping
      history := { screens.foldl (primeHistoryBaselines a.outputKeys w.surface) a.history with
        previousByOutput := .empty
        lastSharedVisible := w.surface.currentDesktop
        previousShared := none } } }

def enable (mode : WorkspaceMode) (refill : MigrationSourceRefill) (w : World) : World :=
  if w.adapter.enabled then w
  else
    let w := w.resetMappingState
    let w : World := { w with
      adapter := { w.adapter with enabled := true, mode, migrationSourceRefill := refill } }
    let w := w.rebuildKeys
    (w.withDesk (w.desk.rebuild mode w.adapter.outputKeys)).cleanup.primeDisplacedTracking

def disable (w : World) : World :=
  let w := w.resetMappingState
  { w with adapter := { w.adapter with enabled := false } }

/-! ## Migration -/

/-- Where a migrated desktop goes: right after the desktop shown there. -/
def insertAfter (shown id : DesktopId) (ids : List DesktopId) : List DesktopId :=
  match ids.findIdx? fun x => x == shown with
  | none => ids ++ [id]
  | some position => ids.take (position + 1) ++ id :: ids.drop (position + 1)

/-- The move of a desktop from one list to another. -/
def moveBetween (mode : WorkspaceMode) (live : List DesktopId) (sourceKey targetKey : OutputKey)
    (shown id : DesktopId) (m : Mapping) : Mapping :=
  match mode with
  | .globalUnique =>
    let m := m.unassignGlobal id
    { m with
      globalAssigned := m.globalAssigned.set targetKey
        (Buckets.pushNew [] (insertAfter shown id (m.globalOrdered live targetKey)))
      globalInverse := m.globalInverse.set id targetKey }
  | _ =>
    let kept := ((m.localWorkspaces.get sourceKey).getD []).filter fun x => x != id
    { m with
      localWorkspaces := (m.localWorkspaces.set sourceKey kept).set targetKey
        (Buckets.pushNew [] (insertAfter shown id ((m.localWorkspaces.get targetKey).getD []))) }

/-- A migrated desktop does not return; its siblings do. -/
def undisplace (id : DesktopId) (m : Mapping) : Mapping :=
  { m with
    displacedByOrigin :=
      (m.displacedByOrigin.filter fun _ entry => !entry.workspaceIds.contains id ||
        entry.workspaceIds.any fun x => x != id).map fun _ entry =>
          { entry with workspaceIds := entry.workspaceIds.filter fun x => x != id } }

/-- The list of an output; only the global lists are read without their dead
desktops. -/
def scope (mode : WorkspaceMode) (live : List DesktopId) (m : Mapping) (key : OutputKey) :
    List DesktopId :=
  match mode with
  | .globalUnique => m.globalOrdered live key
  | _ => (m.localWorkspaces.get key).getD []

/-- The keys and the shown desktop of a migration that is not refused. -/
def migration (source target : Output) (id : DesktopId) (live : List DesktopId) (w : World) :
    Option (OutputKey × OutputKey × DesktopId) := do
  let keys := w.adapter.outputKeys
  let inScope := scope w.adapter.mode live w.adapter.mapping
  let sourceKey ← keys.keyFor source
  let targetKey ← keys.keyFor target
  let shown ← w.surface.currentOnOutput target
  if sourceKey ≠ targetKey ∧ live.contains id ∧ (inScope sourceKey).contains id ∧ shown ≠ id ∧
      !(inScope targetKey).contains id then
    some (sourceKey, targetKey, shown)
  else none

/-- Move a whole workspace to another output. The answer is the desktop the
source shows afterwards. -/
def commitWorkspaceMigration (source target : Output) (id : DesktopId) (w : World) :
    Option (Option DesktopId) × World :=
  let a := w.adapter
  if !a.enabled || a.mode = .shared then (none, w)
  else match w.surface.liveOrdered with
  | none => (none, w)
  | some live =>
    let w := w.withDesk (w.desk.rebuild a.mode a.outputKeys)
    match w.migration source target id live with
    | none => (none, w)
    | some (sourceKey, targetKey, shown) =>
      let previousBefore := a.history.previousByOutput.get sourceKey
      let m := undisplace id
        ((moveBetween a.mode live sourceKey targetKey shown id w.adapter.mapping).manage [id])
      let previous :=
        if previousBefore = some id then a.history.previousByOutput.delete sourceKey
        else a.history.previousByOutput
      let w := (({ w with adapter := { w.adapter with mapping := m } } : World).withHistory
        { a.history with previousByOutput := previous }).validate
      let ring := (Desk.scopedRingIds a.mode sourceKey live m).filter fun x => x != id
      let refillId :=
        match w.surface.currentOnOutput source with
        | some current =>
          if ring.contains current then some current
          else selectMigrationSourceRefill a.migrationSourceRefill previousBefore ring
        | none => selectMigrationSourceRefill a.migrationSourceRefill previousBefore ring
      (some refillId, w)

/-! ## The previous view -/

/-- Forget the previous view of an output. -/
def forgetPrevious (key : OutputKey) (w : World) : World :=
  w.withHistory { w.adapter.history with
    previousByOutput := w.adapter.history.previousByOutput.delete key }

def selectPreviousShared (w : World) : Bool × World :=
  match w.adapter.history.previousShared, w.surface.liveOrdered with
  | some previousId, some live =>
    if !live.contains previousId then
      (false, w.withHistory { w.adapter.history with previousShared := none })
    else if w.surface.currentDesktop = some previousId then (true, w)
    else (true, { w with surface := w.surface.synchronizeShared previousId })
  | _, _ => (false, w)

def selectPrevious (w : World) : Bool × World :=
  if w.adapter.mode = .shared then w.selectPreviousShared
  else
    let found := do
      let output ← w.surface.activeOutput
      let key ← w.adapter.outputKeys.keyFor output
      let previousId ← w.adapter.history.previousByOutput.get key
      let live ← w.surface.liveOrdered
      return (output, key, previousId, live)
    match found with
    | none => (false, w)
    | some (output, key, previousId, live) =>
      if !live.contains previousId ||
          !(scope w.adapter.mode live w.adapter.mapping key).contains previousId then
        (false, w.forgetPrevious key)
      else if w.surface.currentOnOutput output = some previousId then (true, w)
      else (true, w.withDesk (w.desk.showOn w.adapter.mode w.adapter.outputKeys previousId output))

/-! ## Runs -/

inductive Event
  | enable (mode : WorkspaceMode) (refill : MigrationSourceRefill)
  | disable
  | topology
  | select (index : Nat)
  | selectTrailing
  | selectPrevious
  | selectRelative (forward : Bool)
  | relativeMoveTarget (forward : Bool)
  | appendMoveTarget
  | migrate (source target : Output) (id : DesktopId)
  | refill (refill : MigrationSourceRefill)
  /-- Anything else that happens on the surface. -/
  | surface (s : Surface)

/-- A command of an enabled adapter. -/
def command (w : World) (f : WorkspaceMode → SessionOutputKeys → Desk → Desk) : World :=
  if w.adapter.enabled then w.withDesk (f w.adapter.mode w.adapter.outputKeys w.desk) else w

def step (w : World) : Event → World
  | .enable mode refill => w.enable mode refill
  | .disable => w.disable
  | .topology => w.handleTopologySignal
  | .select index => w.command fun mode keys d => (d.selectLogical mode keys index).2
  | .selectTrailing => w.command fun mode keys d => (d.selectTrailingOrCreate mode keys).2
  | .selectPrevious => if w.adapter.enabled then w.selectPrevious.2 else w
  | .selectRelative forward => w.command fun mode keys d => (d.selectRelative mode keys forward).2
  | .relativeMoveTarget forward => w.command fun mode keys d =>
      (d.resolveRelativeMoveTarget mode keys forward).2
  | .appendMoveTarget => w.command fun mode keys d => (d.resolveOrAppendMoveTarget mode keys).2
  | .migrate source target id => (w.commitWorkspaceMigration source target id).2
  | .refill refill => { w with adapter := { w.adapter with migrationSourceRefill := refill } }
  | .surface s => { w with surface := s }

def run (w : World) (events : List Event) : World := events.foldl step w

/-- What the surface promises about its changes: ids of desktops are not used
again for others, and only what is or was a desktop is shown. -/
structure Follows (s s' : Surface) : Prop where
  used : ∀ id ∈ s.desktops.used, id ∈ s'.desktops.used
  fresh : ∀ id ∈ s'.desktops.ids, id ∈ s.desktops.ids ∨ id ∉ s.desktops.used
  shown : ∀ o id, s'.currents.get o = some id → id ∈ s'.desktops.used

/-- What the surface does on its own keeps its promises. The adapter's own
events are all allowed. -/
def Allowed (w : World) : Event → Prop
  | .surface s => Follows w.surface s
  | _ => True

/-- A property of every step of a run, with the world the step is taken in;
conditions on runs are written with it. -/
def Always (P : World → Event → Prop) (w : World) : List Event → Prop
  | [] => True
  | e :: events => P w e ∧ Always P (w.step e) events

end World

end Native

end PlasmaTiler
