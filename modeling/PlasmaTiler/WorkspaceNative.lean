import PlasmaTiler.Surface

/-!
# The workspace mapping of the KWin adapter

KWin has one list of virtual desktops for all outputs. The adapter makes
workspaces of each output from it: every output owns a list of backing
desktops. In the mode `perOutputLocal` the lists are `localWorkspaces`; in
`globalUnique` they are `globalAssigned`, with the inverse map beside them;
in `shared` there is one list for everybody.

When an output goes, its desktops are displaced to a survivor and recorded
under their origin; when it returns, they return. A displacement pass reads
everything it needs once at its start, as the closure of the source does, so
a `Pass` is a record of what it knows and `run` is a fold over the absent
outputs and then over the connected ones.

The definitions are in the order of the source: rebuilding the lists of each
mode, moving desktops between lists, the displacement pass, and last what the
adapter remembers of outputs that may go (`Memory`) and of views that were
shown (`History`). A `Desk` is the mapping with the surface it is about; only
`writeCurrent` touches the surface in this module.
-/

namespace PlasmaTiler

namespace Native

inductive WorkspaceMode
  | perOutputLocal
  | globalUnique
  | shared
deriving DecidableEq, Repr

/-- Where the desktops of an absent output are. -/
structure Displaced where
  workspaceIds : List DesktopId
  destKey : OutputKey
deriving DecidableEq, Repr

structure Mapping where
  localWorkspaces : Buckets OutputKey DesktopId := .empty
  localPrimary : Option OutputKey := none
  globalAssigned : Buckets OutputKey DesktopId := .empty
  globalInverse : OrderedMap DesktopId OutputKey := .empty
  globalPrimary : Option OutputKey := none
  sharedIds : List DesktopId := []
  managed : List DesktopId := []
  displacedByOrigin : OrderedMap OutputKey Displaced := .empty

/-- What is remembered of outputs that may go. -/
structure Memory where
  lastVisibleByKey : OrderedMap OutputKey DesktopId := .empty
  lastKnownByKey : OrderedMap OutputKey (List DesktopId) := .empty

structure History where
  previousByOutput : OrderedMap OutputKey DesktopId := .empty
  historyBaselineByKey : OrderedMap OutputKey DesktopId := .empty
  lastSharedVisible : Option DesktopId := none
  previousShared : Option DesktopId := none

/-- The mapping with the surface it is about. -/
structure Desk where
  mapping : Mapping
  surface : Surface

namespace Mapping

/-- The output lists of the mode. -/
def lists (mode : WorkspaceMode) (m : Mapping) : Buckets OutputKey DesktopId :=
  match mode with
  | .globalUnique => m.globalAssigned
  | _ => m.localWorkspaces

def manage (ids : List DesktopId) (m : Mapping) : Mapping :=
  { m with managed := Buckets.pushNew m.managed ids }

/-! ## Rebuilding -/

/-- The primary while it is connected, else the first screen's key. -/
def primaryAmong (primary : Option OutputKey) (keys : List OutputKey) : Option OutputKey :=
  match primary with
  | some key => if key ∈ keys then some key else keys.head?
  | none => keys.head?

/-- Lists keep live desktops; the primary takes those that are in no list. -/
def rebuildLocalWith (keys : List OutputKey) (live : List DesktopId) (m : Mapping) : Mapping :=
  let retained : Buckets OutputKey DesktopId :=
    m.localWorkspaces.retain fun id => live.contains id
  match primaryAmong m.localPrimary keys with
  | none => { m with localPrimary := none, localWorkspaces := retained }
  | some primary =>
    let rest := live.filter fun id => !retained.all.contains id
    { m with
      localPrimary := some primary
      localWorkspaces := retained.push primary rest }.manage rest

def rebuildLocalMapping (keys : SessionOutputKeys) (s : Surface) (m : Mapping) : Mapping :=
  match s.liveScreens with
  | none => m
  | some screens =>
    match keys.screenKeys screens with
    | [] => m
    | ks =>
      match s.liveOrdered with
      | none => m
      | some live => m.rebuildLocalWith ks live

def assignGlobal (id : DesktopId) (key : OutputKey) (m : Mapping) : Mapping :=
  let assigned :=
    match m.globalInverse.get id with
    | none => m.globalAssigned
    | some previous =>
      if previous = key then m.globalAssigned
      else m.globalAssigned.takeFrom previous id
  { m with
    globalInverse := m.globalInverse.set id key
    globalAssigned := assigned.push key [id] }

def unassignGlobal (id : DesktopId) (m : Mapping) : Mapping :=
  match m.globalInverse.get id with
  | none => m
  | some key =>
    { m with
      globalInverse := m.globalInverse.delete id
      globalAssigned := m.globalAssigned.takeFrom key id }

/-- The live desktops of an output, in its order. -/
def globalOrdered (live : List DesktopId) (key : OutputKey) (m : Mapping) : List DesktopId :=
  ((m.globalAssigned.get key).getD []).filter fun id => live.contains id

/-- An empty list goes with its output, unless the output is displaced. -/
def keepsList (keys : List OutputKey) (live : List DesktopId) (m : Mapping) (key : OutputKey)
    (ids : List DesktopId) : Bool :=
  !(ids.filter fun id => live.contains id).isEmpty || keys.contains key ||
    (m.displacedByOrigin.get key).isSome

/-- A desktop nobody has is the primary's. -/
def adoptGlobal (primary : Option OutputKey) (m : Mapping) (id : DesktopId) : Mapping :=
  match m.globalInverse.get id, primary with
  | none, some key => (m.assignGlobal id key).manage [id]
  | _, _ => m

def rebuildGlobalWith (keys : List OutputKey) (live : List DesktopId) (m : Mapping) : Mapping :=
  let primary := primaryAmong m.globalPrimary keys
  let m : Mapping := { m with
    globalPrimary := primary
    globalAssigned := Buckets.retain (fun id => live.contains id)
      (m.globalAssigned.filter (m.keepsList keys live))
    -- entries of dropped lists name dead desktops only
    globalInverse := m.globalInverse.filter fun id _ => live.contains id }
  live.foldl (adoptGlobal primary) m

def rebuildGlobalMapping (keys : SessionOutputKeys) (s : Surface) (m : Mapping) : Mapping :=
  match s.liveScreens with
  | none => m
  | some screens =>
    match keys.screenKeys screens with
    | [] => m
    | ks =>
      match s.liveOrdered with
      | none => m
      | some live => m.rebuildGlobalWith ks live

def rebuildSharedMapping (s : Surface) (m : Mapping) : Mapping :=
  match s.liveOrdered with
  | none => m
  | some live => { m with sharedIds := live }.manage live

def rebuildMapping (mode : WorkspaceMode) (keys : SessionOutputKeys) (s : Surface) (m : Mapping) :
    Mapping :=
  match mode with
  | .perOutputLocal => m.rebuildLocalMapping keys s
  | .globalUnique => m.rebuildGlobalMapping keys s
  | .shared => m.rebuildSharedMapping s

/-! ## Moving desktops -/

def moveLocalIdsTo (ids : List DesktopId) (destKey : OutputKey) (m : Mapping) : Mapping :=
  { m with localWorkspaces := m.localWorkspaces.moveTo ids destKey }

/-- Into a list of the mode. -/
def assignTo (mode : WorkspaceMode) (ids : List DesktopId) (key : OutputKey) (m : Mapping) :
    Mapping :=
  match mode with
  | .globalUnique => ids.foldl (fun m id => m.assignGlobal id key) m
  | _ => m.moveLocalIdsTo ids key

/-- How often a desktop is in a local list. -/
def occurrences (m : Mapping) (id : DesktopId) : Nat := m.localWorkspaces.all.count id

/-- A local desktop that is not exactly once on its survivor goes there. -/
def ensureLocalStep (destKey : OutputKey) (m : Mapping) (id : DesktopId) : Mapping :=
  if m.occurrences id ≠ 1 ∨ id ∉ (m.localWorkspaces.get destKey).getD [] then
    m.moveLocalIdsTo [id] destKey
  else m

def ensureDisplacedPresent (mode : WorkspaceMode) (ids : List DesktopId) (destKey : OutputKey)
    (m : Mapping) : Mapping :=
  match mode with
  | .globalUnique => ids.foldl
      (fun m id => if m.globalInverse.get id = some destKey then m else m.assignGlobal id destKey) m
  | _ =>
    let m := ids.foldl (ensureLocalStep destKey) m
    if (m.localWorkspaces.get destKey).isSome then m
    else { m with localWorkspaces := m.localWorkspaces.set destKey [] }

/-- An empty list of an absent output is dropped. -/
def dropOriginMapping (mode : WorkspaceMode) (origin : OutputKey) (m : Mapping) : Mapping :=
  match mode with
  | .globalUnique =>
    if m.globalAssigned.get origin = some [] ∧ (m.displacedByOrigin.get origin).isNone then
      { m with globalAssigned := m.globalAssigned.delete origin }
    else m
  | _ =>
    if m.localWorkspaces.get origin = some [] then
      { m with localWorkspaces := m.localWorkspaces.delete origin }
    else m

/-- After its desktops moved, the list of a displaced output goes. -/
def dropDisplacedList (mode : WorkspaceMode) (origin : OutputKey) (m : Mapping) : Mapping :=
  match mode with
  | .globalUnique =>
    if m.globalAssigned.get origin = some [] then
      { m with globalAssigned := m.globalAssigned.delete origin }
    else m
  | _ => { m with localWorkspaces := m.localWorkspaces.delete origin }

def record (origin : OutputKey) (entry : Displaced) (m : Mapping) : Mapping :=
  { m with displacedByOrigin := m.displacedByOrigin.set origin entry }

def forget (origin : OutputKey) (m : Mapping) : Mapping :=
  { m with displacedByOrigin := m.displacedByOrigin.delete origin }

def isDisplacedId (m : Mapping) (id : DesktopId) : Bool :=
  m.displacedByOrigin.values.any fun entry => entry.workspaceIds.contains id

/-- Records keep live desktops; a record of none goes. -/
def pruneDisplaced (live : List DesktopId) (m : Mapping) : Mapping :=
  { m with
    displacedByOrigin :=
      (m.displacedByOrigin.filter fun _ entry => entry.workspaceIds.isEmpty ||
        entry.workspaceIds.any fun id => live.contains id).map fun _ entry =>
          { entry with workspaceIds := entry.workspaceIds.filter fun id => live.contains id } }

end Mapping

/-! ## Displacement -/

/-- The destination of displaced desktops. The geometry of an absent output is
not kept, so nearness never decides: it is the active survivor, else the
first. -/
def chooseDisplacedDestination (survivors : List OutputKey) (activeKey : Option OutputKey) :
    Option OutputKey :=
  match survivors with
  | [] => none
  | [only] => some only
  | first :: _ =>
    match activeKey with
    | some key => if key ∈ survivors then some key else some first
    | none => some first

/-- What a displacement pass knows, read once at its start. -/
structure Pass where
  mode : WorkspaceMode
  keys : SessionOutputKeys
  screens : List Output
  live : List DesktopId
  currentKeys : List OutputKey
  /-- The lists before the pass. -/
  prev : Buckets OutputKey DesktopId
  memory : Memory

namespace Pass

def liveOnly (p : Pass) (ids : List DesktopId) : List DesktopId :=
  ids.filter fun id => p.live.contains id

def activeScreenKey (p : Pass) (s : Surface) : Option OutputKey := do
  let screen ← s.activeScreen
  let key ← p.keys.keyFor screen
  if key ∈ p.currentKeys then some key else none

def selectSurvivorKey (p : Pass) (s : Surface) : Option OutputKey :=
  chooseDisplacedDestination
    ((p.screens.filterMap p.keys.keyFor).filter fun key => p.currentKeys.contains key)
    (p.activeScreenKey s)

def outputForKey (p : Pass) (key : OutputKey) : Option Output :=
  p.screens.find? fun o => p.keys.keyFor o == some key

/-- Show a moved desktop where it went, if the active window is on it. -/
def showIfActiveThere (p : Pass) (ids : List DesktopId) (key : OutputKey) (s : Surface) : Surface :=
  let shown := do
    let active ← s.activeWindow
    let members ← active.desktops
    let activeId ← members.find? fun id => ids.contains id
    let output ← p.outputForKey key
    let target ← s.findLive activeId
    return (target, output)
  match shown with
  | none => s
  | some (target, output) => s.writeCurrent target output

/-- Everything that may be the absent output's: its list, the desktops its
windows were on, the desktop it showed. -/
def captured (p : Pass) (origin : OutputKey) : List DesktopId :=
  let combined := Buckets.pushNew [] ((p.prev.get origin).getD [] ++
    (p.memory.lastKnownByKey.get origin).getD [])
  p.liveOnly (Buckets.pushNew combined (p.memory.lastVisibleByKey.get origin).toList)

/-- A new displacement. -/
def displaceNew (p : Pass) (origin : OutputKey) (d : Desk) : Desk :=
  match p.captured origin with
  | [] => { d with mapping := d.mapping.dropOriginMapping p.mode origin }
  | ids =>
    match p.selectSurvivorKey d.surface with
    | none => d
    | some destKey =>
      if destKey = origin then d
      else {
        mapping := ((d.mapping.record origin ⟨ids, destKey⟩).assignTo p.mode ids
          destKey).dropDisplacedList p.mode origin
        surface := p.showIfActiveThere ids destKey d.surface }

/-- A displacement that stands. When its survivor is gone too, it goes on to
another; that move is written for local lists only. -/
def keepDisplaced (p : Pass) (origin : OutputKey) (existing : Displaced) (d : Desk) : Desk :=
  let stillLive := p.liveOnly existing.workspaceIds
  if existing.destKey ∈ p.currentKeys then
    { d with mapping := d.mapping.ensureDisplacedPresent p.mode stillLive existing.destKey }
  else
    match stillLive with
    | [] => { d with mapping := (d.mapping.forget origin).dropOriginMapping p.mode origin }
    | ids =>
      match p.selectSurvivorKey d.surface with
      | none => d
      | some destKey =>
        if destKey = origin then d
        else { d with mapping := (d.mapping.record origin ⟨ids, destKey⟩).moveLocalIdsTo ids destKey }

def displaceOrigin (p : Pass) (d : Desk) (origin : OutputKey) : Desk :=
  match d.mapping.displacedByOrigin.get origin with
  | some existing => p.keepDisplaced origin existing d
  | none => p.displaceNew origin d

/-- A connected output with a record gets its desktops back. -/
def returnOrigin (p : Pass) (d : Desk) (key : OutputKey) : Desk :=
  match d.mapping.displacedByOrigin.get key with
  | none => d
  | some entry =>
    match p.liveOnly entry.workspaceIds with
    | [] => { d with mapping := (d.mapping.forget key).dropOriginMapping p.mode key }
    | ids =>
      let remaining := entry.workspaceIds.filter fun id => !ids.contains id
      let moved := d.mapping.assignTo p.mode ids key
      { mapping :=
          if remaining.isEmpty then moved.forget key
          else moved.record key { entry with workspaceIds := remaining }
        surface := p.showIfActiveThere ids key d.surface }

/-- Every output that was ever known. -/
def knownKeys (p : Pass) (m : Mapping) : List OutputKey :=
  Buckets.pushNew [] (p.prev.keys ++ p.memory.lastVisibleByKey.keys ++
    p.memory.lastKnownByKey.keys ++ m.displacedByOrigin.keys)

def removed (p : Pass) (m : Mapping) : List OutputKey :=
  (p.knownKeys m).filter fun key => !p.currentKeys.contains key

/-- The absent outputs first, then those that are back. -/
def run (p : Pass) (d : Desk) : Desk :=
  p.currentKeys.foldl p.returnOrigin ((p.removed d.mapping).foldl p.displaceOrigin d)

end Pass

/-! ## Memory and history -/

namespace Memory

/-- The windows of the connected outputs, by output. -/
def membershipByKey (keys : SessionOutputKeys) (connected : List OutputKey) (s : Surface) :
    Option (OrderedMap OutputKey (List DesktopId)) := do
  let windows ← s.windows
  (windows.filter fun w => !w.onAllDesktops).foldlM (fun grouped w => do
    let output ← w.output
    match keys.keyFor output with
    | none => return grouped
    | some key =>
      if key ∈ connected then
        let membership ← w.desktops
        return grouped.set key (Buckets.pushNew ((grouped.get key).getD []) membership)
      else return grouped) .empty

/-- What is neither connected nor displaced is forgotten. -/
def keeps (connected : List OutputKey) (m : Mapping) (key : OutputKey) : Bool :=
  connected.contains key || (m.displacedByOrigin.get key).isSome

def refreshLastKnown (keys : SessionOutputKeys) (connected : List OutputKey) (s : Surface)
    (m : Mapping) (memory : Memory) : Memory :=
  let known :=
    match membershipByKey keys connected s with
    | none => memory.lastKnownByKey
    | some grouped =>
      grouped.entries.foldl (fun known (e : OutputKey × List DesktopId) => known.set e.1 e.2)
        memory.lastKnownByKey
  { memory with lastKnownByKey := known.filter fun key _ => keeps connected m key }

def noteVisible (keys : SessionOutputKeys) (s : Surface)
    (visible : OrderedMap OutputKey DesktopId) (o : Output) : OrderedMap OutputKey DesktopId :=
  match keys.keyFor o, s.currentOnOutput o with
  | some key, some id => visible.set key id
  | _, _ => visible

def refreshLastVisible (keys : SessionOutputKeys) (screens : List Output)
    (connected : List OutputKey) (s : Surface) (m : Mapping) (memory : Memory) : Memory :=
  { memory with
    lastVisibleByKey := (screens.foldl (noteVisible keys s) memory.lastVisibleByKey).filter
      fun key _ => keeps connected m key }

end Memory

namespace History

/-- A shown desktop that is not the one noted before makes that the previous
one. -/
def observe (keys : SessionOutputKeys) (s : Surface) (h : History) (o : Output) : History :=
  match keys.keyFor o, s.currentOnOutput o with
  | some key, some current =>
    match h.historyBaselineByKey.get key with
    | none => { h with historyBaselineByKey := h.historyBaselineByKey.set key current }
    | some base =>
      if base ≠ current then
        { h with
          previousByOutput := h.previousByOutput.set key base
          historyBaselineByKey := h.historyBaselineByKey.set key current }
      else h
  | _, _ => h

def recordHistoryObservations (keys : SessionOutputKeys) (screens : List Output)
    (connected : List OutputKey) (s : Surface) (h : History) : History :=
  let h := screens.foldl (observe keys s) h
  { h with
    historyBaselineByKey := h.historyBaselineByKey.filter fun key _ => connected.contains key
    previousByOutput := h.previousByOutput.filter fun key _ => connected.contains key }

def observeSharedHistory (s : Surface) (h : History) : History :=
  match s.currentDesktop with
  | none => h
  | some current =>
    match h.lastSharedVisible with
    | some last =>
      if last ≠ current then
        { h with previousShared := some last, lastSharedVisible := some current }
      else h
    | none => { h with lastSharedVisible := some current }

/-- Views that no longer resolve in their scope are dropped. -/
def validatePreviousEntries (mode : WorkspaceMode) (s : Surface) (m : Mapping) (h : History) :
    History :=
  match s.liveOrdered with
  | none => h
  | some live =>
    match mode with
    | .shared => { h with previousShared := h.previousShared.filter fun id => live.contains id }
    | .globalUnique => { h with
        previousByOutput := h.previousByOutput.filter
          fun key id => live.contains id && (m.globalOrdered live key).contains id }
    | .perOutputLocal => { h with
        previousByOutput := h.previousByOutput.filter
          fun key id => live.contains id && ((m.localWorkspaces.get key).getD []).contains id }

end History

end Native

end PlasmaTiler
