import PlasmaTiler.WorkspaceNative

/-!
# Upkeep and commands of the KWin workspace adapter

Every topology signal reconciles the outputs, then tidies the lists: an empty
desktop that nobody sees is retired, and every list ends in an empty one, so
that there is always a next workspace to go to. The three modes share the one
pass over a list of ids, `ensureTrailingEmptyDesktop`, and differ in which
lists they run it on, how a desktop is created, and what has to be forgotten
when one is retired.

Retiring is guarded many times over (`removable`): a desktop goes only if it
is managed, is neither shown, occupied, retained nor displaced, is not the
last one of its list, and the minimum number of desktops is left.

The commands over the same mapping come after: selecting by number, by
direction or the trailing one, and finding the target of a move, which may
have to create a desktop first. Each answers whether it did something and the
desk it leaves.
-/

namespace PlasmaTiler

namespace Native

def minGlobalDesktops : Nat := 2

/-! ## The trailing empty desktop -/

section
variable {σ : Type}

/-- Retire one desktop unless it is the trailing empty one, has windows or is
shown. -/
def retireStep (trailingEmptyId : Option DesktopId) (isEmpty isVisible : DesktopId → Bool)
    (removeDesktop : DesktopId → σ → Bool × σ) (acc : List DesktopId × σ) (id : DesktopId) :
    List DesktopId × σ :=
  if trailingEmptyId = some id then acc
  else if !isEmpty id || isVisible id then acc
  else match removeDesktop id acc.2 with
  | (true, s) => (acc.1 ++ [id], s)
  | (false, s) => (acc.1, s)

/-- The trailing empty desktop is the last of the list, never a remembered
one. A missing one is appended once. -/
def ensureTrailingEmptyDesktop (orderedIds : List DesktopId) (isEmpty isVisible : DesktopId → Bool)
    (removeDesktop : DesktopId → σ → Bool × σ) (createDesktop : σ → Option DesktopId × σ) (s : σ) :
    (List DesktopId × Option DesktopId) × σ :=
  let trailingEmptyId := orderedIds.getLast?.filter isEmpty
  let (removedIds, s) :=
    orderedIds.foldl (retireStep trailingEmptyId isEmpty isVisible removeDesktop) ([], s)
  let remaining := orderedIds.filter fun id => !removedIds.contains id
  match remaining.getLast?.filter isEmpty with
  | some _ => ((removedIds, none), s)
  | none =>
    let (appendedId, s) := createDesktop s
    ((removedIds, appendedId), s)

end

namespace Desk

/-! ## Creating -/

def onMapping (f : Mapping → Mapping) (d : Desk) : Desk := { d with mapping := f d.mapping }

/-- Create a desktop; it is what was not there before. -/
def appendDesktop (d : Desk) : Option DesktopId × Desk :=
  match d.surface.liveOrdered with
  | none => (none, d)
  | some before =>
    let s := d.surface.createDesktop
    match s.liveOrdered with
    | none => (none, { d with surface := s })
    | some after =>
      match (after.filter fun id => !before.contains id).getLast? with
      | none => (none, { d with surface := s })
      | some id => (some id, { mapping := d.mapping.manage [id], surface := s })

/-- A created desktop goes to the end of its list. -/
def appendWith (place : DesktopId → Mapping → Mapping) (d : Desk) : Option DesktopId × Desk :=
  match d.appendDesktop with
  | (none, d) => (none, d)
  | (some id, d) => (some id, d.onMapping (place id))

def appendDesktopForOutputKey (key : OutputKey) (d : Desk) : Option DesktopId × Desk :=
  d.appendWith fun id m =>
    { m with localWorkspaces :=
        m.localWorkspaces.set key ((m.localWorkspaces.get key).getD [] ++ [id]) }

def appendDesktopForGlobalKey (key : OutputKey) (d : Desk) : Option DesktopId × Desk :=
  d.appendWith fun id m => m.assignGlobal id key

def appendDesktopForShared (d : Desk) : Option DesktopId × Desk :=
  match d.appendDesktop with
  | (none, d) => (none, d)
  | (some id, d) => (some id, d.onMapping fun m => m.rebuildSharedMapping d.surface)

/-! ## Retiring -/

/-- Whether a desktop may go: managed, neither shown, retained, occupied nor
displaced, not the last one, and not one of the minimum. -/
def removable (visible occupied : List DesktopId) (domainCount : Option Nat) (id : DesktopId)
    (d : Desk) : Bool :=
  d.mapping.managed.contains id && !visible.contains id && !d.surface.retained.contains id &&
    !occupied.contains id && !d.mapping.isDisplacedId id &&
    match d.surface.liveOrdered with
    | none => false
    | some live => decide (minGlobalDesktops < live.length) && live.getLast? != some id &&
        (match domainCount with
          | none => true
          | some count => decide (minGlobalDesktops < count)) && live.contains id

/-- The three removals differ in how the mapping forgets the desktop. -/
def removeManagedWith (forget : DesktopId → Desk → Mapping) (visible occupied : List DesktopId)
    (domainCount : Option Nat) (id : DesktopId) (d : Desk) : Bool × Desk :=
  if d.removable visible occupied domainCount id then
    let d : Desk := {
      mapping := { d.mapping with managed := d.mapping.managed.erase id }
      surface := d.surface.removeDesktop id }
    (true, { d with mapping := forget id d })
  else (false, d)

def removeManagedEmpty : List DesktopId → List DesktopId → Option Nat → DesktopId → Desk →
    Bool × Desk :=
  removeManagedWith fun id d =>
    { d.mapping with localWorkspaces := d.mapping.localWorkspaces.removeEverywhere id }

def removeManagedEmptyGlobal : List DesktopId → List DesktopId → Option Nat → DesktopId → Desk →
    Bool × Desk :=
  removeManagedWith fun id d => d.mapping.unassignGlobal id

def removeManagedEmptyShared : List DesktopId → List DesktopId → Option Nat → DesktopId → Desk →
    Bool × Desk :=
  removeManagedWith fun _ d => d.mapping.rebuildSharedMapping d.surface

/-! ## Enforcing -/

def trailLocal (visible occupied : List DesktopId) (d : Desk) (key : OutputKey) : Desk :=
  let orderedIds := (d.mapping.localWorkspaces.get key).getD []
  (ensureTrailingEmptyDesktop orderedIds (fun id => !occupied.contains id) visible.contains
    (fun id d => d.removeManagedEmpty visible occupied
      (some ((d.mapping.localWorkspaces.get key).getD orderedIds).length) id)
    (appendDesktopForOutputKey key) d).2

/-- A desktop in no list, empty and not shown, is retired too. -/
def retireUnassigned (visible occupied assigned : List DesktopId) (d : Desk) (id : DesktopId) :
    Desk :=
  if assigned.contains id || occupied.contains id || visible.contains id then d
  else (d.removeManagedEmpty visible occupied none id).2

def enforceLocalTrailing (keys : SessionOutputKeys) (visible occupied : List DesktopId) (d : Desk) :
    Desk :=
  match d.surface.liveScreens, d.surface.liveOrdered with
  | some screens, some _ =>
    let d := (keys.screenKeys screens).foldl (trailLocal visible occupied) d
    (d.surface.liveOrdered.getD []).foldl
      (retireUnassigned visible occupied d.mapping.localWorkspaces.all) d
  | _, _ => d

def trailGlobal (visible occupied live : List DesktopId) (d : Desk) (key : OutputKey) : Desk :=
  let orderedIds := d.mapping.globalOrdered live key
  (ensureTrailingEmptyDesktop orderedIds (fun id => !occupied.contains id) visible.contains
    (fun id d => d.removeManagedEmptyGlobal visible occupied
      (some (match d.surface.liveOrdered with
        | none => orderedIds.length
        | some live => (d.mapping.globalOrdered live key).length)) id)
    (appendDesktopForGlobalKey key) d).2

def enforceGlobalTrailing (keys : SessionOutputKeys) (visible occupied : List DesktopId)
    (d : Desk) : Desk :=
  match d.surface.liveScreens, d.surface.liveOrdered with
  | some screens, some live => (keys.screenKeys screens).foldl (trailGlobal visible occupied live) d
  | _, _ => d

def enforceSharedTrailing (visible occupied : List DesktopId) (d : Desk) : Desk :=
  match d.surface.liveOrdered with
  | none => d
  | some live =>
    (ensureTrailingEmptyDesktop live (fun id => !occupied.contains id) visible.contains
      (fun id d => d.removeManagedEmptyShared visible occupied
        (some (d.surface.liveOrdered.getD live).length) id) appendDesktopForShared d).2

def rebuild (mode : WorkspaceMode) (keys : SessionOutputKeys) (d : Desk) : Desk :=
  d.onMapping fun m => m.rebuildMapping mode keys d.surface

def enforceTrailing (mode : WorkspaceMode) (keys : SessionOutputKeys)
    (visible occupied : List DesktopId) (d : Desk) : Desk :=
  match mode with
  | .perOutputLocal => d.enforceLocalTrailing keys visible occupied
  | .globalUnique => d.enforceGlobalTrailing keys visible occupied
  | .shared => d.enforceSharedTrailing visible occupied

/-- One cleanup; it waits while shown desktops or windows cannot be read. -/
def cleanupDesktops (mode : WorkspaceMode) (keys : SessionOutputKeys) (d : Desk) : Desk :=
  match d.surface.visibleIds, d.surface.occupiedIds, d.surface.liveOrdered with
  | some visible, some occupied, some _ =>
    (d.rebuild mode keys).enforceTrailing mode keys visible occupied
  | _, _, _ => d

/-! ## Selecting -/

/-- The `n`-th, counted from one. -/
def nth (ids : List DesktopId) (index : Nat) : Option DesktopId := ids[index - 1]?

def writeCurrent (id : DesktopId) (o : Output) (d : Desk) : Desk :=
  { d with surface := d.surface.writeCurrent id o }

/-- A desktop that another output shows changes places with the one shown
here. -/
def swapGlobalIfVisibleElsewhere (keys : SessionOutputKeys) (target : DesktopId) (active : Output)
    (d : Desk) : Desk :=
  let swap := do
    let screens ← d.surface.liveScreens
    let other ← screens.find? fun other =>
      other.ref != active.ref && d.surface.currentOnOutput other == some target
    let activeCurrent ← d.surface.currentOnOutput active
    let activeKey ← keys.keyFor active
    let otherKey ← keys.keyFor other
    if activeCurrent = target then none else some (other, activeCurrent, activeKey, otherKey)
  match swap with
  | none => d
  | some (other, activeCurrent, activeKey, otherKey) => {
      mapping := (d.mapping.assignGlobal target activeKey).assignGlobal activeCurrent otherKey
      surface := (d.surface.writeCurrent target active).writeCurrent activeCurrent other }

/-- Show a desktop on the active output. -/
def showOn (mode : WorkspaceMode) (keys : SessionOutputKeys) (target : DesktopId) (output : Output)
    (d : Desk) : Desk :=
  match mode with
  | .globalUnique => (d.swapGlobalIfVisibleElsewhere keys target output).writeCurrent target output
  | _ => d.writeCurrent target output

def localTargetForOutput (keys : SessionOutputKeys) (o : Output) (index : Nat) (d : Desk) :
    Option DesktopId := do
  let key ← keys.keyFor o
  let list ← d.mapping.localWorkspaces.get key
  let id ← nth list index
  d.surface.findLive id

def globalTargetForOutput (keys : SessionOutputKeys) (o : Output) (index : Nat) (d : Desk) :
    Option DesktopId := do
  let key ← keys.keyFor o
  let live ← d.surface.liveOrdered
  nth (d.mapping.globalOrdered live key) index

def selectLocal (keys : SessionOutputKeys) (index : Nat) (d : Desk) : Bool × Desk :=
  match d.surface.liveOrdered with
  | none => (false, d)
  | some live =>
    let d := d.rebuild .perOutputLocal keys
    match d.surface.activeOutput with
    | none =>
      match nth live index with
      | none => (false, d)
      | some entry => (true, { d with surface := { d.surface with currentDesktop := some entry } })
    | some output =>
      match d.localTargetForOutput keys output index with
      | none => (false, d)
      | some target => (true, d.writeCurrent target output)

def selectGlobal (keys : SessionOutputKeys) (index : Nat) (d : Desk) : Bool × Desk :=
  match d.surface.activeOutput with
  | none => (false, d)
  | some output =>
    match d.globalTargetForOutput keys output index with
    | none => (false, d)
    | some target => (true, d.showOn .globalUnique keys target output)

def selectShared (index : Nat) (d : Desk) : Bool × Desk :=
  match d.surface.liveOrdered with
  | none => (false, d)
  | some live =>
    let d := d.rebuild .shared {}
    match nth live index with
    | none => (false, d)
    | some entry => (true, { d with surface := d.surface.synchronizeShared entry })

def selectLogical (mode : WorkspaceMode) (keys : SessionOutputKeys) (index : Nat) (d : Desk) :
    Bool × Desk :=
  if index < 1 ∨ 9 < index then (false, d)
  else match mode with
  | .perOutputLocal => d.selectLocal keys index
  | .globalUnique => d.selectGlobal keys index
  | .shared => d.selectShared index

/-- The ids of a scope, in order. -/
def scopedRingIds (mode : WorkspaceMode) (key : OutputKey) (live : List DesktopId) (m : Mapping) :
    List DesktopId :=
  match mode with
  | .globalUnique => m.globalOrdered live key
  | _ => ((m.localWorkspaces.get key).getD []).filter fun id => live.contains id

/-- An empty last desktop. -/
def trailingOf (ids : List DesktopId) (d : Desk) : Option DesktopId := do
  let last ← ids.getLast?
  let occupied ← d.surface.occupiedIds
  if occupied.contains last then none else d.surface.findLive last

def resolveTrailing (mode : WorkspaceMode) (keys : SessionOutputKeys) (o : Output) (d : Desk) :
    Option DesktopId := do
  let key ← keys.keyFor o
  match mode with
  | .globalUnique =>
    let live ← d.surface.liveOrdered
    d.trailingOf (d.mapping.globalOrdered live key)
  | _ => d.trailingOf ((d.mapping.localWorkspaces.get key).getD [])

def appendForOutput (mode : WorkspaceMode) (keys : SessionOutputKeys) (o : Output) (d : Desk) :
    Option DesktopId × Desk :=
  match keys.keyFor o with
  | none => (none, d)
  | some key =>
    match mode with
    | .globalUnique => d.appendDesktopForGlobalKey key
    | _ => d.appendDesktopForOutputKey key

/-- The trailing empty desktop of an output, or a new one. -/
def trailingOrAppend (mode : WorkspaceMode) (keys : SessionOutputKeys) (o : Output) (d : Desk) :
    Option DesktopId × Desk :=
  let d := d.rebuild mode keys
  match d.resolveTrailing mode keys o with
  | some existing => (some existing, d)
  | none => d.appendForOutput mode keys o

def sharedTrailingOrAppend (d : Desk) : Option DesktopId × Desk :=
  match d.surface.liveOrdered.bind d.trailingOf with
  | some existing => (some existing, d)
  | none => d.appendDesktopForShared

def selectTrailingOrCreate (mode : WorkspaceMode) (keys : SessionOutputKeys) (d : Desk) :
    Bool × Desk :=
  match mode with
  | .shared =>
    match (d.rebuild .shared keys).sharedTrailingOrAppend with
    | (none, d) => (false, d)
    | (some id, d) =>
      if d.surface.currentDesktop = some id then (true, d)
      else (true, { d with surface := d.surface.synchronizeShared id })
  | mode =>
    match d.surface.activeOutput with
    | none => (false, d)
    | some output =>
      match d.trailingOrAppend mode keys output with
      | (none, d) => (false, d)
      | (some id, d) =>
        if d.surface.currentOnOutput output = some id then (true, d)
        else (true, d.writeCurrent id output)

/-- The neighbour on a ring. -/
def ringStep (forward : Bool) (ring : List DesktopId) (current : DesktopId) : Option DesktopId := do
  let position ← ring.findIdx? fun id => id == current
  ring[(if forward then position + 1 else position + ring.length - 1) % ring.length]?

def selectRelative (mode : WorkspaceMode) (keys : SessionOutputKeys) (forward : Bool) (d : Desk) :
    Bool × Desk :=
  match d.surface.liveOrdered with
  | none => (false, d)
  | some live =>
    match mode with
    | .shared =>
      let d := d.rebuild .shared keys
      match d.surface.currentDesktop.bind (ringStep forward live) with
      | none => (false, d)
      | some next =>
        if d.surface.currentDesktop = some next then (true, d)
        else (true, { d with surface := d.surface.synchronizeShared next })
    | mode =>
      match d.surface.activeOutput with
      | none => (false, d)
      | some output =>
        let d := d.rebuild mode keys
        let target := do
          let key ← keys.keyFor output
          let current ← d.surface.currentOnOutput output
          let next ← ringStep forward (scopedRingIds mode key live d.mapping) current
          return (current, next)
        match target with
        | none => (false, d)
        | some (current, next) =>
          if next = current then (true, d) else (true, d.showOn mode keys next output)

/-- A relative send only rebuilds. -/
def resolveRelativeMoveTarget (mode : WorkspaceMode) (keys : SessionOutputKeys) (forward : Bool)
    (d : Desk) : Option DesktopId × Desk :=
  match mode with
  | .shared => (do
      let live ← d.surface.liveOrdered
      let current ← d.surface.currentDesktop
      ringStep forward live current, d)
  | mode =>
    match d.surface.activeOutput, d.surface.liveOrdered with
    | some output, some live =>
      let d := d.rebuild mode keys
      (do
        let key ← keys.keyFor output
        let current ← d.surface.currentOnOutput output
        ringStep forward (scopedRingIds mode key live d.mapping) current, d)
    | _, _ => (none, d)

def resolveOrAppendMoveTarget (mode : WorkspaceMode) (keys : SessionOutputKeys) (d : Desk) :
    Option DesktopId × Desk :=
  match mode with
  | .shared => d.sharedTrailingOrAppend
  | mode =>
    match d.surface.activeOutput with
    | none => (none, d)
    | some output => d.trailingOrAppend mode keys output

end Desk

end Native

end PlasmaTiler
