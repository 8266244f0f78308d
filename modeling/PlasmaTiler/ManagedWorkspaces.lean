import PlasmaTiler.Collections
import PlasmaTiler.Runs

/-!
# Managed workspaces

The Windows backend keeps its own workspaces: every output has an ordered
list of them, one active. A window is a member of one workspace; its location
is kept a second time in a map. Workspaces are created at the end of a list,
pruned when empty, and change outputs as a whole when an output is unplugged
and when it returns.

What an operation answers is modelled together with the state, since callers
act on it: which workspace was chosen and whether it is new, what a cleanup
has removed, which workspaces a return has taken.

Views have a history of two entries for each output, the view observed last
and the one before. It is revised whenever workspaces have gone
(`validateHistory`): a previous view that is gone clears, and a last observed
view that is gone starts over at the view that is then active.
-/

namespace PlasmaTiler

/-! ## Trailing policy -/

namespace WorkspacePolicy

def minWorkspaces : Nat := 2

def selectExisting (orderLen index : Nat) : Option Nat :=
  if 1 ≤ index ∧ index ≤ 9 then
    if index - 1 < orderLen then some (index - 1) else none
  else none

structure WorkspaceFacts where
  empty : Bool
  visible : Bool
  occupied : Bool
  retained : Bool
deriving DecidableEq, Repr

/-- The candidates for removal that leave the minimum, the first spared
first. -/
def spare (total : Nat) : List Nat → List Nat
  | [] => []
  | i :: remove =>
    if total - (remove.length + 1) < minWorkspaces then spare total remove else i :: remove

structure TrailingPlan where
  remove : List Nat
  needAppend : Bool
deriving DecidableEq, Repr

def planTrailing (facts : List WorkspaceFacts) : TrailingPlan :=
  match facts.getLast? with
  | none => ⟨[], true⟩
  | some last =>
    let trailingEmpty := last.empty && !last.occupied
    let candidates := (List.range facts.length).filter fun i =>
      !(i == facts.length - 1 && trailingEmpty) &&
        (facts[i]?).any fun f => f.empty && !f.visible && !f.occupied && !f.retained
    let remove := spare facts.length candidates
    let remaining := (List.range facts.length).filter fun i => !remove.contains i
    let trailingOk := (remaining.getLast?.bind fun i => facts[i]?).any fun f =>
      f.empty && !f.occupied
    ⟨remove, !trailingOk || decide (remaining.length < minWorkspaces)⟩

end WorkspacePolicy

/-! ## State -/

/-- Stable member identity: window handle and process evidence. -/
@[ext] structure WindowKey where
  hwnd : Nat
  pid : Nat
  creation : String
deriving DecidableEq, Repr

namespace WindowKey

instance : Ord WindowKey :=
  ⟨compareLex (compareOn hwnd) (compareLex (compareOn pid) (compareOn creation))⟩

instance : Std.TransOrd WindowKey :=
  inferInstanceAs (Std.TransCmp
    (compareLex (compareOn hwnd) (compareLex (compareOn pid) (compareOn creation))))

instance : Std.LawfulEqOrd WindowKey where
  eq_of_compare {a b} h := by
    obtain ⟨hhwnd, hrest⟩ := compareLex_eq_eq.mp h
    obtain ⟨hpid, hcreation⟩ := compareLex_eq_eq.mp hrest
    exact WindowKey.ext (Std.LawfulEqOrd.eq_of_compare hhwnd) (Std.LawfulEqOrd.eq_of_compare hpid)
      (Std.LawfulEqOrd.eq_of_compare hcreation)

end WindowKey

structure MemberLoc where
  output : String
  workspace : String
  hidden : Bool
deriving DecidableEq, Repr

structure WorkspaceEntry where
  id : String
  token : String
  members : BTreeSet WindowKey
  lastFocus : Option WindowKey

structure OutputState where
  key : String
  token : String
  order : List WorkspaceEntry
  active : Nat

/-- Which workspaces an unplugged output had, and who took them. -/
structure DisplacedRecord where
  workspaceIds : List String
  destKey : String
deriving DecidableEq, Repr

structure ManagedWorkspaces where
  outputs : BTreeMap String OutputState
  displaced : BTreeMap String DisplacedRecord
  membership : BTreeMap WindowKey MemberLoc
  nextWs : Nat
  nextOutput : Nat
  defaultTiled : Bool
  tiled : BTreeMap String Bool
  previous : BTreeMap String String
  baseline : BTreeMap String String

def OutputState.ids (state : OutputState) : List String := state.order.map WorkspaceEntry.id

/-- The first entry with the id, changed. -/
def modifyFirst (id : String) (f : WorkspaceEntry → WorkspaceEntry) :
    List WorkspaceEntry → List WorkspaceEntry
  | [] => []
  | entry :: order =>
    if entry.id = id then f entry :: order else entry :: modifyFirst id f order

namespace ManagedWorkspaces

def new : ManagedWorkspaces := ⟨∅, ∅, ∅, 0, 0, true, ∅, ∅, ∅⟩

/-! ## Ids and modes -/

def workspaceName (n : Nat) : String := "ws-" ++ toString n

def newEntry (n : Nat) : WorkspaceEntry := ⟨workspaceName n, "ws" ++ toString n, ∅, none⟩

def newOutput (key : String) (n : Nat) (order : List WorkspaceEntry) : OutputState :=
  ⟨key, "o" ++ toString n, order, 0⟩

/-- The default mode, for a workspace without one. -/
def seedMode (m : ManagedWorkspaces) (id : String) : ManagedWorkspaces :=
  { m with tiled := if m.tiled.contains id then m.tiled else m.tiled.insert id m.defaultTiled }

/-- New workspaces, each seeded. -/
def mintEntries (m : ManagedWorkspaces) : Nat → ManagedWorkspaces × List WorkspaceEntry
  | 0 => (m, [])
  | n + 1 =>
    let entry := newEntry (m.nextWs + 1)
    let (m, entries) := ({ m with nextWs := m.nextWs + 1 }.seedMode entry.id).mintEntries n
    (m, entry :: entries)

/-- The ids of all workspaces there are. -/
def live (m : ManagedWorkspaces) : List String := (values m.outputs).flatMap OutputState.ids

def pruneModes (m : ManagedWorkspaces) : ManagedWorkspaces :=
  { m with tiled := m.tiled.filter fun id _ => m.live.contains id }

def setOutput (m : ManagedWorkspaces) (key : String) (state : OutputState) : ManagedWorkspaces :=
  { m with outputs := m.outputs.insert key state }

def activeId (m : ManagedWorkspaces) (output : String) : Option String :=
  m.outputs[output]?.bind fun state => (state.order[state.active]?).map WorkspaceEntry.id

def workspaceIds (m : ManagedWorkspaces) (output : String) : List String :=
  (m.outputs[output]?.map OutputState.ids).getD []

/-! ## History -/

/-- Drop both the previous view and the baseline. -/
def discardOutputHistory (m : ManagedWorkspaces) (output : String) : ManagedWorkspaces :=
  { m with previous := m.previous.erase output, baseline := m.baseline.erase output }

/-- A previous view that is gone clears, a baseline that is gone starts over
at the active view. -/
def validateHistory (m : ManagedWorkspaces) (output : String) : ManagedWorkspaces :=
  match m.outputs[output]? with
  | none => m.discardOutputHistory output
  | some state =>
    let previous := match m.previous[output]? with
      | some prev => if state.ids.contains prev then m.previous else m.previous.erase output
      | none => m.previous
    let baseline := match m.baseline[output]? with
      | some base =>
        if state.ids.contains base then m.baseline
        else match m.activeId output with
          | some active => m.baseline.insert output active
          | none => m.baseline.erase output
      | none => m.baseline
    { m with previous, baseline }

/-- Record an observed change of view. -/
def observeWorkspaceChange (m : ManagedWorkspaces) (output current : String) :
    ManagedWorkspaces × Bool :=
  match m.outputs[output]? with
  | none => (m, false)
  | some state =>
    if !state.ids.contains current then (m.validateHistory output, false)
    else
      match m.baseline[output]? with
      | none => ({ m with baseline := m.baseline.insert output current }.validateHistory output, false)
      | some base =>
        if base = current then (m.validateHistory output, false)
        else
          let previous := if state.ids.contains base then m.previous.insert output base
            else m.previous.erase output
          let m := { m with previous, baseline := m.baseline.insert output current }.validateHistory
            output
          (m, m.previous.contains output)

/-! ## Outputs and views -/

def ensureOutput (m : ManagedWorkspaces) (key : String) : ManagedWorkspaces :=
  if m.outputs.contains key then m
  else
    let (m, order) := { m with nextOutput := m.nextOutput + 1 }.mintEntries
      WorkspacePolicy.minWorkspaces
    let m := m.setOutput key (newOutput key m.nextOutput order)
    match m.activeId key with
    | some active => { m with baseline := m.baseline.insert key active }
    | none => m

def activate (m : ManagedWorkspaces) (output workspace : String) : ManagedWorkspaces × Bool :=
  match m.outputs[output]? with
  | none => (m, false)
  | some state =>
    match state.ids.findIdx? (· == workspace) with
    | none => (m, false)
    | some pos => (m.setOutput output { state with active := pos }, true)

def select (m : ManagedWorkspaces) (output : String) (index : Nat) :
    ManagedWorkspaces × Option String :=
  match m.outputs[output]? with
  | none => (m, none)
  | some state =>
    match WorkspacePolicy.selectExisting state.order.length index with
    | none => (m, none)
    | some pos => (m.setOutput output { state with active := pos }, state.ids[pos]?)

/-- The trailing workspace when it is empty, else a new one: its id, whether
it is new, and its output with it in place. -/
def trailing (m : ManagedWorkspaces) (output : String) :
    Option (ManagedWorkspaces × OutputState × String × Bool) :=
  m.outputs[output]?.bind fun state =>
    state.order.getLast?.map fun last =>
      if last.members.isEmpty then (m, state, last.id, false)
      else
        let entry := newEntry (m.nextWs + 1)
        let m := { m with nextWs := m.nextWs + 1 }.seedMode entry.id
        (m, { state with order := state.order ++ [entry] }, entry.id, true)

def selectTrailing (m : ManagedWorkspaces) (output : String) :
    ManagedWorkspaces × Option (String × Bool) :=
  match m.trailing output with
  | none => (m, none)
  | some (m, state, id, created) =>
    (m.setOutput output { state with active := state.order.length - 1 }, some (id, created))

def resolveSendTrailing (m : ManagedWorkspaces) (output : String) :
    ManagedWorkspaces × Option (String × Bool) :=
  match m.trailing output with
  | none => (m, none)
  | some (m, state, id, created) => (m.setOutput output state, some (id, created))

/-! ## Members -/

/-- Every workspace changed by the same function. -/
def mapEntries (m : ManagedWorkspaces) (f : WorkspaceEntry → WorkspaceEntry) : ManagedWorkspaces :=
  { m with outputs := m.outputs.map fun _ state => { state with order := state.order.map f } }

/-- The first workspace of an output with the id, changed. -/
def modifyEntry (m : ManagedWorkspaces) (output workspace : String)
    (f : WorkspaceEntry → WorkspaceEntry) : ManagedWorkspaces :=
  match m.outputs[output]? with
  | none => m
  | some state => m.setOutput output { state with order := modifyFirst workspace f state.order }

/-- The window leaves every workspace and joins the named one. -/
def assign (m : ManagedWorkspaces) (window : WindowKey) (output workspace : String) (hidden : Bool) :
    ManagedWorkspaces × Bool :=
  if m.outputs[output]?.any (·.ids.contains workspace) then
    let m := m.mapEntries fun entry => { entry with members := entry.members.erase window }
    let m := m.modifyEntry output workspace fun entry =>
      { entry with members := entry.members.insert window }
    ({ m with membership := m.membership.insert window ⟨output, workspace, hidden⟩ }, true)
  else (m, false)

def setHidden (m : ManagedWorkspaces) (window : WindowKey) (hidden : Bool) : ManagedWorkspaces :=
  match m.membership[window]? with
  | some loc => { m with membership := m.membership.insert window { loc with hidden } }
  | none => m

def noteForeground (m : ManagedWorkspaces) (window : WindowKey) : ManagedWorkspaces :=
  match m.membership[window]? with
  | some loc =>
    m.modifyEntry loc.output loc.workspace fun entry => { entry with lastFocus := some window }
  | none => m

def removeWindow (m : ManagedWorkspaces) (window : WindowKey) : ManagedWorkspaces :=
  let m := m.mapEntries fun entry =>
    { entry with
      members := entry.members.erase window
      lastFocus := if entry.lastFocus = some window then none else entry.lastFocus }
  { m with membership := m.membership.erase window }

/-! ## Cleanup -/

/-- What the trailing policy knows of one workspace. Sticky members do not
occupy it. -/
def factsOf (m : ManagedWorkspaces) (output : String) (visible retained : List String)
    (sticky : BTreeSet WindowKey) (entry : WorkspaceEntry) : WorkspacePolicy.WorkspaceFacts :=
  let nonStickyEmpty := entry.members.toList.all sticky.contains
  let occupied := (!entry.members.isEmpty && !nonStickyEmpty) ||
    m.membership.toList.any fun (window, loc) =>
      loc.output == output && loc.workspace == entry.id && !sticky.contains window
  { empty := nonStickyEmpty && !occupied
    visible := visible.contains entry.id
    occupied
    retained := retained.contains entry.id ||
      (values m.displaced).any fun record => record.workspaceIds.contains entry.id }

def planCleanupExcluding (m : ManagedWorkspaces) (output : String) (visible retained : List String)
    (sticky : BTreeSet WindowKey) : List String × Bool :=
  match m.outputs[output]? with
  | none => ([], false)
  | some state =>
    let plan := WorkspacePolicy.planTrailing
      (state.order.map (m.factsOf output visible retained sticky))
    (plan.remove.filterMap fun i => state.ids[i]?, plan.needAppend)

/-- Displacement records name workspaces that exist. -/
def pruneDisplaced (m : ManagedWorkspaces) : ManagedWorkspaces :=
  let trim := fun (_ : String) (record : DisplacedRecord) =>
    { record with workspaceIds := record.workspaceIds.filter m.live.contains }
  { m with displaced := (m.displaced.map trim).filter fun _ record => !record.workspaceIds.isEmpty }

/-- The output without the removed workspaces, topped up to the minimum. -/
def cleanOrder (m : ManagedWorkspaces) (output : String) (removed : List String) (append : Bool) :
    ManagedWorkspaces :=
  match m.outputs[output]? with
  | none => m
  | some state =>
    let kept := state.order.filter fun entry => !removed.contains entry.id
    let appended := if append then 1 else 0
    let (m', fresh) :=
      m.mintEntries (appended + (WorkspacePolicy.minWorkspaces - (kept.length + appended)))
    let order := kept ++ fresh
    let active := ((m.activeId output).bind fun id => order.findIdx? (·.id == id)).getD 0
    m'.setOutput output { state with order, active := min active (order.length - 1) }

def applyCleanup (m : ManagedWorkspaces) (output : String) (removed : List String) (append : Bool) :
    ManagedWorkspaces :=
  (m.cleanOrder output removed append).pruneModes.pruneDisplaced.validateHistory output

/-- The plan and its application in one go. -/
def cleanup (m : ManagedWorkspaces) (output : String) (visible retained : List String)
    (sticky : BTreeSet WindowKey) : ManagedWorkspaces :=
  let (removed, append) := m.planCleanupExcluding output visible retained sticky
  m.applyCleanup output removed append

/-! ## Unplugging and returning -/

/-- Locations on one output, for some of its workspaces, become another's. -/
def rehome (m : ManagedWorkspaces) (source target : String) (ids : List String) :
    ManagedWorkspaces :=
  { m with membership := m.membership.map fun _ loc =>
      if loc.output = source ∧ ids.contains loc.workspace then { loc with output := target }
      else loc }

/-- Whole workspaces move onto a survivor. -/
def displaceOutputTo (m : ManagedWorkspaces) (origin dest : String) : ManagedWorkspaces × Bool :=
  match m.outputs[origin]?, m.outputs[dest]? with
  | some state, some destState =>
    if origin = dest then (m, false)
    else if state.order.isEmpty then
      let m := { m with outputs := m.outputs.erase origin }
      ((m.discardOutputHistory origin).validateHistory dest, true)
    else
      let joined := { destState with order := destState.order ++ state.order }
      let m := { m with outputs := (m.outputs.erase origin).insert dest joined }
      let m := m.rehome origin dest state.ids
      let m := { m with displaced := m.displaced.insert origin ⟨state.ids, dest⟩ }
      ((m.discardOutputHistory origin).validateHistory dest, true)
  | _, _ => (m, false)

/-- Entries that are not there yet. -/
def pushMissing (order : List WorkspaceEntry) : List WorkspaceEntry → List WorkspaceEntry
  | [] => order
  | entry :: returning =>
    if order.any (·.id == entry.id) then pushMissing order returning
    else pushMissing (order ++ [entry]) returning

/-- The output an origin returns as. -/
def returnTo (m : ManagedWorkspaces) (origin : String) (returning : List WorkspaceEntry) :
    ManagedWorkspaces :=
  match m.outputs[origin]? with
  | some state => m.setOutput origin { state with order := pushMissing state.order returning }
  | none =>
    { m with nextOutput := m.nextOutput + 1 }.setOutput origin
      (newOutput origin (m.nextOutput + 1) returning)

def seedAll (m : ManagedWorkspaces) (ids : List String) : ManagedWorkspaces := ids.foldl seedMode m

/-- The recorded workspaces the holder still has go back to the origin. -/
def reconnectOutput (m : ManagedWorkspaces) (origin : String) : ManagedWorkspaces × Bool :=
  match m.displaced[origin]? with
  | none => (m, false)
  | some record =>
    match m.outputs[record.destKey]? with
    | none => (m, false)
    | some destState =>
      let returning := destState.order.filter fun entry => record.workspaceIds.contains entry.id
      let order := destState.order.filter fun entry => !record.workspaceIds.contains entry.id
      let active := if order.length ≤ destState.active then order.length - 1 else destState.active
      let m := m.setOutput record.destKey { destState with order, active }
      let m := m.rehome record.destKey origin record.workspaceIds
      let m := (m.returnTo origin returning).seedAll record.workspaceIds
      let m := { m with
        displaced := m.displaced.erase origin
        previous := m.previous.erase origin
        baseline := match m.activeId origin with
          | some active => m.baseline.insert origin active
          | none => m.baseline.erase origin }
      ((m.validateHistory record.destKey).validateHistory origin, true)

/-! ## Operations -/

inductive Op
  | ensureOutput (key : String)
  | select (output : String) (index : Nat)
  | activate (output workspace : String)
  | selectTrailing (output : String)
  | resolveSendTrailing (output : String)
  | assign (window : WindowKey) (output workspace : String) (hidden : Bool)
  | setHidden (window : WindowKey) (hidden : Bool)
  | noteForeground (window : WindowKey)
  | removeWindow (window : WindowKey)
  | cleanup (output : String) (visible retained : List String) (sticky : BTreeSet WindowKey)
  | displaceOutputTo (origin dest : String)
  | reconnectOutput (origin : String)
  | observeWorkspaceChange (output current : String)

def next (m : ManagedWorkspaces) : Op → ManagedWorkspaces
  | .ensureOutput key => m.ensureOutput key
  | .select output index => (m.select output index).1
  | .activate output workspace => (m.activate output workspace).1
  | .selectTrailing output => (m.selectTrailing output).1
  | .resolveSendTrailing output => (m.resolveSendTrailing output).1
  | .assign window output workspace hidden => (m.assign window output workspace hidden).1
  | .setHidden window hidden => m.setHidden window hidden
  | .noteForeground window => m.noteForeground window
  | .removeWindow window => m.removeWindow window
  | .cleanup output visible retained sticky => m.cleanup output visible retained sticky
  | .displaceOutputTo origin dest => (m.displaceOutputTo origin dest).1
  | .reconnectOutput origin => (m.reconnectOutput origin).1
  | .observeWorkspaceChange output current => (m.observeWorkspaceChange output current).1

def machine : Machine ManagedWorkspaces Op where
  initial m := m = new
  next := next

end ManagedWorkspaces

end PlasmaTiler
