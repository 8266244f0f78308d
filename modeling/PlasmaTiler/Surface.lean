import PlasmaTiler.Buckets

/-!
# The KWin surface of the workspace adapter

What the workspace adapter reads from KWin, and the three native calls it
makes: create a desktop, remove one, show one on an output. KWin keeps its
desktops in order and numbers them by position, so ordering them by number
changes nothing. Ids of desktops are never used again.

Everything the adapter reads may be unreadable: the list of desktops, the
screens, what an output shows, where a window is. That is `none` here, as the
source has `null`, and every caller says what it does then.

Output objects are told apart by reference, and a returning output is a new
object. What survives is its identity, a tuple of names; `SessionOutputKeys`
turns it into the key of the session (`output-n`), and gives a returning
output its key back.
-/

namespace PlasmaTiler

namespace Native

abbrev DesktopId := String

/-- An output object, told apart by `ref`; a returning output is a new one.
Its identity is `none` where its name is no id. -/
structure Output where
  ref : Nat
  tuple : Option String
deriving DecidableEq, Repr

structure NativeWindow where
  output : Option Output
  onAllDesktops : Bool := false
  /-- `none` where the list cannot be read. -/
  desktops : Option (List DesktopId)
deriving DecidableEq, Repr

/-- Names that were never used. -/
structure Mint where
  name : List DesktopId → DesktopId
  fresh : ∀ used, name used ∉ used

/-- A name longer than every used one. -/
def Mint.longest : Mint where
  name used := String.ofList (List.replicate (used.foldr (fun id n => max id.length n) 0 + 1) 'd')
  fresh used h := by
    have hle : ∀ (used : List DesktopId) (id : DesktopId), id ∈ used →
        id.length ≤ used.foldr (fun id n => max id.length n) 0 := by
      intro used id hid
      induction used with
      | nil => cases hid
      | cons x used ih =>
        rw [List.foldr_cons]
        rcases List.mem_cons.mp hid with rfl | hid
        · exact Nat.le_max_left _ _
        · exact Nat.le_trans (ih hid) (Nat.le_max_right _ _)
    have := hle used _ h
    rw [String.length_ofList, List.length_replicate] at this
    omega

/-- The desktops in KWin's order, with every id that was ever one. -/
structure Desktops where
  ids : List DesktopId
  used : List DesktopId
  nodup : ids.Nodup
  known : ∀ id ∈ ids, id ∈ used

namespace Desktops

def create (mint : Mint) (d : Desktops) : Desktops where
  ids := d.ids ++ [mint.name d.used]
  used := d.used ++ [mint.name d.used]
  nodup := List.nodup_append.mpr ⟨d.nodup, List.nodup_singleton _, fun a ha b hb hab =>
    mint.fresh d.used (List.mem_singleton.mp hb ▸ hab ▸ d.known a ha)⟩
  known id hid := by
    rcases List.mem_append.mp hid with hid | hid
    · exact List.mem_append_left _ (d.known id hid)
    · exact List.mem_append_right _ hid

def remove (id : DesktopId) (d : Desktops) : Desktops where
  ids := d.ids.erase id
  used := d.used
  nodup := d.nodup.erase id
  known id' hid := d.known id' (List.mem_of_mem_erase hid)

end Desktops

def maxDesktops : Nat := 32

structure Surface where
  desktops : Desktops
  /-- KWin's own limit is below the number of desktops that is read. -/
  capacity : Nat
  capacity_le : capacity ≤ maxDesktops
  mint : Mint
  /-- What the desktops list gives, apart from its length. -/
  readable : Bool := true
  screens : Option (List Output)
  windows : Option (List NativeWindow)
  /-- `currentDesktopForScreen` by output. -/
  currents : OrderedMap Nat DesktopId
  currentDesktop : Option DesktopId
  activeWindow : Option NativeWindow := none
  activeScreen : Option Output := none
  /-- What the retention provider names. -/
  retained : List DesktopId := []

namespace Surface

/-! ## Reading -/

/-- The live desktops in order. -/
def liveOrdered (s : Surface) : Option (List DesktopId) :=
  if s.readable && !s.desktops.ids.isEmpty && decide (s.desktops.ids.length ≤ maxDesktops) then
    some s.desktops.ids
  else none

/-- The screens; none at all is unreadable. -/
def liveScreens (s : Surface) : Option (List Output) := s.screens.filter fun out => !out.isEmpty

def findLive (s : Surface) (id : DesktopId) : Option DesktopId := do
  let live ← s.liveOrdered
  live.find? fun entry => entry == id

def currentOnOutput (s : Surface) (o : Output) : Option DesktopId := s.currents.get o.ref

def activeOutput (s : Surface) : Option Output :=
  (s.activeWindow.bind fun w => w.output).or s.activeScreen

/-- Every shown desktop, if all can be read. -/
def visibleIds (s : Surface) : Option (List DesktopId) := do
  let screens ← s.liveScreens
  let visible ← screens.mapM s.currentOnOutput
  let global ← s.currentDesktop
  return visible ++ [global]

/-- The desktops with windows; a sticky window is on none. -/
def occupiedIds (s : Surface) : Option (List DesktopId) := do
  let windows ← s.windows
  let memberships ← (windows.filter fun w => !w.onAllDesktops).mapM fun w => w.desktops
  return memberships.flatten

/-! ## Native calls -/

/-- At its limit KWin creates nothing. -/
def createDesktop (s : Surface) : Surface :=
  if s.desktops.ids.length < s.capacity then { s with desktops := s.desktops.create s.mint } else s

/-- Only empty desktops that are not shown are removed, so nothing else
changes. -/
def removeDesktop (s : Surface) (id : DesktopId) : Surface :=
  { s with desktops := s.desktops.remove id }

def writeCurrent (s : Surface) (id : DesktopId) (o : Output) : Surface :=
  { s with currents := s.currents.set o.ref id }

def synchronizeShared (s : Surface) (id : DesktopId) : Surface :=
  match s.liveScreens with
  | none => { s with currentDesktop := some id }
  | some screens => screens.foldl (fun s o => s.writeCurrent id o) s

end Surface

/-! ## Output keys -/

/-- `output-n`. -/
abbrev OutputKey := Nat

/-- Outputs of the session by identity. A returning output gets its key back;
twins get one each, in order. -/
structure SessionOutputKeys where
  slots : List (OutputKey × String) := []
  byOutput : OrderedMap Nat OutputKey := .empty
  next : Nat := 0

namespace SessionOutputKeys

/-- The first slot of the identity that is not taken. -/
def freeSlot (keys : SessionOutputKeys) (consumed : List OutputKey) (tuple : String) :
    Option OutputKey :=
  (keys.slots.find? fun slot => !consumed.contains slot.1 && slot.2 == tuple).map Prod.fst

def rebuildStep (acc : SessionOutputKeys × List OutputKey) (o : Output) :
    SessionOutputKeys × List OutputKey :=
  let (keys, consumed) := acc
  match o.tuple with
  | none => acc
  | some tuple =>
    match keys.freeSlot consumed tuple with
    | some key => ({ keys with byOutput := keys.byOutput.set o.ref key }, consumed ++ [key])
    | none =>
      ({ slots := keys.slots ++ [(keys.next, tuple)]
         byOutput := keys.byOutput.set o.ref keys.next
         next := keys.next + 1 }, consumed ++ [keys.next])

def rebuild (keys : SessionOutputKeys) (outputs : List Output) : SessionOutputKeys :=
  (outputs.foldl rebuildStep ({ keys with byOutput := .empty }, [])).1

def keyFor (keys : SessionOutputKeys) (o : Output) : Option OutputKey :=
  (keys.byOutput.get o.ref).or <| do
    let tuple ← o.tuple
    let slot ← keys.slots.find? fun slot => slot.2 == tuple
    return slot.1

/-- The keys of the screens, each once. -/
def screenKeys (keys : SessionOutputKeys) (screens : List Output) : List OutputKey :=
  Buckets.pushNew [] (screens.filterMap keys.keyFor)

end SessionOutputKeys

end Native

end PlasmaTiler
