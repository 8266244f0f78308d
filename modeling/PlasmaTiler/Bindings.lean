import PlasmaTiler.Snapkey
import PlasmaTiler.Collections
import PlasmaTiler.Movement
import Mathlib.Data.String.Basic
import Mathlib.Data.List.Sort

/-!
# Key bindings

The settings document overrides the rows of a binding catalog: a row keeps
its default chords, is disabled, or is rebound to one chord of its own
modifier arm. `effectiveBindings` is what the user is shown, `buildRemap` and
`buildDisabled` are the tables the classifier carries, and `validateSettings`
is what every document has to pass before either is used.

Chords are texts in the document. Parsing takes the tokens in any order and
case and wants Win and one key; rendering writes them in the canonical order,
and the duplicate check compares rendered texts.

The remap table leads from a rebound chord to the canonical key of its row,
on the row's own arm. A row without a default chord has a canonical key all
the same, the one its identity names, and a rebind on that key makes no
entry.
-/

namespace PlasmaTiler

namespace Snapkey

/-! ## Chords -/

/-- A parsed chord: Win is mandatory, one key. -/
structure Chord where
  shift : Bool
  alt : Bool
  ctrl : Bool
  vk : Vk
  keyName : String
deriving DecidableEq, Repr

def letterNames : List String :=
  ["A", "B", "C", "D", "E", "F", "G", "H", "I", "J", "K", "L", "M", "N", "O", "P", "Q", "R", "S", "T",
   "U", "V", "W", "X", "Y", "Z"]

def digitNames : List String := ["0", "1", "2", "3", "4", "5", "6", "7", "8", "9"]

def arrowNames : List (String × Vk) := [("Left", vkLeft), ("Up", vkUp), ("Right", vkRight), ("Down", vkDown)]

def functionNames : List String :=
  ["F1", "F2", "F3", "F4", "F5", "F6", "F7", "F8", "F9", "F10", "F11", "F12", "F13", "F14", "F15",
   "F16", "F17", "F18", "F19", "F20", "F21", "F22", "F23", "F24"]

/-- Equality up to ASCII case. -/
def eqIgnoreCase (a : List Char) (b : String) : Bool := a.map Char.toLower == b.toList.map Char.toLower

/-- The number a run of ASCII digits writes. -/
def parseDigits (digits : List Char) : Nat :=
  digits.foldl (fun n c => 10 * n + (c.toNat - '0'.toNat)) 0

/-- The virtual key of a key name, with the name as the catalog writes it:
letters, digits, F1 to F24, the arrows and Tab. -/
def vkForKeyName (name : List Char) : Option (Vk × String) :=
  if eqIgnoreCase name "tab" then some (vkTab, "Tab")
  else
    match name with
    | [c] =>
        if c.isAlpha then
          (letterNames[c.toUpper.toNat - 'A'.toNat]?).map fun text => (c.toUpper.toNat, text)
        else if c.isDigit then (digitNames[c.toNat - '0'.toNat]?).map fun text => (c.toNat, text)
        else none
    | name =>
        match arrowNames.find? fun entry => eqIgnoreCase name entry.1 with
        | some (text, vk) => some (vk, text)
        | none =>
          match name with
          | f :: digits =>
              if (f == 'F' || f == 'f') && !digits.isEmpty && decide (digits.length ≤ 2) &&
                  digits.all Char.isDigit then
                let number := parseDigits digits
                if 1 ≤ number ∧ number ≤ 24 then
                  (functionNames[number - 1]?).map fun text => (0x6F + number, text)
                else none
              else none
          | [] => none

def chordUsage : String := "refuse: chord needs Win[+Shift][+Alt][+Ctrl]+Key"

/-- The parts of a text between its separators. -/
def splitPlus : List Char → List (List Char)
  | [] => [[]]
  | c :: rest =>
      match splitPlus rest with
      | [] => [[c]]
      | part :: parts => if c = '+' then [] :: part :: parts else (c :: part) :: parts

/-- Unicode white space. -/
def isWhiteSpace (c : Char) : Bool :=
  let n := c.toNat
  decide (9 ≤ n ∧ n ≤ 13) || n == 0x20 || n == 0x85 || n == 0xA0 || n == 0x1680 ||
    decide (0x2000 ≤ n ∧ n ≤ 0x200A) || n == 0x2028 || n == 0x2029 || n == 0x202F || n == 0x205F ||
    n == 0x3000

def trim (part : List Char) : List Char :=
  ((part.dropWhile isWhiteSpace).reverse.dropWhile isWhiteSpace).reverse

/-- What a chord text has named so far. -/
structure ChordScan where
  win : Bool
  shift : Bool
  alt : Bool
  ctrl : Bool
  key : Option (Vk × String)
deriving DecidableEq

/-- One token of a chord text; a token named twice refuses. -/
def scanToken (scan : ChordScan) (raw : List Char) : Except String ChordScan :=
  let token := trim raw
  if token.isEmpty then .error chordUsage
  else if eqIgnoreCase token "win" then
    if scan.win then .error chordUsage else .ok { scan with win := true }
  else if eqIgnoreCase token "shift" then
    if scan.shift then .error chordUsage else .ok { scan with shift := true }
  else if eqIgnoreCase token "alt" then
    if scan.alt then .error chordUsage else .ok { scan with alt := true }
  else if eqIgnoreCase token "ctrl" then
    if scan.ctrl then .error chordUsage else .ok { scan with ctrl := true }
  else
    match scan.key, vkForKeyName token with
    | none, some key => .ok { scan with key := some key }
    | _, _ => .error chordUsage

/-- Parse a chord text: tokens in any order and case, Win and one key. -/
def parseChord (text : String) : Except String Chord :=
  let tokens := splitPlus text.toList
  match tokens.foldlM scanToken ⟨false, false, false, false, none⟩ with
  | .error usage => .error usage
  | .ok scan =>
      if !scan.win || decide (tokens.length < 2) then .error chordUsage
      else
        match scan.key with
        | none => .error chordUsage
        | some (vk, keyName) => .ok ⟨scan.shift, scan.alt, scan.ctrl, vk, keyName⟩

/-- A chord back in canonical order. -/
def renderChord (chord : Chord) : String :=
  "Win" ++ (if chord.shift then "+Shift" else "") ++ (if chord.alt then "+Alt" else "") ++
    (if chord.ctrl then "+Ctrl" else "") ++ "+" ++ chord.keyName

/-- Unshifted Win+L. -/
def isLockChord (chord : Chord) : Bool :=
  chord.vk == vkL && !chord.shift && !chord.alt && !chord.ctrl

/-! ## The catalog -/

inductive SnapFamilyOp
  | primary | shifted
deriving DecidableEq, Repr

def SnapFamilyOp.wantsShift : SnapFamilyOp → Bool
  | .primary => false
  | .shifted => true

inductive ToggleKind
  | float | sticky | maximize | fullscreen | orientation
deriving DecidableEq, Repr

def ToggleKind.wantsShift : ToggleKind → Bool
  | .sticky => true
  | .float | .maximize | .fullscreen | .orientation => false

/-- The runtime arm of a row. -/
inductive BindingFamily
  | directional (direction : Direction) (op : SnapFamilyOp)
  | workspace (index : Nat) (op : SnapFamilyOp)
  | workspaceStay (index : Nat)
  | workspaceSendRelative (prev follow : Bool)
  | workspaceHistory (kind : WorkspaceHistoryOp)
  | toggle (kind : ToggleKind)
  | resize (direction : Direction) (mode : ResizeMode)
deriving DecidableEq, Repr

/-- One row: an action and its default chords; a row without one is unbound. -/
structure BindingDef where
  id : String
  family : BindingFamily
  defaults : List String
  implemented : Bool
deriving DecidableEq, Repr

def focusMoveRows : List (String × Direction × List String × SnapFamilyOp) :=
  [("focus-left", .left, ["Win+H"], .primary),
   ("focus-left-arrow", .left, ["Win+Left"], .primary),
   ("focus-down", .down, ["Win+J"], .primary),
   ("focus-down-arrow", .down, ["Win+Down"], .primary),
   ("focus-up", .up, ["Win+K"], .primary),
   ("focus-up-arrow", .up, ["Win+Up"], .primary),
   ("focus-right", .right, ["Win+L"], .primary),
   ("focus-right-arrow", .right, ["Win+Right"], .primary),
   ("move-left", .left, ["Win+Shift+H"], .shifted),
   ("move-left-arrow", .left, ["Win+Shift+Left"], .shifted),
   ("move-down", .down, ["Win+Shift+J"], .shifted),
   ("move-down-arrow", .down, ["Win+Shift+Down"], .shifted),
   ("move-up", .up, ["Win+Shift+K"], .shifted),
   ("move-up-arrow", .up, ["Win+Shift+Up"], .shifted),
   ("move-right", .right, ["Win+Shift+L"], .shifted),
   ("move-right-arrow", .right, ["Win+Shift+Right"], .shifted)]

def resizeRows : List (String × Direction × ResizeMode × List String) :=
  [("resize-out-left", .left, .outwards, ["Win+Alt+H", "Win+Alt+Left"]),
   ("resize-out-down", .down, .outwards, ["Win+Alt+J", "Win+Alt+Down"]),
   ("resize-out-up", .up, .outwards, ["Win+Alt+K", "Win+Alt+Up"]),
   ("resize-out-right", .right, .outwards, ["Win+Alt+L", "Win+Alt+Right"]),
   ("resize-in-left", .left, .inwards, ["Win+Alt+Shift+H", "Win+Alt+Shift+Left"]),
   ("resize-in-down", .down, .inwards, ["Win+Alt+Shift+J", "Win+Alt+Shift+Down"]),
   ("resize-in-up", .up, .inwards, ["Win+Alt+Shift+K", "Win+Alt+Shift+Up"]),
   ("resize-in-right", .right, .inwards, ["Win+Alt+Shift+L", "Win+Alt+Shift+Right"])]

def toggleRows : List (String × ToggleKind × List String) :=
  [("toggle-float", .float, ["Win+G"]),
   ("toggle-sticky", .sticky, ["Win+Shift+G"]),
   ("toggle-maximize", .maximize, ["Win+M"]),
   ("toggle-fullscreen", .fullscreen, ["Win+F11"]),
   ("toggle-orientation", .orientation, ["Win+O"])]

/-- The indices of the numbered rows, in catalog order. -/
def workspaceIndices : List Nat := [1, 2, 3, 4, 5, 6, 7, 8, 9, 0]

def digitName (index : Nat) : String := (digitNames[index]?).getD "0"

def workspaceRow (index : Nat) (op : SnapFamilyOp) : BindingDef :=
  match op with
  | .primary =>
      ⟨"workspace-select-" ++ digitName index, .workspace index op, ["Win+" ++ digitName index], true⟩
  | .shifted =>
      ⟨"workspace-send-" ++ digitName index, .workspace index op, ["Win+Shift+" ++ digitName index], true⟩

def stayId (index : Nat) : String := "stay-workspace-" ++ digitName index

def relativeSendRows : List (String × Bool × Bool × List String) :=
  [("send-prev-h", true, true, ["Win+Ctrl+Shift+H"]),
   ("send-prev-k", true, true, ["Win+Ctrl+Shift+K"]),
   ("send-prev-left-arrow", true, true, ["Win+Ctrl+Shift+Left"]),
   ("send-prev-up-arrow", true, true, ["Win+Ctrl+Shift+Up"]),
   ("send-next-j", false, true, ["Win+Ctrl+Shift+J"]),
   ("send-next-l", false, true, ["Win+Ctrl+Shift+L"]),
   ("send-next-down-arrow", false, true, ["Win+Ctrl+Shift+Down"]),
   ("send-next-right-arrow", false, true, ["Win+Ctrl+Shift+Right"]),
   ("send-stay-prev-h", true, false, []),
   ("send-stay-prev-k", true, false, []),
   ("send-stay-prev-left-arrow", true, false, []),
   ("send-stay-prev-up-arrow", true, false, []),
   ("send-stay-next-j", false, false, []),
   ("send-stay-next-l", false, false, []),
   ("send-stay-next-down-arrow", false, false, []),
   ("send-stay-next-right-arrow", false, false, [])]

def historyRows : List (String × WorkspaceHistoryOp × List String) :=
  [("workspace-previous", .previous, ["Win+Ctrl+Tab"]),
   ("workspace-prev-h", .prev, ["Win+Ctrl+H"]),
   ("workspace-prev-k", .prev, ["Win+Ctrl+K"]),
   ("workspace-prev-left-arrow", .prev, ["Win+Ctrl+Left"]),
   ("workspace-prev-up-arrow", .prev, ["Win+Ctrl+Up"]),
   ("workspace-next-j", .next, ["Win+Ctrl+J"]),
   ("workspace-next-l", .next, ["Win+Ctrl+L"]),
   ("workspace-next-down-arrow", .next, ["Win+Ctrl+Down"]),
   ("workspace-next-right-arrow", .next, ["Win+Ctrl+Right"])]

/-- All rows. -/
def bindingCatalog : List BindingDef :=
  (focusMoveRows.map fun (id, direction, defaults, op) =>
    ⟨id, .directional direction op, defaults, true⟩) ++
  (resizeRows.map fun (id, direction, mode, defaults) => ⟨id, .resize direction mode, defaults, true⟩) ++
  (toggleRows.map fun (id, kind, defaults) => ⟨id, .toggle kind, defaults, true⟩) ++
  (workspaceIndices.map fun index => workspaceRow index .primary) ++
  (workspaceIndices.map fun index => workspaceRow index .shifted) ++
  (workspaceIndices.map fun index => ⟨stayId index, .workspaceStay index, [], true⟩) ++
  (relativeSendRows.map fun (id, prev, follow, defaults) =>
    ⟨id, .workspaceSendRelative prev follow, defaults, true⟩) ++
  (historyRows.map fun (id, kind, defaults) => ⟨id, .workspaceHistory kind, defaults, true⟩)

def bindingWantsShift (row : BindingDef) : Bool :=
  match row.family with
  | .directional _ op | .workspace _ op => op.wantsShift
  | .workspaceStay _ | .workspaceSendRelative .. => true
  | .workspaceHistory _ => false
  | .toggle kind => kind.wantsShift
  | .resize _ mode => mode == .inwards

def bindingWantsCtrl (row : BindingDef) : Bool :=
  match row.family with
  | .workspaceHistory _ | .workspaceSendRelative .. => true
  | _ => false

def bindingWantsAlt (row : BindingDef) : Bool :=
  match row.family with
  | .resize .. => true
  | _ => false

def BindingFamily.isStay : BindingFamily → Bool
  | .workspaceStay _ => true
  | _ => false

/-- The modifiers are the row's own arm; a numbered stay row has two. -/
def bindingModifiersOk (row : BindingDef) (shift ctrl alt : Bool) : Bool :=
  shift == bindingWantsShift row && ctrl == bindingWantsCtrl row && alt == bindingWantsAlt row ||
    row.family.isStay && shift && ctrl && !alt

def bindingArmText (row : BindingDef) : String :=
  if row.family.isStay then "Win+Shift or Win+Ctrl+Shift"
  else
    match bindingWantsShift row, bindingWantsCtrl row, bindingWantsAlt row with
    | true, false, false => "Win+Shift"
    | false, true, false => "Win+Ctrl"
    | true, true, false => "Win+Ctrl+Shift"
    | false, false, false => "Win without Shift"
    | false, false, true => "Win+Alt"
    | true, false, true => "Win+Shift+Alt"
    | _, _, _ => "the binding's modifier arm"

def bindingAction (row : BindingDef) : ChordAction :=
  match row.family with
  | .directional .. => .directional
  | .resize _ mode => if mode = .inwards then .resizeIn else .resizeOut
  | .workspace .. => .workspaceDigit
  | .workspaceStay _ => .workspaceStayDigit
  | .workspaceSendRelative prev follow =>
      match prev, follow with
      | true, true => .workspaceSendPrev
      | false, true => .workspaceSendNext
      | true, false => .workspaceSendStayPrev
      | false, false => .workspaceSendStayNext
  | .workspaceHistory kind =>
      match kind with
      | .previous => .workspacePrevious
      | .prev => .workspacePrev
      | .next => .workspaceNext
  | .toggle kind =>
      match kind with
      | .float => .float
      | .sticky => .sticky
      | .maximize => .maximize
      | .fullscreen => .fullscreen
      | .orientation => .orientation

/-- The canonical keys of the unbound relative rows. -/
def stayKeys : List (String × Vk) :=
  [("send-stay-prev-h", vkH), ("send-stay-prev-k", vkK), ("send-stay-prev-left-arrow", vkLeft),
   ("send-stay-prev-up-arrow", vkUp), ("send-stay-next-j", vkJ), ("send-stay-next-l", vkL),
   ("send-stay-next-down-arrow", vkDown), ("send-stay-next-right-arrow", vkRight)]

/-- The canonical key of a row: that of its first default chord, or the one its
own identity names. -/
def bindingCanonicalVk (row : BindingDef) : Option Vk :=
  match row.defaults.head?.bind fun text => (parseChord text).toOption with
  | some chord => some chord.vk
  | none =>
      match row.family with
      | .workspaceStay index => some (vk0 + index)
      | .workspaceSendRelative .. => (stayKeys.find? fun entry => entry.1 == row.id).map Prod.snd
      | _ => none

/-! ## Settings -/

inductive BindingState
  | keep | disabled | rebind
deriving DecidableEq, Repr

/-- One override; a row without one keeps its defaults. -/
structure BindingSetting where
  state : BindingState
  chord : Option String
deriving DecidableEq, Repr

structure Settings where
  v : Nat
  revision : Nat
  innerGap : Int
  outerGap : Int
  sameAxisMove : String
  keyboard : KeyboardConfig
  bindings : BTreeMap String BindingSetting

inductive SettingsError
  | io (reason : String)
  | tooLarge
  | malformed
  | unsupportedVersion
  | invalid (reason : String)
deriving DecidableEq, Repr

/-- What a row does now: the chords it answers to. -/
structure EffectiveBinding where
  id : String
  active : Bool
  chords : List String
  effective : Bool
  reason : String
deriving DecidableEq, Repr

def effectiveBinding (settings : Settings) (row : BindingDef) : EffectiveBinding :=
  let kept : EffectiveBinding :=
    if row.defaults.isEmpty then ⟨row.id, true, row.defaults, false, "unbound: bindable"⟩
    else if row.implemented then ⟨row.id, true, row.defaults, true, ""⟩
    else ⟨row.id, true, row.defaults, false, "not intercepted: Alt chords pass through"⟩
  match settings.bindings[row.id]? with
  | none => kept
  | some ⟨.keep, _⟩ => kept
  | some ⟨.disabled, _⟩ => ⟨row.id, false, [], false, "disabled: passes through natively"⟩
  | some ⟨.rebind, chord⟩ =>
      match chord.bind fun text => (parseChord text).toOption with
      | some parsed =>
          if row.implemented then ⟨row.id, true, [renderChord parsed], true, ""⟩
          else ⟨row.id, true, [], false, "not intercepted: Alt chords pass through"⟩
      | none => ⟨row.id, false, [], false, "malformed chord: passes through"⟩

/-- The bindings in live use. -/
def effectiveBindings (settings : Settings) : List EffectiveBinding :=
  bindingCatalog.map (effectiveBinding settings)

def findRow (id : String) : Option BindingDef := bindingCatalog.find? fun row => row.id == id

/-- Order of the tables: key, then Shift, Ctrl and Alt. -/
def chordLe (a b : Vk × Bool × Bool × Bool) : Bool :=
  decide (a.1 < b.1) || a.1 == b.1 && (decide (a.2.1 < b.2.1) || a.2.1 == b.2.1 &&
    (decide (a.2.2.1 < b.2.2.1) || a.2.2.1 == b.2.2.1 && decide (a.2.2.2 ≤ b.2.2.2)))

/-- The remap entry of an override; none where the key is the row's canonical
key already. -/
def remapEntry (id : String) (setting : BindingSetting) : Option ChordRemap :=
  if setting.state ≠ .rebind then none
  else do
    let row ← findRow id
    if !row.implemented then none
    else do
      let text ← setting.chord
      let parsed ← (parseChord text).toOption
      if !bindingModifiersOk row parsed.shift parsed.ctrl parsed.alt then none
      else do
        let toVk ← bindingCanonicalVk row
        if parsed.vk = toVk then none
        else some ⟨parsed.vk, parsed.shift, parsed.ctrl, parsed.alt, bindingAction row, toVk⟩

/-- The remap table of the classifier. -/
def buildRemap (settings : Settings) : List ChordRemap :=
  (settings.bindings.toList.filterMap fun (id, setting) => remapEntry id setting).insertionSort
    fun a b => chordLe (a.fromVk, a.fromShift, a.fromCtrl, a.fromAlt)
      (b.fromVk, b.fromShift, b.fromCtrl, b.fromAlt) = true

def disableOf (chord : Chord) : ChordDisable := ⟨chord.vk, chord.shift, chord.ctrl, chord.alt⟩

/-- The defaults an override turns off: all of a disabled row, and those of a
rebound row other than its own chord. -/
def disabledEntries (id : String) (setting : BindingSetting) : List ChordDisable :=
  match findRow id with
  | none => []
  | some row =>
      if !row.implemented then []
      else
        match setting.state with
        | .keep => []
        | .disabled => row.defaults.filterMap fun text => (parseChord text).toOption.map disableOf
        | .rebind =>
            let custom := setting.chord.bind fun text => (parseChord text).toOption
            row.defaults.filterMap fun text =>
              match (parseChord text).toOption with
              | some parsed => if custom = some parsed then none else some (disableOf parsed)
              | none => none

/-- Drop an entry equal to the one before it. -/
def dedup : List ChordDisable → List ChordDisable
  | [] => []
  | [entry] => [entry]
  | a :: b :: rest => if a = b then dedup (b :: rest) else a :: dedup (b :: rest)

/-- The suppression table of the classifier. -/
def buildDisabled (settings : Settings) : List ChordDisable :=
  dedup ((settings.bindings.toList.flatMap fun (id, setting) => disabledEntries id setting).insertionSort
    fun a b => chordLe (a.vk, a.shift, a.ctrl, a.alt) (b.vk, b.shift, b.ctrl, b.alt) = true)

/-! ## Validation -/

def schemaVersion : Nat := 1

def settingsMaxGap : Int := 64

def gapValid (value : Int) : Bool := decide (0 ≤ value) && decide (value ≤ settingsMaxGap)

/-- The first id that stands twice. -/
def repeatedId : List String → Option String
  | [] => none
  | id :: rest => if rest.contains id then some id else repeatedId rest

/-- Chords and canonical routes the rebinds have claimed so far. -/
structure Claimed where
  customKeys : List (Vk × Bool × Bool × Bool)
  canonTargets : List ((ChordAction × Vk) × String)

/-- A rebind of the row to the text: the row's own arm, a chord and a
canonical route of its own. -/
def validateRebind (claimed : Claimed) (id : String) (row : BindingDef) (text : String) :
    Except SettingsError Claimed :=
  match parseChord text with
  | .error _ => .error (.invalid ("binding " ++ id ++ " has a malformed chord"))
  | .ok parsed =>
      if isLockChord parsed then
        .error (.invalid ("binding " ++ id ++ " must not target unshifted Win+L"))
      else if !row.implemented then
        .error (.invalid ("binding " ++ id ++ " is not intercepted on Windows and cannot rebind"))
      else if !bindingModifiersOk row parsed.shift parsed.ctrl parsed.alt then
        .error (.invalid ("binding " ++ id ++ " rebind needs " ++ bindingArmText row))
      else
        let key := (parsed.vk, parsed.shift, parsed.ctrl, parsed.alt)
        if claimed.customKeys.contains key then
          .error (.invalid ("binding " ++ id ++ " rebinds an already-rebound chord"))
        else
          let claimed := { claimed with customKeys := key :: claimed.customKeys }
          let ownDefault := row.defaults.any fun text => (parseChord text).toOption == some parsed
          match bindingCanonicalVk row with
          | some toVk =>
              if ownDefault then .ok claimed
              else
                let target := (bindingAction row, toVk)
                match claimed.canonTargets.find? fun entry => entry.1 == target with
                | some first =>
                    .error (.invalid
                      ("binding " ++ id ++ " rebinds onto the action already rebound by " ++ first.2))
                | none => .ok { claimed with canonTargets := (target, id) :: claimed.canonTargets }
          | none => .ok claimed

/-- One override is coherent. -/
def validateBinding (claimed : Claimed) (id : String) (setting : BindingSetting) :
    Except SettingsError Claimed :=
  match findRow id with
  | none => .error (.invalid ("unknown binding " ++ id))
  | some row =>
      match setting.state, setting.chord with
      | .keep, none | .disabled, none => .ok claimed
      | .keep, some _ | .disabled, some _ =>
          .error (.invalid ("binding " ++ id ++ " carries a chord without rebind"))
      | .rebind, none => .error (.invalid ("binding " ++ id ++ " rebinds without a chord"))
      | .rebind, some text => validateRebind claimed id row text

def renderDefault (text : String) : Except SettingsError String :=
  match parseChord text with
  | .ok parsed => .ok (renderChord parsed)
  | .error _ => .error (.invalid ("bad catalog chord " ++ text))

/-- The live chords of a row, rendered. -/
def activeChords (settings : Settings) (row : BindingDef) : Except SettingsError (List String) :=
  let kept := row.defaults.mapM renderDefault
  match settings.bindings[row.id]? with
  | none => kept
  | some ⟨.keep, _⟩ => kept
  | some ⟨.disabled, _⟩ => .ok []
  | some ⟨.rebind, some text⟩ =>
      match parseChord text with
      | .ok parsed => .ok [renderChord parsed]
      | .error _ => .error (.invalid ("binding " ++ row.id ++ " has a malformed chord"))
  | some ⟨.rebind, none⟩ => .error (.invalid ("binding " ++ row.id ++ " rebinds without a chord"))

/-- The first text that equals the one before it. -/
def adjacentEqual : List String → Option String
  | a :: b :: rest => if a = b then some a else adjacentEqual (b :: rest)
  | _ => none

def validateBindings (settings : Settings) : Except SettingsError Unit :=
  match repeatedId (bindingCatalog.map BindingDef.id) with
  | some id => .error (.invalid ("duplicate catalog id " ++ id))
  | none => do
      let _ ← settings.bindings.toList.foldlM
        (fun claimed (id, setting) => validateBinding claimed id setting) ⟨[], []⟩
      let seen ← bindingCatalog.mapM (activeChords settings)
      match adjacentEqual (seen.flatten.insertionSort (· ≤ ·)) with
      | some chord => .error (.invalid ("duplicate active chord " ++ chord))
      | none => .ok ()

def parseSameAxisMove (value : String) : Option SameAxisMove :=
  if value = "group-with-neighbor" then some .groupWithNeighbor
  else if value = "swap-with-neighbor" then some .swapWithNeighbor
  else none

/-- The whole document. The border and underlay styles are floating-point
values of their own; `styles` is what their two checks answer. -/
def validateSettings (styles : Except SettingsError Unit) (settings : Settings) :
    Except SettingsError Unit :=
  if settings.v ≠ schemaVersion then .error .unsupportedVersion
  else if settings.revision = 0 then .error (.invalid "revision must be nonzero")
  else if !gapValid settings.innerGap then .error (.invalid "inner_gap needs 0..=64")
  else if !gapValid settings.outerGap then .error (.invalid "outer_gap needs 0..=64")
  else if (parseSameAxisMove settings.sameAxisMove).isNone then
    .error (.invalid "core.same_axis_move needs group-with-neighbor|swap-with-neighbor")
  else do
    styles
    validateBindings settings

end Snapkey

end PlasmaTiler
