import PlasmaTiler.Bindings

/-!
# Arguments of the tile command

The `tile` command starts from a base, the saved settings, and scans its
arguments over it. Every switch that concerns what the settings file controls
is recorded a second time, lane by lane, so that it can be applied again over
the base a later file gives.

Each argument is offered to several parsers in turn: the switches of the
underlay, those of the tile command, and the error at the end. A switch
stands alone or takes the next argument.

Numbers are parsed as the standard library of the source does it: decimal,
with a sign where the type has one, and refused out of range. Floats come in
as a parameter (`Floats`), with what the parsers use of them: reading one,
comparing two, and the test for being finite.
-/

namespace PlasmaTiler

namespace TileArgs

/-! ## Values -/

/-- What the parsers use of the floats. -/
structure Floats (F : Type) where
  parse : String → Option F
  isFinite : F → Bool
  eq : F → F → Bool
  lt : F → F → Bool
  ofInt : Int → F

abbrev Rgb := UInt8 × UInt8 × UInt8

def digitsValue (digits : List Char) : Option Nat :=
  if digits.isEmpty || !digits.all Char.isDigit then none
  else some (digits.foldl (fun n c => 10 * n + (c.toNat - '0'.toNat)) 0)

/-- A decimal `i32`, signed or not. -/
def parseI32 (value : String) : Option Int :=
  let number := match value.toList with
    | '-' :: digits => (digitsValue digits).map fun n => -(n : Int)
    | '+' :: digits => (digitsValue digits).map Int.ofNat
    | digits => (digitsValue digits).map Int.ofNat
  number.bind IntRange.i32.check

/-- A decimal `u64`, with a plus sign or without. -/
def parseU64 (value : String) : Option Nat :=
  let number := match value.toList with
    | '+' :: digits => digitsValue digits
    | digits => digitsValue digits
  number.bind checkU64

def parseGapValue (value : String) : Except String Int :=
  match parseI32 value with
  | some parsed => if 0 ≤ parsed ∧ parsed ≤ 64 then .ok parsed else .error "refuse: gap needs 0..=64"
  | none => .error "refuse: gap needs 0..=64"

def isHexDigit (c : Char) : Bool :=
  c.isDigit || decide ('a' ≤ c ∧ c ≤ 'f') || decide ('A' ≤ c ∧ c ≤ 'F')

def hexValue (c : Char) : Nat :=
  if c.isDigit then c.toNat - '0'.toNat else c.toLower.toNat - 'a'.toNat + 10

/-- The byte two hex digits name, from a position. -/
def channel (hex : List Char) (start : Nat) : UInt8 :=
  UInt8.ofNat (((hex.drop start).take 2).foldl (fun n c => 16 * n + hexValue c) 0)

/-- The digits behind the hash, as many as wanted. -/
def hexDigits (usage : String) (count : Nat) (value : String) : Except String (List Char) :=
  match value.toList with
  | '#' :: hex => if hex.length = count ∧ hex.all isHexDigit then .ok hex else .error usage
  | _ => .error usage

section
variable {F : Type} (fl : Floats F)

/-- A finite float from zero to a maximum. -/
def parseBounded (usage : String) (max : Int) (value : String) : Except String F :=
  match fl.parse value with
  | some parsed =>
    if !fl.isFinite parsed || fl.lt parsed (fl.ofInt 0) || fl.lt (fl.ofInt max) parsed then .error usage
    else .ok parsed
  | none => .error usage

namespace ActiveBorder

def parseWidth : String → Except String F :=
  parseBounded fl "refuse: --active-border-width needs 0..=32" 32

def parseGap : String → Except String F :=
  parseBounded fl "refuse: --active-border-gap needs 0..=64" 64

def parseRadius : String → Except String F :=
  parseBounded fl "refuse: --active-border-radius needs 0..=64" 64

def parseColor (value : String) : Except String Rgb := do
  let hex ← hexDigits "refuse: --active-border-color needs #rrggbb" 6 value
  return (channel hex 0, channel hex 2, channel hex 4)

end ActiveBorder

namespace GroupUnderlay

def parseColorArgb (value : String) : Except String (Rgb × UInt8) := do
  let hex ← hexDigits "refuse: --group-underlay-color needs #aarrggbb" 8 value
  return ((channel hex 2, channel hex 4, channel hex 6), channel hex 0)

def parseExtension (value : String) : Except String F :=
  let usage := "refuse: --group-underlay-extension needs -1..=32"
  match fl.parse value with
  | some parsed =>
    if !fl.isFinite parsed || (!fl.eq parsed (fl.ofInt (-1)) &&
        (fl.lt parsed (fl.ofInt 0) || fl.lt (fl.ofInt 32) parsed)) then .error usage
    else .ok parsed
  | none => .error usage

end GroupUnderlay

end

/-! ## Options -/

structure ActiveBorderStyle (F : Type) where
  width : F
  gap : F
  radius : F
  color : Rgb
  useTheme : Bool
deriving DecidableEq

structure ActiveBorderOptions (F : Type) where
  enabled : Bool
  style : ActiveBorderStyle F
deriving DecidableEq

structure GroupUnderlayStyle (F : Type) where
  color : Rgb
  alpha : UInt8
  extension : F
deriving DecidableEq

structure GroupUnderlayOptions (F : Type) where
  enabled : Bool
  style : GroupUnderlayStyle F
deriving DecidableEq

structure ScopeHostChild where
  host : String
  child : String
deriving DecidableEq

structure TileOptions (F : Type) where
  seconds : Option Nat
  trace : Bool
  userStart : Bool
  noKeyboardSnapTakeover : Bool
  allowWinL : Bool
  noMouseSnapPrevention : Bool
  border : ActiveBorderOptions F
  underlay : GroupUnderlayOptions F
  innerGap : Int
  outerGap : Int
  scopeExes : List String
  scopeHosts : List ScopeHostChild
deriving DecidableEq

def tileOptionsDefaults {F : Type} (fl : Floats F) : TileOptions F where
  seconds := none
  trace := false
  userStart := false
  noKeyboardSnapTakeover := false
  allowWinL := false
  noMouseSnapPrevention := false
  border := ⟨true, ⟨fl.ofInt 3, fl.ofInt 0, fl.ofInt 0, (0x2a, 0x82, 0xda), true⟩⟩
  underlay := ⟨true, ⟨(0x80, 0x80, 0x80), 0x40, fl.ofInt (-1)⟩⟩
  innerGap := 8
  outerGap := 8
  scopeExes := []
  scopeHosts := []

/-- The explicit switches, one lane each. -/
structure CliOverrides (F : Type) where
  innerGap : Option Int := none
  outerGap : Option Int := none
  noKeyboardSnapTakeover : Option Bool := none
  allowWinL : Option Bool := none
  noMouseSnapPrevention : Option Bool := none
  borderEnabled : Option Bool := none
  borderWidth : Option F := none
  borderGap : Option F := none
  borderRadius : Option F := none
  borderColor : Option Rgb := none
  borderUseTheme : Option Bool := none
  underlayEnabled : Option Bool := none
  underlayColor : Option (Rgb × UInt8) := none
  underlayExtension : Option F := none
deriving DecidableEq

/-- The lanes that carry a switch, over the base. -/
def applyCliOverrides {F : Type} (base : TileOptions F) (cli : CliOverrides F) : TileOptions F :=
  { base with
    innerGap := cli.innerGap.getD base.innerGap
    outerGap := cli.outerGap.getD base.outerGap
    noKeyboardSnapTakeover := cli.noKeyboardSnapTakeover.getD base.noKeyboardSnapTakeover
    allowWinL := cli.allowWinL.getD base.allowWinL
    noMouseSnapPrevention := cli.noMouseSnapPrevention.getD base.noMouseSnapPrevention
    border.enabled := cli.borderEnabled.getD base.border.enabled
    border.style.width := cli.borderWidth.getD base.border.style.width
    border.style.gap := cli.borderGap.getD base.border.style.gap
    border.style.radius := cli.borderRadius.getD base.border.style.radius
    border.style.color := cli.borderColor.getD base.border.style.color
    border.style.useTheme := cli.borderUseTheme.getD base.border.style.useTheme
    underlay.enabled := cli.underlayEnabled.getD base.underlay.enabled
    underlay.style.color := (cli.underlayColor.map Prod.fst).getD base.underlay.style.color
    underlay.style.alpha := (cli.underlayColor.map Prod.snd).getD base.underlay.style.alpha
    underlay.style.extension := cli.underlayExtension.getD base.underlay.style.extension }

/-! ## Scanning -/

/-- The part of a path behind the last separator, in lower case. -/
def scopeExeBasename (exePath : String) : List Char :=
  ((exePath.toList.reverse.takeWhile fun c => !(c == '\x5c' || c == '/')).reverse).map Char.toLower

/-- The text before the first equals sign and the text behind it. -/
def splitOnceEq : List Char → Option (List Char × List Char)
  | [] => none
  | c :: text =>
    if c = '=' then some ([], text) else (splitOnceEq text).map fun (host, child) => (c :: host, child)

def parseScopeHostChild (value : List Char) : Except String ScopeHostChild :=
  match splitOnceEq value with
  | some (host, child) =>
    let host := Snapkey.trim host
    let child := Snapkey.trim child
    if host.isEmpty || child.isEmpty || child.contains '=' then
      .error "refuse: --scope-host-child needs HOST=CHILD"
    else .ok ⟨String.ofList host, String.ofList child⟩
  | none => .error "refuse: --scope-host-child needs HOST=CHILD"

def maxRunSeconds : Nat := 600

def usage : String :=
  "usage: tile --user-start [--seconds N] [--trace] [--no-keyboard-snap-takeover] [--allow-win-l] " ++
  "[--no-mouse-snap-prevention] [--inner-gap 0..=64] [--outer-gap 0..=64] [--scope-exe NAME ...] " ++
  "[--scope-host-child HOST=CHILD ...] [--no-active-border] [--active-border-width 0..=32] " ++
  "[--active-border-gap 0..=64] [--active-border-radius 0..=64] [--active-border-color #rrggbb] " ++
  "[--active-border-theme|--no-active-border-theme] [--no-group-underlay] " ++
  "[--group-underlay-color #aarrggbb] [--group-underlay-extension -1..=32]"

/-- The options and overrides so far, and which theme switches have come. -/
structure Scan (F : Type) where
  options : TileOptions F
  themeFlags : UInt8
  cli : CliOverrides F

/-- A switch stands alone or takes the next argument. -/
inductive Switch (F : Type)
  | flag (apply : Scan F → Except String (Scan F))
  | valued (apply : String → Scan F → Except String (Scan F))

section
variable {F : Type} (fl : Floats F)

def applyUnderlayArgTracked : String → Option (Switch F)
  | "--no-group-underlay" => some (.flag fun s => .ok
      { s with options.underlay.enabled := false, cli.underlayEnabled := some false })
  | "--group-underlay-color" => some (.valued fun value s => do
      let (color, alpha) ← GroupUnderlay.parseColorArgb value
      return { s with
        options.underlay.style.color := color
        options.underlay.style.alpha := alpha
        cli.underlayColor := some (color, alpha) })
  | "--group-underlay-extension" => some (.valued fun value s => do
      let extension ← GroupUnderlay.parseExtension fl value
      return { s with
        options.underlay.style.extension := extension
        cli.underlayExtension := some extension })
  | _ => none

def tileSwitch : String → Option (Switch F)
  | "--trace" => some (.flag fun s => .ok { s with options.trace := true })
  | "--user-start" => some (.flag fun s => .ok { s with options.userStart := true })
  | "--no-keyboard-snap-takeover" => some (.flag fun s => .ok
      { s with options.noKeyboardSnapTakeover := true, cli.noKeyboardSnapTakeover := some true })
  | "--allow-win-l" => some (.flag fun s => .ok
      { s with options.allowWinL := true, cli.allowWinL := some true })
  | "--no-mouse-snap-prevention" => some (.flag fun s => .ok
      { s with options.noMouseSnapPrevention := true, cli.noMouseSnapPrevention := some true })
  | "--inner-gap" => some (.valued fun value s => do
      let gap ← parseGapValue value
      return { s with options.innerGap := gap, cli.innerGap := some gap })
  | "--outer-gap" => some (.valued fun value s => do
      let gap ← parseGapValue value
      return { s with options.outerGap := gap, cli.outerGap := some gap })
  | "--no-active-border" => some (.flag fun s => .ok
      { s with options.border.enabled := false, cli.borderEnabled := some false })
  | "--active-border-width" => some (.valued fun value s => do
      let width ← ActiveBorder.parseWidth fl value
      return { s with options.border.style.width := width, cli.borderWidth := some width })
  | "--active-border-gap" => some (.valued fun value s => do
      let gap ← ActiveBorder.parseGap fl value
      return { s with options.border.style.gap := gap, cli.borderGap := some gap })
  | "--active-border-radius" => some (.valued fun value s => do
      let radius ← ActiveBorder.parseRadius fl value
      return { s with options.border.style.radius := radius, cli.borderRadius := some radius })
  | "--active-border-color" => some (.valued fun value s => do
      let color ← ActiveBorder.parseColor value
      return { s with options.border.style.color := color, cli.borderColor := some color })
  | "--no-active-border-theme" => some (.flag fun s =>
      if s.themeFlags &&& 2 ≠ 0 then .error usage
      else .ok
        { s with
          themeFlags := s.themeFlags ||| 1
          options.border.style.useTheme := false
          cli.borderUseTheme := some false })
  | "--active-border-theme" => some (.flag fun s =>
      if s.themeFlags &&& 1 ≠ 0 then .error usage
      else .ok
        { s with
          themeFlags := s.themeFlags ||| 2
          options.border.style.useTheme := true
          cli.borderUseTheme := some true })
  | "--scope-exe" => some (.valued fun value s =>
      let normalized := Snapkey.trim value.toList
      if normalized.isEmpty then .error "refuse: empty --scope-exe"
      else
        let exe := String.ofList normalized
        if s.options.scopeExes.any fun entry => scopeExeBasename entry == scopeExeBasename exe then .ok s
        else .ok { s with options.scopeExes := s.options.scopeExes ++ [exe] })
  | "--scope-host-child" => some (.valued fun value s => do
      let pair ← parseScopeHostChild (Snapkey.trim value.toList)
      if s.options.scopeHosts.any fun entry =>
          scopeExeBasename entry.host == scopeExeBasename pair.host &&
            scopeExeBasename entry.child == scopeExeBasename pair.child then
        return s
      else return { s with options.scopeHosts := s.options.scopeHosts ++ [pair] })
  | "--seconds" => some (.valued fun value s =>
      match parseU64 value with
      | none => .error usage
      | some parsed =>
        if parsed = 0 ∨ maxRunSeconds < parsed then
          .error ("refuse: seconds must be 1..=" ++ toString maxRunSeconds)
        else .ok { s with options.seconds := some parsed })
  | _ => none

/-- The arguments from the first to the last. -/
def scanArgs : List String → Scan F → Except String (Scan F)
  | [], s => .ok s
  | arg :: rest, s =>
    match (applyUnderlayArgTracked fl arg).orElse fun _ => tileSwitch fl arg with
    | none => .error usage
    | some (.flag apply) => do scanArgs rest (← apply s)
    | some (.valued apply) =>
      match rest with
      | [] => .error usage
      | value :: rest => do scanArgs rest (← apply value s)

def parseTileArgsFromWithOverrides (args : List String) (defaults : TileOptions F) :
    Except String (TileOptions F × CliOverrides F) := do
  let s ← scanArgs fl args ⟨{ defaults with userStart := false }, 0, {}⟩
  if !s.options.userStart then .error "refuse: tile requires explicit --user-start"
  else .ok (s.options, s.cli)

end

end TileArgs

end PlasmaTiler
