import PlasmaTiler.WireRequests

/-!
# The requests of the KWin adapter

The adapter looks an observation over before it plans anything, keeps a
snapshot of it and writes the snapshot with a command onto the wire. A
request over two domains carries a fingerprint of what was observed, which
the planner computes again and compares.

Numbers are whole here; the length of the encoded text and its reading are
those of `JSON.stringify` and the planner's reader, which lose nothing.
Object references and the resource class stay with the adapter and are left
out.

The hash is written as the adapter computes it, on JavaScript numbers: `^`
cuts both sides to 32 bits and gives a signed result, `Math.imul` is the
signed product cut to 32 bits, and `>>> 0` makes the result unsigned at the
end. Texts are fed as UTF-16 code units, and windows are sorted by comparing
these. All of it differs from what the planner does with the same data;
that the results agree is a module of its own.
-/

namespace PlasmaTiler

namespace PlanAdapter

open Wire (SizeDto ObservedDto DirectionalDomainDto DomainDto CommandValue RequestDto RequestText)

/-! ## Observations -/

structure PlanDomain where
  output : String
  workspace : String
  bounds : Rect
  gap : Int
  outerGap : Int
  adjacent : BTreeMap String String

structure PlanObservedWindow where
  id : String
  rect : Rect
  output : String
  workspace : String
  fullscreen : Bool
  maximized : Bool
  floating : Option Bool
  sticky : Option Bool

structure PlanObserved where
  domainOutput : String
  domainWorkspace : String
  domainBounds : Rect
  domainGap : Int
  domainOuterGap : Int
  focusedId : String
  activeExcluded : Option Bool
  domains : Option (List PlanDomain)
  windows : List PlanObservedWindow
  fingerprint : String

def isTargetRect (r : Rect) : Bool :=
  decide (0 < r.w) && decide (0 < r.h) && decide (-16384 ≤ r.x) && decide (r.x ≤ 16384) &&
    decide (-16384 ≤ r.y) && decide (r.y ≤ 16384) && decide (r.w ≤ 16384) && decide (r.h ≤ 16384)

/-- Within the bound the planner has for gaps. -/
def isPlanGap (gap : Int) : Bool := decide (0 ≤ gap) && decide (gap ≤ 64)

def sideNames : List String := ["left", "right", "up", "down"]

def oppositeSide (side : String) : String :=
  if side == "left" then "right" else if side == "right" then "left"
  else if side == "up" then "down" else "up"

def validateDomain (entry : PlanDomain) : Bool :=
  isOpaqueId entry.output && isOpaqueId entry.workspace && isTargetRect entry.bounds &&
    isPlanGap entry.gap && isPlanGap entry.outerGap &&
    entry.adjacent.toList.all fun (key, target) => sideNames.contains key && isOpaqueId target

/-- Two domains name each other on opposite sides. -/
def reciprocalDomains : List PlanDomain → Bool
  | [source, target] => sideNames.any fun side =>
    source.adjacent[side]? == some target.output &&
      target.adjacent[oppositeSide side]? == some source.output
  | _ => true

namespace PlanObserved

variable (observed : PlanObserved)

/-- The entry is the carried domain. -/
def isSource (entry : PlanDomain) : Bool :=
  entry.output == observed.domainOutput && entry.workspace == observed.domainWorkspace &&
    entry.bounds == observed.domainBounds && entry.gap == observed.domainGap &&
    entry.outerGap == observed.domainOuterGap

/-- One or two domains, the carried one first, on distinct outputs. -/
def validateDomains (domains : List PlanDomain) : Bool :=
  !domains.isEmpty && decide (domains.length ≤ 2) && domains.head?.all observed.isSource &&
    domains.all validateDomain && decide (domains.map PlanDomain.output).Nodup &&
    reciprocalDomains domains

/-- The window is on a domain of the observation. -/
def isHomed (entry : PlanObservedWindow) : Bool :=
  match observed.domains with
  | some domains => domains.any fun domain =>
      entry.output == domain.output && entry.workspace == domain.workspace
  | none => entry.output == observed.domainOutput && entry.workspace == observed.domainWorkspace

def isOnSource (entry : PlanObservedWindow) : Bool :=
  entry.output == observed.domainOutput && entry.workspace == observed.domainWorkspace

/-- One carried window; with domains the focused one must be on the source. -/
def validateWindow (entry : PlanObservedWindow) : Bool :=
  isOpaqueId entry.id && observed.isHomed entry && isTargetRect entry.rect &&
    (entry.id != observed.focusedId || observed.domains.isNone || observed.isOnSource entry)

/-- Nothing more is asked of an observation without windows than that its
active window is left out. -/
def validateObserved : Bool :=
  isOpaqueId observed.domainOutput && isOpaqueId observed.domainWorkspace &&
    if observed.windows.isEmpty then
      observed.activeExcluded == some true && observed.focusedId == ""
    else
      isOpaqueId observed.focusedId && isTargetRect observed.domainBounds &&
        isPlanGap observed.domainGap && isPlanGap observed.domainOuterGap &&
        observed.domains.all observed.validateDomains &&
        observed.windows.all observed.validateWindow &&
        decide (observed.windows.map PlanObservedWindow.id).Nodup &&
        (observed.windows.any fun entry => entry.id == observed.focusedId) &&
        !observed.fingerprint.isEmpty

end PlanObserved

/-! ## Snapshots -/

structure PlanSnapshotWindow where
  id : String
  rect : Rect
  output : String
  workspace : String
  fullscreen : Bool
  maximized : Bool
  floating : Bool
  sticky : Bool
  minSize : Option SizeDto
  maxSize : Option SizeDto
  fixedAuto : Bool
  fixedSuppress : Bool

structure PlanSnapshot where
  domainOutput : String
  domainWorkspace : String
  domainBounds : Rect
  domainGap : Int
  domainOuterGap : Int
  focusedId : String
  domains : Option (List PlanDomain)
  windows : List PlanSnapshotWindow

def snapshotWindow (entry : PlanObservedWindow) : PlanSnapshotWindow where
  id := entry.id
  rect := entry.rect
  output := entry.output
  workspace := entry.workspace
  fullscreen := entry.fullscreen
  maximized := entry.maximized
  floating := entry.floating == some true
  sticky := entry.sticky == some true
  minSize := none
  maxSize := none
  fixedAuto := false
  fixedSuppress := false

def snapshotOf (observed : PlanObserved) : PlanSnapshot where
  domainOutput := observed.domainOutput
  domainWorkspace := observed.domainWorkspace
  domainBounds := observed.domainBounds
  domainGap := observed.domainGap
  domainOuterGap := observed.domainOuterGap
  focusedId := observed.focusedId
  domains := observed.domains
  windows := observed.windows.map snapshotWindow

/-! ## Fingerprints -/

/-- The UTF-16 code units of a character. -/
def codeUnits (c : Char) : List Nat :=
  if c.toNat < 0x10000 then [c.toNat]
  else [0xD800 + (c.toNat - 0x10000) / 0x400, 0xDC00 + (c.toNat - 0x10000) % 0x400]

def units (text : String) : List Nat := text.toList.flatMap codeUnits

/-- `^` on numbers: both sides cut to 32 bits, the result signed. -/
def xor32 (a b : Int) : Int := (BitVec.ofInt 32 a ^^^ BitVec.ofInt 32 b).toInt

/-- `Math.imul`. -/
def imul (a b : Int) : Int := (BitVec.ofInt 32 a * BitVec.ofInt 32 b).toInt

/-- `n >>> 0`. -/
def unsigned (n : Int) : Nat := (BitVec.ofInt 32 n).toNat

def feedCode (hash : Int) (code : Nat) : Int := imul (xor32 hash code) 16777619

def feed (hash : Int) (text : String) : Int :=
  (units text).foldl (fun hash code => feedCode hash (code &&& 0xff)) hash

/-- Texts, each but the first after a separator. -/
def feedSeparated (hash : Int) : List String → Int
  | [] => hash
  | text :: rest => rest.foldl (fun hash text => feed (feedCode hash 0x1f) text) (feed hash text)

/-- `sort` with strings compared by their code units; equal ones stay in
order. -/
def sortByUnits {α : Type} (key : α → String) (entries : List α) : List α :=
  entries.insertionSort fun a b => ¬List.Lex (· < ·) (units (key b)) (units (key a))

def feedDomain (hash : Int) (entry : PlanDomain) : Int :=
  let side (name : String) := entry.adjacent[name]?.getD ""
  feedSeparated hash [entry.output, entry.workspace, toString entry.bounds.x,
    toString entry.bounds.y, toString entry.bounds.w, toString entry.bounds.h,
    toString entry.gap, toString entry.outerGap, "left", side "left", "right", side "right",
    "up", side "up", "down", side "down"]

def feedDomains (hash : Int) : List PlanDomain → Int
  | [] => hash
  | entry :: rest =>
    rest.foldl (fun hash entry => feedDomain (feedCode hash 0x1e) entry) (feedDomain hash entry)

def feedWindow (hash : Int) (entry : ObservedDto) : Int :=
  feedSeparated (feedCode hash 0x1f) [entry.window, entry.output, entry.workspace,
    toString entry.rect.x, toString entry.rect.y, toString entry.rect.w, toString entry.rect.h,
    if entry.floating then "1" else "0", if entry.fitExcluded then "1" else "0"]

def planDirectionalFingerprint (domains : List PlanDomain) (focusedId : String)
    (windows : List ObservedDto) : Nat :=
  let hash := feed (feedCode (feedDomains 2166136261 domains) 0x1f) focusedId
  unsigned ((sortByUnits ObservedDto.window windows).foldl feedWindow hash)

def planFingerprint (domainOutput domainWorkspace focusedId : String) (sortedIds : List String) :
    Nat :=
  let hash := feedSeparated 2166136261 [domainOutput, domainWorkspace, focusedId]
  unsigned (sortedIds.foldl (fun hash id => feed (feedCode hash 0x1f) id) hash)

/-! ## Payloads -/

/-- A window on the wire; flags that are not set are not written, and the
native maximized state never is. -/
def wireWindow (entry : PlanSnapshotWindow) : ObservedDto where
  window := entry.id
  output := entry.output
  workspace := entry.workspace
  rect := entry.rect
  floating := entry.floating
  fullscreen := entry.fullscreen
  sticky := entry.sticky
  fixedAuto := entry.fixedAuto
  fixedSuppress := entry.fixedSuppress
  fitExcluded := entry.floating || entry.sticky || entry.fullscreen || entry.maximized
  minSize := entry.minSize
  maxSize := entry.maxSize

def wireDomain (entry : PlanDomain) : DirectionalDomainDto where
  output := entry.output
  workspace := entry.workspace
  bounds := entry.bounds
  gap := entry.gap
  outerGap := some entry.outerGap
  adjacent := entry.adjacent

/-- The domains are written for a focus change or a move, and then both. -/
def carriedDomains (snapshot : PlanSnapshot) (op : String) : Option (List PlanDomain) :=
  if op == "focus" || op == "move" then
    snapshot.domains.filter fun domains => decide (domains.length = 2)
  else none

def requestFingerprint (snapshot : PlanSnapshot) (op : String) : Nat :=
  match carriedDomains snapshot op with
  | none => planFingerprint snapshot.domainOutput snapshot.domainWorkspace snapshot.focusedId
      (sortByUnits id (snapshot.windows.map PlanSnapshotWindow.id))
  | some domains =>
      planDirectionalFingerprint domains snapshot.focusedId (snapshot.windows.map wireWindow)

/-- Who the adapter asks as, and how it encodes. -/
structure Adapter where
  owner : OwnerId
  generation : GenerationId
  fixedSizePredicate : FixedSizePredicate
  /-- The length of the encoded text. -/
  stringify : RequestDto → Nat

namespace Adapter

variable (adapter : Adapter)

def requestDto (snapshot : PlanSnapshot) (command : CommandValue) (correlation : CorrelationId) :
    RequestDto where
  v := Wire.planContractVersion
  correlationId := correlation.asStr
  owner := adapter.owner.asStr
  generation := adapter.generation.asStr
  revision := 0
  fingerprint := requestFingerprint snapshot command.op
  domain := ⟨snapshot.domainOutput, snapshot.domainWorkspace, snapshot.domainBounds,
    snapshot.domainGap, snapshot.domainOuterGap⟩
  targetDomain := none
  targetWindows := []
  domains := (carriedDomains snapshot command.op).map fun domains => domains.map wireDomain
  focusedWindow := snapshot.focusedId
  windows := snapshot.windows.map wireWindow
  command
  fixedSizePredicate := match adapter.fixedSizePredicate with
    | .bothAxes => "both-axes-fixed"
    | .eitherAxis => "either-axis-fixed"

end Adapter

end PlanAdapter

end PlasmaTiler
