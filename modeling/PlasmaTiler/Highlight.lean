import PlasmaTiler.Events
import PlasmaTiler.Succession
import Mathlib.Data.List.Lex
import Mathlib.Data.Char
import Mathlib.Data.Prod.Lex

/-!
# The group highlight

The desktop effect shows the active group. Payloads reach it out of order, so
it keeps the position of the last one it accepted: a stream is one owner and
generation, and within a stream the correlation decides which payload is
newer. Another owner or generation starts a stream of its own and is accepted
as it comes.

Correlations are compared by the epoch and sequence after their last `-g`,
else by their trailing number, else as texts; which of the three is chosen
anew for each pair. Numbers too long for 64 bits count as none.

A payload that does not parse, that is older, or whose focused window is not
the active one is not shown and does not advance the order; each of these has
its own code and counter. A request to clear hides the highlight and keeps
the position. Runs are lists of payloads, each with the window that is active
then, and of such requests.
-/

namespace PlasmaTiler

namespace GroupHighlight

def maxJson : Nat := 65536
/-- The integers a JSON number carries exactly. -/
def maxRevision : Nat := 9007199254740991
def geometryBound : Int := 16384

/-! ## Payloads -/

structure GroupPayload where
  v : Nat
  correlationId : String
  owner : String
  generation : String
  revision : Nat
  group : String
  focusedWindow : String
  members : List String
  bounds : Rect
deriving DecidableEq

/-- A payload text: how long it is, and the fields it decodes to. -/
structure PayloadText where
  length : Nat
  decoded : Option GroupPayload

/-- A payload that passed every check. -/
structure Parsed where
  correlation : CorrelationId
  owner : OwnerId
  generation : GenerationId
  focused : String
  revision : Nat
  rect : Rect
deriving DecidableEq

def validCarriedRect (r : Rect) : Bool :=
  decide (0 < r.w) && decide (0 < r.h) &&
    decide (-geometryBound ≤ r.x) && decide (r.x ≤ geometryBound) &&
    decide (-geometryBound ≤ r.y) && decide (r.y ≤ geometryBound) &&
    decide (r.w ≤ geometryBound) && decide (r.h ≤ geometryBound) &&
    decide (r.x + r.w ≤ IntRange.i32.hi) && decide (r.y + r.h ≤ IntRange.i32.hi)

def parsePayload (text : PayloadText) : Option Parsed := do
  require (text.length != 0 && decide (text.length ≤ maxJson))
  let payload ← text.decoded
  require (payload.v == 1)
  require (decide (payload.revision ≤ maxRevision))
  let correlation ← Token.parse isCorrelationId payload.correlationId
  let owner ← Token.parse isOwnerId payload.owner
  let generation ← Token.parse isGenerationId payload.generation
  require (isOpaqueId payload.group)
  require (isOpaqueId payload.focusedWindow)
  require (!payload.members.isEmpty)
  require (payload.members.all isOpaqueId && decide payload.members.Nodup)
  require (validCarriedRect payload.bounds)
  return ⟨correlation, owner, generation, payload.focusedWindow, payload.revision, payload.bounds⟩

/-! ## The order of correlations -/

/-- A run of digits read as a `u64`. -/
def readDigits (digits : List Char) : Option Nat :=
  digits.foldlM (fun seq b => (checkU64 (seq * 10)).bind fun seq =>
    checkU64 (seq + (b.toNat - '0'.toNat))) 0

/-- Head and trailing decimal sequence. -/
def trailingSeq (value : List Char) : Option (List Char × Nat) :=
  let digits := (value.reverse.takeWhile Char.isDigit).reverse
  let head := (value.reverse.dropWhile Char.isDigit).reverse
  if digits.isEmpty || head.isEmpty then none else (readDigits digits).map (head, ·)

/-- What stands before and after the last `-g`. -/
def lastMark : List Char → Option (List Char × List Char)
  | [] => none
  | c :: rest =>
    match lastMark rest with
    | some (head, tail) => some (c :: head, tail)
    | none =>
      match c, rest with
      | '-', 'g' :: tail => some ([], tail)
      | _, _ => none

/-- `<seq>` in epoch zero, later `<epoch>r<seq>`. -/
def epochAndSeq (tail : List Char) : Option (Nat × Nat) :=
  if tail.contains 'r' then do
    let epochDigits := tail.takeWhile (· != 'r')
    let seqDigits := (tail.dropWhile (· != 'r')).tail
    require (!epochDigits.isEmpty && !seqDigits.isEmpty)
    require (epochDigits.all Char.isDigit && seqDigits.all Char.isDigit)
    let epoch ← readDigits epochDigits
    let seq ← readDigits seqDigits
    return (epoch, seq)
  else do
    require (tail.all Char.isDigit)
    let seq ← readDigits tail
    return (0, seq)

/-- Head, epoch and sequence around the last `-g`. -/
def correlationParts (value : List Char) : Option (List Char × Nat × Nat) := do
  let (head, tail) ← lastMark value
  require (!tail.isEmpty)
  let (epoch, seq) ← epochAndSeq tail
  require (decide (epoch ≤ maxRevision) && decide (seq ≤ maxRevision))
  return (head, epoch, seq)

/-- Without epochs: by the trailing sequence under one head, else as texts. -/
def newerBySequence (new old : List Char) : Bool :=
  match trailingSeq new, trailingSeq old with
  | some (newHead, newSeq), some (oldHead, oldSeq) =>
    if newHead = oldHead then
      if newSeq ≠ oldSeq then decide (oldSeq < newSeq) else decide (old < new)
    else decide (old < new)
  | _, _ => decide (old < new)

def correlationIsNewer (new old : List Char) : Bool :=
  match correlationParts new, correlationParts old with
  | some (newHead, newEpoch, newSeq), some (oldHead, oldEpoch, oldSeq) =>
    if newHead = oldHead then
      if newEpoch ≠ oldEpoch then decide (oldEpoch < newEpoch)
      else if newSeq ≠ oldSeq then decide (oldSeq < newSeq)
      else decide (old < new)
    else newerBySequence new old
  | _, _ => newerBySequence new old

/-! ## The state of the effect -/

/-- Position of a stream: its identity and the correlation last accepted. -/
structure Position where
  owner : OwnerId
  generation : GenerationId
  correlation : CorrelationId
deriving DecidableEq

structure GroupHighlightState where
  hasGroup : Bool
  position : Option Position
  lastRevision : Nat
  rect : Rect
  focused : String
  receipts : Nat
  accepted : Nat
  parseRejected : Nat
  focusMismatch : Nat
  staleIgnored : Nat
  clearRequests : Nat
deriving DecidableEq

namespace GroupHighlightState

def zero : GroupHighlightState :=
  ⟨false, none, 0, ⟨0, 0, 0, 0⟩, "", 0, 0, 0, 0, 0, 0⟩

def clearDisplay (s : GroupHighlightState) : GroupHighlightState :=
  { s with hasGroup := false, rect := ⟨0, 0, 0, 0⟩, focused := "" }

end GroupHighlightState

/-- Saturating `u64` increment. -/
def counted (n : Nat) : Nat := min (n + 1) (u64Size - 1)

def sameStream (position : Position) (parsed : Parsed) : Bool :=
  position.owner == parsed.owner && position.generation == parsed.generation

/-- The payload is newer than the stored position, or starts a stream. -/
def orderAllows (s : GroupHighlightState) (parsed : Parsed) : Bool :=
  match s.position with
  | none => true
  | some position =>
    if !sameStream position parsed then true
    else if parsed.correlation = position.correlation then false
    else correlationIsNewer parsed.correlation.asStr.toList position.correlation.asStr.toList

def focusMatches (focused active : String) : Bool :=
  !focused.isEmpty && !active.isEmpty && focused == active

def storeStream (s : GroupHighlightState) (parsed : Parsed) : GroupHighlightState :=
  { s with
    lastRevision := parsed.revision
    position := some ⟨parsed.owner, parsed.generation, parsed.correlation⟩ }

/-- The codes 0 to 3. -/
inductive ApplyCode
  | parseRejected
  | accepted
  | staleIgnored
  | focusMismatch
deriving DecidableEq, Repr

def applyInner (s : GroupHighlightState) (payload : PayloadText) (active : String) :
    GroupHighlightState × ApplyCode :=
  let s := { s with receipts := counted s.receipts }
  match parsePayload payload with
  | none => ({ s with parseRejected := counted s.parseRejected }.clearDisplay, .parseRejected)
  | some parsed =>
    if !orderAllows s parsed then
      ({ s with staleIgnored := counted s.staleIgnored }, .staleIgnored)
    else if !focusMatches parsed.focused active then
      -- a payload that was never shown does not advance the order
      ({ s with focusMismatch := counted s.focusMismatch }.clearDisplay, .focusMismatch)
    else
      let s := storeStream { s with accepted := counted s.accepted } parsed
      ({ s with hasGroup := true, rect := parsed.rect, focused := parsed.focused }, .accepted)

def clear (s : GroupHighlightState) : GroupHighlightState :=
  { s with clearRequests := counted s.clearRequests }.clearDisplay

/-! ## Runs -/

/-- What the effect is handed: payloads with the window active then, and
requests to clear. -/
inductive Event
  | apply (payload : PayloadText) (active : String)
  | clear

def next (s : GroupHighlightState) : Event → GroupHighlightState
  | .apply payload active => (applyInner s payload active).1
  | .clear => clear s

/-- The payload an event makes the effect accept. -/
def acceptedBy (s : GroupHighlightState) : Event → Option Parsed
  | .apply payload active =>
    match (applyInner s payload active).2 with
    | .accepted => parsePayload payload
    | _ => none
  | .clear => none

/-- The payloads accepted in a run, in order. -/
def acceptedIn (s : GroupHighlightState) : List Event → List Parsed
  | [] => []
  | e :: es => (acceptedBy s e).toList ++ acceptedIn (next s e) es

def machine : Machine GroupHighlightState Event where
  initial s := s = .zero
  next := next

end GroupHighlight

end PlasmaTiler
