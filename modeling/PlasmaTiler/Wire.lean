import Mathlib.Data.String.Basic
import PlasmaTiler.Requests

/-!
# Requests on the wire

What the planner reads of a request and how it refuses one. The JSON reader is
not part of this: a text is its length and what the reader makes of it, a
decoded value or an error that names an unknown field or variant or neither. A
carried command is its operation and subject as they stand in the text, with
the decoded command or the reader's error.

A reply is a value here and not yet a text; its text matters for one thing,
its length. The planner sends no text over a cap (`planMaxReplyBytes`): what
would be one is replaced by a short refusal (`serializeBounded`), and there
the correlation id is looked at again, since a reply may carry one that was
never validated. The text of a refusal is written out below (`Refusal.toJson`),
so its length is known. The text of an answer of the engine is the writer's
business, and its length is handed to the planner from outside.
-/

namespace PlasmaTiler

open JsonText

def FixedSizePredicate.parseWire : String → Option FixedSizePredicate
  | "both-axes-fixed" => some .bothAxes
  | "either-axis-fixed" => some .eitherAxis
  | _ => none

def SameAxisMove.parseWire : String → Option SameAxisMove
  | "group-with-neighbor" => some .groupWithNeighbor
  | "swap-with-neighbor" => some .swapWithNeighbor
  | _ => none

namespace Wire

/-! ## Bounds -/

def planContractVersion : Nat := 1
/-- Bounded request cap, in bytes. -/
def planMaxRequestBytes : Nat := 1048576
/-- Bounded reply cap, in bytes. -/
def planMaxReplyBytes : Nat := 65536
def planMaxRevision : Nat := 1000000
/-- Bounded gap, inner and outer. -/
def geometryMaxGap : Int := 64

/-! ## Decoded values -/

/-- What the text of a reader's error names. -/
structure DecodeError where
  unknownField : Bool
  unknownVariant : Bool
deriving DecidableEq, Repr

structure SizeDto where
  w : Int
  h : Int
deriving DecidableEq

structure DomainDto where
  output : String
  workspace : String
  bounds : Rect
  gap : Int
  outerGap : Int
deriving DecidableEq

structure ObservedDto where
  window : String
  output : String
  workspace : String
  rect : Rect
  floating : Bool := false
  fullscreen : Bool := false
  maximized : Bool := false
  sticky : Bool := false
  fixedAuto : Bool := false
  fixedSuppress : Bool := false
  fitExcluded : Bool := false
  minSize : Option SizeDto := none
  maxSize : Option SizeDto := none
deriving DecidableEq

/-- One domain of a directional request; an outer gap that is not carried
counts as none. -/
structure DirectionalDomainDto where
  output : String
  workspace : String
  bounds : Rect
  gap : Int
  outerGap : Option Int
  adjacent : BTreeMap String String
deriving DecidableEq

def DirectionalDomainDto.outerGapOrDefault (entry : DirectionalDomainDto) : Int :=
  entry.outerGap.getD 0

structure DragPriorDto where
  group : String
  edge : String
deriving DecidableEq

structure DragHoverPriorDto where
  domainOutput : String
  domainWorkspace : String
  sourceLeaf : String
  sourceWindow : String
  revision : Nat
  prior : Option DragPriorDto
deriving DecidableEq

structure DragPayload where
  window : String
  x : Int
  y : Int
  hoverPrior : Option DragHoverPriorDto
  sourceOutput : Option String
  sourceWorkspace : Option String
deriving DecidableEq

inductive SyncCommand
  | reconcile
  | updateGaps
  | activeGroup
  | releaseDomain
  | move (window direction : String) (crossOutputTransfer : Bool) (sameAxisMove : String)
  | focus (window direction : String) (crossOutputTransfer floatSubject : Bool)
  | resize (window direction mode : String) (pressIndex : Nat)
  | pointerResize (window direction : String) (boundary : Int) (direction2 : Option String)
      (boundary2 : Option Int)
  | toggleFloat (window : String) (floatRect : Option Rect)
  | toggleOrientation (window : String)
  | sendToWorkspace (window targetOutput targetWorkspace : String) (follow : Bool)
  | sendToOutput (window targetOutput targetWorkspace : String) (follow : Bool)
  | migrateWorkspace (direction : String)
  | dragDrop (payload : DragPayload)
  | dragPreview (payload : DragPayload)
deriving DecidableEq

/-- A carried command: its `op` and `window` as text, empty when they are
missing or no text, and what the tagged decode makes of it. -/
structure CommandValue where
  op : String
  window : String
  decoded : Except DecodeError SyncCommand

structure RequestDto where
  v : Nat
  correlationId : String
  owner : String
  generation : String
  revision : Nat
  fingerprint : Nat
  domain : DomainDto
  targetDomain : Option DomainDto
  targetWindows : List ObservedDto
  domains : Option (List DirectionalDomainDto)
  focusedWindow : String
  windows : List ObservedDto
  command : CommandValue
  fixedSizePredicate : String

/-- A readable text: its correlation id, where it has one, and its decoding. -/
structure RawRequest where
  correlationId : Option String
  request : Except DecodeError RequestDto

/-- The text of a request. -/
structure RequestText where
  length : Nat
  raw : Except DecodeError RawRequest

/-! ## Refusals -/

def unknownValueMessage : String := "request contains an unknown value"

def crossDomainMessage : String :=
  "input output or workspace does not match a logical domain"

/-- A refusal on the wire. -/
inductive Refusal
  | rejected (correlationId kind message : String)
  | snapshotInvalid (correlationId message detail : String)
deriving DecidableEq, Repr

def Refusal.correlationId : Refusal → String
  | .rejected correlationId _ _ | .snapshotInvalid correlationId _ _ => correlationId

/-- A reply: a refusal on the wire, or the engine's answer. -/
inductive PlanReply
  | refused (refusal : Refusal)
  | answered (correlationId : String) (reply : EngineReply)
deriving DecidableEq

def PlanReply.correlationId : PlanReply → String
  | .refused refusal => refusal.correlationId
  | .answered correlationId _ => correlationId

def DecodeError.classify (error : DecodeError) : String × String :=
  if error.unknownField then ("unknown-field", "request contains an unknown field")
  else if error.unknownVariant then ("unknown-value", unknownValueMessage)
  else ("request-malformed", "request is malformed")

/-- The refusal of a text the reader cannot make sense of. -/
def DecodeError.reply (error : DecodeError) (correlationId : String) : Refusal :=
  .rejected correlationId error.classify.1 error.classify.2

/-- Only a valid correlation id is echoed of a value that does not decode. -/
def validCorrelationEcho (correlationId : Option String) : String :=
  (correlationId.filter isCorrelationId).getD ""

/-! ## Texts of replies -/

/-- The text of a rejection; only a refused snapshot has a detail. -/
def rejectedJson (correlationId kind message : String) (detail : Option String) : String :=
  "\x7b\"v\":1,\"correlation_id\":" ++ jsonString correlationId ++
    ",\"outcome\":\"rejected\",\"kind\":" ++ jsonString kind ++ ",\"message\":" ++
    jsonString message ++ (detail.elim "" fun detail => ",\"detail\":" ++ jsonString detail) ++ "\x7d"

def Refusal.toJson : Refusal → String
  | .rejected correlationId kind message => rejectedJson correlationId kind message none
  | .snapshotInvalid correlationId message detail =>
    rejectedJson correlationId "snapshot-invalid" message (some detail)

/-- The refusal that stands for a reply whose text is too long. A correlation
id that is no good is not carried over into it. -/
def oversizeReply (correlationId : String) : Refusal :=
  .rejected (validCorrelationEcho (some correlationId)) "reply-oversize" "reply exceeds size bound"

/-- A reply, as long as its text keeps to the cap. -/
def serializeBounded (bytes : Nat) (reply : PlanReply) : PlanReply :=
  if bytes ≤ planMaxReplyBytes then reply else .refused (oversizeReply reply.correlationId)

/-- What is sent for a refusal. -/
def Refusal.serialize (refusal : Refusal) : PlanReply :=
  serializeBounded refusal.toJson.utf8ByteSize (.refused refusal)

namespace RequestDto

variable (request : RequestDto)

def rejected (kind message : String) : Refusal := .rejected request.correlationId kind message

def refused (kind : RefusalKind) : Refusal := request.rejected kind.asStr kind.message

def invalidId (detail : String) : Refusal :=
  .snapshotInvalid request.correlationId opaqueIdMessage detail

def invalidObservation (detail : String) : Refusal :=
  .snapshotInvalid request.correlationId observationMessage detail

end RequestDto

/-! ## The directional fingerprint -/

/-- One feed of the hash: a text, or a separator byte. -/
inductive Piece
  | text (value : String)
  | sep (byte : UInt8)

def feedByte (hash : UInt32) (byte : UInt8) : UInt32 := (hash ^^^ byte.toUInt32) * 16777619

def feed (hash : UInt32) : Piece → UInt32
  | .text value => (value.toList.flatMap String.utf8EncodeChar).foldl feedByte hash
  | .sep byte => feedByte hash byte

/-- Texts, each but the first set apart by a unit separator. -/
def separated (first : String) (rest : List String) : List Piece :=
  .text first :: rest.flatMap fun value => [.sep 0x1f, .text value]

def domainEvidence (entry : DirectionalDomainDto) : List Piece :=
  let side (name : String) := entry.adjacent[name]?.getD ""
  separated entry.output [entry.workspace, toString entry.bounds.x, toString entry.bounds.y,
    toString entry.bounds.w, toString entry.bounds.h, toString entry.gap,
    toString entry.outerGapOrDefault, "left", side "left", "right", side "right", "up", side "up",
    "down", side "down"]

def windowEvidence (entry : ObservedDto) : List Piece :=
  .sep 0x1f :: separated entry.window [entry.output, entry.workspace, toString entry.rect.x,
    toString entry.rect.y, toString entry.rect.w, toString entry.rect.h,
    if entry.floating then "1" else "0", if entry.fitExcluded then "1" else "0"]

/-- What the fingerprint covers: the domains set apart by record separators,
the focused window, and the windows by name. -/
def directionalEvidence (entries : List DirectionalDomainDto) (focused : String)
    (windows : List ObservedDto) : List Piece :=
  ((entries.map domainEvidence).intersperse [.sep 0x1e]).flatten ++
    .sep 0x1f :: .text focused ::
      (sortByKey ObservedDto.window windows).flatMap windowEvidence

/-- FNV-1a over the evidence, in 32 bits. -/
def directionalFingerprint (entries : List DirectionalDomainDto) (focused : String)
    (windows : List ObservedDto) : Nat :=
  ((directionalEvidence entries focused windows).foldl feed 2166136261).toNat

end Wire

end PlasmaTiler
