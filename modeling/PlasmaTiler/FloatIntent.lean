import Mathlib.Data.List.Dedup
import PlasmaTiler.Events

/-!
# The durable float intent of the desktop adapter

The adapter keeps which windows the user floated and which fixed-size windows
the user tiled, and stores both sets through the planner. One read at the
start of a session adopts what is stored; afterwards every settled change
sends the complete pair. One call is out at a time: a change that finds a
call outstanding waits as the one pending snapshot, which the next change
replaces. Calls may never be answered, so each has a deadline.

Sets are lists in insertion order, as a JavaScript `Set` iterates them.
-/

namespace PlasmaTiler

namespace Intent

def maxMembers : Nat := 1024
def maxBytes : Nat := 262144

/-! ## Sets in insertion order -/

def add (xs : List String) (id : String) : List String := if id ∈ xs then xs else xs ++ [id]

def remove (xs : List String) (id : String) : List String := xs.filter fun x => x != id

def addAll (xs ys : List String) : List String := ys.foldl add xs

def removeAll (xs ys : List String) : List String := xs.filter fun x => !ys.contains x

/-- The complete pair of sets. -/
structure Snapshot where
  members : List String
  tile : List String
deriving DecidableEq, Repr

/-! ## Calls -/

inductive CallKind
  | read
  /-- With the counts of the snapshot that was sent. -/
  | write (sentCount sentTile : Nat)
deriving DecidableEq, Repr

/-- What the callbacks of a call captured. -/
structure Call where
  token : Nat
  correlation : String
  kind : CallKind
deriving DecidableEq, Repr

/-- What the host does with the deadline and the call it is asked for. -/
structure Host where
  schedules : Bool := true
  delivers : Bool := true

/-- A reply: its length, and its fields where it parses. Numbers that are
not integers and arrays that are not arrays are absent; an array entry that
is not a string is `none`. -/
structure Reply where
  length : Nat
  v : Option Int := none
  correlationId : Option String := none
  outcome : Option String := none
  reason : Option String := none
  members : Option (List (Option String)) := none
  stored : Option Int := none
  returned : Option Int := none
  /-- `none` where the field is missing. -/
  tile : Option (Option (List (Option String))) := none
  tileStored : Option (Option Int) := none
  tileReturned : Option Int := none

/-- What the adapter does besides updating its state. -/
inductive Output
  | callRead (call : Call) (live : Option (List String))
  /-- With the sets as they are at that moment. -/
  | callWrite (call : Call) (snapshot now : Snapshot)
  | readLog (correlation outcome : String) (stored returned tileStored tileReturned : Nat)
      (reason : String)
  | writeLog (correlation outcome : String) (stored tileStored : Option Nat) (reason : String)
  | hydrated (snapshot : Snapshot)
  | resync
deriving DecidableEq, Repr

/-! ## The state -/

/-- The bridge of an enabled session, from the start of its read on. -/
structure Bridge where
  generation : String
  ready : Bool := false
  busy : Bool := false
  callToken : Nat := 0
  seq : Nat := 0
  members : List String := []
  tile : List String := []
  pendingWrite : Option Snapshot := none
  /-- Token of the armed deadline. -/
  deadline : Option Nat := none
  bootstrapClosed : List String := []
  adoptedSticky : List String := []
deriving DecidableEq, Repr

namespace Bridge

/-- The sets as they are now. -/
def snapshot (b : Bridge) : Snapshot := ⟨b.members, b.tile⟩

/-- A correlation of this session, if its text is one. -/
def intentCorrelation (b : Bridge) : Option String × Bridge :=
  let candidate := s!"{b.generation}-i{b.seq}"
  if isCorrelationId candidate then (some candidate, { b with seq := b.seq + 1 }) else (none, b)

/-! ## Writing -/

def quoted (ids : List String) : String :=
  "[" ++ ",".intercalate (ids.map fun id => "\"" ++ id ++ "\"") ++ "]"

/-- The text of a write; ids need no escapes. -/
def writePayload (correlation : String) (s : Snapshot) : String :=
  "\x7b\"v\":1,\"correlation_id\":\"" ++ correlation ++ "\",\"members\":" ++ quoted s.members ++
    ",\"tile\":" ++ quoted s.tile ++ "\x7d"

def unavailable (correlation : String) (s : Snapshot) (reason : String) : Output :=
  .writeLog correlation "unavailable" (some s.members.length) (some s.tile.length) reason

/-- Send the pending snapshot unless a call is out. A call that throws drops
the snapshot it carried. -/
def pumpIntent (host : Host) (b : Bridge) : Bridge × List Output :=
  if !b.ready || b.busy then (b, [])
  else match b.pendingWrite with
  | none => (b, [])
  | some snapshot =>
    if maxMembers < snapshot.members.length ∨ maxMembers < snapshot.tile.length then
      (b, [unavailable "-" snapshot "oversize"])
    else match b.intentCorrelation with
    | (none, b) => (b, [unavailable "-" snapshot "malformed"])
    | (some correlation, b) =>
      if maxBytes < (writePayload correlation snapshot).length then
        (b, [unavailable correlation snapshot "oversize"])
      else
        let token := b.callToken + 1
        let b := { b with callToken := token }
        if !host.schedules then
          ({ b with deadline := none }, [unavailable correlation snapshot "transport"])
        else if !host.delivers then
          -- the deadline is armed, then cleared again
          ({ b with pendingWrite := none, deadline := none },
            [.writeLog correlation "unavailable" none none "transport"])
        else
          ({ b with pendingWrite := none, deadline := some token, busy := true },
            [.callWrite ⟨token, correlation,
              .write snapshot.members.length snapshot.tile.length⟩ snapshot b.snapshot])

def scheduleIntentWrite (host : Host) (b : Bridge) : Bridge × List Output :=
  pumpIntent host { b with pendingWrite := some b.snapshot }

/-! ## Reading -/

/-- The sets at the end of the read. Stored sets are united with the changes
that settled meanwhile; windows that closed meanwhile are out; floating wins.
A failed read keeps the local changes. -/
def adoptRead (outcome : String) (members tileMembers : List String) (b : Bridge) : Bridge :=
  if outcome = "ok" then
    let pending := b.pendingWrite.getD ⟨[], []⟩
    let merged := removeAll (addAll members pending.members) b.bootstrapClosed
    let mergedTile := removeAll (removeAll (addAll tileMembers pending.tile) b.bootstrapClosed) merged
    { b with
      members := merged
      tile := mergedTile
      pendingWrite := b.pendingWrite.map fun _ => ⟨merged, mergedTile⟩ }
  else
    let members := removeAll b.members b.bootstrapClosed
    let tile := removeAll b.tile b.bootstrapClosed
    { b with
      members
      tile
      pendingWrite := b.pendingWrite.map fun _ => ⟨members, tile⟩ }

/-- End of the read: the gate opens, and what waited is sent. -/
def settleIntentRead (host : Host) (token : Nat) (correlation outcome reason : String)
    (members : List String) (stored returned : Nat) (tileMembers : List String)
    (tileStored tileReturned : Nat) (b : Bridge) : Bridge × List Output :=
  if token != b.callToken then (b, [])
  else
    let b := { b with callToken := b.callToken + 1, deadline := none, busy := false }
    let b := { adoptRead outcome members tileMembers b with bootstrapClosed := [], ready := true }
    let (pumped, sent) := pumpIntent host b
    (pumped, [.readLog correlation outcome stored returned tileStored tileReturned reason,
      .hydrated b.snapshot, .resync] ++ sent)

/-- Distinct opaque ids, none of them seen before. -/
def readIds (seen : List String) : List (Option String) → Option (List String)
  | [] => some []
  | none :: _ => none
  | some id :: rest =>
    if isOpaqueId id && !seen.contains id then (readIds (id :: seen) rest).map (id :: ·) else none

/-- A bounded array of ids that are distinct from the ones before. -/
def readMembers (seen : List String) (raw : Option (List (Option String))) :
    Option (List String) := do
  let raw ← raw
  if maxMembers < raw.length then none else readIds seen raw

/-- A count of stored members. -/
def readCount (n : Option Int) : Option Nat := do
  let n ← n
  if 0 ≤ n ∧ n ≤ maxMembers then some n.toNat else none

/-- The tile side of an ok reply with its count; an old planner has none. -/
def readTile (members : List String) (r : Reply) : Option (List String × Nat) :=
  match r.tile with
  | none => some ([], 0)
  | some raw => do
    let tile ← readMembers members raw
    let tileStored ← readCount (r.tileStored.getD none)
    require (r.tileReturned == some (tile.length : Int))
    return (tile, tileStored)

/-- The sets and the counts of an ok reply. -/
def readOk (r : Reply) : Option (List String × Nat × List String × Nat) := do
  let members ← readMembers [] r.members
  let (tile, tileStored) ← readTile members r
  let stored ← readCount r.stored
  require (r.returned == some (members.length : Int))
  return (members, stored, tile, tileStored)

def sanitizeIntentReason (reason : Option String) : String :=
  match reason with
  | some value =>
    if isToken 64 (fun c => c.isAlphanum || c == '-' || c == '_') value then value else "-"
  | none => "-"

def onIntentReadReply (host : Host) (call : Call) (r : Reply) (b : Bridge) :
    Bridge × List Output :=
  if call.token != b.callToken || !b.busy then (b, [])
  else
    let degraded (reason : String) :=
      settleIntentRead host call.token call.correlation "degraded" reason [] 0 0 [] 0 0 b
    if maxBytes < r.length ∨ r.v ≠ some 1 ∨ r.correlationId ≠ some call.correlation then
      degraded "malformed"
    else if r.outcome = some "ok" then
      match readOk r with
      | none => degraded "malformed"
      | some (members, stored, tile, tileStored) =>
        settleIntentRead host call.token call.correlation "ok" "-" members stored members.length
          tile tileStored tile.length b
    else if r.outcome = some "degraded" then degraded (sanitizeIntentReason r.reason)
    else if r.outcome = some "rejected" then
      settleIntentRead host call.token call.correlation "rejected" (sanitizeIntentReason r.reason)
        [] 0 0 [] 0 0 b
    else degraded "malformed"

def onIntentReadTimeout (host : Host) (call : Call) (b : Bridge) : Bridge × List Output :=
  if call.token != b.callToken || !b.busy then (b, [])
  else settleIntentRead host call.token call.correlation "degraded" "timeout" [] 0 0 [] 0 0 b

/-- The one read of a session. `live` is the complete inventory, where it is
proven; its ids are bounded and distinct. -/
def startIntentBootstrap (host : Host) (generation : String) (live : Option (List String)) :
    Bridge × List Output :=
  let b : Bridge := { generation, busy := true, callToken := 1 }
  let settle (correlation reason : String) (b : Bridge) :=
    settleIntentRead host 1 correlation "degraded" reason [] 0 0 [] 0 0 b
  match b.intentCorrelation with
  | (none, b) => settle "-" "malformed" b
  | (some correlation, b) =>
    let live := live.filter fun ids =>
      decide (ids.length ≤ maxMembers) && ids.all isOpaqueId && decide ids.Nodup
    let payload := match live with
      | some ids => "\x7b\"v\":1,\"correlation_id\":\"" ++ correlation ++ "\",\"live\":" ++
          quoted ids ++ "\x7d"
      | none => "\x7b\"v\":1,\"correlation_id\":\"" ++ correlation ++ "\"\x7d"
    if maxBytes < payload.length then settle correlation "oversize" b
    else if !host.schedules then settle correlation "transport" b
    else if !host.delivers then settle correlation "transport" b
    else ({ b with deadline := some 1 }, [.callRead ⟨1, correlation, .read⟩ live])

/-! ## Write replies -/

/-- The counts a store acknowledges are the counts that were sent. An old
planner leaves the tile count out. -/
def acknowledges (r : Reply) (sentCount sentTile : Nat) : Bool :=
  r.stored == some (sentCount : Int) &&
    match r.tileStored with
    | none => sentTile == 0
    | some ack => ack == some (sentTile : Int)

/-- How a write ended: its outcome, the counts that are logged, the reason. -/
def writeOutcome (call : Call) (sentCount sentTile : Nat) (r : Reply) : Output :=
  let malformed := Output.writeLog call.correlation "unavailable" none none "malformed"
  if maxBytes < r.length ∨ r.v ≠ some 1 ∨ r.correlationId ≠ some call.correlation then malformed
  else if r.outcome = some "stored" then
    if acknowledges r sentCount sentTile then
      .writeLog call.correlation "stored" (some sentCount) (some sentTile) "-"
    else malformed
  else if r.outcome = some "rejected" then
    .writeLog call.correlation "rejected" none none (sanitizeIntentReason r.reason)
  else if r.outcome = some "unavailable" then
    .writeLog call.correlation "unavailable" none none (sanitizeIntentReason r.reason)
  else malformed

/-- Any end of a write lets the next snapshot go. -/
def onIntentWriteReply (host : Host) (call : Call) (sentCount sentTile : Nat) (r : Reply)
    (b : Bridge) : Bridge × List Output :=
  if call.token != b.callToken || !b.busy then (b, [])
  else
    let (pumped, sent) := pumpIntent host { b with deadline := none, busy := false }
    (pumped, writeOutcome call sentCount sentTile r :: sent)

def onIntentWriteTimeout (host : Host) (call : Call) (b : Bridge) : Bridge × List Output :=
  if call.token != b.callToken || !b.busy then (b, [])
  else
    let (pumped, sent) := pumpIntent host { b with busy := false }
    (pumped, .writeLog call.correlation "unavailable" none none "timeout" :: sent)

/-! ## Settled changes -/

/-- A window of the observation a flight was dispatched with; whether it is
fixed-size by its hints is read when the flight is applied. -/
structure FlightWindow where
  id : String
  fixedAuto : Bool := false
  fixedSize : Bool := false
deriving DecidableEq, Repr

/-- The window of the flight is fixed-size. -/
def fixedIn (windows : List FlightWindow) (id : String) : Bool :=
  match windows.find? fun entry => entry.id == id with
  | some entry => entry.fixedAuto || entry.fixedSize
  | none => false

/-- An applied unfloat is kept as a tile override of a fixed-size window
only. -/
def unfloatPersistsTileOverride (id : String) (windows : List FlightWindow) (b : Bridge) : Bool :=
  b.tile.contains id || fixedIn windows id

def updateSettledIntentFromFlight (host : Host) (floatTarget : Option (String × Bool))
    (windows : List FlightWindow) (b : Bridge) : Bridge × List Output :=
  match floatTarget with
  | none => (b, [])
  | some (window, true) =>
    scheduleIntentWrite host { b with members := add b.members window, tile := remove b.tile window }
  | some (window, false) =>
    let persists := unfloatPersistsTileOverride window windows b
    scheduleIntentWrite host { b with
      members := remove b.members window
      tile := if persists then add b.tile window else b.tile }

/-- A verified close. During the read it is fenced, while the fence has room. -/
def noteNativeRemovedId (host : Host) (id : String) (b : Bridge) : Bridge × List Output :=
  if !b.ready then
    scheduleIntentWrite host { b with
      bootstrapClosed :=
        if b.bootstrapClosed.length < maxMembers then add b.bootstrapClosed id
        else b.bootstrapClosed }
  else if b.members.contains id || b.tile.contains id then
    scheduleIntentWrite host { b with members := remove b.members id, tile := remove b.tile id }
  else (b, [])

def adoptStickyUnknown (id : String) (b : Bridge) : Bridge :=
  { b with adoptedSticky := add b.adoptedSticky id }

/-- What the host does while a sticky command runs. -/
structure StickyCommand where
  id : String
  allDesktops : Bool
  previousFloating : Bool
  /-- The window could be kept above. -/
  keptAbove : Bool := true
  /-- The native write returned. -/
  invoked : Bool := true
  /-- Its desktops signal came back from inside the write. -/
  echoed : Bool := true
  /-- The floating mark of an adopted window landed. -/
  floated : Bool := true
  /-- The window had floated automatically for its fixed size. -/
  priorAuto : Bool := false
  fixedNow : Bool := false
deriving DecidableEq, Repr

/-- The desktops signal a sticky write answers with: an adopted window stays
an ordinary float. -/
def onStickyEcho (host : Host) (c : StickyCommand) (b : Bridge) : Bridge × List Output :=
  if c.allDesktops then (b, [])
  else
    let wasAdopted := b.adoptedSticky.contains c.id
    let b := { b with adoptedSticky := remove b.adoptedSticky c.id }
    if wasAdopted && c.floated then
      scheduleIntentWrite host { b with members := add b.members c.id }
    else (b, [])

/-- What a landed sticky write records. -/
def settleSticky (host : Host) (c : StickyCommand) (wasAdoptedBefore : Bool) (b : Bridge) :
    Bridge × List Output :=
  if !c.allDesktops && !c.previousFloating then
    if !wasAdoptedBefore && (c.fixedNow || b.tile.contains c.id || c.priorAuto) then
      scheduleIntentWrite host { b with members := remove b.members c.id, tile := add b.tile c.id }
    else (b, [])
  else if c.allDesktops && b.tile.contains c.id then
    scheduleIntentWrite host { b with tile := remove b.tile c.id }
  else (b, [])

def issueSticky (echoHost host : Host) (c : StickyCommand) (b : Bridge) : Bridge × List Output :=
  if c.allDesktops && !c.keptAbove then (b, [])
  else
    let wasAdoptedBefore := b.adoptedSticky.contains c.id
    let (b, echo) := if c.echoed then onStickyEcho echoHost c b else (b, [])
    if !c.invoked then
      -- a failed write drops the claim of a window that never became sticky
      (if c.allDesktops then { b with adoptedSticky := remove b.adoptedSticky c.id } else b, echo)
    else
      let (b, settled) := settleSticky host c wasAdoptedBefore b
      (b, echo ++ settled)

/-! ## Events -/

inductive Event
  /-- A flight was applied. -/
  | applied (floatTarget : Option (String × Bool)) (windows : List FlightWindow)
  | sticky (command : StickyCommand)
  | adopt (id : String)
  /-- A flight that removed the window gave it up. -/
  | forget (id : String)
  | closed (id : String)
  /-- The callback of the n-th call, at any time and any number of times. -/
  | reply (n : Nat) (r : Reply)
  /-- The deadline of the n-th call. -/
  | timeout (n : Nat)

/-- An event, with what the host does for the writes it leads to. -/
structure Input where
  event : Event
  host : Host := {}
  /-- For a write from inside a sticky write. -/
  echoHost : Host := {}

def handle (sent : List Call) (i : Input) (b : Bridge) : Bridge × List Output :=
  match i.event with
  | .applied floatTarget windows => updateSettledIntentFromFlight i.host floatTarget windows b
  | .sticky command => issueSticky i.echoHost i.host command b
  | .adopt id => (adoptStickyUnknown id b, [])
  | .forget id => ({ b with adoptedSticky := remove b.adoptedSticky id }, [])
  | .closed id => noteNativeRemovedId i.host id b
  | .reply n r =>
    match sent[n]? with
    | none => (b, [])
    | some call =>
      match call.kind with
      | .read => onIntentReadReply i.host call r b
      | .write sentCount sentTile => onIntentWriteReply i.host call sentCount sentTile r b
  | .timeout n =>
    match sent[n]? with
    | none => (b, [])
    | some call =>
      match call.kind with
      | .read => onIntentReadTimeout i.host call b
      | .write _ _ => onIntentWriteTimeout i.host call b

end Bridge

end Intent

end PlasmaTiler
