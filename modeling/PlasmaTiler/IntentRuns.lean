import PlasmaTiler.FloatIntent

/-!
# Runs of the float intent

The bridge itself only knows its sets, one pending snapshot and the token of
its latest call. What it promises is about its history: which calls it sent,
what each carried, and what the user did meanwhile. A ledger keeps that beside
the bridge. It notes every call as it is sent and as its end is logged, every
payload with the sets at that moment, the changes that settled since the read
began, and the pair an ok read returned.

A change is given its meaning on the pair of sets, one window at a time:
floated, unfloated (and kept as a tile override or not), made sticky, closed.
`Snapshot.applyAll` applies a list of them in order. Against the ledger the
intent is `Consistent` when the sets are apart, every payload was the complete
pair, one call at most is out, the pair is the changes applied to what the
read returned, and, with nothing outstanding and no failure, the store has the
pair: a pair that changed has been written.

The read is where order can be lost, because its reply is united with what
settled meanwhile. `Fair` says which steps avoid that, from the state before
the step.
-/

namespace PlasmaTiler

namespace Intent

/-! ## What a change means -/

/-- A settled change of the user's intent. -/
inductive Settled
  | floated (id : String)
  /-- `fixed` if the window is fixed-size, so that its tiling is kept. -/
  | unfloated (id : String) (fixed : Bool)
  | stickyOn (id : String)
  | stickyTiled (id : String) (fixed : Bool)
  | adopted (id : String)
  | closed (id : String)
deriving DecidableEq, Repr

namespace Snapshot

/-- The pair after a change. -/
def apply (s : Snapshot) : Settled → Snapshot
  | .floated id => ⟨add s.members id, remove s.tile id⟩
  | .unfloated id fixed =>
    ⟨remove s.members id, if fixed || s.tile.contains id then add s.tile id else s.tile⟩
  | .stickyOn id => ⟨s.members, remove s.tile id⟩
  | .stickyTiled id fixed =>
    if fixed || s.tile.contains id then ⟨remove s.members id, add s.tile id⟩ else s
  | .adopted id => ⟨add s.members id, remove s.tile id⟩
  | .closed id => ⟨remove s.members id, remove s.tile id⟩

def applyAll (s : Snapshot) (changes : List Settled) : Snapshot := changes.foldl apply s

/-- No window on both sides: a floated window is no tile override. -/
def Apart (s : Snapshot) : Prop := ∀ id ∈ s.members, id ∉ s.tile

/-- Whether a window is on the float side, and whether on the tile side. -/
def status (s : Snapshot) (id : String) : Bool × Bool := (s.members.contains id, s.tile.contains id)

end Snapshot

/-! ## The ledger -/

structure Ledger where
  sent : List Call := []
  outstanding : List Call := []
  /-- Every payload written, with the sets at that moment. -/
  payloads : List (Snapshot × Snapshot) := []
  written : Option Snapshot := none
  /-- No call failed and none was given up. -/
  successful : Bool := true
  /-- The changes since the read began. -/
  changes : List Settled := []
  /-- The sets an ok read returned. -/
  stored : Option Snapshot := none

namespace Ledger

def send (l : Ledger) (call : Call) : Ledger :=
  { l with sent := l.sent ++ [call], outstanding := l.outstanding ++ [call] }

/-- A call is over once its end is logged. -/
def finish (l : Ledger) (correlation : String) (successful : Bool) : Ledger :=
  { l with
    outstanding := l.outstanding.filter fun call => call.correlation != correlation
    successful := l.successful && successful }

def note (l : Ledger) : Output → Ledger
  | .callRead call _ => l.send call
  | .callWrite call snapshot now =>
    { l.send call with
      payloads := l.payloads ++ [(snapshot, now)]
      written := some snapshot }
  | .readLog correlation outcome .. => l.finish correlation (outcome == "ok")
  | .writeLog correlation outcome .. => l.finish correlation (outcome == "stored")
  | .hydrated _ => l
  | .resync => l

def noteAll (l : Ledger) (outputs : List Output) : Ledger := outputs.foldl note l

/-- The pair the store has, as far as the adapter knows: the last payload, or
what the read returned. -/
def known (l : Ledger) : Option Snapshot := l.written.or l.stored

end Ledger

/-- A bridge with its ledger. -/
structure Session where
  bridge : Bridge
  ledger : Ledger

namespace Session

/-- An adopted window comes back as an ordinary float. -/
def echoesAdopted (c : Bridge.StickyCommand) (b : Bridge) : Bool :=
  c.echoed && !c.allDesktops && b.adoptedSticky.contains c.id && c.floated

/-- What a landed sticky write means. -/
def stickyChange (c : Bridge.StickyCommand) (b : Bridge) : List Settled :=
  if !c.allDesktops then
    if !c.previousFloating && !b.adoptedSticky.contains c.id then
      [.stickyTiled c.id (c.fixedNow || c.priorAuto)]
    else []
  else [.stickyOn c.id]

/-- The changes an event settles, in order. -/
def settledBy (b : Bridge) : Bridge.Event → List Settled
  | .applied (some (id, true)) _ => [.floated id]
  | .applied (some (id, false)) windows => [.unfloated id (Bridge.fixedIn windows id)]
  | .sticky c =>
    if c.allDesktops && !c.keptAbove then []
    else (if echoesAdopted c b then [.adopted c.id] else []) ++
      if c.invoked then stickyChange c b else []
  | .closed id => [.closed id]
  | _ => []

/-- The sets an event adopts: those of an ok reply to the outstanding read. -/
def adoptedBy (s : Session) : Bridge.Event → Option Snapshot
  | .reply n r => do
    let call ← s.ledger.sent[n]?
    require (call.kind == .read && call.token == s.bridge.callToken && s.bridge.busy)
    require (decide (r.length ≤ maxBytes) && r.v == some 1 &&
      r.correlationId == some call.correlation && r.outcome == some "ok")
    let (members, _, tile, _) ← Bridge.readOk r
    return ⟨members, tile⟩
  | _ => none

def step (s : Session) (i : Bridge.Input) : Session :=
  let (b, outputs) := s.bridge.handle s.ledger.sent i
  { bridge := b
    ledger := { s.ledger with
      changes := s.ledger.changes ++ settledBy s.bridge i.event
      stored := (s.adoptedBy i.event).or s.ledger.stored }.noteAll outputs }

/-- The session right after its read was sent, or given up. -/
def start (host : Host) (generation : String) (live : Option (List String)) : Session :=
  let (b, outputs) := Bridge.startIntentBootstrap host generation live
  { bridge := b, ledger := ({} : Ledger).noteAll outputs }

def run (s : Session) (inputs : List Bridge.Input) : Session := inputs.foldl step s

/-! ## What is promised -/

/-- The sets are apart, also in every payload; at most one call is out and
every payload was the complete pair when it was sent; after an ok read the
pair is the changes applied to what was stored; and with nothing outstanding
and no failure the store has the pair: it was the last payload, or the read
returned it and nothing was written since. -/
structure Consistent (s : Session) : Prop where
  apart : s.bridge.snapshot.Apart
  payloads : ∀ p ∈ s.ledger.payloads, p.1 = p.2 ∧ p.1.Apart
  single : s.ledger.outstanding.length ≤ 1
  settled : ∀ p, s.ledger.stored = some p → ∀ id,
    s.bridge.snapshot.status id = (p.applyAll s.ledger.changes).status id
  flushed : s.bridge.ready = true → s.ledger.outstanding = [] → s.ledger.successful = true →
    s.ledger.known = some s.bridge.snapshot

/-- The changes made during the read take no stored window away but by
closing it, and nothing that closed comes back: the changes leave it out, and
it is fenced unless neither side has it. -/
structure Kept (changes : List Settled) (fence : List String) (loc stored : Snapshot) : Prop where
  floats : ∀ id ∈ stored.members, .closed id ∉ changes → id ∈ (stored.applyAll changes).members
  tiles : ∀ id ∈ stored.tile, .closed id ∉ changes →
    id ∈ (stored.applyAll changes).members ∨ id ∈ (stored.applyAll changes).tile
  closes : ∀ id, .closed id ∈ changes →
    id ∉ (stored.applyAll changes).members ∧ id ∉ (stored.applyAll changes).tile
  fenced : ∀ id, .closed id ∈ changes → id ∉ fence →
    stored.status id = (false, false) ∧ loc.status id = (false, false)

/-- An adopted window that comes back is no tile override; an ok read finds
the changes made meanwhile `Kept`. -/
def Fair (s : Session) (i : Bridge.Input) : Prop :=
  match i.event with
  | .sticky c => echoesAdopted c s.bridge = true → c.id ∉ s.bridge.tile
  | .reply .. => ∀ p, s.adoptedBy i.event = some p →
      Kept s.ledger.changes s.bridge.bootstrapClosed s.bridge.snapshot p
  | _ => True

/-- Every step of the run is fair. -/
def FairRun (s : Session) : List Bridge.Input → Prop
  | [] => True
  | i :: inputs => s.Fair i ∧ FairRun (s.step i) inputs

end Session

/-! ## Sets -/

section
variable {xs ys : List String} {id x : String}

@[simp] theorem mem_add : id ∈ add xs x ↔ id ∈ xs ∨ id = x := by
  unfold add
  split
  · constructor
    · exact Or.inl
    · rintro (h | rfl) <;> assumption
  · simp

@[simp] theorem mem_remove : id ∈ remove xs x ↔ id ∈ xs ∧ id ≠ x := by
  simp [remove]

@[simp] theorem mem_addAll : id ∈ addAll xs ys ↔ id ∈ xs ∨ id ∈ ys := by
  unfold addAll
  induction ys generalizing xs with
  | nil => simp
  | cons y ys ih => rw [List.foldl_cons, ih, mem_add, List.mem_cons, or_assoc]

@[simp] theorem mem_removeAll : id ∈ removeAll xs ys ↔ id ∈ xs ∧ id ∉ ys := by
  simp [removeAll]

theorem readIds_fresh {seen : List String} {raw : List (Option String)} {ids : List String}
    (h : Bridge.readIds seen raw = some ids) : ∀ id ∈ ids, id ∉ seen := by
  induction raw generalizing seen ids with
  | nil =>
    obtain rfl := Option.some.inj h
    exact fun _ h => absurd h List.not_mem_nil
  | cons entry raw ih =>
    cases entry with
    | none => cases h
    | some first =>
      rw [Bridge.readIds] at h
      split at h
      · rename_i hfresh
        obtain ⟨rest, hrest, rfl⟩ := Option.map_eq_some_iff.mp h
        rintro id (_ | ⟨_, hid⟩)
        · simpa using (Bool.and_eq_true_iff.mp hfresh).2
        · exact fun hseen => ih hrest id hid (List.mem_cons_of_mem _ hseen)
      · cases h

/-- The sets of an ok reply have no window in common. -/
theorem readOk_apart {r : Reply} {members tile : List String} {stored tileStored : Nat}
    (h : Bridge.readOk r = some (members, stored, tile, tileStored)) :
    (⟨members, tile⟩ : Snapshot).Apart := by
  simp only [Bridge.readOk, Option.bind_eq_bind, Option.bind_eq_some_iff, Option.pure_def,
    Option.some.injEq, Prod.mk.injEq, Prod.exists] at h
  obtain ⟨_, -, _, _, htile, _, -, _, -, rfl, -, rfl, -⟩ := h
  intro id hid hmem
  rw [Bridge.readTile] at htile
  split at htile
  · obtain ⟨rfl, -⟩ := Prod.mk.inj (Option.some.inj htile)
    exact absurd hmem List.not_mem_nil
  · simp only [Option.bind_eq_bind, Option.bind_eq_some_iff, Option.pure_def, Option.some.injEq,
      Prod.mk.injEq] at htile
    obtain ⟨_, hread, _, -, _, -, rfl, -⟩ := htile
    simp only [Bridge.readMembers, Option.bind_eq_bind, Option.bind_eq_some_iff] at hread
    obtain ⟨_, -, hread⟩ := hread
    split at hread
    · cases hread
    · exact readIds_fresh hread id hmem hid

end

/-! ## One window at a time -/

namespace Settled

def id : Settled → String
  | .floated id | .unfloated id _ | .stickyOn id | .stickyTiled id _ | .adopted id | .closed id => id

/-- What a change does to its window. -/
def effect : Settled → Bool × Bool → Bool × Bool
  | .floated _, _ => (true, false)
  | .unfloated _ fixed, st => (false, fixed || st.2)
  | .stickyOn _, st => (st.1, false)
  | .stickyTiled _ fixed, st => if fixed || st.2 then (false, true) else st
  | .adopted _, _ => (true, false)
  | .closed _, _ => (false, false)

/-- What a list of changes does to one window. -/
def effects (id : String) (changes : List Settled) (st : Bool × Bool) : Bool × Bool :=
  changes.foldl (fun st e => if e.id = id then e.effect st else st) st

end Settled

section
variable {s : Snapshot} {id : String} {changes : List Settled} {e : Settled}

theorem status_mk {members tile : List String} : (⟨members, tile⟩ : Snapshot).status id =
    (decide (id ∈ members), decide (id ∈ tile)) := by
  simp [Snapshot.status]

theorem status_apply : (s.apply e).status id =
    if e.id = id then e.effect (s.status id) else s.status id := by
  cases e <;>
    · simp only [Snapshot.apply, Settled.id, Settled.effect, Snapshot.status]
      grind [mem_add, mem_remove]

theorem status_applyAll :
    (s.applyAll changes).status id = Settled.effects id changes (s.status id) := by
  induction changes generalizing s with
  | nil => rfl
  | cons e changes ih =>
    rw [Snapshot.applyAll, List.foldl_cons]
    refine ih.trans ?_
    rw [status_apply]
    rfl

theorem applyAll_append {more : List Settled} :
    s.applyAll (changes ++ more) = (s.applyAll changes).applyAll more := List.foldl_append

theorem apart_iff_status : s.Apart ↔ ∀ id, s.status id ≠ (true, true) := by
  simp [Snapshot.Apart, Snapshot.status]

/-- A change keeps its window off one of the two sides. -/
theorem effects_apart {st : Bool × Bool} (h : st ≠ (true, true)) :
    Settled.effects id changes st ≠ (true, true) := by
  induction changes generalizing st with
  | nil => exact h
  | cons e changes ih =>
    refine ih ?_
    dsimp only
    split
    · obtain ⟨f, t⟩ := st
      cases e <;> grind [Settled.effect]
    · exact h

/-- Whether a window starts as a tile override or not at all, the changes
float it or not alike. -/
theorem effects_tile : Settled.effects id changes (false, true) =
      Settled.effects id changes (false, false) ∨
    Settled.effects id changes (false, true) = (false, true) ∧
      Settled.effects id changes (false, false) = (false, false) := by
  have key : ∀ (changes : List Settled) {st st' : Bool × Bool},
      st = st' ∨ st = (false, true) ∧ st' = (false, false) →
        Settled.effects id changes st = Settled.effects id changes st' ∨
          Settled.effects id changes st = (false, true) ∧
            Settled.effects id changes st' = (false, false) := by
    intro changes
    induction changes with
    | nil => exact fun h => h
    | cons e changes ih =>
      intro st st' h
      refine ih ?_
      dsimp only
      split
      · rcases h with rfl | ⟨rfl, rfl⟩
        · exact Or.inl rfl
        · rcases e with _ | ⟨_, _ | _⟩ | _ | ⟨_, _ | _⟩ | _ | _ <;> simp [Settled.effect]
      · exact h
  exact key changes (Or.inr ⟨rfl, rfl⟩)

/-- Uniting what is stored with the changes applied to nothing gives the
changes applied to what is stored, where these take nothing stored away. -/
theorem merge_status {stored loc : Bool × Bool} (hstored : stored ≠ (true, true))
    (hloc : loc = Settled.effects id changes (false, false))
    (hfloat : stored.1 = true → (Settled.effects id changes stored).1 = true)
    (htile : stored.2 = true → (Settled.effects id changes stored).1 = true ∨
      (Settled.effects id changes stored).2 = true) :
    (stored.1 || loc.1, (stored.2 || loc.2) && !(stored.1 || loc.1)) =
      Settled.effects id changes stored := by
  have hapart := @effects_apart id changes _ hstored
  have hapart' := @effects_apart id changes (false, false) (by decide)
  have htiled := @effects_tile id changes
  obtain ⟨f, t⟩ := stored
  rw [← hloc] at hapart' htiled
  obtain ⟨lf, lt⟩ := loc
  match f, t with
  | true, true => exact absurd rfl hstored
  | true, false =>
    generalize Settled.effects id changes (true, false) = x at *
    obtain ⟨xf, xt⟩ := x
    cases xf <;> cases xt <;> simp_all
  | false, true =>
    generalize Settled.effects id changes (false, true) = x at *
    obtain ⟨xf, xt⟩ := x
    clear hloc
    cases xf <;> cases xt <;> cases lf <;> cases lt <;> simp_all
  | false, false =>
    rw [← hloc]
    clear hloc hfloat htile hapart
    cases lf <;> cases lt <;> simp_all

end

end Intent

end PlasmaTiler
