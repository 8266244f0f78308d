import PlasmaTiler.SnapMask

/-!
# One verdict per press

The OS must see both ends of a press or neither, so all events of one press
(the down, its auto-repeats and the up) have to get one verdict. The
classifier does not store verdicts by key. It keeps them through the pin of a
hold, through the refusal of a colliding key, and through passing what it
refused, and each of these can be lost by an event of another key.

`Fit` is what an event needs for its press to keep one verdict: a fresh down
that takes a route opens the hold of its own arm, and the repeat of a passed
press is not taken. It reads the state before the event and the event. The
second part fails where a chord is refused by its modifiers, and the repeat
finds other modifiers held (`tornPress`).

The proof keeps a record beside the classifier, the verdict of the first down
of every key that is down (`Presses`), and an invariant between the two:
`Tracked` is what a key that is down holds, `Paired` that holds and presses
go together. An event touches the part of its own key and leaves the others
alone (`Others`), so the step is one case for each thing a key may hold, with
the families of chords left to `pushArm`.

In every run of such events every press keeps its verdict, and no release
closes another key's hold (`presses_kept`).
-/

namespace PlasmaTiler

namespace Snapkey

namespace SnapClassify

variable {s s' : SnapClassify} {physical canon vk : Vk} {action : ChordAction} {a : Arm}
  {isUp foreground routeLive : Bool}

/-! ## The arm of an event -/

/-- The arm an owned event goes to. -/
def armOf (s : SnapClassify) (physical canon : Vk) (action : ChordAction) : Option Arm :=
  match action with
  | .workspacePrevious | .workspacePrev | .workspaceNext =>
      (historyIndex canon).bind fun idx => (historyOpForAction action).map (s.historyArm idx)
  | .workspaceDigit | .workspaceStayDigit =>
      if isDigitVk canon then some (s.digitArm (canon - vk0) (action == .workspaceStayDigit)) else none
  | .workspaceSendPrev | .workspaceSendNext | .workspaceSendStayPrev | .workspaceSendStayNext =>
      (relativeSendIndex canon).bind fun idx => (relativeSendDelta canon).bind fun delta =>
        if decide (delta < 0) != (action == .workspaceSendPrev || action == .workspaceSendStayPrev) then none
        else some (s.relativeSendArm idx delta
          (action == .workspaceSendPrev || action == .workspaceSendNext))
  | .maximize => some (s.toggleArm .maximize .maximize)
  | .orientation => some (s.toggleArm .orientation .orientation)
  | .fullscreen => some (s.toggleArm .fullscreen .fullscreen)
  | .float | .sticky => some (s.gArm s.gHalf)
  | .resizeOut | .resizeIn =>
      (catalogIndex canon).bind fun idx => (resizeModeForAction action).map (s.resizeArm idx)
  | .directional => (catalogIndex canon).map (s.directionalArm physical)

theorem pushOwned_eq : s.pushOwned physical canon action isUp foreground routeLive =
    match s.armOf physical canon action with
    | some a => s.pushArm a isUp foreground routeLive
    | none => (s, none) := by
  have hhistory : ∀ op, historyOpForAction action = some op →
      s.pushHistory canon action isUp foreground routeLive =
        match (historyIndex canon).bind fun idx => some (s.historyArm idx op) with
        | some a => s.pushArm a isUp foreground routeLive
        | none => (s, none) := by
    intro op hop
    unfold pushHistory
    rw [hop]
    cases historyIndex canon <;> rfl
  have hsend : s.pushRelativeSend canon action isUp foreground routeLive =
      match (relativeSendIndex canon).bind fun idx => (relativeSendDelta canon).bind fun delta =>
        if decide (delta < 0) != (action == .workspaceSendPrev || action == .workspaceSendStayPrev) then none
        else some (s.relativeSendArm idx delta
          (action == .workspaceSendPrev || action == .workspaceSendNext)) with
      | some a => s.pushArm a isUp foreground routeLive
      | none => (s, none) := by
    unfold pushRelativeSend
    cases relativeSendIndex canon with
    | none => rfl
    | some idx =>
      cases relativeSendDelta canon with
      | none => rfl
      | some delta =>
        simp only [Option.bind_some]
        split <;> rfl
  have hresize : ∀ mode, resizeModeForAction action = some mode →
      s.pushResize canon action isUp foreground routeLive =
        match (catalogIndex canon).bind fun idx => some (s.resizeArm idx mode) with
        | some a => s.pushArm a isUp foreground routeLive
        | none => (s, none) := by
    intro mode hmode
    unfold pushResize
    rw [hmode]
    cases catalogIndex canon <;> rfl
  have hdigit : s.pushDigit canon action isUp foreground routeLive =
      match if isDigitVk canon then some (s.digitArm (canon - vk0) (action == .workspaceStayDigit))
        else none with
      | some a => s.pushArm a isUp foreground routeLive
      | none => (s, none) := by
    unfold pushDigit
    split <;> rfl
  cases action with
  | workspacePrevious => exact hhistory _ rfl
  | workspacePrev => exact hhistory _ rfl
  | workspaceNext => exact hhistory _ rfl
  | workspaceDigit | workspaceStayDigit => exact hdigit
  | workspaceSendPrev | workspaceSendNext | workspaceSendStayPrev | workspaceSendStayNext => exact hsend
  | maximize | orientation | fullscreen | float | sticky => rfl
  | resizeOut => exact hresize _ rfl
  | resizeIn => exact hresize _ rfl
  | directional =>
    unfold pushOwned pushDirectional armOf
    cases catalogIndex canon <;> rfl

/-- Whether an event has an arm does not depend on the state. -/
theorem armOf_isSome (s s' : SnapClassify) :
    (s.armOf physical canon action).isSome = (s'.armOf physical canon action).isSome := by
  cases action <;> simp only [armOf, Option.isSome_map] <;> try rfl
  all_goals first
    | (cases historyIndex canon <;> rfl)
    | (split <;> rfl)
    | (cases catalogIndex canon <;> rfl)
    | (cases relativeSendIndex canon with
        | none => rfl
        | some idx =>
          cases relativeSendDelta canon with
          | none => rfl
          | some delta =>
            simp only [Option.bind_some]
            split <;> rfl)

/-- The arm works on the slot of the route; the G key's on the half it picks. -/
theorem armOf_slot (h : s.armOf physical canon action = some a) :
    slotOf action canon = some a.slot ∨ ((action = .float ∨ action = .sticky) ∧
      a.slot = if s.gHalf then .sticky else .float) := by
  cases action with
  | float =>
    obtain rfl := Option.some.inj h
    exact .inr ⟨.inl rfl, rfl⟩
  | sticky =>
    obtain rfl := Option.some.inj h
    exact .inr ⟨.inr rfl, rfl⟩
  | maximize | orientation | fullscreen =>
    obtain rfl := Option.some.inj h
    exact .inl rfl
  | directional =>
    obtain ⟨idx, hidx, rfl⟩ := Option.map_eq_some_iff.mp h
    exact .inl (by rw [slotOf, hidx]; rfl)
  | workspaceDigit | workspaceStayDigit =>
    simp only [armOf] at h
    split at h
    · rename_i hdigit
      obtain rfl := Option.some.inj h
      exact .inl (by rw [slotOf, if_pos hdigit]; rfl)
    · cases h
  | resizeOut | resizeIn | workspacePrevious | workspacePrev | workspaceNext =>
    obtain ⟨idx, hidx, h⟩ := Option.bind_eq_some_iff.mp h
    obtain ⟨_, -, rfl⟩ := Option.map_eq_some_iff.mp h
    exact .inl (by rw [slotOf, hidx]; rfl)
  | workspaceSendPrev | workspaceSendNext | workspaceSendStayPrev | workspaceSendStayNext =>
    obtain ⟨idx, hidx, h⟩ := Option.bind_eq_some_iff.mp h
    obtain ⟨delta, -, h⟩ := Option.bind_eq_some_iff.mp h
    split at h
    · cases h
    · obtain rfl := Option.some.inj h
      exact .inl (by rw [slotOf, hidx]; rfl)

/-! ## Presses -/

/-- The verdict of the first down of every key that is down. -/
abbrev Presses := Vk → Option Bool

/-- The event is swallowed by the hook. -/
def consumes (c : Option Classified) : Bool := c.any Classified.consumed

/-- Keys whose events are classified. -/
def isChordKey (vk : Vk) : Bool := !isWinVk vk && !isModifierVk vk

/-- A first down fixes the verdict of its press, a release ends it. -/
def Presses.next (g : Presses) (s : SnapClassify) : Event → Presses
  | .key vk isUp foreground queue =>
      if !isChordKey vk then g
      else if isUp then Function.update g vk none
      else if (g vk).isSome then g
      else Function.update g vk (some (consumes (s.answer (.key vk isUp foreground queue))))
  | _ => g

/-- A classified key holds a down without its up. -/
def keyIsDown (s : SnapClassify) (vk : Vk) : Bool :=
  (decide (vk < pinKeys) && (s.collide vk).isSome) ||
    match s.pinGet vk with
    | some pinned => s.canonIsDown pinned.action pinned.canon
    | none => false

/-- The event has the verdict of its press, and a release closes no other
key's hold. -/
structure Agrees (s : SnapClassify) (g : Presses) (e : Event) : Prop where
  verdict : ∀ vk isUp foreground queue, e = .key vk isUp foreground queue → isChordKey vk = true →
    ∀ b, g vk = some b → consumes (s.answer e) = b
  others : ∀ vk foreground queue, e = .key vk true foreground queue → isChordKey vk = true →
    ∀ k, k ≠ vk → s.keyIsDown k = true → (s.next e).keyIsDown k = true

/-- The route a fresh down takes, unless Win is up or the lock chord is
fenced. -/
def chord (s : SnapClassify) (physical : Vk) : Option (ChordAction × Vk × Bool) :=
  if !s.winHeld then none
  else (s.routed physical).filter fun r => !s.lockFenced physical r.1 r.2.1

/-- The arm's own guard takes the modifiers, and the arm works on the slot of
the route. -/
def opens (s : SnapClassify) (physical : Vk) (action : ChordAction) (canon : Vk) : Bool :=
  (s.armOf physical canon action).any fun a => a.fresh.isSome && slotOf action canon == some a.slot

/-- The key holds nothing: no pin and no collision. -/
def untracked (s : SnapClassify) (vk : Vk) : Bool :=
  !(decide (vk < pinKeys) && (s.collide vk).isSome) && (s.pinGet vk).isNone

/-- What the down of a key that holds nothing needs for its press to keep one
verdict: a first down opens the hold of its own arm unless the slot is open
already, and the repeat of a passed press is not taken. -/
def FitDown (s : SnapClassify) (g : Presses) (vk : Vk) : Prop :=
  ∀ action canon remapped, s.chord vk = some (action, canon, remapped) → s.untracked vk = true →
    (s.canonIsDown action canon = false → s.opens vk action canon = true) ∧
    ((g vk).isSome = true → s.taking = false)

instance {g : Presses} : Decidable (FitDown s g vk) :=
  match hchord : s.chord vk with
  | none => isTrue fun _ _ _ h => by rw [hchord] at h; cases h
  | some (action, canon, remapped) =>
      decidable_of_iff (s.untracked vk = true →
          (s.canonIsDown action canon = false → s.opens vk action canon = true) ∧
          ((g vk).isSome = true → s.taking = false))
        ⟨fun hfit _ _ _ h => by
            obtain ⟨rfl, rfl, rfl⟩ : action = _ ∧ canon = _ ∧ remapped = _ := by
              simpa using hchord.symm.trans h
            exact hfit,
          fun hfit => hfit action canon remapped hchord⟩

/-- The events a run may have: key-downs that fit the state, and remap tables
that name physical keys only. Everything else is free. -/
def Fit (s : SnapClassify) (g : Presses) : Event → Prop
  | .key vk false _ _ => isChordKey vk = true → FitDown s g vk
  | .setRemap remap => ∀ entry ∈ remap, entry.fromVk < pinKeys
  | _ => True

instance {g : Presses} : (e : Event) → Decidable (Fit s g e)
  | .key vk false _ _ => inferInstanceAs (Decidable (isChordKey vk = true → FitDown s g vk))
  | .setRemap remap => inferInstanceAs (Decidable (∀ entry ∈ remap, entry.fromVk < pinKeys))
  | .key _ true _ _ | .windrag | .setEnabled _ | .setGateActive _ | .setDisabled _ =>
      inferInstanceAs (Decidable True)

/-- Every step of the run has the property, with the classifier and the open
presses it is taken in. -/
def EveryStep (P : SnapClassify → Presses → Event → Prop) : SnapClassify → Presses → List Event → Prop
  | _, _, [] => True
  | s, g, e :: es => P s g e ∧ EveryStep P (s.next e) (g.next s e) es

instance decidableEveryStep {P : SnapClassify → Presses → Event → Prop} [∀ s g e, Decidable (P s g e)] :
    (s : SnapClassify) → (g : Presses) → (es : List Event) → Decidable (EveryStep P s g es)
  | _, _, [] => inferInstanceAs (Decidable True)
  | s, g, e :: es =>
      have : Decidable (EveryStep P (s.next e) (g.next s e) es) := decidableEveryStep _ _ es
      inferInstanceAs (Decidable (P s g e ∧ EveryStep P (s.next e) (g.next s e) es))

/-! ## The invariant -/

/-- What a key that is down holds, by how its press was answered: a collided
chord, a pin whose slot is held and armed, or nothing where the press was
passed on. -/
inductive Tracked (s : SnapClassify) (vk : Vk) (b : Bool) : Prop
  | collided (tmpl : Classified) (hvk : vk < pinKeys) (hcollide : s.collide vk = some tmpl)
      (hpin : s.pinGet vk = none) (hverdict : tmpl.consumed = b)
  | pinned (p : PinnedRoute) (slot : Slot) (hold : Hold)
      (hcollide : vk < pinKeys → s.collide vk = none) (hpin : s.pinGet vk = some p)
      (hslot : slotOf p.action p.canon = some slot) (hheld : s.held slot = some hold)
      (hverdict : hold.origin = b) (harm : (s.armOf vk p.canon p.action).isSome = true)
  | passed (hcollide : vk < pinKeys → s.collide vk = none) (hpin : s.pinGet vk = none)
      (hverdict : b = false)

/-- Holds and presses go together: a key that is up holds nothing, one that is
down is tracked with the verdict of its press, and no two pins share a slot. -/
structure Paired (s : SnapClassify) (g : Presses) : Prop where
  idle : ∀ vk, g vk = none → (vk < pinKeys → s.collide vk = none) ∧ s.pinGet vk = none
  tracked : ∀ vk b, g vk = some b → Tracked s vk b
  apart : ∀ vk vk' p p', s.pinGet vk = some p → s.pinGet vk' = some p' →
    slotOf p.action p.canon = slotOf p'.action p'.canon → vk = vk'
  half : s.held .float = none ∨ s.held .sticky = none
  tables : ∀ entry ∈ s.vkRemap, entry.fromVk < pinKeys

/-- What the holds of all keys depend on is the same: slots, pins and collided
chords. -/
structure SameHolds (s s' : SnapClassify) : Prop where
  held : s'.held = s.held
  physPin : s'.physPin = s.physPin
  collide : s'.collide = s.collide

theorem SameHolds.pinGet (h : SameHolds s s') : s'.pinGet vk = s.pinGet vk := by
  rw [SnapClassify.pinGet, SnapClassify.pinGet, h.physPin]

theorem Tracked.of_same (h : SameHolds s s') {b : Bool} (ht : Tracked s vk b) : Tracked s' vk b := by
  cases ht with
  | collided tmpl hvk hcollide hpin hverdict =>
    exact .collided tmpl hvk (by rw [h.collide]; exact hcollide) (h.pinGet.trans hpin) hverdict
  | pinned p slot hold hcollide hpin hslot hheld hverdict harm =>
    refine .pinned p slot hold (by rw [h.collide]; exact hcollide) (h.pinGet.trans hpin) hslot
      (by rw [h.held]; exact hheld) hverdict ?_
    rw [armOf_isSome _ s]
    exact harm
  | passed hcollide hpin hverdict =>
    exact .passed (by rw [h.collide]; exact hcollide) (h.pinGet.trans hpin) hverdict

theorem Paired.of_same {g : Presses} (h : SameHolds s s') (htables : s'.vkRemap = s.vkRemap)
    (hp : Paired s g) : Paired s' g where
  idle vk hg := by
    rw [h.collide, h.pinGet]
    exact hp.idle vk hg
  tracked vk b hg := (hp.tracked vk b hg).of_same h
  apart vk vk' p p' hpin hpin' := by
    rw [h.pinGet] at hpin hpin'
    exact hp.apart vk vk' p p' hpin hpin'
  half := by
    rw [h.held]
    exact hp.half
  tables := by
    rw [htables]
    exact hp.tables

/-- An event of one key leaves the collided chords and the pins of the other
keys alone, and the slots these hold. -/
structure Others (s s' : SnapClassify) (vk : Vk) : Prop where
  collide : ∀ k, k ≠ vk → s'.collide k = s.collide k
  pin : ∀ k, k ≠ vk → s'.pinGet k = s.pinGet k
  held : ∀ k, k ≠ vk → ∀ p slot, s.pinGet k = some p → slotOf p.action p.canon = some slot →
    s'.held slot = s.held slot

theorem SameHolds.others (h : SameHolds s s') : Others s s' vk where
  collide k _ := by rw [h.collide]
  pin k _ := h.pinGet
  held k _ p slot _ _ := by rw [h.held]

theorem Others.keyIsDown (h : Others s s' vk) {k : Vk} (hk : k ≠ vk) (hdown : s.keyIsDown k = true) :
    s'.keyIsDown k = true := by
  have hpin := h.pin k hk
  unfold SnapClassify.keyIsDown at hdown ⊢
  rw [h.collide k hk, hpin]
  cases hcase : s.pinGet k with
  | none =>
    rw [hcase] at hdown
    exact hdown
  | some p =>
    rw [hcase] at hdown
    have hsame : s'.canonIsDown p.action p.canon = s.canonIsDown p.action p.canon := by
      unfold canonIsDown
      cases hslot : slotOf p.action p.canon with
      | none => rfl
      | some slot =>
        rw [Option.bind_some, Option.bind_some, h.held k hk p slot hcase hslot]
    dsimp only at hdown ⊢
    rw [hsame]
    exact hdown

/-- What a key holds after an event of its own: nothing where its press is
over, and what `Tracked` asks where it has begun. -/
def Own (s : SnapClassify) (vk : Vk) : Option Bool → Prop
  | none => (vk < pinKeys → s.collide vk = none) ∧ s.pinGet vk = none
  | some b => Tracked s vk b

theorem Tracked.of_others (h : Others s s' vk) {k : Vk} (hk : k ≠ vk) {b : Bool}
    (ht : Tracked s k b) : Tracked s' k b := by
  cases ht with
  | collided tmpl hvk hcollide hpin hverdict =>
    exact .collided tmpl hvk ((h.collide k hk).trans hcollide) ((h.pin k hk).trans hpin) hverdict
  | pinned p slot hold hcollide hpin hslot hheld hverdict harm =>
    refine .pinned p slot hold (by rw [h.collide k hk]; exact hcollide) ((h.pin k hk).trans hpin) hslot
      ((h.held k hk p slot hpin hslot).trans hheld) hverdict ?_
    rw [armOf_isSome _ s]
    exact harm
  | passed hcollide hpin hverdict =>
    exact .passed (by rw [h.collide k hk]; exact hcollide) ((h.pin k hk).trans hpin) hverdict

/-- An event of one key keeps the pairing when that key's own part is right and
its pin, if any, is on a slot of its own. -/
theorem Paired.update {g : Presses} {o : Option Bool} (hp : Paired s g) (h : Others s s' vk)
    (hown : Own s' vk o)
    (hapart : ∀ p, s'.pinGet vk = some p → ∀ k, k ≠ vk → ∀ p', s.pinGet k = some p' →
      slotOf p.action p.canon ≠ slotOf p'.action p'.canon)
    (hhalf : s'.held .float = none ∨ s'.held .sticky = none) (htables : s'.vkRemap = s.vkRemap) :
    Paired s' (Function.update g vk o) where
  idle k hk := by
    by_cases heq : k = vk
    · subst heq
      rw [Function.update_self] at hk
      rw [hk] at hown
      exact hown
    · rw [Function.update_of_ne heq] at hk
      rw [h.collide k heq, h.pin k heq]
      exact hp.idle k hk
  tracked k b hk := by
    by_cases heq : k = vk
    · subst heq
      rw [Function.update_self] at hk
      rw [hk] at hown
      exact hown
    · rw [Function.update_of_ne heq] at hk
      exact (hp.tracked k b hk).of_others h heq
  apart k k' p p' hpin hpin' hslot := by
    by_cases hk : k = vk
    · by_cases hk' : k' = vk
      · rw [hk, hk']
      · rw [h.pin k' hk'] at hpin'
        exact absurd hslot (hapart p (hk ▸ hpin) k' hk' p' hpin')
    · by_cases hk' : k' = vk
      · rw [h.pin k hk] at hpin
        exact absurd hslot.symm (hapart p' (hk' ▸ hpin') k hk p hpin)
      · rw [h.pin k hk] at hpin
        rw [h.pin k' hk'] at hpin'
        exact hp.apart k k' p p' hpin hpin' hslot
  half := hhalf
  tables := by
    rw [htables]
    exact hp.tables

/-! ## Events of a key that holds something -/

/-- A pinned key's slot is open. -/
theorem Paired.owner {g : Presses} (hp : Paired s g) {k : Vk} {p : PinnedRoute} {slot : Slot}
    (hpin : s.pinGet k = some p) (hslot : slotOf p.action p.canon = some slot) :
    ∃ hold, s.held slot = some hold := by
  cases hg : g k with
  | none =>
    rw [(hp.idle k hg).2] at hpin
    cases hpin
  | some b =>
    cases hp.tracked k b hg with
    | collided _ _ _ hnone _ =>
      rw [hnone] at hpin
      cases hpin
    | pinned p' slot' hold _ hpin' hslot' hheld _ _ =>
      obtain rfl := Option.some.inj (hpin'.symm.trans hpin)
      obtain rfl := Option.some.inj (hslot'.symm.trans hslot)
      exact ⟨hold, hheld⟩
    | passed _ hnone _ =>
      rw [hnone] at hpin
      cases hpin

/-- What an event of an arm does to its slot. -/
theorem pushArm_held {hold : Hold} (hheld : s.held a.slot = some hold) :
    consumes (s.pushArm a isUp foreground routeLive).2 = hold.origin ∧
      (isUp = false → SameHolds s (s.pushArm a isUp foreground routeLive).1 ∧
        (s.pushArm a isUp foreground routeLive).1.vkRemap = s.vkRemap) ∧
      (isUp = true → (s.pushArm a isUp foreground routeLive).1 =
        { s with held := Function.update s.held a.slot none }) := by
  unfold pushArm
  rw [hheld]
  cases isUp with
  | true => exact ⟨rfl, fun h => Bool.noConfusion h, fun _ => rfl⟩
  | false =>
    dsimp only
    rw [if_neg Bool.false_ne_true]
    by_cases horigin : hold.origin = true
    · rw [if_pos horigin, horigin]
      refine ⟨rfl, fun _ => ?_, fun h => Bool.noConfusion h⟩
      dsimp only
      split <;> exact ⟨⟨rfl, rfl, rfl⟩, rfl⟩
    · rw [if_neg horigin, Bool.eq_false_iff.mpr horigin]
      exact ⟨rfl, fun _ => ⟨⟨rfl, rfl, rfl⟩, rfl⟩, fun h => Bool.noConfusion h⟩

/-- The arm of an open hold works on its slot: of the G halves only one is
open. -/
theorem armOf_owned {slot : Slot} {hold : Hold} (h : s.armOf physical canon action = some a)
    (hslot : slotOf action canon = some slot) (hheld : s.held slot = some hold)
    (hhalf : s.held .float = none ∨ s.held .sticky = none) : a.slot = slot := by
  rcases armOf_slot h with hsame | ⟨rfl | rfl, hg⟩
  · exact Option.some.inj (hsame.symm.trans hslot)
  · obtain rfl := Option.some.inj hslot
    rw [hg, gHalf, hheld]
    rfl
  · obtain rfl := Option.some.inj hslot
    rcases hhalf with hfloat | hsticky
    · rw [hg, gHalf, hfloat, hheld]
      rfl
    · rw [hsticky] at hheld
      cases hheld

theorem armOf_physPin {physPin : Vk → Option PinnedRoute} :
    ({ s with physPin } : SnapClassify).armOf physical canon action = s.armOf physical canon action := by
  cases action <;> rfl

/-- The verdict and the world after an event of a key with a pinned hold: a
repeat keeps it, and its up ends it together with the slot. -/
theorem pushKey_pinned {g : Presses} {b : Bool} (hp : Paired s g)
    {p : PinnedRoute} {slot : Slot} {hold : Hold}
    (hcollide : vk < pinKeys → s.collide vk = none) (hpin : s.pinGet vk = some p)
    (hslot : slotOf p.action p.canon = some slot) (hheld : s.held slot = some hold)
    (hverdict : hold.origin = b) (harm : (s.armOf vk p.canon p.action).isSome = true) :
    consumes (s.pushKey vk isUp foreground).2 = b ∧
      (isUp = false → Paired (s.pushKey vk isUp foreground).1 g) ∧
      (isUp = true → Paired (s.pushKey vk isUp foreground).1 (Function.update g vk none) ∧
        Others s (s.pushKey vk isUp foreground).1 vk) := by
  obtain ⟨a, ha⟩ := Option.isSome_iff_exists.mp harm
  have haslot : a.slot = slot := armOf_owned ha hslot hheld hp.half
  have hvk : vk < pinKeys := by
    unfold pinGet at hpin
    split at hpin
    · assumption
    · cases hpin
  have hnocollide : (if vk < pinKeys then s.collide vk else none) = none := by
    rw [if_pos hvk, hcollide hvk]
  unfold pushKey
  rw [hnocollide, hpin]
  dsimp only
  cases isUp with
  | false =>
    rw [if_neg Bool.false_ne_true, pushOwned_eq, ha]
    obtain ⟨hconsumes, hsame, -⟩ := @pushArm_held s a false foreground (s.routeMatches vk p) hold
      (by rw [haslot]; exact hheld)
    obtain ⟨hholds, htables⟩ := hsame rfl
    exact ⟨hconsumes.trans hverdict, fun _ => hp.of_same hholds htables, fun h => Bool.noConfusion h⟩
  | true =>
    have htake : s.pinTake vk = { s with physPin := Function.update s.physPin vk none } := by
      rw [pinTake, if_pos hvk]
    rw [if_pos rfl, htake, pushOwned_eq, armOf_physPin, ha]
    obtain ⟨hconsumes, -, hclosed⟩ :=
      @pushArm_held { s with physPin := Function.update s.physPin vk none } a true foreground true hold
        (by rw [haslot]; exact hheld)
    refine ⟨hconsumes.trans hverdict, fun h => Bool.noConfusion h, fun _ => ?_⟩
    dsimp only
    rw [hclosed rfl, haslot]
    have hothers : Others s { s with
        physPin := Function.update s.physPin vk none, held := Function.update s.held slot none } vk := by
      refine ⟨fun k _ => rfl, fun k hk => ?_, fun k hk p' slot' hpin' hslot' => ?_⟩
      · show (if k < pinKeys then Function.update s.physPin vk none k else none) = _
        rw [Function.update_of_ne hk]
        rfl
      · refine Function.update_of_ne (fun heq => hk ?_) _ _
        exact hp.apart k vk p' p hpin' hpin (by rw [hslot', hslot, heq])
    have hgone : (if vk < pinKeys then Function.update s.physPin vk none vk else none) = none := by
      rw [Function.update_self, ite_self]
    refine ⟨hp.update hothers ⟨hcollide, hgone⟩ ?_ ?_ rfl, hothers⟩
    · intro p' hp'
      have hgone' : (none : Option PinnedRoute) = some p' := hgone.symm.trans hp'
      cases hgone'
    · rcases hp.half with h | h
      · refine .inl ?_
        show Function.update s.held slot none .float = none
        rw [Function.update_apply, h, ite_self]
      · refine .inr ?_
        show Function.update s.held slot none .sticky = none
        rw [Function.update_apply, h, ite_self]

/-- The verdict and the world after an event of a key on a colliding hold. -/
theorem pushKey_collided {g : Presses} {b : Bool} (hp : Paired s g)
    {tmpl : Classified} (hvk : vk < pinKeys) (hcollide : s.collide vk = some tmpl)
    (hpin : s.pinGet vk = none) (hverdict : tmpl.consumed = b) :
    consumes (s.pushKey vk isUp foreground).2 = b ∧
      (isUp = false → Paired (s.pushKey vk isUp foreground).1 g) ∧
      (isUp = true → Paired (s.pushKey vk isUp foreground).1 (Function.update g vk none) ∧
        Others s (s.pushKey vk isUp foreground).1 vk) := by
  unfold pushKey
  rw [if_pos hvk, hcollide]
  dsimp only
  cases isUp with
  | false =>
    refine ⟨hverdict, fun _ => ?_, fun h => Bool.noConfusion h⟩
    refine hp.of_same ?_ ?_
    · rw [if_neg Bool.false_ne_true]
      dsimp only
      split <;> exact ⟨rfl, rfl, rfl⟩
    · rw [if_neg Bool.false_ne_true]
      dsimp only
      split <;> rfl
  | true =>
    refine ⟨hverdict, fun h => Bool.noConfusion h, fun _ => ?_⟩
    have hothers : Others s { s with collide := Function.update s.collide vk none } vk :=
      ⟨fun k hk => Function.update_of_ne hk _ _, fun k _ => rfl, fun k _ p slot _ _ => rfl⟩
    refine ⟨hp.update hothers ⟨fun _ => Function.update_self _ _ _, hpin⟩ ?_ hp.half rfl, hothers⟩
    intro p hp'
    have hnone : (none : Option PinnedRoute) = some p := hpin.symm.trans hp'
    cases hnone

/-! ## Fresh downs -/

theorem catalogIndex_lt {idx : Nat} (h : catalogIndex vk = some idx) : vk < pinKeys := by
  unfold catalogIndex at h
  repeat' split at h
  all_goals first
    | (subst vk; decide)
    | cases h

/-- A key of the chord catalog that has a pin slot, so its presses can be
followed to their releases. -/
def Catalogued (vk : Vk) : Prop := isChordVk vk = true ∧ vk < pinKeys

theorem catalogued_of_catalog (h : (catalogIndex vk).isSome = true) : Catalogued vk := by
  obtain ⟨idx, hidx⟩ := Option.isSome_iff_exists.mp h
  exact ⟨by simp [isChordVk, h], catalogIndex_lt hidx⟩

theorem catalogued_of_digit (h : isDigitVk vk = true) : Catalogued vk := by
  refine ⟨by simp [isChordVk, h], ?_⟩
  have hle : vk ≤ vk9 := of_decide_eq_true (Bool.and_eq_true_iff.mp h).2
  exact Nat.lt_of_le_of_lt hle (by decide)

theorem catalogued_of_delta (h : (relativeSendDelta vk).isSome = true) : Catalogued vk := by
  unfold relativeSendDelta at h
  split at h
  · rename_i hvk
    rcases hvk with rfl | rfl | rfl | rfl <;> exact ⟨by decide, by decide⟩
  · split at h
    · rename_i hvk
      rcases hvk with rfl | rfl | rfl | rfl <;> exact ⟨by decide, by decide⟩
    · cases h

theorem catalogued_of_op (h : (historyOpForVk vk).isSome = true) : Catalogued vk := by
  unfold historyOpForVk at h
  split at h
  · rename_i hvk
    subst hvk
    exact ⟨by decide, by decide⟩
  · split at h
    · rename_i hvk
      rcases hvk with rfl | rfl | rfl | rfl <;> exact ⟨by decide, by decide⟩
    · split at h
      · rename_i hvk
        rcases hvk with rfl | rfl | rfl | rfl <;> exact ⟨by decide, by decide⟩
      · cases h

/-- The keys a direct action names. -/
theorem directAction_keys (h : s.directAction vk = some action) :
    (relativeSendDelta vk).isSome = true ∨ (historyOpForVk vk).isSome = true ∨
      (catalogIndex vk).isSome = true ∨ isDigitVk vk = true ∨ vk = vkM ∨ vk = vkF11 ∨ vk = vkO ∨
        vk = vkG := by
  by_contra hnone
  simp only [not_or, Bool.not_eq_true] at hnone
  obtain ⟨hdelta, hop, hcatalog, hdigit, hm, hf, ho, hg⟩ := hnone
  have hmax : isMaximizeVk vk = false := beq_eq_false_iff_ne.mpr hm
  have hfull : isFullscreenVk vk = false := beq_eq_false_iff_ne.mpr hf
  have horient : isOrientationVk vk = false := beq_eq_false_iff_ne.mpr ho
  have hfloat : isFloatVk vk = false := beq_eq_false_iff_ne.mpr hg
  unfold directAction at h
  simp [hdelta, hop, hcatalog, hdigit, hmax, hfull, horient, hfloat] at h

/-- A chord that routes directly is a key of the catalog. -/
theorem directAction_catalogued (h : s.directAction vk = some action) : Catalogued vk := by
  rcases directAction_keys h with h | h | h | h | rfl | rfl | rfl | rfl
  · exact catalogued_of_delta h
  · exact catalogued_of_op h
  · exact catalogued_of_catalog h
  · exact catalogued_of_digit h
  all_goals exact ⟨by decide, by decide⟩

/-- A routed chord has a pin slot: rebound keys by the tables, the others as
catalog keys. -/
theorem chord_pins {remapped : Bool} (htables : ∀ entry ∈ s.vkRemap, entry.fromVk < pinKeys)
    (h : s.chord vk = some (action, canon, remapped)) :
    vk < pinKeys ∧ (remapped || isChordVk vk) = true := by
  unfold chord at h
  split at h
  · cases h
  obtain ⟨hrouted, -⟩ := Option.filter_eq_some_iff.mp h
  unfold routed freshRoute at hrouted
  cases hfind : s.vkRemap.find? fun entry => entry.fromVk == vk && entry.fromShift == s.shift &&
      entry.fromCtrl == s.ctrl && entry.fromAlt == s.alt with
  | some entry =>
    rw [hfind] at hrouted
    cases hrouted
    have hmatch := List.find?_some hfind
    simp only [Bool.and_eq_true, beq_iff_eq] at hmatch
    refine ⟨?_, rfl⟩
    rw [← hmatch.1.1.1]
    exact htables entry (List.mem_of_find?_eq_some hfind)
  | none =>
    rw [hfind] at hrouted
    dsimp only at hrouted
    split at hrouted
    · rename_i heq
      split at heq <;> cases heq
      cases hrouted
    · rename_i heq
      split at heq <;> cases heq
    · obtain ⟨direct, hdirect, heq⟩ := Option.map_eq_some_iff.mp hrouted
      cases heq
      obtain ⟨hchord, hlt⟩ := directAction_catalogued hdirect
      exact ⟨hlt, by rw [hchord]; rfl⟩

theorem pushFresh_none (h : s.chord vk = none) : s.pushFresh vk foreground = (s, none) := by
  unfold chord at h
  unfold pushFresh
  by_cases hwin : (!s.winHeld) = true
  · rw [if_pos hwin]
  · rw [if_neg hwin] at h ⊢
    cases hrouted : s.routed vk with
    | none => rfl
    | some r =>
      rw [hrouted, Option.filter_some] at h
      split at h
      · cases h
      · rename_i hfenced
        rw [Bool.not_eq_true', Bool.not_eq_false] at hfenced
        dsimp only
        rw [if_pos hfenced]

theorem pushFresh_some {remapped : Bool} (h : s.chord vk = some (action, canon, remapped)) :
    s.pushFresh vk foreground =
      if s.canonIsDown action canon then
        if !s.taking then (s, none)
        else
          match s.heldShape action canon with
          | none => (s, none)
          | some shape =>
            let down := collideRefusal shape .down foreground true
            let s := if vk < pinKeys then
                { s with collide := Function.update s.collide vk (some down) } else s
            (s.arm (collideTrigger shape), some down)
      else
        let s := if remapped || isChordVk vk then s.pinSet vk ⟨canon, action⟩ else s
        s.pushOwned vk canon action false foreground true := by
  unfold chord at h
  unfold pushFresh
  by_cases hwin : (!s.winHeld) = true
  · rw [if_pos hwin] at h
    cases h
  · rw [if_neg hwin] at h ⊢
    obtain ⟨hrouted, hfenced⟩ := Option.filter_eq_some_iff.mp h
    rw [hrouted]
    dsimp only at hfenced ⊢
    rw [Bool.not_eq_true'] at hfenced
    exact if_neg (by rw [hfenced]; exact Bool.false_ne_true)

/-- A fresh down of an arm opens its slot with the verdict it gives. -/
theorem pushArm_fresh {shape : Shape} (hheld : s.held a.slot = none) (hfresh : a.fresh = some shape) :
    ∃ hold, hold.origin = s.taking ∧ consumes (s.pushArm a false foreground true).2 = hold.origin ∧
      (s.pushArm a false foreground true).1.held = Function.update s.held a.slot (some hold) ∧
      (s.pushArm a false foreground true).1.physPin = s.physPin ∧
      (s.pushArm a false foreground true).1.collide = s.collide ∧
      (s.pushArm a false foreground true).1.vkRemap = s.vkRemap := by
  refine ⟨⟨s.taking && true, shape, s.ctrl⟩, Bool.and_true _, ?_⟩
  unfold pushArm
  rw [hheld, hfresh]
  dsimp only
  rw [if_neg Bool.false_ne_true]
  dsimp only
  split <;> exact ⟨rfl, rfl, rfl, rfl, rfl⟩

theorem slotOf_half {slot : Slot} (h : slotOf action canon = some slot)
    (hhalf : slot = .float ∨ slot = .sticky) : action = .float ∨ action = .sticky := by
  have hmap : ∀ {o : Option Nat} {f : Nat → Slot}, (∀ i, f i ≠ .float ∧ f i ≠ .sticky) →
      o.map f ≠ some slot := by
    intro o f hf heq
    obtain ⟨i, -, rfl⟩ := Option.map_eq_some_iff.mp heq
    exact hhalf.elim (hf i).1 (hf i).2
  cases action with
  | float => exact .inl rfl
  | sticky => exact .inr rfl
  | maximize | orientation | fullscreen =>
    obtain rfl := Option.some.inj h
    exact hhalf.elim (fun h => Slot.noConfusion h) fun h => Slot.noConfusion h
  | workspaceDigit | workspaceStayDigit =>
    rw [slotOf] at h
    split at h
    · obtain rfl := Option.some.inj h
      exact hhalf.elim (fun h => Slot.noConfusion h) fun h => Slot.noConfusion h
    · cases h
  | directional => exact absurd h (hmap fun _ => ⟨Slot.noConfusion, Slot.noConfusion⟩)
  | resizeOut | resizeIn => exact absurd h (hmap fun _ => ⟨Slot.noConfusion, Slot.noConfusion⟩)
  | workspacePrevious | workspacePrev | workspaceNext =>
    exact absurd h (hmap fun _ => ⟨Slot.noConfusion, Slot.noConfusion⟩)
  | workspaceSendPrev | workspaceSendNext | workspaceSendStayPrev | workspaceSendStayNext =>
    exact absurd h (hmap fun _ => ⟨Slot.noConfusion, Slot.noConfusion⟩)

/-- A slot that opens leaves at most one half of the G key open: a half opens
only while both are closed. -/
theorem half_of_opens {slot : Slot} {hold : Hold} (ha : s.armOf physical canon action = some a)
    (hslot : a.slot = slot) (hroute : slotOf action canon = some slot) (hclosed : s.held slot = none)
    (hhalf : s.held .float = none ∨ s.held .sticky = none) :
    Function.update s.held slot (some hold) .float = none ∨
      Function.update s.held slot (some hold) .sticky = none := by
  rw [Function.update_apply, Function.update_apply]
  by_cases hg : slot = .float ∨ slot = .sticky
  · have hpick : slot = if s.gHalf then .sticky else .float := by
      rcases slotOf_half hroute hg with rfl | rfl <;>
        (obtain rfl := Option.some.inj ha; exact hslot.symm)
    have hboth : s.held .float = none ∧ s.held .sticky = none := by
      rw [gHalf] at hpick
      cases hfloat : s.held .float with
      | some other =>
        rw [hfloat] at hpick
        rw [show slot = .float from hpick, hfloat] at hclosed
        cases hclosed
      | none =>
        cases hsticky : s.held .sticky with
        | none => exact ⟨rfl, rfl⟩
        | some other =>
          rw [hfloat, hsticky] at hpick
          rw [show slot = .sticky from hpick, hsticky] at hclosed
          cases hclosed
    rcases hg with rfl | rfl
    · exact .inr hboth.2
    · exact .inl hboth.1
  · rw [not_or] at hg
    rw [if_neg fun h => hg.1 h.symm, if_neg fun h => hg.2 h.symm]
    exact hhalf

theorem untracked_of (hcollide : vk < pinKeys → s.collide vk = none) (hpin : s.pinGet vk = none) :
    s.untracked vk = true := by
  unfold untracked
  rw [hpin]
  by_cases hvk : vk < pinKeys
  · rw [hcollide hvk]
    simp
  · simp [hvk]

/-- A fresh down of a fitting event fixes the verdict of its press, and passes
unless chords are taken. -/
theorem pushFresh_paired {g : Presses} (hp : Paired s g)
    (hcollide : vk < pinKeys → s.collide vk = none) (hpin : s.pinGet vk = none)
    (hfit : FitDown s g vk) :
    Paired (s.pushFresh vk foreground).1
        (Function.update g vk (some (consumes (s.pushFresh vk foreground).2))) ∧
      (s.taking = false → consumes (s.pushFresh vk foreground).2 = false) := by
  have huntracked := untracked_of hcollide hpin
  have hpassed : s.pushFresh vk foreground = (s, none) →
      Paired (s.pushFresh vk foreground).1
          (Function.update g vk (some (consumes (s.pushFresh vk foreground).2))) ∧
        (s.taking = false → consumes (s.pushFresh vk foreground).2 = false) := by
    intro heq
    rw [heq]
    refine ⟨?_, fun _ => rfl⟩
    refine hp.update (SameHolds.others ⟨rfl, rfl, rfl⟩) (.passed hcollide hpin rfl) ?_ hp.half rfl
    intro p hp'
    rw [hpin] at hp'
    cases hp'
  cases hchord : s.chord vk with
  | none => exact hpassed (pushFresh_none hchord)
  | some r =>
    obtain ⟨action, canon, remapped⟩ := r
    obtain ⟨hvk, hpins⟩ := chord_pins hp.tables hchord
    have hfresh := @pushFresh_some s canon vk action foreground remapped hchord
    by_cases hdown : s.canonIsDown action canon = true
    · by_cases htaking : (!s.taking) = true
      · exact hpassed (by rw [hfresh, if_pos hdown, if_pos htaking])
      · obtain ⟨hold, hhold⟩ := Option.isSome_iff_exists.mp hdown
        have hshape : s.heldShape action canon = some ⟨hold.shape, .down, true, hold.origin, false⟩ := by
          rw [heldShape, hhold]
          rfl
        rw [if_pos hdown, if_neg htaking, hshape] at hfresh
        rw [hfresh]
        dsimp only
        rw [if_pos hvk]
        have hothers : Others s (({ s with collide := Function.update s.collide vk (some
            (collideRefusal ⟨hold.shape, .down, true, hold.origin, false⟩ .down foreground true)) } :
              SnapClassify).arm (collideTrigger ⟨hold.shape, .down, true, hold.origin, false⟩)) vk :=
          ⟨fun k hk => Function.update_of_ne hk _ _, fun k _ => rfl, fun k _ p slot _ _ => rfl⟩
        refine ⟨?_, fun hoff => absurd (by rw [hoff]; rfl) htaking⟩
        refine hp.update hothers (.collided _ hvk (Function.update_self _ _ _) hpin rfl) ?_ hp.half rfl
        intro p hp'
        have hnone : (none : Option PinnedRoute) = some p := hpin.symm.trans hp'
        cases hnone
    · -- the slot is closed, so the down opens it
      have hopens := (hfit action canon remapped hchord huntracked).1
        (Bool.eq_false_iff.mpr hdown)
      obtain ⟨a, ha, hmatch⟩ := (Option.any_eq_true _ _).mp hopens
      obtain ⟨hfreshSome, hroute⟩ := Bool.and_eq_true_iff.mp hmatch
      have hroute := beq_iff_eq.mp hroute
      obtain ⟨shape, hshape⟩ := Option.isSome_iff_exists.mp hfreshSome
      have hclosed : s.held a.slot = none := by
        unfold canonIsDown at hdown
        rw [hroute, Option.bind_some] at hdown
        exact Option.not_isSome_iff_eq_none.mp hdown
      have hset : s.pinSet vk ⟨canon, action⟩ =
          { s with physPin := Function.update s.physPin vk (some ⟨canon, action⟩) } := by
        rw [pinSet, if_pos hvk]
      rw [if_neg hdown, hpins] at hfresh
      dsimp only at hfresh
      rw [if_pos rfl, hset, pushOwned_eq, armOf_physPin, ha] at hfresh
      obtain ⟨hold, horigin, hconsumes, hheld, hphys, hcoll, htables⟩ := @pushArm_fresh
        { s with physPin := Function.update s.physPin vk (some ⟨canon, action⟩) } a foreground shape
        hclosed hshape
      rw [hfresh]
      dsimp only
      rw [hconsumes]
      refine ⟨?_, fun hoff => horigin.trans hoff⟩
      generalize (pushArm _ a false foreground true).1 = t at hheld hphys hcoll htables
      have hown : t.pinGet vk = some ⟨canon, action⟩ := by
        rw [pinGet, if_pos hvk, hphys]
        exact Function.update_self _ _ _
      have hothers : Others s t vk := by
        refine ⟨fun k _ => by rw [hcoll], fun k hk => ?_, fun k hk p slot hkpin hkslot => ?_⟩
        · rw [pinGet, pinGet, hphys]
          dsimp only
          rw [Function.update_of_ne hk]
        · obtain ⟨other, hother⟩ := hp.owner hkpin hkslot
          rw [hheld]
          refine Function.update_of_ne (fun heq => ?_) _ _
          rw [heq, hclosed] at hother
          cases hother
      refine hp.update hothers (.pinned ⟨canon, action⟩ a.slot hold ?_ hown hroute ?_ rfl ?_) ?_ ?_ htables
      · rw [hcoll]
        exact hcollide
      · rw [hheld]
        exact Function.update_self _ _ _
      · rw [armOf_isSome _ s, ha]
        rfl
      · intro p hpown k hk p' hkpin hsame
        obtain rfl := Option.some.inj (hown.symm.trans hpown)
        obtain ⟨other, hother⟩ := hp.owner hkpin (hsame.symm.trans hroute)
        rw [hclosed] at hother
        cases hother
      · rw [hheld]
        exact half_of_opens ha rfl hroute hclosed hp.half

/-- The repeat of a passed press passes, whether it opens a hold or not. -/
theorem pushFresh_repeats {g : Presses} (hp : Paired s g) (hg : g vk = some false)
    (hcollide : vk < pinKeys → s.collide vk = none) (hpin : s.pinGet vk = none)
    (hfit : FitDown s g vk) :
    consumes (s.pushFresh vk foreground).2 = false ∧ Paired (s.pushFresh vk foreground).1 g := by
  obtain ⟨hpaired, hoff⟩ := @pushFresh_paired s vk foreground g hp hcollide hpin hfit
  have hpasses : consumes (s.pushFresh vk foreground).2 = false := by
    cases hchord : s.chord vk with
    | none =>
      rw [pushFresh_none hchord]
      rfl
    | some r =>
      obtain ⟨action, canon, remapped⟩ := r
      exact hoff ((hfit action canon remapped hchord (untracked_of hcollide hpin)).2 (by rw [hg]; rfl))
  refine ⟨hpasses, ?_⟩
  rw [hpasses, ← hg, Function.update_eq_self] at hpaired
  exact hpaired

/-! ## One event -/

/-- An event of a classified key, by what the key holds: nothing, a collided
chord, or a pin. In each case its verdict is that of its press, and the other
keys' holds stay. -/
theorem pushKey_paired {g : Presses} (hp : Paired s g)
    (hfit : isUp = false → FitDown s g vk) :
    (∀ b, g vk = some b → consumes (s.pushKey vk isUp foreground).2 = b) ∧
      (isUp = true → Paired (s.pushKey vk isUp foreground).1 (Function.update g vk none) ∧
        Others s (s.pushKey vk isUp foreground).1 vk) ∧
      (isUp = false → Paired (s.pushKey vk isUp foreground).1
        (if (g vk).isSome then g
          else Function.update g vk (some (consumes (s.pushKey vk isUp foreground).2)))) := by
  -- a key that holds nothing: its up passes, its down is a fresh one
  have huntracked : (vk < pinKeys → s.collide vk = none) → s.pinGet vk = none →
      s.pushKey vk isUp foreground = if isUp then (s, none) else s.pushFresh vk foreground := by
    intro hcollide hpin
    have hnocollide : (if vk < pinKeys then s.collide vk else none) = none := by
      split
      · exact hcollide ‹_›
      · rfl
    unfold pushKey
    rw [hnocollide, hpin]
  have hreleased : (vk < pinKeys → s.collide vk = none) → s.pinGet vk = none →
      Paired s (Function.update g vk none) ∧ Others s s vk := by
    intro hcollide hpin
    have hothers : Others s s vk := SameHolds.others ⟨rfl, rfl, rfl⟩
    refine ⟨hp.update hothers ⟨hcollide, hpin⟩ ?_ hp.half rfl, hothers⟩
    intro p hp'
    rw [hpin] at hp'
    cases hp'
  cases hg : g vk with
  | none =>
    obtain ⟨hcollide, hpin⟩ := hp.idle vk hg
    rw [huntracked hcollide hpin]
    refine ⟨fun b hb => (Option.some_ne_none b hb.symm).elim, fun hup => ?_, fun hdown => ?_⟩
    · rw [if_pos hup]
      exact hreleased hcollide hpin
    · rw [hdown, if_neg Bool.false_ne_true, if_neg (by decide)]
      exact (pushFresh_paired hp hcollide hpin (hfit hdown)).1
  | some b =>
    -- one verdict per way of holding
    have hone : consumes (s.pushKey vk isUp foreground).2 = b ∧
        (isUp = false → Paired (s.pushKey vk isUp foreground).1 g) ∧
        (isUp = true → Paired (s.pushKey vk isUp foreground).1 (Function.update g vk none) ∧
          Others s (s.pushKey vk isUp foreground).1 vk) := by
      cases hp.tracked vk b hg with
      | collided tmpl hvk hcollide hpin hverdict =>
        exact pushKey_collided hp hvk hcollide hpin hverdict
      | pinned p slot hold hcollide hpin hslot hheld hverdict harm =>
        exact pushKey_pinned hp hcollide hpin hslot hheld hverdict harm
      | passed hcollide hpin hverdict =>
        rw [huntracked hcollide hpin]
        subst hverdict
        cases isUp with
        | true => exact ⟨rfl, fun h => Bool.noConfusion h, fun _ => hreleased hcollide hpin⟩
        | false =>
          rw [if_neg Bool.false_ne_true]
          obtain ⟨hpasses, hpaired⟩ := @pushFresh_repeats s vk foreground g hp hg hcollide hpin (hfit rfl)
          exact ⟨hpasses, fun _ => hpaired, fun h => Bool.noConfusion h⟩
    refine ⟨fun b' hb => ?_, hone.2.2, fun hdown => ?_⟩
    · rw [hone.1]
      exact Option.some.inj hb
    · rw [if_pos (show (some b).isSome = true from rfl)]
      exact hone.2.1 hdown

theorem winUpNeedsMask_same : SameHolds s (s.winUpNeedsMask vk true).1 ∧
    (s.winUpNeedsMask vk true).1.vkRemap = s.vkRemap := by
  have hreleased : SameHolds s (s.released vk) ∧ (s.released vk).vkRemap = s.vkRemap := by
    unfold released
    split <;> exact ⟨⟨rfl, rfl, rfl⟩, rfl⟩
  obtain ⟨⟨hheld, hpin, hcollide⟩, htables⟩ := hreleased
  rcases @winUpNeedsMask_cases s vk with ⟨-, -, heq⟩ | ⟨-, heq⟩ | ⟨-, heq⟩ <;> rw [heq]
  · exact ⟨⟨hheld, hpin, hcollide⟩, htables⟩
  · dsimp only
    split <;> exact ⟨⟨hheld, hpin, hcollide⟩, htables⟩
  · exact ⟨⟨hheld, hpin, hcollide⟩, htables⟩

theorem noteWinDown_same : SameHolds s (s.noteWinDown vk) ∧
    (s.noteWinDown vk).vkRemap = s.vkRemap := by
  unfold noteWinDown
  dsimp only
  split <;> split <;> exact ⟨⟨rfl, rfl, rfl⟩, rfl⟩

theorem pushModifier_same : SameHolds s (s.pushModifier vk isUp) ∧
    (s.pushModifier vk isUp).vkRemap = s.vkRemap := by
  unfold pushModifier
  split
  · exact ⟨⟨rfl, rfl, rfl⟩, rfl⟩
  · split <;> exact ⟨⟨rfl, rfl, rfl⟩, rfl⟩

theorem noteWindragConsumed_same : SameHolds s s.noteWindragConsumed ∧
    s.noteWindragConsumed.vkRemap = s.vkRemap := by
  unfold noteWindragConsumed
  split <;> exact ⟨⟨rfl, rfl, rfl⟩, rfl⟩

/-- An event of a Win key or a modifier leaves the holds alone. -/
theorem next_unclassified {queue : SnapQueue} (h : isChordKey vk = false) :
    SameHolds s (s.next (.key vk isUp foreground queue)) ∧
      (s.next (.key vk isUp foreground queue)).vkRemap = s.vkRemap := by
  have hmodifier : isWinVk vk = false → isModifierVk vk = true := by
    intro hwin
    rw [isChordKey, hwin] at h
    simpa using h
  show SameHolds s (if isUp && isWinVk vk then _ else _) ∧
    (if isUp && isWinVk vk then _ else _ : SnapClassify).vkRemap = s.vkRemap
  by_cases hwin : isWinVk vk = true
  · cases isUp with
    | true =>
      rw [hwin, if_pos (by rfl), winUpMaskReserve_eq.1]
      exact winUpNeedsMask_same
    | false =>
      rw [hwin, if_neg (by decide), push, if_neg Bool.false_ne_true, if_pos hwin]
      exact noteWinDown_same
  · rw [Bool.not_eq_true] at hwin
    rw [hwin, Bool.and_false, if_neg Bool.false_ne_true, push, if_neg Bool.false_ne_true, hwin,
      if_neg Bool.false_ne_true, if_pos (hmodifier hwin)]
    exact pushModifier_same

/-- An event of a classified key is one of `pushKey`. -/
theorem next_classified {queue : SnapQueue} (h : isChordKey vk = true) :
    s.next (.key vk isUp foreground queue) = (s.pushKey vk isUp foreground).1 ∧
      s.answer (.key vk isUp foreground queue) = (s.pushKey vk isUp foreground).2 := by
  obtain ⟨hwin, hmodifier⟩ := Bool.and_eq_true_iff.mp h
  rw [Bool.not_eq_true'] at hwin hmodifier
  have hpush : s.push vk isUp foreground false = s.pushKey vk isUp foreground := by
    rw [push, hwin, hmodifier]
    rfl
  rw [← hpush, next, answer, hwin, Bool.and_false]
  exact ⟨rfl, rfl⟩

/-- An event that is not one of a classified key agrees with every press. -/
theorem agrees_unclassified {g : Presses} {e : Event}
    (h : ∀ vk isUp foreground queue, e = .key vk isUp foreground queue → isChordKey vk = false) :
    Agrees s g e where
  verdict vk isUp foreground queue he hchord :=
    absurd (hchord.symm.trans (h vk isUp foreground queue he)) (by decide)
  others vk foreground queue he hchord :=
    absurd (hchord.symm.trans (h vk true foreground queue he)) (by decide)

/-- An event that fits keeps the pairing and has the verdict of its press.
Keys outside the catalog hold nothing and change nothing that a hold depends
on. -/
theorem next_paired {g : Presses} {e : Event} (hp : Paired s g) (hfit : Fit s g e) :
    Paired (s.next e) (g.next s e) ∧ Agrees s g e := by
  cases e with
  | key vk isUp foreground queue =>
    cases hchord : isChordKey vk with
    | false =>
      obtain ⟨hsame, htables⟩ := @next_unclassified s vk isUp foreground queue hchord
      refine ⟨?_, agrees_unclassified ?_⟩
      · rw [Presses.next, hchord]
        exact hp.of_same hsame htables
      · rintro k _ _ _ heq
        cases heq
        exact hchord
    | true =>
      obtain ⟨hnext, hanswer⟩ := @next_classified s vk isUp foreground queue hchord
      obtain ⟨hverdict, hup, hdown⟩ := @pushKey_paired s vk isUp foreground g hp (by
        rintro rfl
        exact hfit hchord)
      refine ⟨?_, ?_, ?_⟩
      · rw [hnext, Presses.next, hanswer, hchord, if_neg (by decide)]
        cases isUp with
        | true =>
          rw [if_pos rfl]
          exact (hup rfl).1
        | false =>
          rw [if_neg Bool.false_ne_true]
          exact hdown rfl
      · rintro k _ _ _ heq - b hb
        cases heq
        rw [hanswer]
        exact hverdict b hb
      · rintro k _ _ heq - other hother hopen
        cases heq
        rw [hnext]
        exact (hup rfl).2.keyIsDown hother hopen
  | windrag =>
    obtain ⟨hsame, htables⟩ := @noteWindragConsumed_same s
    exact ⟨hp.of_same hsame htables, agrees_unclassified fun _ _ _ _ h => Event.noConfusion h⟩
  | setEnabled enabled =>
    have hsame : SameHolds s (s.next (.setEnabled enabled)) := ⟨rfl, rfl, rfl⟩
    exact ⟨hp.of_same hsame rfl, agrees_unclassified fun _ _ _ _ h => Event.noConfusion h⟩
  | setGateActive gateActive =>
    have hsame : SameHolds s (s.next (.setGateActive gateActive)) := ⟨rfl, rfl, rfl⟩
    exact ⟨hp.of_same hsame rfl, agrees_unclassified fun _ _ _ _ h => Event.noConfusion h⟩
  | setDisabled disabled =>
    have hsame : SameHolds s (s.next (.setDisabled disabled)) := ⟨rfl, rfl, rfl⟩
    exact ⟨hp.of_same hsame rfl, agrees_unclassified fun _ _ _ _ h => Event.noConfusion h⟩
  | setRemap remap =>
    -- an open hold keeps its pin, so new tables only have to name physical keys
    have hsame : SameHolds s (s.next (.setRemap remap)) := ⟨rfl, rfl, rfl⟩
    exact ⟨⟨hp.idle, fun vk b hg => (hp.tracked vk b hg).of_same hsame, hp.apart, hp.half, hfit⟩,
      agrees_unclassified fun _ _ _ _ h => Event.noConfusion h⟩

/-! ## Whole runs -/

theorem new_paired {config : KeyboardConfig} : Paired (new config) fun _ => none where
  idle vk _ := ⟨fun _ => rfl, by rw [pinGet]; exact ite_self _⟩
  tracked vk b h := (Option.some_ne_none b h.symm).elim
  apart vk vk' p p' h := by
    rw [pinGet] at h
    split at h <;> cases h
  half := .inl rfl
  tables entry h := absurd h List.not_mem_nil

theorem everyStep_agrees {g : Presses} {es : List Event} (hp : Paired s g)
    (hfit : EveryStep Fit s g es) : EveryStep Agrees s g es := by
  induction es generalizing s g with
  | nil => trivial
  | cons e es ih =>
    obtain ⟨hhead, hrest⟩ := hfit
    obtain ⟨hnext, hagrees⟩ := next_paired hp hhead
    exact ⟨hagrees, ih hnext hrest⟩

/-- While every down fits, all events of one press have one verdict and no
release closes another key's hold. -/
theorem presses_kept (config : KeyboardConfig) (es : List Event)
    (hfit : EveryStep Fit (new config) (fun _ => none) es) :
    EveryStep Agrees (new config) (fun _ => none) es :=
  everyStep_agrees new_paired hfit

/-- Win+H, held for a repeat. -/
theorem presses_kept_chord : EveryStep Agrees (new ⟨true, false⟩) (fun _ => none)
    [press vkLWin, press vkH, press vkH, release vkH, release vkLWin] :=
  presses_kept ⟨true, false⟩ _ (by decide +kernel)

/-- Win+Shift+M is refused without a pin, so M passes; with Shift released its
repeat is a fresh Win+M, and the OS sees the down of M without its up. -/
theorem tornPress : ¬∀ config es, EveryStep Agrees (new config) (fun _ => none) es := by
  intro h
  obtain ⟨-, -, -, -, hrepeat, -⟩ := h ⟨true, false⟩
    [press vkLWin, press vkShift, press vkM, release vkShift, press vkM, release vkM]
  have hpassed := hrepeat.verdict vkM false true .new rfl rfl false (by decide +kernel)
  revert hpassed
  decide +kernel

end SnapClassify

end Snapkey

end PlasmaTiler
