import PlasmaTiler.Snapkey
import PlasmaTiler.Runs

/-!
# The Start-menu mask

Windows opens Start on a Win tap that no other key interrupts. A consumed
chord hides its key, so the classifier sends a mask key before the Win-up
passes; a mask too many would be a key the user never pressed.

Over a whole Win hold, from the first Win-down until no Win key is held, an
event that arms is followed by a mask, a hold without one has no mask, and
nothing is left over for the next hold (`winHold_masked`). What arms is a
consumed down or repeat, and a drag of the mouse; the consumed release of a
key whose hold is older than the Win hold arms nothing (`lateRelease_unmasked`).

Two facts about the state are enough for it, the Win keys that are held and
the mask that is pending or sent (`core`). All the families of chords come
down to two things they may do to these, arm or leave alone (`Marks`,
`StepKind`), so a hold is followed by a handful of lemmas: what is not armed
stays clean, what arms is due, what is due is sent or still due in the same
hold, and what is sent stays sent until a Win-down repeats.

The queue between the hook and its owner is bounded, and the mask must not be
lost to a full one: a Win-up reserves room by dropping the oldest record.
-/

namespace PlasmaTiler

namespace Snapkey

/-! ## The queue -/

/-- A queued record: a classified event, or a mask to send. -/
inductive QueuedSnapEvent
  | intent (event : Classified)
  | mask (trigger : MaskTrigger)
deriving DecidableEq, Repr

def intentQueueCap : Nat := 512

/-- The bounded queue between the hook and its owner. -/
structure SnapQueue where
  inner : List QueuedSnapEvent
  dropped : Nat
  bounded : inner.length ≤ intentQueueCap

namespace SnapQueue

def new : SnapQueue := ⟨[], 0, Nat.zero_le _⟩

def isFull (q : SnapQueue) : Bool := decide (intentQueueCap ≤ q.inner.length)

/-- Append, unless the queue is full. -/
def push (q : SnapQueue) (event : QueuedSnapEvent) : SnapQueue × Bool :=
  if h : intentQueueCap ≤ q.inner.length then ({ q with dropped := q.dropped + 1 }, false)
  else (⟨q.inner ++ [event], q.dropped, by simp; omega⟩, true)

def recordDrop (q : SnapQueue) : SnapQueue := { q with dropped := q.dropped + 1 }

/-- Drop the oldest record. -/
def popFront (q : SnapQueue) : SnapQueue :=
  ⟨q.inner.tail, q.dropped, by have := q.bounded; simp; omega⟩

end SnapQueue

/-- Room for a necessary mask: a full queue loses its oldest record. -/
def reserveRoom (q : SnapQueue) : SnapQueue :=
  if q.isFull && !q.inner.isEmpty then q.popFront.recordDrop else q

/-- A Win-up in the hook: true when the mask pair is to be sent. -/
def winUpMaskReserve (machine : SnapClassify) (queue : SnapQueue) (vk : Vk) (installed : Bool) :
    SnapClassify × SnapQueue × Bool :=
  match machine.winUpNeedsMask vk installed with
  | (machine, none) => (machine, queue, false)
  | (machine, some trigger) =>
      match (reserveRoom queue).push (.mask trigger) with
      | (queue, true) => (machine, queue, true)
      | (queue, false) =>
          (if machine.winHeld then
            { machine with holdMasked := false, maskPending := true, maskTrigger := some trigger }
            else machine, queue, false)

/-- A mask is never lost to a full queue. -/
theorem winUpMaskReserve_eq {machine : SnapClassify} {queue : SnapQueue} {vk : Vk} {installed : Bool} :
    (winUpMaskReserve machine queue vk installed).1 = (machine.winUpNeedsMask vk installed).1 ∧
      (winUpMaskReserve machine queue vk installed).2.2 =
        (machine.winUpNeedsMask vk installed).2.isSome := by
  have hroom : (reserveRoom queue).inner.length < intentQueueCap := by
    have hbounded := queue.bounded
    have hcap : 0 < intentQueueCap := by decide
    unfold reserveRoom
    by_cases hfull : intentQueueCap ≤ queue.inner.length
    · have hne : queue.inner ≠ [] := by
        intro h
        rw [h] at hfull
        exact absurd hfull (by decide)
      rw [if_pos (by simp [SnapQueue.isFull, hfull, hne])]
      show queue.inner.tail.length < intentQueueCap
      rw [List.length_tail]
      omega
    · rw [if_neg (by simp [SnapQueue.isFull, hfull])]
      omega
  unfold winUpMaskReserve
  rcases machine.winUpNeedsMask vk installed with ⟨machine', _ | trigger⟩
  · exact ⟨rfl, rfl⟩
  · simp [SnapQueue.push, dif_neg (Nat.not_le.mpr hroom)]

/-! ## Events -/

/-- What reaches the classifier: a key event, with the queue as it stands then,
a consumed mouse drag, and a change of the gates or the tables. -/
inductive Event
  | key (vk : Vk) (isUp foreground : Bool) (queue : SnapQueue)
  | windrag
  | setEnabled (enabled : Bool)
  | setGateActive (gateActive : Bool)
  | setRemap (remap : List ChordRemap)
  | setDisabled (disabled : List ChordDisable)

namespace SnapClassify

/-- Win-ups pass the mask reservation, every other key event is classified. -/
def next (s : SnapClassify) : Event → SnapClassify
  | .key vk isUp foreground queue =>
      if isUp && isWinVk vk then (winUpMaskReserve s queue vk true).1
      else (s.push vk isUp foreground false).1
  | .windrag => s.noteWindragConsumed
  | .setEnabled enabled => { s with enabled }
  | .setGateActive gateActive => { s with gateActive }
  | .setRemap remap => { s with vkRemap := remap }
  | .setDisabled disabled => { s with vkDisabled := disabled }

/-- What the classifier answers to a key event. -/
def answer (s : SnapClassify) : Event → Option Classified
  | .key vk isUp foreground _ =>
      if isUp && isWinVk vk then none else (s.push vk isUp foreground false).2
  | _ => none

def machine : Machine SnapClassify Event where
  initial s := ∃ config, s = new config
  next := next

abbrev Reachable : SnapClassify → Prop := machine.Reachable

/-- A consumed down or repeat, or a drag, while a Win key is held. -/
def arms (s : SnapClassify) (e : Event) : Bool :=
  match e with
  | .windrag => s.winHeld
  | e => s.winHeld && (s.answer e).any fun c => c.consumed && c.edge != .up

/-- A mask is reserved. -/
def masks (s : SnapClassify) (e : Event) : Bool :=
  match e with
  | .key vk isUp _ queue => isUp && isWinVk vk && (winUpMaskReserve s queue vk true).2.2
  | _ => false

/-- A Win-down of a Win key already held. -/
def autoRepeats (s : SnapClassify) (e : Event) : Bool :=
  match e with
  | .key vk isUp _ _ => !isUp && (vk == vkLWin && s.winL || vk == vkRWin && s.winR)
  | _ => false

/-! ## What an event does to the mask -/

variable {s s' : SnapClassify} {r : SnapClassify × Option Classified}

/-- The answer arms: a consumed down or repeat. -/
def Arming (c : Option Classified) : Bool := c.any fun c => c.consumed && c.edge != .up

/-- What a classified event does to the Win keys and the mask: the keys stay,
and the mask is armed exactly where a consumed chord falls in a hold. -/
structure Marks (s : SnapClassify) (r : SnapClassify × Option Classified) : Prop where
  winL : r.1.winL = s.winL
  winR : r.1.winR = s.winR
  masked : r.1.holdMasked = s.holdMasked
  armed : s.winHeld = true → Arming r.2 = true → r.1.maskPending = true ∧ r.1.maskTrigger.isSome
  idle : ¬(s.winHeld = true ∧ Arming r.2 = true) →
    r.1.maskPending = s.maskPending ∧ r.1.maskTrigger = s.maskTrigger

/-- The Win keys and the mask. -/
def core (s : SnapClassify) : Bool × Bool × Bool × Option MaskTrigger × Bool :=
  (s.winL, s.winR, s.maskPending, s.maskTrigger, s.holdMasked)

theorem core_eq : s'.core = s.core ↔ s'.winL = s.winL ∧ s'.winR = s.winR ∧
    s'.maskPending = s.maskPending ∧ s'.maskTrigger = s.maskTrigger ∧
      s'.holdMasked = s.holdMasked := by
  simp [core]

theorem winHeld_of_core (h : s'.core = s.core) : s'.winHeld = s.winHeld := by
  obtain ⟨hl, hr, -⟩ := core_eq.mp h
  rw [winHeld, winHeld, hl, hr]

theorem marks_still {c : Option Classified} (hcore : s'.core = s.core)
    (h : s.winHeld = true → Arming c = false) : Marks s (s', c) := by
  obtain ⟨hl, hr, hpending, htrigger, hmasked⟩ := core_eq.mp hcore
  refine ⟨hl, hr, hmasked, fun hwin harming => ?_, fun _ => ⟨hpending, htrigger⟩⟩
  rw [h hwin] at harming
  cases harming

theorem marks_armed {c : Option Classified} {trigger : MaskTrigger} (hcore : s'.core = s.core)
    (hwin : s.winHeld = true) (h : Arming c = true) : Marks s (s'.arm trigger, c) := by
  obtain ⟨hl, hr, -, -, hmasked⟩ := core_eq.mp hcore
  exact ⟨hl, hr, hmasked, fun _ _ => ⟨rfl, rfl⟩, fun hidle => absurd ⟨hwin, h⟩ hidle⟩

theorem marks_none : Marks s (s, none) := marks_still rfl fun _ => rfl

/-- Only the Win keys and the mask are looked at. -/
theorem Marks.of_core (h : Marks s' r) (hcore : s'.core = s.core) : Marks s r := by
  obtain ⟨hl, hr, hpending, htrigger, hmasked⟩ := core_eq.mp hcore
  have hheld := winHeld_of_core hcore
  refine ⟨h.winL.trans hl, h.winR.trans hr, h.masked.trans hmasked, ?_, ?_⟩
  · rw [← hheld]
    exact h.armed
  · rw [← hheld, ← hpending, ← htrigger]
    exact h.idle

theorem marks_pushArm {a : Arm} {isUp foreground routeLive : Bool}
    (hfresh : a.fresh.isSome = true → s.winHeld = true) :
    Marks s (s.pushArm a isUp foreground routeLive) := by
  unfold pushArm
  cases s.held a.slot with
  | some hold =>
    cases isUp with
    | true => exact marks_still rfl fun _ => by simp [Arming]
    | false =>
      dsimp only
      rw [if_neg Bool.false_ne_true]
      by_cases horigin : hold.origin = true
      · rw [if_pos horigin]
        by_cases hwin : s.winHeld = true
        · rw [if_pos hwin]
          exact marks_armed rfl hwin rfl
        · rw [if_neg hwin]
          exact marks_still rfl fun h => absurd h hwin
      · rw [if_neg horigin]
        exact marks_still rfl fun _ => rfl
  | none =>
    cases isUp with
    | true => exact marks_none
    | false =>
      cases hshape : a.fresh with
      | none => exact marks_none
      | some shape =>
        have hwin : s.winHeld = true := hfresh (by rw [hshape]; rfl)
        dsimp only
        rw [if_neg Bool.false_ne_true]
        by_cases horigin : (s.taking && routeLive) = true
        · rw [if_pos horigin, horigin]
          exact marks_armed rfl hwin rfl
        · rw [if_neg horigin, Bool.eq_false_iff.mpr horigin]
          exact marks_still rfl fun _ => rfl

/-- No family of chords opens a hold without Win: whatever is pushed, the mask
is armed only where a consumed chord falls in a hold. -/
theorem marks_pushOwned {physical vk : Vk} {action : ChordAction} {isUp foreground routeLive : Bool} :
    Marks s (s.pushOwned physical vk action isUp foreground routeLive) := by
  have hhistory : Marks s (s.pushHistory vk action isUp foreground routeLive) := by
    unfold pushHistory
    split
    · refine marks_pushArm fun h => ?_
      simp only [historyArm] at h
      split at h <;> simp_all
    · exact marks_none
  have hdigit : Marks s (s.pushDigit vk action isUp foreground routeLive) := by
    unfold pushDigit
    split
    · refine marks_pushArm fun h => ?_
      simp only [digitArm] at h
      split at h <;> simp_all
    · exact marks_none
  have hsend : Marks s (s.pushRelativeSend vk action isUp foreground routeLive) := by
    unfold pushRelativeSend
    split
    · dsimp only
      split
      · exact marks_none
      · refine marks_pushArm fun h => ?_
        simp only [relativeSendArm] at h
        split at h <;> simp_all
    · exact marks_none
  have htoggle : ∀ (slot : Slot) (shape : Shape),
      Marks s (s.pushArm (s.toggleArm slot shape) isUp foreground routeLive) := by
    intro slot shape
    refine marks_pushArm fun h => ?_
    simp only [toggleArm] at h
    split at h <;> simp_all
  have hg : Marks s (s.pushG isUp foreground routeLive) := by
    refine marks_pushArm fun h => ?_
    simp only [gArm] at h
    split at h <;> simp_all
  have hresize : Marks s (s.pushResize vk action isUp foreground routeLive) := by
    unfold pushResize
    split
    · refine marks_pushArm fun h => ?_
      simp only [resizeArm] at h
      split at h <;> simp_all
    · exact marks_none
  have hdirectional : Marks s (s.pushDirectional physical vk isUp foreground routeLive) := by
    unfold pushDirectional
    split
    · refine marks_pushArm fun h => ?_
      simp only [directionalArm] at h
      split at h <;> simp_all
    · exact marks_none
  cases action with
  | workspacePrevious | workspacePrev | workspaceNext => exact hhistory
  | workspaceDigit | workspaceStayDigit => exact hdigit
  | workspaceSendPrev | workspaceSendNext | workspaceSendStayPrev | workspaceSendStayNext => exact hsend
  | maximize | orientation | fullscreen => exact htoggle _ _
  | float | sticky => exact hg
  | resizeOut | resizeIn => exact hresize
  | directional => exact hdirectional

theorem marks_pushFresh {physical : Vk} {foreground : Bool} :
    Marks s (s.pushFresh physical foreground) := by
  unfold pushFresh
  cases hwin : s.winHeld with
  | false => exact marks_none
  | true =>
    simp only [Bool.not_true, Bool.false_eq_true, if_false]
    split
    · exact marks_none
    · rename_i action canon remapped
      split
      · exact marks_none
      · split
        · split
          · exact marks_none
          · split
            · exact marks_none
            · refine marks_armed ?_ hwin (by simp [Arming, collideRefusal])
              split <;> rfl
        · refine marks_pushOwned.of_core ?_
          unfold pinSet
          split
          · split <;> rfl
          · rfl

theorem marks_pushKey {physical : Vk} {isUp foreground : Bool} :
    Marks s (s.pushKey physical isUp foreground) := by
  unfold pushKey
  split
  · rename_i tmpl htmpl
    cases isUp with
    | true => exact marks_still rfl fun _ => by simp [Arming, collideRefusal]
    | false =>
      rw [if_neg Bool.false_ne_true]
      by_cases harm : (tmpl.consumed && s.winHeld) = true
      · obtain ⟨hconsumed, hwin⟩ := Bool.and_eq_true_iff.mp harm
        rw [if_pos harm, hconsumed]
        exact marks_armed rfl hwin rfl
      · rw [if_neg harm]
        refine marks_still rfl fun hwin => ?_
        rw [hwin, Bool.and_true, Bool.not_eq_true] at harm
        rw [harm]
        rfl
  · split
    · split
      · refine marks_pushOwned.of_core ?_
        unfold pinTake
        split <;> rfl
      · exact marks_pushOwned
    · split
      · exact marks_none
      · exact marks_pushFresh

/-! ## One event -/

variable {e : Event}

/-- No mask is owed: none is pending, and none has been sent in this hold. A
hold begins in such a state. -/
structure Clean (s : SnapClassify) : Prop where
  pending : s.maskPending = false
  trigger : s.maskTrigger = none
  masked : s.holdMasked = false

/-- A mask is owed for a key, and none has been sent in this hold yet: the
release of the last Win key has to send it. -/
structure Due (s : SnapClassify) : Prop where
  pending : s.maskPending = true
  trigger : s.maskTrigger.isSome = true
  masked : s.holdMasked = false

/-- What an event does to the Win keys and the mask: it is a down or an up of
a Win key, or it arms the mask in a hold, or it leaves all of them as they
are. -/
inductive StepKind (s : SnapClassify) (e : Event) : Prop
  | winDown (vk : Vk) (hvk : vk = vkLWin ∨ vk = vkRWin) (hnext : s.next e = s.noteWinDown vk)
      (hidle : s.arms e = false) (hmask : s.masks e = false)
      (hrepeat : s.autoRepeats e = if vk = vkLWin then s.winL else s.winR)
  | winUp (vk : Vk) (hvk : vk = vkLWin ∨ vk = vkRWin) (hnext : s.next e = (s.winUpNeedsMask vk true).1)
      (hidle : s.arms e = false) (hmask : s.masks e = (s.winUpNeedsMask vk true).2.isSome)
  | arming (hcore : (s.next e).winL = s.winL ∧ (s.next e).winR = s.winR ∧
        (s.next e).holdMasked = s.holdMasked) (hwin : s.winHeld = true)
      (harmed : (s.next e).maskPending = true ∧ (s.next e).maskTrigger.isSome = true)
      (harms : s.arms e = true) (hmask : s.masks e = false)
  | still (hcore : (s.next e).core = s.core) (hidle : s.arms e = false) (hmask : s.masks e = false)

theorem isWinVk_iff {vk : Vk} : isWinVk vk = true ↔ vk = vkLWin ∨ vk = vkRWin := by
  simp [isWinVk]

theorem stepKind : StepKind s e := by
  cases e with
  | key vk isUp foreground queue =>
    by_cases hwin : isWinVk vk = true
    · have hvk := isWinVk_iff.mp hwin
      cases isUp with
      | true =>
        obtain ⟨hstate, hsome⟩ := @winUpMaskReserve_eq s queue vk true
        refine .winUp vk hvk ?_ ?_ ?_
        · simp [next, hwin, hstate]
        · simp [arms, answer, hwin]
        · simp [masks, hwin, hsome]
      | false =>
        refine .winDown vk hvk ?_ ?_ ?_ ?_
        · simp [next, push, hwin]
        · simp [arms, answer, push, hwin]
        · simp [masks]
        · rcases hvk with rfl | rfl <;> simp [autoRepeats, vkLWin, vkRWin]
    · have hnone : s.masks (.key vk isUp foreground queue) = false := by
        simp [masks, hwin]
      have hmarks : Marks s (s.push vk isUp foreground false) := by
        unfold push
        rw [if_neg Bool.false_ne_true, if_neg hwin]
        split
        · refine marks_still ?_ fun _ => rfl
          unfold pushModifier
          split
          · rfl
          · split <;> rfl
        · exact marks_pushKey
      have hnext : s.next (.key vk isUp foreground queue) = (s.push vk isUp foreground false).1 := by
        simp [next, hwin]
      have hanswer : s.answer (.key vk isUp foreground queue) = (s.push vk isUp foreground false).2 := by
        simp [answer, hwin]
      by_cases harming : s.winHeld = true ∧ Arming (s.push vk isUp foreground false).2 = true
      · refine .arming ?_ harming.1 ?_ ?_ hnone
        · rw [hnext]
          exact ⟨hmarks.winL, hmarks.winR, hmarks.masked⟩
        · rw [hnext]
          exact hmarks.armed harming.1 harming.2
        · show (s.winHeld && Arming (s.answer (.key vk isUp foreground queue))) = true
          rw [hanswer, harming.1, harming.2]
          rfl
      · obtain ⟨hpending, htrigger⟩ := hmarks.idle harming
        refine .still ?_ ?_ hnone
        · rw [hnext]
          exact core_eq.mpr ⟨hmarks.winL, hmarks.winR, hpending, htrigger, hmarks.masked⟩
        · rw [Bool.eq_false_iff]
          intro harms
          have hboth : (s.winHeld && Arming (s.answer (.key vk isUp foreground queue))) = true := harms
          rw [hanswer, Bool.and_eq_true] at hboth
          exact harming hboth
  | windrag =>
    by_cases hwin : s.winHeld = true
    · have hnext : s.next .windrag =
          { s with maskTrigger := s.maskTrigger.or (some .winDrag), maskPending := true } := by
        simp [next, noteWindragConsumed, hwin]
      refine .arming ?_ hwin ?_ hwin rfl
      · rw [hnext]
        exact ⟨rfl, rfl, rfl⟩
      · rw [hnext]
        cases s.maskTrigger <;> exact ⟨rfl, rfl⟩
    · refine .still ?_ (Bool.eq_false_iff.mpr hwin) rfl
      simp [next, noteWindragConsumed, hwin]
  | setEnabled | setGateActive | setRemap | setDisabled => exact .still rfl (by simp [arms, answer]) rfl

theorem winHeld_noteWinDown {vk : Vk} : (s.noteWinDown vk).winHeld = true := by
  unfold noteWinDown
  dsimp only
  by_cases hvk : vk = vkLWin
  · rw [if_pos hvk]
    split <;> simp [winHeld]
  · rw [if_neg hvk]
    split <;> simp [winHeld]

/-- A Win-down changes the mask only as an auto-repeat after a mask. -/
theorem noteWinDown_mask {vk : Vk}
    (h : (if vk = vkLWin then s.winL else s.winR) = false ∨ s.holdMasked = false) :
    (s.noteWinDown vk).maskPending = s.maskPending ∧ (s.noteWinDown vk).maskTrigger = s.maskTrigger ∧
      (s.noteWinDown vk).holdMasked = s.holdMasked := by
  have hidle : ((if vk = vkLWin then s.winL else s.winR) && s.holdMasked) = false := by
    rcases h with h | h <;> rw [h]
    · rfl
    · exact Bool.and_false _
  unfold noteWinDown
  dsimp only
  rw [hidle]
  by_cases hvk : vk = vkLWin
  · rw [if_pos hvk]
    exact ⟨rfl, rfl, rfl⟩
  · rw [if_neg hvk]
    exact ⟨rfl, rfl, rfl⟩

/-- The Win keys after a Win-up. -/
def released (s : SnapClassify) (vk : Vk) : SnapClassify :=
  if vk = vkLWin then { s with winL := false } else { s with winR := false }

theorem released_mask {vk : Vk} : (s.released vk).maskPending = s.maskPending ∧
    (s.released vk).maskTrigger = s.maskTrigger ∧ (s.released vk).holdMasked = s.holdMasked := by
  unfold released
  split <;> exact ⟨rfl, rfl, rfl⟩

/-- The mask owed in the hold. -/
def owed (s : SnapClassify) : Option MaskTrigger :=
  if s.maskPending && !s.holdMasked then s.maskTrigger else none

/-- A Win-up: a drag waits for the other Win key, any other mask is sent, and
the last Win-up clears the hold. -/
theorem winUpNeedsMask_cases {vk : Vk} :
    (s.owed = some .winDrag ∧ (s.released vk).winHeld = true ∧
        s.winUpNeedsMask vk true = (s.released vk, none)) ∨
      ((s.released vk).winHeld = true ∧ s.winUpNeedsMask vk true =
        (if s.owed.isSome then { s.released vk with maskPending := false, holdMasked := true }
          else s.released vk, s.owed)) ∨
      ((s.released vk).winHeld = false ∧ s.winUpNeedsMask vk true =
        ({ s.released vk with maskPending := false, holdMasked := false, maskTrigger := none },
          s.owed)) := by
  have howed : (if true && (s.released vk).maskPending && !(s.released vk).holdMasked then
      (s.released vk).maskTrigger else none) = s.owed := by
    obtain ⟨hpending, htrigger, hmasked⟩ := @released_mask s vk
    rw [hpending, htrigger, hmasked]
    rfl
  have hbody : s.winUpNeedsMask vk true =
      if s.owed == some .winDrag && (s.released vk).winHeld then (s.released vk, none)
      else
        let t := if s.owed.isSome then
          { s.released vk with maskPending := false, holdMasked := true } else s.released vk
        (if !t.winHeld then { t with maskPending := false, holdMasked := false, maskTrigger := none }
          else t, s.owed) := by
    rw [← howed]
    rfl
  have hsame : (if s.owed.isSome then
      { s.released vk with maskPending := false, holdMasked := true } else s.released vk).winHeld =
      (s.released vk).winHeld := by
    split <;> rfl
  rw [hbody]
  by_cases hheld : (s.released vk).winHeld = true
  · by_cases hdrag : s.owed = some .winDrag
    · exact .inl ⟨hdrag, hheld, by rw [hdrag, hheld]; rfl⟩
    · refine .inr (.inl ⟨hheld, ?_⟩)
      rw [if_neg (by simp [hdrag])]
      dsimp only
      rw [hsame, hheld]
      rfl
  · rw [Bool.not_eq_true] at hheld
    refine .inr (.inr ⟨hheld, ?_⟩)
    rw [hheld, Bool.and_false, if_neg Bool.false_ne_true]
    dsimp only
    rw [hsame, hheld, if_pos (show (!false) = true from rfl)]
    by_cases hfired : s.owed.isSome = true
    · rw [if_pos hfired]
    · rw [if_neg hfired]

/-- Nothing is owed: a Win-up sends nothing and owes nothing. -/
theorem Clean.winUp (h : Clean s) {vk : Vk} :
    Clean (s.winUpNeedsMask vk true).1 ∧ (s.winUpNeedsMask vk true).2 = none := by
  obtain ⟨hpending, htrigger, hmasked⟩ := @released_mask s vk
  have hreleased : Clean (s.released vk) :=
    ⟨hpending.trans h.pending, htrigger.trans h.trigger, hmasked.trans h.masked⟩
  have howed : s.owed = none := by rw [owed, h.trigger, ite_self]
  rcases @winUpNeedsMask_cases s vk with ⟨hdrag, -⟩ | ⟨-, heq⟩ | ⟨-, heq⟩
  · rw [howed] at hdrag
    cases hdrag
  · rw [heq, howed]
    exact ⟨hreleased, rfl⟩
  · rw [heq]
    exact ⟨⟨rfl, rfl, rfl⟩, howed⟩

/-- A mask is owed: a Win-up sends it, or leaves it owed while the other Win
key is held. -/
theorem Due.winUp (h : Due s) {vk : Vk} :
    (s.winUpNeedsMask vk true).2.isSome = true ∨ ((s.winUpNeedsMask vk true).2 = none ∧
      Due (s.winUpNeedsMask vk true).1 ∧ (s.winUpNeedsMask vk true).1.winHeld = true) := by
  obtain ⟨hpending, htrigger, hmasked⟩ := @released_mask s vk
  have howed : s.owed.isSome = true := by
    rw [owed, h.pending, h.masked]
    exact h.trigger
  rcases @winUpNeedsMask_cases s vk with ⟨-, hheld, heq⟩ | ⟨-, heq⟩ | ⟨-, heq⟩
  · rw [heq]
    exact .inr ⟨rfl, ⟨hpending.trans h.pending, by rw [htrigger]; exact h.trigger,
      hmasked.trans h.masked⟩, hheld⟩
  · rw [heq]
    exact .inl howed
  · rw [heq]
    exact .inl howed

/-- Whatever was owed, nothing is after the last Win-up. -/
theorem clean_of_winUp {vk : Vk} (h : (s.winUpNeedsMask vk true).1.winHeld = false) :
    Clean (s.winUpNeedsMask vk true).1 := by
  rcases @winUpNeedsMask_cases s vk with ⟨-, hheld, heq⟩ | ⟨hheld, heq⟩ | ⟨-, heq⟩
  · rw [heq, hheld] at h
    cases h
  · rw [heq] at h
    have hsame : (if s.owed.isSome then
        { s.released vk with maskPending := false, holdMasked := true } else s.released vk).winHeld =
        (s.released vk).winHeld := by
      split <;> rfl
    rw [hsame, hheld] at h
    cases h
  · rw [heq]
    exact ⟨rfl, rfl, rfl⟩

/-- Once a mask is sent, a hold that goes on is marked and owes none. -/
theorem masked_of_winUp {vk : Vk}
    (h : s.holdMasked = true ∨ (s.winUpNeedsMask vk true).2.isSome = true)
    (hheld : (s.winUpNeedsMask vk true).1.winHeld = true) :
    (s.winUpNeedsMask vk true).1.holdMasked = true := by
  obtain ⟨-, -, hmasked⟩ := @released_mask s vk
  rcases @winUpNeedsMask_cases s vk with ⟨hdrag, -, heq⟩ | ⟨-, heq⟩ | ⟨hlast, heq⟩
  · rw [heq] at h ⊢
    rcases h with h | h
    · exact hmasked.trans h
    · cases h
  · rw [heq] at h ⊢
    dsimp only at h ⊢
    split
    · rfl
    · rename_i hnone
      rcases h with h | h
      · exact hmasked.trans h
      · exact absurd h hnone
  · rw [heq] at hheld
    exact absurd (hheld.symm.trans hlast) (by decide)

/-- A marked hold sends no second mask. -/
theorem unmasked_of_masked (h : s.holdMasked = true) {vk : Vk} :
    (s.winUpNeedsMask vk true).2 = none := by
  have howed : s.owed = none := by rw [owed, h, Bool.not_true, Bool.and_false]; rfl
  rcases @winUpNeedsMask_cases s vk with ⟨-, -, heq⟩ | ⟨-, heq⟩ | ⟨-, heq⟩ <;> rw [heq]
  · exact howed
  · exact howed

/-! ## One event in a hold -/

theorem Clean.of_core (h : Clean s) (hcore : s'.core = s.core) : Clean s' := by
  obtain ⟨-, -, hpending, htrigger, hmasked⟩ := core_eq.mp hcore
  exact ⟨hpending.trans h.pending, htrigger.trans h.trigger, hmasked.trans h.masked⟩

/-- Until something arms, nothing is owed. -/
theorem Clean.next (h : Clean s) (hidle : s.arms e = false) : Clean (s.next e) ∧ s.masks e = false := by
  rcases @stepKind s e with
    ⟨vk, -, hnext, -, hmask, -⟩ | ⟨vk, -, hnext, -, hmask⟩ | ⟨-, -, -, harms, -⟩ | ⟨hcore, -, hmask⟩
  · obtain ⟨hpending, htrigger, hmasked⟩ := @noteWinDown_mask s vk (.inr h.masked)
    rw [hnext]
    exact ⟨⟨hpending.trans h.pending, htrigger.trans h.trigger, hmasked.trans h.masked⟩, hmask⟩
  · obtain ⟨hclean, hnone⟩ := @Clean.winUp s h vk
    rw [hnext, hmask, hnone]
    exact ⟨hclean, rfl⟩
  · rw [hidle] at harms
    cases harms
  · exact ⟨h.of_core hcore, hmask⟩

/-- What arms in an unmarked hold owes a mask. -/
theorem due_of_arms (hmasked : s.holdMasked = false) (harms : s.arms e = true) :
    Due (s.next e) ∧ (s.next e).winHeld = true := by
  rcases @stepKind s e with
    ⟨vk, -, -, hidle, -⟩ | ⟨vk, -, -, hidle, -⟩ | ⟨⟨hl, hr, hsame⟩, hwin, harmed, -, -⟩ | ⟨-, hidle, -⟩
  · rw [hidle] at harms
    cases harms
  · rw [hidle] at harms
    cases harms
  · refine ⟨⟨harmed.1, harmed.2, hsame.trans hmasked⟩, ?_⟩
    rw [winHeld, hl, hr]
    exact hwin
  · rw [hidle] at harms
    cases harms

/-- A mask owed is sent, or still owed in the same hold. -/
theorem Due.next (h : Due s) (hwin : s.winHeld = true) :
    s.masks e = true ∨ (Due (s.next e) ∧ (s.next e).winHeld = true) := by
  rcases @stepKind s e with
    ⟨vk, -, hnext, -, -, -⟩ | ⟨vk, -, hnext, -, hmask⟩ | ⟨-, -, -, harms, -⟩ | ⟨hcore, -, -⟩
  · obtain ⟨hpending, htrigger, hmasked⟩ := @noteWinDown_mask s vk (.inr h.masked)
    rw [hnext]
    refine .inr ⟨⟨hpending.trans h.pending, ?_, hmasked.trans h.masked⟩, winHeld_noteWinDown⟩
    rw [htrigger]
    exact h.trigger
  · rw [hnext, hmask]
    rcases @Due.winUp s h vk with hfired | ⟨-, hdue, hheld⟩
    · exact .inl hfired
    · exact .inr ⟨hdue, hheld⟩
  · exact .inr (due_of_arms h.masked harms)
  · obtain ⟨-, -, hpending, htrigger, hmasked⟩ := core_eq.mp hcore
    refine .inr ⟨⟨hpending.trans h.pending, ?_, hmasked.trans h.masked⟩, ?_⟩
    · rw [htrigger]
      exact h.trigger
    · rw [winHeld_of_core hcore]
      exact hwin

/-- A marked hold stays marked without a Win auto-repeat, and is marked by a
mask. -/
theorem masked_next (h : s.holdMasked = true ∨ s.masks e = true) (hrepeat : s.autoRepeats e = false)
    (hheld : (s.next e).winHeld = true) : (s.next e).holdMasked = true := by
  rcases @stepKind s e with
    ⟨vk, -, hnext, -, hmask, hauto⟩ | ⟨vk, -, hnext, -, hmask⟩ | ⟨⟨-, -, hsame⟩, -, -, -, hmask⟩ |
      ⟨hcore, -, hmask⟩
  · rcases h with h | h
    · obtain ⟨-, -, hmasked⟩ := @noteWinDown_mask s vk (.inl (hauto.symm.trans hrepeat))
      rw [hnext]
      exact hmasked.trans h
    · rw [hmask] at h
      cases h
  · rw [hnext] at hheld ⊢
    rw [hmask] at h
    exact masked_of_winUp h hheld
  · rcases h with h | h
    · exact hsame.trans h
    · rw [hmask] at h
      cases h
  · rcases h with h | h
    · exact (core_eq.mp hcore).2.2.2.2.trans h
    · rw [hmask] at h
      cases h

theorem unmasked_next (h : s.holdMasked = true) : s.masks e = false := by
  rcases @stepKind s e with
    ⟨_, -, -, -, hmask, -⟩ | ⟨vk, -, -, -, hmask⟩ | ⟨-, -, -, -, hmask⟩ | ⟨-, -, hmask⟩
  · exact hmask
  · rw [hmask, unmasked_of_masked h]
    rfl
  · exact hmask
  · exact hmask

/-- An event that leaves no Win key held leaves nothing owed. -/
theorem clean_next (h : s.winHeld = true ∨ Clean s) (hheld : (s.next e).winHeld = false) :
    Clean (s.next e) := by
  rcases @stepKind s e with
    ⟨vk, -, hnext, -, -, -⟩ | ⟨vk, -, hnext, -, -⟩ | ⟨⟨hl, hr, -⟩, hwin, -, -, -⟩ | ⟨hcore, -, -⟩
  · rw [hnext, winHeld_noteWinDown] at hheld
    cases hheld
  · rw [hnext] at hheld ⊢
    exact clean_of_winUp hheld
  · rw [winHeld, hl, hr] at hheld
    exact absurd (hwin.symm.trans hheld) (by decide)
  · rcases h with h | h
    · rw [winHeld_of_core hcore] at hheld
      exact absurd (h.symm.trans hheld) (by decide)
    · exact h.of_core hcore

/-! ## A whole hold -/

/-- What one event shows. -/
structure Seen where
  arms : Bool
  masks : Bool
  autoRepeats : Bool
deriving DecidableEq

def seen (s : SnapClassify) (e : Event) : Seen := ⟨s.arms e, s.masks e, s.autoRepeats e⟩

/-- What a sequence of events shows. -/
def trace (s : SnapClassify) : List Event → List Seen
  | [] => []
  | e :: es => s.seen e :: trace (s.next e) es

/-- Some Win key is held before every event of the run, and the last event
releases the last one: the rest of one hold. -/
inductive Releases : SnapClassify → List Event → Prop
  | last {s : SnapClassify} {e : Event} (held : s.winHeld = true)
      (released : (s.next e).winHeld = false) : Releases s [e]
  | more {s : SnapClassify} {e : Event} {es : List Event} (held : s.winHeld = true)
      (rest : Releases (s.next e) es) : Releases s (e :: es)

/-- A maximal Win hold: the press of a Win key while none is held, and the
events until none is held again. -/
structure WinHold (s : SnapClassify) (es : List Event) : Prop where
  idle : s.winHeld = false
  holds : ∃ press rest, es = press :: rest ∧ Releases (s.next press) rest

/-- The mask goes with the hold: after the first event that arms one is sent,
without one none is, without a Win auto-repeat only one is, and nothing is
left over. -/
structure Masked (s : SnapClassify) (es : List Event) : Prop where
  sent : (∃ x ∈ s.trace es, x.arms = true) → ∃ before first after, s.trace es = before ++ first :: after ∧
    (∀ x ∈ before, x.arms = false) ∧ first.arms = true ∧ ∃ y ∈ after, y.masks = true
  unsent : (∀ x ∈ s.trace es, x.arms = false) → ∀ x ∈ s.trace es, x.masks = false
  once : (∀ x ∈ s.trace es, x.autoRepeats = false) → (s.trace es).countP Seen.masks ≤ 1
  settled : Clean (machine.run s es)

theorem Releases.held {es : List Event} (h : Releases s es) : s.winHeld = true := by
  cases h with
  | last held _ => exact held
  | more held _ => exact held

theorem unsent_of_clean {es : List Event} (h : Clean s)
    (hidle : ∀ x ∈ s.trace es, x.arms = false) : ∀ x ∈ s.trace es, x.masks = false := by
  induction es generalizing s with
  | nil => exact fun x hx => absurd hx List.not_mem_nil
  | cons e es ih =>
    rw [trace, List.forall_mem_cons] at hidle ⊢
    obtain ⟨hclean, hmask⟩ := h.next hidle.1
    exact ⟨hmask, ih hclean hidle.2⟩

/-- A mask owed is sent before the hold ends. -/
theorem sent_of_due {es : List Event} (hrel : Releases s es) (h : Due s) :
    ∃ y ∈ s.trace es, y.masks = true := by
  induction hrel with
  | @last s e held released =>
    rcases h.next held with hmask | ⟨-, hheld⟩
    · exact ⟨s.seen e, List.mem_cons_self, hmask⟩
    · exact absurd (hheld.symm.trans released) (by decide)
  | @more s e es held _ ih =>
    rcases h.next held with hmask | ⟨hdue, -⟩
    · exact ⟨s.seen e, List.mem_cons_self, hmask⟩
    · obtain ⟨y, hy, hmask⟩ := ih hdue
      exact ⟨y, List.mem_cons_of_mem _ hy, hmask⟩

theorem sent_of_clean {es : List Event} (hrel : Releases s es) (h : Clean s)
    (harms : ∃ x ∈ s.trace es, x.arms = true) :
    ∃ before first after, s.trace es = before ++ first :: after ∧
      (∀ x ∈ before, x.arms = false) ∧ first.arms = true ∧ ∃ y ∈ after, y.masks = true := by
  induction hrel with
  | @last s e held released =>
    obtain ⟨x, hx, hxarms⟩ := harms
    obtain rfl := List.mem_singleton.mp hx
    exact absurd ((due_of_arms h.masked hxarms).2.symm.trans released) (by decide)
  | @more s e es held rest ih =>
    cases hhead : s.arms e with
    | true =>
      obtain ⟨y, hy, hmask⟩ := sent_of_due rest (due_of_arms h.masked hhead).1
      exact ⟨[], s.seen e, (s.next e).trace es, rfl, fun x hx => absurd hx List.not_mem_nil, hhead,
        y, hy, hmask⟩
    | false =>
      have hrest : ∃ x ∈ (s.next e).trace es, x.arms = true := by
        obtain ⟨x, hx, hxarms⟩ := harms
        rcases List.mem_cons.mp hx with rfl | hx
        · exact absurd (hhead.symm.trans hxarms) (by decide)
        · exact ⟨x, hx, hxarms⟩
      obtain ⟨before, first, after, htrace, hbefore, hfirst, hsent⟩ := ih (h.next hhead).1 hrest
      refine ⟨s.seen e :: before, first, after, ?_, ?_, hfirst, hsent⟩
      · rw [trace, htrace]
        rfl
      · exact List.forall_mem_cons.mpr ⟨hhead, hbefore⟩

/-- In a marked hold no further mask is sent. -/
theorem unsent_of_masked {es : List Event} (hrel : Releases s es) (h : s.holdMasked = true)
    (hrepeat : ∀ x ∈ s.trace es, x.autoRepeats = false) :
    (s.trace es).countP Seen.masks = 0 := by
  induction hrel with
  | @last s e held released =>
    rw [trace, trace, List.countP_cons, List.countP_nil, if_neg]
    rw [show (s.seen e).masks = s.masks e from rfl, unmasked_next h]
    exact Bool.false_ne_true
  | @more s e es held rest ih =>
    rw [trace, List.forall_mem_cons] at hrepeat
    rw [trace, List.countP_cons, if_neg]
    · exact ih (masked_next (.inl h) hrepeat.1 rest.held) hrepeat.2
    · rw [show (s.seen e).masks = s.masks e from rfl, unmasked_next h]
      exact Bool.false_ne_true

theorem once_of_releases {es : List Event} (hrel : Releases s es)
    (hrepeat : ∀ x ∈ s.trace es, x.autoRepeats = false) :
    (s.trace es).countP Seen.masks ≤ 1 := by
  induction hrel with
  | @last s e held released => exact List.countP_le_length
  | @more s e es held rest ih =>
    rw [trace, List.forall_mem_cons] at hrepeat
    rw [trace, List.countP_cons]
    by_cases hmask : (s.seen e).masks = true
    · have hnone := unsent_of_masked rest (masked_next (.inr hmask) hrepeat.1 rest.held) hrepeat.2
      exact Nat.le_of_eq (by rw [if_pos hmask, hnone])
    · rw [if_neg hmask]
      exact ih hrepeat.2

theorem settled_of_releases {es : List Event} (hrel : Releases s es) : Clean (machine.run s es) := by
  induction hrel with
  | last held released => exact clean_next (.inl held) released
  | more _ _ ih => exact ih

/-- Without a Win key nothing is owed. -/
theorem clean_invariant : machine.Invariant fun s => s.winHeld = false → Clean s where
  initial s := by
    rintro ⟨config, rfl⟩ -
    exact ⟨rfl, rfl, rfl⟩
  preserved s e h hheld := by
    refine clean_next ?_ hheld
    by_cases hwin : s.winHeld = true
    · exact .inl hwin
    · exact .inr (h (Bool.eq_false_iff.mpr hwin))

/-- Whatever the events, the tables and the queue, a whole Win hold sends the
mask its armed events need, and no other. -/
theorem winHold_masked {es : List Event} (hs : Reachable s) (h : WinHold s es) : Masked s es := by
  obtain ⟨hidle, press, rest, rfl, hrel⟩ := h
  have hclean := clean_invariant.reachable hs hidle
  -- the press is no event that arms, since no Win key is held yet
  have hpress : s.arms press = false := by
    rw [Bool.eq_false_iff]
    intro harms
    rcases @stepKind s press with ⟨_, -, -, hno, -⟩ | ⟨_, -, -, hno, -⟩ | ⟨-, hwin, -⟩ | ⟨-, hno, -⟩
    · exact absurd (harms.symm.trans hno) (by decide)
    · exact absurd (harms.symm.trans hno) (by decide)
    · exact absurd (hwin.symm.trans hidle) (by decide)
    · exact absurd (harms.symm.trans hno) (by decide)
  obtain ⟨hnext, hmask⟩ := hclean.next hpress
  refine ⟨fun harms => ?_, fun hnone => unsent_of_clean hclean hnone, fun hrepeat => ?_,
    show Clean (machine.run (s.next press) rest) from settled_of_releases hrel⟩
  · have hrest : ∃ x ∈ (s.next press).trace rest, x.arms = true := by
      obtain ⟨x, hx, hxarms⟩ := harms
      rcases List.mem_cons.mp hx with rfl | hx
      · exact absurd (hpress.symm.trans hxarms) (by decide)
      · exact ⟨x, hx, hxarms⟩
    obtain ⟨before, first, after, htrace, hbefore, hfirst, hsent⟩ := sent_of_clean hrel hnext hrest
    refine ⟨s.seen press :: before, first, after, ?_, ?_, hfirst, hsent⟩
    · rw [trace, htrace]
      rfl
    · exact List.forall_mem_cons.mpr ⟨hpress, hbefore⟩
  · rw [trace, List.forall_mem_cons] at hrepeat
    rw [trace, List.countP_cons, if_neg]
    · exact once_of_releases hrel hrepeat.2
    · rw [show (s.seen press).masks = s.masks press from rfl, hmask]
      exact Bool.false_ne_true

/-! ## Sample holds -/

/-- The takeover is on. -/
def takeover : SnapClassify := new ⟨true, false⟩

def press (vk : Vk) : Event := .key vk false true .new

def release (vk : Vk) : Event := .key vk true true .new

theorem takeover_reachable (es : List Event) : Reachable (machine.run takeover es) :=
  Machine.Reachable.run (.initial (show ∃ config, takeover = new config from ⟨_, rfl⟩)) es

theorem chord_winHold : WinHold takeover [press vkLWin, press vkH, release vkH, release vkLWin] :=
  ⟨rfl, _, _, rfl, .more rfl (.more rfl (.last rfl rfl))⟩

/-- A whole hold around one consumed chord, H released before Win. -/
theorem winHold_masked_chord :
    Masked takeover [press vkLWin, press vkH, release vkH, release vkLWin] :=
  winHold_masked (takeover_reachable []) chord_winHold

/-- Win+H, with H still down when Win is released and pressed again. -/
def chordHeld : SnapClassify :=
  machine.run takeover [press vkLWin, press vkH, release vkLWin]

/-- The consumed release of H in the second hold sends no mask. -/
theorem lateRelease_unmasked :
    Reachable chordHeld ∧ WinHold chordHeld [press vkLWin, release vkH, release vkLWin] ∧
      (chordHeld.next (press vkLWin)).winHeld = true ∧
      ((chordHeld.next (press vkLWin)).answer (release vkH)).any Classified.consumed = true ∧
      ∀ x ∈ chordHeld.trace [press vkLWin, release vkH, release vkLWin], x.masks = false := by
  refine ⟨takeover_reachable _, ⟨rfl, _, _, rfl, .more rfl (.last rfl rfl)⟩, rfl, rfl, ?_⟩
  decide +kernel

end SnapClassify

end Snapkey

end PlasmaTiler
