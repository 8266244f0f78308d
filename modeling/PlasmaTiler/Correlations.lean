import PlasmaTiler.Highlight
import Mathlib.Data.List.TakeWhile

/-!
# What a correlation text says

The bridge spells a correlation by counting: `<head>-g<seq>` in epoch zero and
`<head>-g<epoch>r<seq>` once the epoch has rotated. The effect takes texts
apart again in two ways. `correlation_parts` looks for the last `-g` and wants
exactly such a tail behind it, with both numbers within the JSON-safe
integers; `trailing_seq` takes whatever digits end the text, as long as
something stands before them and they fit a `u64`.

The two readings are stated here about the text itself, as the ways to write
it: `Rotated` and `Sequenced`. Each is what the reader of the same name
returns, so a text has at most one reading of each kind. Where a text has
both, they agree: the trailing digits are the sequence of the mark, and the
mark, with the epoch if there is one, stands in front of them. That ties the
rotated reading of one text to every other text under its trailing head: it
has the same mark, and the same epoch, as long as its sequence is not past
the bound.
-/

namespace PlasmaTiler

namespace GroupHighlight

variable {a b text head trail digits lead tail : List Char} {epoch seq epoch' seq' n m : Nat}

/-! ## Digits -/

/-- A run of digits, not empty. -/
def Digits (digits : List Char) : Prop :=
  digits ≠ [] ∧ ∀ c ∈ digits, c.isDigit = true

/-- The number a run of digits writes, leading zeros allowed. -/
def decimal (digits : List Char) : Nat := Nat.ofDigitChars 10 digits 0

theorem le_ofDigitChars (start : Nat) : start ≤ Nat.ofDigitChars 10 digits start := by
  rw [Nat.ofDigitChars_eq_ofDigitChars_zero]
  calc start ≤ 10 ^ digits.length * start := Nat.le_mul_of_pos_left _ (Nat.pow_pos (by decide))
    _ ≤ _ := Nat.le_add_right _ _

/-- The checked fold stops as soon as it overflows; as the value only grows,
that is when the whole run does. -/
theorem foldlM_checkU64 (start : Nat) : digits.foldlM (fun seq b =>
      (checkU64 (seq * 10)).bind fun seq => checkU64 (seq + (b.toNat - '0'.toNat))) start = some n ↔
    Nat.ofDigitChars 10 digits start = n ∧ (digits ≠ [] → n < u64Size) := by
  induction digits generalizing start with
  | nil => simp
  | cons c digits ih =>
    rw [Nat.ofDigitChars_cons, List.foldlM_cons]
    show Option.bind (Option.bind _ _) _ = _ ↔ _
    constructor
    · intro h
      obtain ⟨next, hnext, hrest⟩ := Option.bind_eq_some_iff.mp h
      obtain ⟨tens, htens, hunits⟩ := Option.bind_eq_some_iff.mp hnext
      obtain ⟨rfl, -⟩ := checkU64_eq_some.mp htens
      obtain ⟨rfl, hfits⟩ := checkU64_eq_some.mp hunits
      obtain ⟨hvalue, hlt⟩ := (ih _).mp hrest
      rw [Nat.mul_comm] at hvalue hfits
      refine ⟨hvalue, fun _ => ?_⟩
      cases digits with
      | nil =>
        rw [Nat.ofDigitChars_nil] at hvalue
        rwa [hvalue] at hfits
      | cons => exact hlt (by simp)
    · rintro ⟨hvalue, hlt⟩
      have hn := hlt (by simp)
      have hgrown : 10 * start + (c.toNat - '0'.toNat) ≤ n := hvalue ▸ le_ofDigitChars _
      have htens : checkU64 (start * 10) = some (10 * start) :=
        checkU64_eq_some.mpr ⟨by omega, by omega⟩
      have hunits : checkU64 (10 * start + (c.toNat - '0'.toNat)) =
          some (10 * start + (c.toNat - '0'.toNat)) := checkU64_eq_some.mpr ⟨rfl, by omega⟩
      rw [htens, Option.bind_some, hunits, Option.bind_some]
      exact (ih _).mpr ⟨hvalue, fun _ => hn⟩

/-- Reading a run of digits gives its value, where that fits. -/
theorem readDigits_eq_some (h : Digits digits) :
    readDigits digits = some n ↔ decimal digits = n ∧ n < u64Size := by
  rw [readDigits, foldlM_checkU64, decimal]
  exact ⟨fun ⟨hvalue, hlt⟩ => ⟨hvalue, hlt h.1⟩, fun ⟨hvalue, hlt⟩ => ⟨hvalue, fun _ => hlt⟩⟩

theorem Digits.notMem (h : Digits digits) {c : Char} (hc : c.isDigit = false) : c ∉ digits := by
  intro hmem
  rw [h.2 c hmem] at hc
  cases hc

/-! ## Trailing sequences -/

/-- A text that counts in the digits it ends with: something stands before
them, the run of digits is as long as it can be, and its number fits in 64
bits. -/
def Sequenced (text head : List Char) (seq : Nat) : Prop :=
  ∃ digits, text = head ++ digits ∧ Digits digits ∧ head ≠ [] ∧
    (∀ c ∈ head.getLast?, c.isDigit = false) ∧ decimal digits = seq ∧ seq < u64Size

theorem takeWhile_reverse_append (hdigits : ∀ c ∈ digits, c.isDigit = true)
    (hhead : ∀ c ∈ head.getLast?, c.isDigit = false) :
    (head ++ digits).reverse.takeWhile Char.isDigit = digits.reverse ∧
      (head ++ digits).reverse.dropWhile Char.isDigit = head.reverse := by
  have hall : ∀ c ∈ digits.reverse, c.isDigit = true := fun c hc => hdigits c (List.mem_reverse.mp hc)
  rw [List.reverse_append, List.takeWhile_append_of_pos hall, List.dropWhile_append_of_pos hall]
  rw [List.getLast?_eq_head?_reverse] at hhead
  cases hrev : head.reverse with
  | nil => simp
  | cons c rest =>
    have hc : c.isDigit = false := hhead c (by rw [hrev]; rfl)
    simp [hc]

/-- `trailing_seq` reads the text as sequenced, or not at all. -/
theorem trailingSeq_eq_some : trailingSeq text = some (head, seq) ↔ Sequenced text head seq := by
  constructor
  · intro h
    simp only [trailingSeq] at h
    split at h
    · cases h
    · rename_i hne
      simp only [Bool.or_eq_true, not_or, Bool.not_eq_true, List.isEmpty_eq_false_iff] at hne
      obtain ⟨n, hread, hpair⟩ := Option.map_eq_some_iff.mp h
      obtain ⟨rfl, rfl⟩ := Prod.mk.inj hpair
      have hdigits : Digits (text.reverse.takeWhile Char.isDigit).reverse :=
        ⟨hne.1, fun c hc => List.mem_takeWhile_imp (List.mem_reverse.mp hc)⟩
      obtain ⟨hvalue, hlt⟩ := (readDigits_eq_some hdigits).mp hread
      refine ⟨_, ?_, hdigits, hne.2, ?_, hvalue, hlt⟩
      · rw [← List.reverse_append, List.takeWhile_append_dropWhile, List.reverse_reverse]
      · intro c hc
        rw [List.getLast?_reverse] at hc
        have hnot := List.head?_dropWhile_not Char.isDigit text.reverse
        rw [Option.mem_def.mp hc] at hnot
        simpa using hnot
  · rintro ⟨digits, rfl, hdigits, hhead, hlast, rfl, hlt⟩
    obtain ⟨htake, hdrop⟩ := takeWhile_reverse_append hdigits.2 hlast
    have hread := (readDigits_eq_some hdigits).mpr ⟨rfl, hlt⟩
    simp only [trailingSeq, htake, hdrop, List.reverse_reverse]
    simp [hdigits.1, hhead, hread]

/-- A text is sequenced in one way at most. -/
theorem Sequenced.unique (h : Sequenced text head n) (h' : Sequenced text trail m) :
    head = trail ∧ n = m := by
  have heq := (trailingSeq_eq_some.mpr h).symm.trans (trailingSeq_eq_some.mpr h')
  simpa using heq

/-! ## Rotated sequences -/

/-- What stands behind the mark: a sequence in epoch zero, or an epoch and a
sequence. -/
inductive OrderTail : List Char → Nat → Nat → Prop
  | legacy {ds : List Char} (h : Digits ds) : OrderTail ds 0 (decimal ds)
  | rotated {es ds : List Char} (hlead : Digits es) (h : Digits ds) :
    OrderTail (es ++ 'r' :: ds) (decimal es) (decimal ds)

/-- A text that counts behind its last mark `-g`: an epoch and a sequence,
both in the range of what a message can carry. -/
def Rotated (text head : List Char) (epoch seq : Nat) : Prop :=
  ∃ tail, text = head ++ '-' :: 'g' :: tail ∧ OrderTail tail epoch seq ∧
    epoch ≤ maxRevision ∧ seq ≤ maxRevision

theorem maxRevision_lt : maxRevision < u64Size := by decide

theorem OrderTail.ne_nil (h : OrderTail tail epoch seq) : tail ≠ [] := by
  cases h with
  | legacy h => exact h.1
  | rotated => simp

theorem OrderTail.notMem (h : OrderTail tail epoch seq) : '-' ∉ tail := by
  have hdash : '-'.isDigit = false := by decide
  cases h with
  | legacy h => exact h.notMem hdash
  | rotated hlead h => simp [hlead.notMem hdash, h.notMem hdash]

theorem require_bind {β : Type} {c : Bool} {f : Unit → Option β} {x : β} :
    (require c >>= f) = some x ↔ c = true ∧ f () = some x := by
  cases c <;> simp [require]

theorem digits_iff : Digits digits ↔ (!digits.isEmpty) = true ∧ digits.all Char.isDigit = true := by
  simp [Digits]

theorem takeWhile_append_stop {p : Char → Bool} {c : Char} (hlead : ∀ x ∈ lead, p x = true)
    (hc : p c = false) : (lead ++ c :: tail).takeWhile p = lead ∧
      (lead ++ c :: tail).dropWhile p = c :: tail := by
  rw [List.takeWhile_append_of_pos hlead, List.dropWhile_append_of_pos hlead]
  simp [hc]

/-- `epoch_digits` and `seq_digits` are what stands around the first `r`. -/
theorem epochAndSeq_of_rotated (hlead : Digits lead) (h : Digits digits)
    (hepoch : decimal lead < u64Size) (hseq : decimal digits < u64Size) :
    epochAndSeq (lead ++ 'r' :: digits) = some (decimal lead, decimal digits) := by
  have hr : 'r'.isDigit = false := by decide
  obtain ⟨htake, hdrop⟩ := @takeWhile_append_stop lead digits (· != 'r') 'r'
    (fun x hx => by
      rw [bne_iff_ne]
      rintro rfl
      exact hlead.notMem hr hx) (by decide)
  have hcontains : (lead ++ 'r' :: digits).contains 'r' = true := by simp
  rw [epochAndSeq, if_pos hcontains, htake, hdrop, List.tail_cons]
  rw [digits_iff] at hlead h
  simp only [hlead, h, (readDigits_eq_some (digits_iff.mpr hlead)).mpr ⟨rfl, hepoch⟩,
    (readDigits_eq_some (digits_iff.mpr h)).mpr ⟨rfl, hseq⟩]
  rfl

theorem epochAndSeq_of_legacy (h : Digits digits) (hseq : decimal digits < u64Size) :
    epochAndSeq digits = some (0, decimal digits) := by
  have hr : 'r'.isDigit = false := by decide
  have hcontains : ¬digits.contains 'r' = true := by simpa using h.notMem hr
  rw [epochAndSeq, if_neg hcontains, (digits_iff.mp h).2, (readDigits_eq_some h).mpr ⟨rfl, hseq⟩]
  rfl

theorem orderTail_of_epochAndSeq (hne : tail ≠ []) (h : epochAndSeq tail = some (epoch, seq)) :
    OrderTail tail epoch seq := by
  rw [epochAndSeq] at h
  split at h
  · rename_i hcontains
    obtain ⟨hfull, h⟩ := require_bind.mp h
    obtain ⟨hall, h⟩ := require_bind.mp h
    obtain ⟨e, he, h⟩ := Option.bind_eq_some_iff.mp h
    obtain ⟨s, hs, h⟩ := Option.bind_eq_some_iff.mp h
    obtain ⟨rfl, rfl⟩ := Prod.mk.inj (Option.some.inj h)
    rw [Bool.and_eq_true] at hfull hall
    have hlead := digits_iff.mpr ⟨hfull.1, hall.1⟩
    have hdigits := digits_iff.mpr ⟨hfull.2, hall.2⟩
    obtain ⟨rfl, -⟩ := (readDigits_eq_some hlead).mp he
    obtain ⟨rfl, -⟩ := (readDigits_eq_some hdigits).mp hs
    have hsplit : tail = tail.takeWhile (· != 'r') ++ 'r' :: (tail.dropWhile (· != 'r')).tail := by
      have hhead := List.head?_dropWhile_not (· != 'r') tail
      cases hdrop : tail.dropWhile (· != 'r') with
      | nil =>
        rw [hdrop] at hfull
        cases hfull.2
      | cons c rest =>
        rw [hdrop] at hhead
        have hc : c = 'r' := by simpa using hhead
        conv_lhs => rw [← List.takeWhile_append_dropWhile (p := (· != 'r')) (l := tail)]
        rw [hdrop, hc]
        rfl
    have hread := OrderTail.rotated hlead hdigits
    rwa [← hsplit] at hread
  · obtain ⟨hall, h⟩ := require_bind.mp h
    obtain ⟨s, hs, h⟩ := Option.bind_eq_some_iff.mp h
    obtain ⟨rfl, rfl⟩ := Prod.mk.inj (Option.some.inj h)
    have hdigits : Digits tail := digits_iff.mpr ⟨by simpa using hne, hall⟩
    obtain ⟨rfl, -⟩ := (readDigits_eq_some hdigits).mp hs
    exact .legacy hdigits

/-- A mark further on is preferred. -/
theorem lastMark_cons {c : Char} {rest : List Char} : lastMark (c :: rest) =
    match lastMark rest with
    | some (head, tail) => some (c :: head, tail)
    | none =>
      match c, rest with
      | '-', 'g' :: tail => some ([], tail)
      | _, _ => none := rfl

/-- A mark with no other behind it is the last. -/
theorem lastMark_append (h : '-' ∉ tail) :
    lastMark (head ++ '-' :: 'g' :: tail) = some (head, tail) := by
  have hnone : ∀ text : List Char, '-' ∉ text → lastMark text = none := by
    intro text
    induction text with
    | nil => exact fun _ => rfl
    | cons c rest ih =>
      intro hmem
      rw [List.mem_cons, not_or] at hmem
      rw [lastMark_cons, ih hmem.2]
      show (match c, rest with | '-', 'g' :: tail => some ([], tail) | _, _ => none) = none
      split
      · exact absurd rfl hmem.1
      · rfl
  induction head with
  | nil =>
    have hg : lastMark ('g' :: tail) = none := hnone _ (by simp [h])
    rw [List.nil_append, lastMark_cons, hg]
    rfl
  | cons c head ih => rw [List.cons_append, lastMark_cons, ih]

theorem lastMark_eq_some (h : lastMark text = some (head, tail)) :
    text = head ++ '-' :: 'g' :: tail := by
  induction text generalizing head with
  | nil => cases h
  | cons c rest ih =>
    rw [lastMark_cons] at h
    cases hrest : lastMark rest with
    | some found =>
      rw [hrest] at h
      obtain ⟨rfl, rfl⟩ := Prod.mk.inj (Option.some.inj h)
      rw [List.cons_append, ← ih hrest]
    | none =>
      rw [hrest] at h
      change (match c, rest with | '-', 'g' :: tail => some ([], tail) | _, _ => none) = _ at h
      split at h
      · obtain ⟨rfl, rfl⟩ := Prod.mk.inj (Option.some.inj h)
        rfl
      · cases h

/-- `correlation_parts` reads the text as rotated, or not at all. -/
theorem correlationParts_eq_some :
    correlationParts text = some (head, epoch, seq) ↔ Rotated text head epoch seq := by
  have hbound := maxRevision_lt
  constructor
  · intro h
    obtain ⟨⟨front, tail⟩, hmark, h⟩ := Option.bind_eq_some_iff.mp h
    obtain ⟨hne, h⟩ := require_bind.mp h
    obtain ⟨⟨e, s⟩, htail, h⟩ := Option.bind_eq_some_iff.mp h
    obtain ⟨hfits, h⟩ := require_bind.mp h
    obtain ⟨rfl, rfl, rfl⟩ : front = head ∧ e = epoch ∧ s = seq := by simpa using h
    rw [Bool.and_eq_true, decide_eq_true_eq, decide_eq_true_eq] at hfits
    exact ⟨tail, lastMark_eq_some hmark, orderTail_of_epochAndSeq (by simpa using hne) htail, hfits⟩
  · rintro ⟨tail, rfl, htail, hepoch, hseq⟩
    have hread : epochAndSeq tail = some (epoch, seq) := by
      cases htail with
      | legacy h => exact epochAndSeq_of_legacy h (by omega)
      | rotated hlead h => exact epochAndSeq_of_rotated hlead h (by omega) (by omega)
    simp [correlationParts, lastMark_append htail.notMem, htail.ne_nil, hread, hepoch, hseq, require]

/-- A text is rotated in one way at most. -/
theorem Rotated.unique (h : Rotated text head epoch seq) (h' : Rotated text trail epoch' seq') :
    head = trail ∧ epoch = epoch' ∧ seq = seq' := by
  have heq := (correlationParts_eq_some.mpr h).symm.trans (correlationParts_eq_some.mpr h')
  simpa using heq

/-! ## A text with both readings -/

/-- A rotated text ends with its sequence; before it stand the mark and, once
the epoch has rotated, the epoch. -/
theorem Rotated.sequenced (h : Rotated text head epoch seq) : ∃ trail, Sequenced text trail seq ∧
    ∀ b m, Sequenced b trail m → m ≤ maxRevision → Rotated b head epoch m := by
  have hbound := maxRevision_lt
  obtain ⟨tail, rfl, htail, hepoch, hseq⟩ := h
  cases htail with
  | legacy h =>
    refine ⟨head ++ ['-', 'g'], ⟨tail, by simp, h, by simp, ?_, rfl, by omega⟩, ?_⟩
    · simp
    · rintro b m ⟨digits', rfl, hdigits', -, -, rfl, -⟩ hm
      exact ⟨digits', by simp, .legacy hdigits', hepoch, hm⟩
  | @rotated lead digits hlead h =>
    refine ⟨head ++ '-' :: 'g' :: (lead ++ ['r']), ⟨digits, by simp, h, by simp, ?_, rfl, by omega⟩, ?_⟩
    · intro c hc
      have hr : c = 'r' := by
        rw [show head ++ '-' :: 'g' :: (lead ++ ['r']) = (head ++ '-' :: 'g' :: lead) ++ ['r'] by simp,
          List.getLast?_concat] at hc
        exact (Option.some.inj hc).symm
      rw [hr]
      decide
    · rintro b m ⟨digits', rfl, hdigits', -, -, rfl, -⟩ hm
      exact ⟨lead ++ 'r' :: digits', by simp, .rotated hlead hdigits', hepoch, hm⟩

theorem Rotated.seq_eq (h : Rotated text head epoch seq) (hn : Sequenced text trail n) : seq = n := by
  obtain ⟨front, hfront, -⟩ := h.sequenced
  exact (hfront.unique hn).2

/-- The sequence is bounded, and what continues the trailing head below the
bound is rotated with the same head and epoch. -/
theorem Rotated.of_sequenced (h : Rotated a head epoch seq) (ha : Sequenced a trail n)
    (hb : Sequenced b trail m) (hm : m ≤ maxRevision) : Rotated b head epoch m := by
  obtain ⟨front, hfront, hothers⟩ := h.sequenced
  obtain ⟨rfl, -⟩ := hfront.unique ha
  exact hothers b m hb hm

theorem Rotated.le (h : Rotated text head epoch seq) : epoch ≤ maxRevision ∧ seq ≤ maxRevision := by
  obtain ⟨-, -, -, hle⟩ := h
  exact hle

end GroupHighlight

end PlasmaTiler
