import PlasmaTiler.Correlations

/-!
# The order of correlations

Of two correlations the effect asks, in this order: do both count behind a
mark under one head, do both count in their last digits under one head, and
failing both, which text is the greater. Each of the three is a linear order
of its own; which one speaks is chosen anew for each pair. So of two different
correlations exactly one is newer, and over three that are compared by one
rule newness is transitive. All that can go wrong is a circle of three that
are compared by different rules.

Where a pair has both numberings they agree, so a rule is fixed by the texts
alone: `SameMark`, else `SameTrail`, else neither. Three texts of which two
pairs share a mark share it in all three pairs, and likewise for trailing
heads. That leaves two ways to a circle. Either one pair is numbered against
its spelling and the third text, which counts with neither, is spelled between
them; or a pair counts under one mark, and the third text continues the
trailing head of the later one past the JSON-safe integers, so that it has
fallen out of the mark's count, and is spelled before the earlier one. These
are conditions on the texts; `exists_cyclic_iff` says there is a circle
exactly under one of them.
-/

namespace PlasmaTiler

namespace GroupHighlight

variable {a b c low high third : List Char}

/-! ## Rules -/

/-- How two correlations are compared. -/
inductive OrderRule
  | epochs
  | sequence
  | bytes
deriving DecidableEq, Repr

def sequenceRule (a b : List Char) : OrderRule :=
  match trailingSeq a, trailingSeq b with
  | some (head, _), some (head', _) => if head = head' then .sequence else .bytes
  | _, _ => .bytes

def orderRule (a b : List Char) : OrderRule :=
  match correlationParts a, correlationParts b with
  | some (head, _), some (head', _) => if head = head' then .epochs else sequenceRule a b
  | _, _ => sequenceRule a b

/-- What a rule looks at, the text last. -/
def OrderRule.key : OrderRule → List Char → (ℕ ×ₗ ℕ) ×ₗ List Char
  | .epochs, a => toLex (((correlationParts a).map fun parts => toLex parts.2).getD (toLex (0, 0)), a)
  | .sequence, a => toLex (toLex (0, ((trailingSeq a).map Prod.snd).getD 0), a)
  | .bytes, a => toLex (toLex (0, 0), a)

/-- Newer under one rule. -/
def OrderRule.outranks (rule : OrderRule) (new old : List Char) : Bool :=
  decide (rule.key old < rule.key new)

theorem OrderRule.key_injective {rule : OrderRule} (h : rule.key a = rule.key b) : a = b := by
  cases rule with
  | _ => exact congrArg (fun k => (ofLex k).2) h

theorem sequenceRule_comm : sequenceRule a b = sequenceRule b a := by
  unfold sequenceRule
  cases trailingSeq a <;> cases trailingSeq b <;> simp only [eq_comm]

theorem orderRule_comm : orderRule a b = orderRule b a := by
  unfold orderRule
  cases correlationParts a <;> cases correlationParts b <;> simp only [eq_comm, sequenceRule_comm (a := a)]

theorem newerBySequence_eq :
    newerBySequence a b = (sequenceRule a b).outranks a b := by
  unfold newerBySequence sequenceRule
  have hbytes : decide (b < a) = OrderRule.bytes.outranks a b := by
    simp [OrderRule.outranks, OrderRule.key, Prod.Lex.toLex_lt_toLex]
  cases ha : trailingSeq a with
  | none => exact hbytes
  | some sa =>
    cases hb : trailingSeq b with
    | none => exact hbytes
    | some sb =>
      obtain ⟨headA, seqA⟩ := sa
      obtain ⟨headB, seqB⟩ := sb
      dsimp only
      by_cases hhead : headA = headB
      · rw [if_pos hhead, if_pos hhead]
        by_cases hseq : seqA = seqB
        · simp [OrderRule.outranks, OrderRule.key, ha, hb, hseq, Prod.Lex.toLex_lt_toLex]
        · simp [OrderRule.outranks, OrderRule.key, ha, hb, hseq, Ne.symm hseq, Prod.Lex.toLex_lt_toLex]
      · rw [if_neg hhead, if_neg hhead]
        exact hbytes

/-- A correlation is newer under the rule of the pair. -/
theorem correlationIsNewer_eq :
    correlationIsNewer a b = (orderRule a b).outranks a b := by
  unfold correlationIsNewer orderRule
  cases ha : correlationParts a with
  | none => exact newerBySequence_eq
  | some pa =>
    cases hb : correlationParts b with
    | none => exact newerBySequence_eq
    | some pb =>
      obtain ⟨headA, epochA, seqA⟩ := pa
      obtain ⟨headB, epochB, seqB⟩ := pb
      dsimp only
      by_cases hhead : headA = headB
      · rw [if_pos hhead, if_pos hhead]
        by_cases hepoch : epochA = epochB
        · by_cases hseq : seqA = seqB
          · simp [OrderRule.outranks, OrderRule.key, ha, hb, hepoch, hseq, Prod.Lex.toLex_lt_toLex]
          · simp [OrderRule.outranks, OrderRule.key, ha, hb, hepoch, hseq, Ne.symm hseq, Prod.Lex.toLex_lt_toLex]
        · simp [OrderRule.outranks, OrderRule.key, ha, hb, hepoch, Ne.symm hepoch, Prod.Lex.toLex_lt_toLex]
      · rw [if_neg hhead, if_neg hhead]
        exact newerBySequence_eq

theorem outranks_iff {rule : OrderRule} : rule.outranks a b = true ↔ rule.key b < rule.key a :=
  decide_eq_true_iff

/-- Of two different correlations exactly one is newer. -/
theorem correlationIsNewer_displacement : Displacement correlationIsNewer where
  irrefl a := by
    rw [correlationIsNewer_eq, Bool.eq_false_iff, ne_eq, outranks_iff]
    exact lt_irrefl _
  asymm a b h := by
    rw [correlationIsNewer_eq, outranks_iff] at h
    rw [correlationIsNewer_eq, orderRule_comm, Bool.eq_false_iff, ne_eq, outranks_iff]
    exact h.asymm
  total a b h := by
    rw [correlationIsNewer_eq, correlationIsNewer_eq, orderRule_comm (a := b), outranks_iff,
      outranks_iff]
    exact (lt_or_gt_of_ne fun heq => h (OrderRule.key_injective heq)).symm

/-- Pairs that one rule orders make no circle. -/
theorem not_cyclic_of_rule (rule : OrderRule) (hab : correlationIsNewer a b = rule.outranks a b)
    (hbc : correlationIsNewer b c = rule.outranks b c)
    (hca : correlationIsNewer c a = rule.outranks c a) : ¬Cyclic correlationIsNewer a b c := by
  rintro ⟨h₁, h₂, h₃⟩
  rw [hab, outranks_iff] at h₁
  rw [hbc, outranks_iff] at h₂
  rw [hca, outranks_iff] at h₃
  exact lt_irrefl _ ((h₃.trans h₂).trans h₁)

/-! ## Pairs -/

/-- Both count behind their last mark, under one head. Then epochs and
sequences decide which is newer. -/
def SameMark (a b : List Char) : Prop :=
  ∃ head, (∃ epoch seq, Rotated a head epoch seq) ∧ ∃ epoch seq, Rotated b head epoch seq

/-- Both count in the digits they end with, under one head. Then these numbers
decide, unless the marks do. -/
def SameTrail (a b : List Char) : Prop :=
  ∃ head, (∃ seq, Sequenced a head seq) ∧ ∃ seq, Sequenced b head seq

/-- One numbers both: they are compared by number and not by spelling. -/
def Akin (a b : List Char) : Prop := SameMark a b ∨ SameTrail a b

theorem SameMark.symm (h : SameMark a b) : SameMark b a := by
  obtain ⟨head, ha, hb⟩ := h
  exact ⟨head, hb, ha⟩

theorem SameTrail.symm (h : SameTrail a b) : SameTrail b a := by
  obtain ⟨head, ha, hb⟩ := h
  exact ⟨head, hb, ha⟩

theorem Akin.symm (h : Akin a b) : Akin b a := h.imp SameMark.symm SameTrail.symm

theorem SameMark.trans (hab : SameMark a b) (hbc : SameMark b c) : SameMark a c := by
  obtain ⟨head, ha, _, _, hb⟩ := hab
  obtain ⟨head', ⟨_, _, hb'⟩, hc⟩ := hbc
  obtain ⟨rfl, -⟩ := hb.unique hb'
  exact ⟨head, ha, hc⟩

theorem SameTrail.trans (hab : SameTrail a b) (hbc : SameTrail b c) : SameTrail a c := by
  obtain ⟨head, ha, _, hb⟩ := hab
  obtain ⟨head', ⟨_, hb'⟩, hc⟩ := hbc
  obtain ⟨rfl, -⟩ := hb.unique hb'
  exact ⟨head, ha, hc⟩

/-! ## The rule of a pair -/

theorem epochs_outranks {head : List Char} {epoch seq epoch' seq' : Nat}
    (ha : Rotated a head epoch seq) (hb : Rotated b head epoch' seq') :
    OrderRule.epochs.outranks b a = true ↔
      epoch < epoch' ∨ epoch = epoch' ∧ (seq < seq' ∨ seq = seq' ∧ a < b) := by
  rw [outranks_iff]
  simp only [OrderRule.key, correlationParts_eq_some.mpr ha, correlationParts_eq_some.mpr hb,
    Option.map_some, Option.getD_some, Prod.Lex.toLex_lt_toLex, EmbeddingLike.apply_eq_iff_eq,
    Prod.mk.injEq]
  constructor
  · rintro ((hepoch | ⟨hepoch, hseq⟩) | ⟨⟨hepoch, hseq⟩, htext⟩)
    · exact .inl hepoch
    · exact .inr ⟨hepoch, .inl hseq⟩
    · exact .inr ⟨hepoch, .inr ⟨hseq, htext⟩⟩
  · rintro (hepoch | ⟨hepoch, hseq | ⟨hseq, htext⟩⟩)
    · exact .inl (.inl hepoch)
    · exact .inl (.inr ⟨hepoch, hseq⟩)
    · exact .inr ⟨⟨hepoch, hseq⟩, htext⟩

theorem sequence_outranks {head : List Char} {seq seq' : Nat} (ha : Sequenced a head seq)
    (hb : Sequenced b head seq') :
    OrderRule.sequence.outranks b a = true ↔ seq < seq' ∨ seq = seq' ∧ a < b := by
  rw [outranks_iff]
  simp [OrderRule.key, trailingSeq_eq_some.mpr ha, trailingSeq_eq_some.mpr hb,
    Prod.Lex.toLex_lt_toLex]

theorem bytes_outranks : OrderRule.bytes.outranks b a = true ↔ a < b := by
  rw [outranks_iff]
  simp [OrderRule.key, Prod.Lex.toLex_lt_toLex]

theorem orderRule_of_sameMark (h : SameMark a b) : orderRule a b = .epochs := by
  obtain ⟨head, ⟨_, _, ha⟩, _, _, hb⟩ := h
  simp [orderRule, correlationParts_eq_some.mpr ha, correlationParts_eq_some.mpr hb]

theorem orderRule_of_not_sameMark (h : ¬SameMark a b) : orderRule a b = sequenceRule a b := by
  unfold orderRule
  cases ha : correlationParts a with
  | none => rfl
  | some pa =>
    cases hb : correlationParts b with
    | none => rfl
    | some pb =>
      refine if_neg fun hhead => h ⟨pa.1, ⟨_, _, correlationParts_eq_some.mp ha⟩, pb.2.1, pb.2.2, ?_⟩
      rw [hhead]
      exact correlationParts_eq_some.mp hb

theorem newer_of_sameMark (h : SameMark a b) :
    correlationIsNewer a b = OrderRule.epochs.outranks a b := by
  rw [correlationIsNewer_eq, orderRule_of_sameMark h]

/-- Under one trailing head the sequence decides whichever rule is chosen: if
both are marked too, it is the marks that carry the same epoch. -/
theorem newer_of_sameTrail (h : SameTrail a b) :
    correlationIsNewer a b = OrderRule.sequence.outranks a b := by
  obtain ⟨trail, ⟨n, ha⟩, m, hb⟩ := h
  rw [correlationIsNewer_eq]
  by_cases hmark : SameMark a b
  · rw [orderRule_of_sameMark hmark]
    obtain ⟨head, ⟨epoch, seq, hra⟩, epoch', seq', hrb⟩ := hmark
    obtain rfl := hra.seq_eq ha
    obtain rfl := hrb.seq_eq hb
    have hsame := (hra.of_sequenced ha hb hrb.le.2).unique hrb
    rw [Bool.eq_iff_iff, epochs_outranks hrb hra, sequence_outranks hb ha, hsame.2.1]
    simp
  · rw [orderRule_of_not_sameMark hmark, sequenceRule]
    simp [trailingSeq_eq_some.mpr ha, trailingSeq_eq_some.mpr hb]

theorem newer_of_not_akin (h : ¬Akin a b) :
    correlationIsNewer a b = OrderRule.bytes.outranks a b := by
  obtain ⟨hmark, htrail⟩ := not_or.mp h
  rw [correlationIsNewer_eq, orderRule_of_not_sameMark hmark, sequenceRule]
  cases ha : trailingSeq a with
  | none => rfl
  | some sa =>
    cases hb : trailingSeq b with
    | none => rfl
    | some sb =>
      have hhead : ¬sa.1 = sb.1 := fun hhead => htrail
        ⟨sa.1, ⟨_, trailingSeq_eq_some.mp ha⟩, sb.2, by rw [hhead]; exact trailingSeq_eq_some.mp hb⟩
      simp [hhead]

/-- Past the bound a text has fallen out of the count of the mark, and is
newer than what is still in it. -/
theorem newer_of_overrun {head trail : List Char} {epoch seq n m : Nat}
    (ha : Rotated a head epoch seq) (hn : Sequenced a trail n) (hb : Sequenced b trail m)
    (hmark : ¬SameMark a b) : maxRevision < m ∧ correlationIsNewer b a = true := by
  have hm : maxRevision < m := by
    by_contra hle
    exact hmark ⟨head, ⟨_, _, ha⟩, _, _, ha.of_sequenced hn hb (not_lt.mp hle)⟩
  refine ⟨hm, ?_⟩
  rw [newer_of_sameTrail ⟨trail, ⟨_, hb⟩, _, hn⟩, sequence_outranks hn hb]
  exact .inl ((ha.seq_eq hn ▸ ha.le.2).trans_lt hm)

/-! ## Circles -/

/-- Numbered after the other one, behind the last mark or in the digits at the
end. -/
def Outnumbers (high low : List Char) : Prop :=
  (∃ head epoch seq epoch' seq', Rotated low head epoch seq ∧ Rotated high head epoch' seq' ∧
    (epoch < epoch' ∨ epoch = epoch' ∧ seq < seq')) ∨
  ∃ head seq seq', Sequenced low head seq ∧ Sequenced high head seq' ∧ seq < seq'

/-- A pair numbered against its spelling, around a text that counts with
neither. -/
structure Straddled (low high third : List Char) : Prop where
  numbered : Outnumbers high low
  above : high < third
  below : third < low
  foreign : ¬Akin low third ∧ ¬Akin high third

/-- A pair counting under one mark, and a text spelled before both that
continues the trailing head of the later one, past what the mark counts to. -/
structure Overrun (low high third : List Char) : Prop where
  marked : ∃ head epoch seq epoch' seq', Rotated low head epoch seq ∧
    Rotated high head epoch' seq' ∧
      (epoch < epoch' ∨ epoch = epoch' ∧ (seq < seq' ∨ seq = seq' ∧ low < high))
  trailed : ∃ trail seq seq', Sequenced high trail seq ∧ Sequenced third trail seq' ∧
    maxRevision < seq' ∧ ∀ n, ¬Sequenced low trail n
  below : third < low

/-- Three texts that close a circle. -/
def Crossing (low high third : List Char) : Prop :=
  Straddled low high third ∨ Overrun low high third

/-- The later number is newer. -/
theorem Outnumbers.newer (h : Outnumbers high low) : correlationIsNewer high low = true := by
  rcases h with ⟨head, e, s, e', s', hlow, hhigh, hlt⟩ | ⟨head, s, s', hlow, hhigh, hlt⟩
  · rw [newer_of_sameMark ⟨head, ⟨_, _, hhigh⟩, _, _, hlow⟩, epochs_outranks hlow hhigh]
    exact hlt.imp id fun ⟨heq, hseq⟩ => ⟨heq, .inl hseq⟩
  · rw [newer_of_sameTrail ⟨head, ⟨_, hhigh⟩, _, hlow⟩, sequence_outranks hlow hhigh]
    exact .inl hlt

/-- Newer against the spelling only by the number. -/
theorem outnumbers_of_newer (hakin : Akin high low) (h : correlationIsNewer high low = true)
    (hlt : high < low) : Outnumbers high low := by
  have hnot := hlt.not_gt
  rcases hakin with hmark | htrail
  · rw [newer_of_sameMark hmark] at h
    obtain ⟨head, ⟨_, _, hhigh⟩, _, _, hlow⟩ := hmark
    rw [epochs_outranks hlow hhigh] at h
    refine .inl ⟨head, _, _, _, _, hlow, hhigh, h.imp id ?_⟩
    rintro ⟨heq, hseq | ⟨-, htext⟩⟩
    · exact ⟨heq, hseq⟩
    · exact absurd htext hnot
  · rw [newer_of_sameTrail htrail] at h
    obtain ⟨head, ⟨_, hhigh⟩, _, hlow⟩ := htrail
    rw [sequence_outranks hlow hhigh] at h
    rcases h with hseq | ⟨-, htext⟩
    · exact .inr ⟨head, _, _, hlow, hhigh, hseq⟩
    · exact absurd htext hnot

theorem Straddled.cyclic (h : Straddled low high third) :
    Cyclic correlationIsNewer high low third := by
  refine ⟨h.numbered.newer, ?_, ?_⟩
  · rw [newer_of_not_akin h.foreign.1, bytes_outranks]
    exact h.below
  · rw [newer_of_not_akin fun hakin => h.foreign.2 hakin.symm, bytes_outranks]
    exact h.above

theorem Overrun.cyclic (h : Overrun low high third) :
    Cyclic correlationIsNewer high low third := by
  obtain ⟨head, e, s, e', s', hlow, hhigh, hlater⟩ := h.marked
  obtain ⟨trail, n, m, hn, hm, hover, hnot⟩ := h.trailed
  have hpair : SameMark high low := ⟨head, ⟨_, _, hhigh⟩, _, _, hlow⟩
  have hunmarked : ∀ x, SameMark x high → ¬SameMark x third := by
    rintro x hx hthird
    obtain ⟨head', _, _, _, hrot⟩ := hx.symm.trans hthird
    exact absurd (hrot.seq_eq hm ▸ hrot.le.2) (not_le.mpr hover)
  refine ⟨?_, ?_, ?_⟩
  · rw [newer_of_sameMark hpair, epochs_outranks hlow hhigh]
    exact hlater
  · rw [newer_of_not_akin, bytes_outranks]
    · exact h.below
    · rintro (hmark | htrail)
      · exact hunmarked low hpair.symm hmark
      · obtain ⟨trail', ⟨k, hk⟩, _, hthird⟩ := htrail
        obtain ⟨rfl, -⟩ := hthird.unique hm
        exact hnot k hk
  · exact (newer_of_overrun hhigh hn hm (hunmarked high (hpair.trans hpair.symm))).2

example : Cyclic correlationIsNewer "h-g10r1".toList "h-g2r5".toList
    "h-g10r9007199254740992".toList := by
  unfold Cyclic
  decide +kernel

/-- A circle whose third text counts with neither of the pair is closed by
spelling alone, so it runs against the pair's numbers. -/
theorem straddled_of_cyclic (h : Cyclic correlationIsNewer a b c) (hab : Akin a b)
    (hbc : ¬Akin b c) (hca : ¬Akin c a) : Straddled b a c := by
  obtain ⟨h₁, h₂, h₃⟩ := h
  rw [newer_of_not_akin hbc, bytes_outranks] at h₂
  rw [newer_of_not_akin hca, bytes_outranks] at h₃
  exact ⟨outnumbers_of_newer hab h₁ (h₃.trans h₂), h₃, h₂, hbc, fun hakin => hca hakin.symm⟩

theorem not_sameTrail_of_cyclic (h : Cyclic correlationIsNewer a b c) (hab : SameTrail a b) :
    ¬SameTrail b c := fun hbc => not_cyclic_of_rule .sequence (newer_of_sameTrail hab)
  (newer_of_sameTrail hbc) (newer_of_sameTrail (hab.trans hbc).symm) h

theorem not_sameMark_of_cyclic (h : Cyclic correlationIsNewer a b c) (hab : SameMark a b) :
    ¬SameMark b c := fun hbc => not_cyclic_of_rule .epochs (newer_of_sameMark hab)
  (newer_of_sameMark hbc) (newer_of_sameMark (hab.trans hbc).symm) h

/-- A circle with a pair under one mark. A second pair can only share a
trailing head: not with the older one, which its overrun would outrank, so
with the newer. -/
theorem crossing_of_sameMark (h : Cyclic correlationIsNewer a b c) (hab : SameMark a b) :
    Crossing b a c := by
  have hbc := not_sameMark_of_cyclic h hab
  have hca : ¬SameMark c a := fun hca => hbc (hca.trans hab).symm
  have hmarked := hab
  obtain ⟨head, ⟨e, s, ha⟩, e', s', hb⟩ := hmarked
  by_cases hold : SameTrail b c
  · obtain ⟨trail, ⟨n, hn⟩, m, hm⟩ := hold
    have hnewer := (newer_of_overrun hb hn hm hbc).2
    have holder := h.2.1
    rw [correlationIsNewer_displacement.asymm _ _ hnewer] at holder
    cases holder
  · by_cases hnew : SameTrail c a
    · have hnot : ¬SameTrail a b := fun htrail => hold (hnew.trans htrail).symm
      obtain ⟨trail, ⟨m, hm⟩, n, hn⟩ := hnew
      refine .inr ⟨?_, ?_, ?_⟩
      · have hnewer := h.1
        rw [newer_of_sameMark hab, epochs_outranks hb ha] at hnewer
        exact ⟨head, _, _, _, _, hb, ha, hnewer⟩
      · refine ⟨trail, n, m, hn, hm, (newer_of_overrun ha hn hm fun hac => hca hac.symm).1, ?_⟩
        exact fun k hk => hnot ⟨trail, ⟨n, hn⟩, k, hk⟩
      · have hnewer := h.2.1
        rwa [newer_of_not_akin (not_or.mpr ⟨hbc, hold⟩), bytes_outranks] at hnewer
    · exact .inl (straddled_of_cyclic h (.inl hab) (not_or.mpr ⟨hbc, hold⟩) (not_or.mpr ⟨hca, hnew⟩))

/-- A circle with a pair that counts together. -/
theorem crossing_of_akin (h : Cyclic correlationIsNewer a b c) (hab : Akin a b) :
    Crossing b a c ∨ Crossing c b a ∨ Crossing a c b := by
  by_cases hmark : SameMark a b
  · exact .inl (crossing_of_sameMark h hmark)
  by_cases hmark' : SameMark b c
  · exact .inr (.inl (crossing_of_sameMark h.rotate hmark'))
  by_cases hmark'' : SameMark c a
  · exact .inr (.inr (crossing_of_sameMark h.rotate.rotate hmark''))
  have htrail := hab.resolve_left hmark
  refine .inl (.inl (straddled_of_cyclic h hab (not_or.mpr ⟨hmark', not_sameTrail_of_cyclic h htrail⟩) ?_))
  exact not_or.mpr ⟨hmark'', fun hca => not_sameTrail_of_cyclic h.rotate.rotate hca htrail⟩

/-- There is a circle exactly where three texts cross. -/
theorem exists_cyclic_iff {S : List Char → Prop} :
    (∃ a b c, S a ∧ S b ∧ S c ∧ Cyclic correlationIsNewer a b c) ↔
      ∃ low high third, S low ∧ S high ∧ S third ∧ Crossing low high third := by
  constructor
  · rintro ⟨a, b, c, ha, hb, hc, h⟩
    have hakin : Akin a b ∨ Akin b c ∨ Akin c a := by
      by_contra hnone
      rw [not_or, not_or] at hnone
      exact not_cyclic_of_rule .bytes (newer_of_not_akin hnone.1) (newer_of_not_akin hnone.2.1)
        (newer_of_not_akin hnone.2.2) h
    have hcrossing : Crossing b a c ∨ Crossing c b a ∨ Crossing a c b := by
      rcases hakin with hab | hbc | hca
      · exact crossing_of_akin h hab
      · rcases crossing_of_akin h.rotate hbc with hc | hc | hc <;> simp [hc]
      · rcases crossing_of_akin h.rotate.rotate hca with hc | hc | hc <;> simp [hc]
    rcases hcrossing with hc' | hc' | hc'
    · exact ⟨b, a, c, hb, ha, hc, hc'⟩
    · exact ⟨c, b, a, hc, hb, ha, hc'⟩
    · exact ⟨a, c, b, ha, hc, hb, hc'⟩
  · rintro ⟨low, high, third, hlow, hhigh, hthird, hstraddled | hoverrun⟩
    · exact ⟨high, low, third, hhigh, hlow, hthird, hstraddled.cyclic⟩
    · exact ⟨high, low, third, hhigh, hlow, hthird, hoverrun.cyclic⟩

end GroupHighlight

end PlasmaTiler
