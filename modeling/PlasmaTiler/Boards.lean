import Mathlib.Data.List.Nodup
import Mathlib.Data.Set.Basic

/-!
# Boards

Two records of one fact go wrong when one of them is written and the other is
not. A board is that situation with nothing else in it: items stand in lines
at places and hold members, and where each member is, is recorded a second
time beside them.

A board is `InOrder` when no item stands twice and the two records agree. The
agreement is up to a predicate `loose`: a loose member may be recorded with
an item that is gone, which is how a window looks whose slot was dropped
before the window itself was.

There are few ways to write a board. What a place holds may grow at the end
(`Grown`), be pruned (`Pruned`) and move to another place as a whole
(`Moved`); members are written one at a time (`Written`), into one item or
none. Each relation says what the new board is in terms of the old one, with
a lemma that spells out who stands where afterwards (`stands`), and one that
the board is still in order (`inOrder`).

Places, items and members are arbitrary types; only equality of places is
decided.
-/

namespace PlasmaTiler

/-- An item with its members. -/
abbrev Slot (ι μ : Type) := ι × Set μ

structure Board (π ι μ : Type) where
  line : π → Option (List (Slot ι μ))
  place : μ → Option (π × ι)
  named : ι → Prop

namespace Board

variable {π ι μ : Type} {b b' : Board π ι μ} {loose : μ → Prop} {p q dst src : π} {i : ι} {w : μ}
  {s t : Slot ι μ} {l : List (Slot ι μ)}

/-- The item stands at the place. -/
def Stands (b : Board π ι μ) (p : π) (s : Slot ι μ) : Prop := ∃ l, b.line p = some l ∧ s ∈ l

/-- No item stands twice, and a member is recorded where it is held. A loose
member may be recorded with an item that is gone. -/
structure InOrder (b : Board π ι μ) (loose : μ → Prop) : Prop where
  nodup : ∀ {p l}, b.line p = some l → (l.map Prod.fst).Nodup
  apart : ∀ {p q s t}, b.Stands p s → b.Stands q t → s.1 = t.1 → p = q
  used : ∀ {p s}, b.Stands p s → b.named s.1
  held : ∀ {p s w}, b.Stands p s → w ∈ s.2 → b.place w = some (p, s.1)
  placed : ∀ {p i w}, b.place w = some (p, i) → b.named i ∧
    ∀ {q s}, b.Stands q s → s.1 = i → q = p ∧ w ∈ s.2
  found : ∀ {p i w}, b.place w = some (p, i) → ¬loose w → ∃ s, b.Stands p s ∧ s.1 = i

theorem InOrder.mono {loose' : μ → Prop} (h : b.InOrder loose) (hloose : ∀ w, loose w → loose' w) :
    b.InOrder loose' :=
  { h with found := fun hw hnot => h.found hw fun hl => hnot (hloose _ hl) }

/-! ## New items at the end of a line -/

/-- New items at the end of one line, empty and under names that nothing had
before. The recorded places of members do not change. -/
structure Grown [DecidableEq π] (b b' : Board π ι μ) (p : π) (fresh : List (Slot ι μ)) : Prop where
  line : ∀ q, b'.line q = if q = p then some ((b.line p).getD [] ++ fresh) else b.line q
  place : b'.place = b.place
  named : ∀ i, b.named i → b'.named i
  new : ∀ s ∈ fresh, ¬b.named s.1 ∧ b'.named s.1 ∧ s.2 = ∅
  nodup : (fresh.map Prod.fst).Nodup

theorem Grown.stands [DecidableEq π] (g : Grown b b' p l) :
    b'.Stands q s ↔ b.Stands q s ∨ (q = p ∧ s ∈ l) := by
  unfold Stands
  rw [g.line]
  by_cases hq : q = p
  · subst hq
    cases hline : b.line q with
    | none => simp
    | some line => simp
  · simp [hq]

theorem Grown.inOrder [DecidableEq π] (g : Grown b b' p l) (h : b.InOrder loose) :
    b'.InOrder loose where
  nodup {q line} hline := by
    rw [g.line] at hline
    split at hline
    · cases hline
      rw [List.map_append, List.nodup_append']
      refine ⟨?_, g.nodup, ?_⟩
      · cases hbase : b.line p with
        | none => exact List.nodup_nil
        | some base => exact h.nodup hbase
      · intro i hi hfresh
        obtain ⟨t, ht, rfl⟩ := List.mem_map.mp hfresh
        cases hbase : b.line p with
        | none => simp [hbase] at hi
        | some base =>
          rw [hbase] at hi
          obtain ⟨s, hs, heq⟩ := List.mem_map.mp hi
          have hused := h.used (p := p) ⟨base, hbase, hs⟩
          rw [heq] at hused
          exact (g.new t ht).1 hused
    · exact h.nodup hline
  apart {q r s t} hs ht heq := by
    rcases g.stands.mp hs with hs | ⟨rfl, hs⟩ <;> rcases g.stands.mp ht with ht | ⟨rfl, ht⟩
    · exact h.apart hs ht heq
    · exact absurd (heq ▸ h.used hs) (g.new t ht).1
    · exact absurd (heq ▸ h.used ht) (g.new s hs).1
    · rfl
  used {q s} hs := by
    rcases g.stands.mp hs with hs | ⟨-, hs⟩
    · exact g.named _ (h.used hs)
    · exact (g.new s hs).2.1
  held {q s w} hs hw := by
    rcases g.stands.mp hs with hs | ⟨-, hs⟩
    · rw [g.place]
      exact h.held hs hw
    · rw [(g.new s hs).2.2] at hw
      cases hw
  placed {q i w} hw := by
    rw [g.place] at hw
    obtain ⟨hnamed, hstands⟩ := h.placed hw
    refine ⟨g.named i hnamed, fun {r s} hs heq => ?_⟩
    rcases g.stands.mp hs with hs | ⟨-, hs⟩
    · exact hstands hs heq
    · rw [← heq] at hnamed
      exact absurd hnamed (g.new s hs).1
  found {q i w} hw hloose := by
    rw [g.place] at hw
    obtain ⟨s, hs, heq⟩ := h.found hw hloose
    exact ⟨s, g.stands.mpr (.inl hs), heq⟩

/-! ## Items taken away -/

/-- Some items of a line are gone. The records of their members stay behind,
so members that were recorded there have to be loose. -/
structure Pruned [DecidableEq π] (b b' : Board π ι μ) (p : π) (keep : ι → Bool)
    (loose : μ → Prop) : Prop where
  line : ∀ q, b'.line q = if q = p then (b.line p).map (List.filter (keep ·.1)) else b.line q
  place : b'.place = b.place
  named : b'.named = b.named
  loose : ∀ {s w}, b.Stands p s → keep s.1 = false → b.place w = some (p, s.1) → loose w

theorem Pruned.mono [DecidableEq π] {keep : ι → Bool} {loose' : μ → Prop}
    (g : Pruned b b' p keep loose) (hloose : ∀ w, loose w → loose' w) : Pruned b b' p keep loose' :=
  { g with loose := fun hs hkeep hplace => hloose _ (g.loose hs hkeep hplace) }

theorem Pruned.stands [DecidableEq π] {keep : ι → Bool} (g : Pruned b b' p keep loose) :
    b'.Stands q s ↔ b.Stands q s ∧ (q = p → keep s.1 = true) := by
  unfold Stands
  rw [g.line]
  by_cases hq : q = p
  · subst hq
    rw [if_pos rfl]
    constructor
    · rintro ⟨l, hl, hs⟩
      obtain ⟨base, hbase, rfl⟩ := Option.map_eq_some_iff.mp hl
      obtain ⟨hs, hkeep⟩ := List.mem_filter.mp hs
      exact ⟨⟨base, hbase, hs⟩, fun _ => hkeep⟩
    · rintro ⟨⟨l, hl, hs⟩, hkeep⟩
      exact ⟨_, by rw [hl]; rfl, List.mem_filter.mpr ⟨hs, hkeep rfl⟩⟩
  · simp [hq]

theorem Pruned.inOrder [DecidableEq π] {keep : ι → Bool} (g : Pruned b b' p keep loose)
    (h : b.InOrder loose) : b'.InOrder loose where
  nodup {q line} hline := by
    rw [g.line] at hline
    split at hline
    · obtain ⟨base, hbase, rfl⟩ := Option.map_eq_some_iff.mp hline
      exact (h.nodup hbase).sublist ((List.filter_sublist).map Prod.fst)
    · exact h.nodup hline
  apart hs ht heq := h.apart (g.stands.mp hs).1 (g.stands.mp ht).1 heq
  used hs := by
    rw [g.named]
    exact h.used (g.stands.mp hs).1
  held hs hw := by
    rw [g.place]
    exact h.held (g.stands.mp hs).1 hw
  placed hw := by
    rw [g.place] at hw
    rw [g.named]
    exact ⟨(h.placed hw).1, fun hs heq => (h.placed hw).2 (g.stands.mp hs).1 heq⟩
  found {q i w} hw hloose := by
    rw [g.place] at hw
    obtain ⟨s, hs, rfl⟩ := h.found hw hloose
    refine ⟨s, g.stands.mpr ⟨hs, fun hq => ?_⟩, rfl⟩
    subst hq
    by_contra hkeep
    rw [Bool.not_eq_true] at hkeep
    exact hloose (g.loose hs hkeep hw)

/-! ## Items moved to another place -/

/-- The chosen items of a line stand at the end of another one, and their
members are recorded there. -/
structure Moved [DecidableEq π] (b b' : Board π ι μ) (src dst : π) (chosen : ι → Bool) : Prop where
  source : ∀ {s}, b'.Stands src s ↔ b.Stands src s ∧ chosen s.1 = false
  rest : ∀ {l}, b'.line src = some l → ∃ base, b.line src = some base ∧ l.Sublist base
  target : b'.line dst = some ((b.line dst).getD [] ++
    ((b.line src).getD []).filter (chosen ·.1))
  other : ∀ q, q ≠ src → q ≠ dst → b'.line q = b.line q
  away : src ≠ dst
  place : ∀ w, b'.place w = (b.place w).map fun at' =>
    if at'.1 = src ∧ chosen at'.2 = true then (dst, at'.2) else at'
  named : b'.named = b.named

theorem Moved.stands [DecidableEq π] {chosen : ι → Bool} (g : Moved b b' src dst chosen) :
    b'.Stands q s ↔ (b.Stands q s ∧ ¬(q = src ∧ chosen s.1 = true)) ∨
      (q = dst ∧ b.Stands src s ∧ chosen s.1 = true) := by
  by_cases hsrc : q = src
  · subst hsrc
    rw [g.source]
    simp [g.away]
  · by_cases hdst : q = dst
    · subst hdst
      unfold Stands
      rw [g.target]
      cases hline : b.line q with
      | none =>
        cases hbase : b.line src with
        | none => simp [hsrc]
        | some base => simp [hsrc]
      | some line =>
        cases hbase : b.line src with
        | none => simp [hsrc]
        | some base => simp [hsrc]
    · have hline : b'.Stands q s ↔ b.Stands q s := by
        unfold Stands
        rw [g.other q hsrc hdst]
      rw [hline]
      simp [hsrc, hdst]

theorem Moved.inOrder [DecidableEq π] {chosen : ι → Bool} (g : Moved b b' src dst chosen)
    (h : b.InOrder loose) : b'.InOrder loose where
  nodup {q line} hline := by
    by_cases hsrc : q = src
    · subst hsrc
      obtain ⟨base, hbase, hsub⟩ := g.rest hline
      exact (h.nodup hbase).sublist (hsub.map Prod.fst)
    · by_cases hdst : q = dst
      · subst hdst
        rw [g.target] at hline
        cases hline
        rw [List.map_append, List.nodup_append']
        refine ⟨?_, ?_, ?_⟩
        · cases hbase : b.line q with
          | none => exact List.nodup_nil
          | some base => exact h.nodup hbase
        · cases hbase : b.line src with
          | none => exact List.nodup_nil
          | some base => exact (h.nodup hbase).sublist ((List.filter_sublist).map Prod.fst)
        · intro i hi hmoved
          cases hbase : b.line q with
          | none => simp [hbase] at hi
          | some base =>
            cases hfrom : b.line src with
            | none => simp [hfrom] at hmoved
            | some moved =>
              rw [hbase] at hi
              rw [hfrom] at hmoved
              obtain ⟨s, hs, rfl⟩ := List.mem_map.mp hi
              obtain ⟨t, ht, heq⟩ := List.mem_map.mp hmoved
              exact hsrc (h.apart (q := src) ⟨base, hbase, hs⟩
                ⟨moved, hfrom, List.mem_of_mem_filter ht⟩ heq.symm)
      · rw [g.other q hsrc hdst] at hline
        exact h.nodup hline
  apart {q r s t} hs ht heq := by
    rcases g.stands.mp hs with ⟨hs, hs'⟩ | ⟨rfl, hs, hs'⟩ <;>
      rcases g.stands.mp ht with ⟨ht, ht'⟩ | ⟨rfl, ht, ht'⟩
    · exact h.apart hs ht heq
    · have hq := h.apart hs ht heq
      exact absurd ⟨hq, heq ▸ ht'⟩ hs'
    · have hr := h.apart ht hs heq.symm
      exact absurd ⟨hr, heq ▸ hs'⟩ ht'
    · rfl
  used hs := by
    rw [g.named]
    rcases g.stands.mp hs with ⟨hs, -⟩ | ⟨-, hs, -⟩
    · exact h.used hs
    · exact h.used hs
  held {q s w} hs hw := by
    rw [g.place]
    rcases g.stands.mp hs with ⟨hs, hs'⟩ | ⟨rfl, hs, hs'⟩
    · rw [h.held hs hw, Option.map_some, if_neg hs']
    · rw [h.held hs hw, Option.map_some, if_pos ⟨rfl, hs'⟩]
  placed {q i w} hw := by
    rw [g.place] at hw
    obtain ⟨⟨q', i'⟩, hold, heq⟩ := Option.map_eq_some_iff.mp hw
    obtain ⟨hnamed, hstands⟩ := h.placed hold
    rw [g.named]
    split at heq
    · rename_i hchosen
      cases heq
      refine ⟨hnamed, fun {r s} hs hsi => ?_⟩
      rcases g.stands.mp hs with ⟨hs, hs'⟩ | ⟨hr, hs, -⟩
      · obtain ⟨rfl, -⟩ := hstands hs hsi
        exact absurd ⟨hchosen.1, hsi ▸ hchosen.2⟩ hs'
      · exact ⟨hr, (hstands hs hsi).2⟩
    · rename_i hchosen
      cases heq
      refine ⟨hnamed, fun {r s} hs hsi => ?_⟩
      rcases g.stands.mp hs with ⟨hs, -⟩ | ⟨-, hs, hs'⟩
      · exact hstands hs hsi
      · obtain ⟨rfl, -⟩ := hstands hs hsi
        exact absurd ⟨rfl, hsi ▸ hs'⟩ hchosen
  found {q i w} hw hloose := by
    rw [g.place] at hw
    obtain ⟨⟨q', i'⟩, hold, heq⟩ := Option.map_eq_some_iff.mp hw
    obtain ⟨s, hs, rfl⟩ := h.found hold hloose
    split at heq
    · rename_i hchosen
      cases heq
      obtain ⟨rfl, hchosen⟩ := hchosen
      exact ⟨s, g.stands.mpr (.inr ⟨rfl, hs, hchosen⟩), rfl⟩
    · rename_i hchosen
      cases heq
      exact ⟨s, g.stands.mpr (.inl ⟨hs, hchosen⟩), rfl⟩

/-! ## One member written -/

/-- A slot after a member has gone to one item, or to none. -/
def rewrite (w : μ) (home : Option (π × ι)) (p : π) (s : Slot ι μ) : Slot ι μ :=
  (s.1, {v | (v ≠ w ∧ v ∈ s.2) ∨ (v = w ∧ home = some (p, s.1))})

/-- A member is taken out of every item, and put into one or none; its record
follows. Other members and the lines themselves are left alone. -/
structure Written (b b' : Board π ι μ) (w : μ) (home : Option (π × ι)) : Prop where
  line : ∀ q, b'.line q = (b.line q).map (List.map (rewrite w home q))
  gone : b'.place w = home
  others : ∀ v, v ≠ w → b'.place v = b.place v
  named : b'.named = b.named
  stands : ∀ {p i}, home = some (p, i) → ∃ s, b.Stands p s ∧ s.1 = i

theorem Written.stands_iff {home : Option (π × ι)} (g : Written b b' w home) :
    b'.Stands q s ↔ ∃ t, b.Stands q t ∧ rewrite w home q t = s := by
  unfold Stands
  rw [g.line]
  constructor
  · rintro ⟨l, hl, hs⟩
    obtain ⟨base, hbase, rfl⟩ := Option.map_eq_some_iff.mp hl
    obtain ⟨t, ht, heq⟩ := List.mem_map.mp hs
    exact ⟨t, ⟨base, hbase, ht⟩, heq⟩
  · rintro ⟨t, ⟨base, hbase, ht⟩, rfl⟩
    refine ⟨base.map (rewrite w home q), ?_, List.mem_map_of_mem ht⟩
    rw [hbase]
    rfl

/-- The member written is not loose any more: it stands where it was placed,
and all others are as before. -/
theorem Written.inOrder {home : Option (π × ι)} {loose' : μ → Prop} (g : Written b b' w home)
    (h : b.InOrder loose) (hloose : ∀ v, v ≠ w → loose v → loose' v) : b'.InOrder loose' where
  nodup {q line} hline := by
    rw [g.line] at hline
    obtain ⟨base, hbase, rfl⟩ := Option.map_eq_some_iff.mp hline
    rw [List.map_map]
    exact h.nodup hbase
  apart hs ht heq := by
    obtain ⟨s, hs', rfl⟩ := g.stands_iff.mp hs
    obtain ⟨t, ht', rfl⟩ := g.stands_iff.mp ht
    exact h.apart hs' ht' heq
  used hs := by
    obtain ⟨s, hs', rfl⟩ := g.stands_iff.mp hs
    have hused := h.used hs'
    rw [g.named]
    exact hused
  held {q s v} hs hv := by
    obtain ⟨t, ht, rfl⟩ := g.stands_iff.mp hs
    rcases hv with ⟨hne, hv⟩ | ⟨rfl, hhome⟩
    · have hold := h.held ht hv
      rw [g.others v hne]
      exact hold
    · rw [g.gone]
      exact hhome
  placed {q i v} hv := by
    rw [g.named]
    by_cases hvw : v = w
    · subst hvw
      rw [g.gone] at hv
      obtain ⟨t, ht, rfl⟩ := g.stands hv
      refine ⟨h.used ht, fun {r s} hs heq => ?_⟩
      obtain ⟨t', ht', rfl⟩ := g.stands_iff.mp hs
      obtain rfl := h.apart ht' ht heq
      refine ⟨rfl, .inr ⟨rfl, ?_⟩⟩
      rw [hv]
      exact congrArg (fun i => some (r, i)) heq.symm
    · rw [g.others v hvw] at hv
      refine ⟨(h.placed hv).1, fun {r s} hs heq => ?_⟩
      obtain ⟨t, ht, rfl⟩ := g.stands_iff.mp hs
      obtain ⟨hr, hmem⟩ := (h.placed hv).2 ht heq
      exact ⟨hr, .inl ⟨hvw, hmem⟩⟩
  found {q i v} hv hnot := by
    have hold : ∃ t, b.Stands q t ∧ t.1 = i := by
      by_cases hvw : v = w
      · subst hvw
        rw [g.gone] at hv
        exact g.stands hv
      · rw [g.others v hvw] at hv
        exact h.found hv fun hl => hnot (hloose v hvw hl)
    obtain ⟨t, ht, rfl⟩ := hold
    exact ⟨_, g.stands_iff.mpr ⟨t, ht, rfl⟩, rfl⟩

end Board

end PlasmaTiler
