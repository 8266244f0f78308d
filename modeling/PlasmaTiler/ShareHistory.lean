import Mathlib.Algebra.Order.BigOperators.Group.List
import Mathlib.Tactic.Ring
import PlasmaTiler.CosmicV1

/-!
# How long share arithmetic lasts

An insertion multiplies every survivor by their count, and only a common
divisor is ever divided out again, so shares may grow with every insertion.
Removals never fail. An insertion fails exactly when a scaled share or the
total leaves `u64`.

How long does it last? Along a history every insertion has multiplied the
greatest share by at most the length it found, and removals and reductions
enlarge none (`ShareBound`). With shares up to `2^31` at the start a refusal
therefore needs a history whose insertions found lengths with a product of at
least `2^33`. Such a history exists: sixty-three insertions beside a share
that is never reduced away wear the arithmetic out, and the sixty-fourth is
refused.
-/

namespace PlasmaTiler

section
variable {shares existing out : List Nat} {index : Nat}

/-! ## Reduced shares -/

theorem exists_scale_reduceShares (shares : List Nat) :
    ∃ k, 0 < k ∧ (reduceShares shares).map (k * ·) = shares := by
  unfold reduceShares
  split
  · rename_i hg
    refine ⟨gcdAll shares, by omega, ?_⟩
    rw [List.map_map]
    refine (List.map_congr_left fun s hs => ?_).trans (List.map_id shares)
    exact Nat.mul_div_cancel' (gcdAll_dvd hs)
  · exact ⟨1, Nat.one_pos, by simp⟩

/-- Reducing enlarges no share. -/
theorem reduceShares_le {bound : Nat} (h : ∀ s ∈ shares, s ≤ bound) :
    ∀ s ∈ reduceShares shares, s ≤ bound := by
  intro s hs
  obtain ⟨k, hk, hscale⟩ := exists_scale_reduceShares shares
  have hmem : k * s ∈ shares := by
    rw [← hscale]
    exact List.mem_map_of_mem hs
  calc s = 1 * s := (Nat.one_mul s).symm
    _ ≤ k * s := Nat.mul_le_mul_right s hk
    _ ≤ bound := h _ hmem

/-! ## One step -/

/-- What a successful removal computed. -/
theorem proportionalRemovalShares_eq_some
    (h : proportionalRemovalShares existing index = some out) :
    out = reduceShares (existing.eraseIdx index) := by
  simp only [proportionalRemovalShares] at h
  split at h
  · cases h
  · split at h
    · cases h
    · split at h
      · cases h
      · exact (Option.some.inj h).symm

/-- The survivors scaled by their count and the entrant between them. -/
def insertedShares (existing : List Nat) (index : Nat) : List Nat :=
  (existing.map (· * existing.length)).take index ++
    existing.sum :: (existing.map (· * existing.length)).drop index

theorem mem_insertedShares {t : Nat} (h : t ∈ insertedShares existing index) :
    t = existing.sum ∨ ∃ s ∈ existing, t = s * existing.length := by
  simp only [insertedShares, List.mem_append, List.mem_cons] at h
  rcases h with h | rfl | h
  · obtain ⟨s, hs, rfl⟩ := List.mem_map.mp (List.mem_of_mem_take h)
    exact .inr ⟨s, hs, rfl⟩
  · exact .inl rfl
  · obtain ⟨s, hs, rfl⟩ := List.mem_map.mp (List.mem_of_mem_drop h)
    exact .inr ⟨s, hs, rfl⟩

theorem mapM_scaled {n : Nat} (l : List Nat) :
    (l.mapM fun s => checkU64 (s * n)) =
      if ∀ s ∈ l, s * n < u64Size then some (l.map (· * n)) else none := by
  induction l with
  | nil => rfl
  | cons s l ih =>
    have hcons : (∀ t ∈ s :: l, t * n < u64Size) ↔ s * n < u64Size ∧ ∀ t ∈ l, t * n < u64Size :=
      List.forall_mem_cons
    rw [List.mapM_cons, ih]
    by_cases hs : s * n < u64Size
    · by_cases hl : ∀ t ∈ l, t * n < u64Size
      · rw [if_pos hl, if_pos (hcons.mpr ⟨hs, hl⟩), checkU64, if_pos hs]
        rfl
      · rw [if_neg hl, if_neg fun h => hl (hcons.mp h).2, checkU64, if_pos hs]
        rfl
    · rw [if_neg fun h => hs (hcons.mp h).1, checkU64, if_neg hs]
      rfl

/-- An insertion into positive shares fails exactly on overflow. -/
theorem proportionalInsertionShares_eq (hne : existing ≠ []) (hindex : index ≤ existing.length)
    (hpos : ∀ s ∈ existing, 0 < s) :
    proportionalInsertionShares existing index =
      if existing.sum < u64Size ∧ ∀ s ∈ existing, s * existing.length < u64Size then
        some (reduceShares (insertedShares existing index))
      else none := by
  obtain ⟨first, hfirst⟩ := List.exists_mem_of_ne_nil existing hne
  have hsum : 0 < existing.sum := List.sum_pos_iff_exists_pos_nat.mpr ⟨first, hfirst, hpos first hfirst⟩
  have hlen : 0 < existing.length := List.length_pos_of_mem hfirst
  have hempty : existing.isEmpty = false := List.isEmpty_eq_false_iff.mpr hne
  have hzero : existing.contains 0 = false := by
    rw [List.contains_eq_mem, decide_eq_false_iff_not]
    exact fun h0 => absurd (hpos 0 h0) (Nat.lt_irrefl 0)
  have hinserted : (insertedShares existing index).contains 0 = false := by
    rw [List.contains_eq_mem, decide_eq_false_iff_not]
    intro h0
    rcases mem_insertedShares h0 with h0 | ⟨s, hs, h0⟩
    · omega
    · exact absurd h0 (Nat.pos_iff_ne_zero.mp (Nat.mul_pos (hpos s hs) hlen)).symm
  have hcount : (insertedShares existing index).length = existing.length + 1 := by
    simp only [insertedShares, List.length_append, List.length_cons, List.length_take,
      List.length_drop, List.length_map]
    omega
  unfold proportionalInsertionShares
  rw [if_neg (by simp [hempty]; omega), hzero, if_neg (by simp)]
  by_cases htotal : existing.sum < u64Size
  · have hchecked : checkedTotal existing = some existing.sum := checkedTotal_eq_some.mpr ⟨rfl, htotal⟩
    simp only [hchecked, Option.bind_eq_bind, Option.bind_some, mapM_scaled]
    rw [if_neg (by omega)]
    by_cases hscaled : ∀ s ∈ existing, s * existing.length < u64Size
    · rw [if_pos hscaled, if_pos ⟨htotal, hscaled⟩, Option.bind_some]
      exact if_neg (by rw [← insertedShares, hcount, hinserted]; simp)
    · rw [if_neg hscaled, if_neg fun h => hscaled h.2, Option.bind_none]
  · have hchecked : checkedTotal existing = none := by
      rw [Option.eq_none_iff_forall_ne_some]
      exact fun t ht => htotal (checkedTotal_eq_some.mp ht).2
    rw [if_neg fun h => htotal h.1, hchecked]
    rfl

end

/-! ## Histories -/

/-- One edit of a group's shares. -/
inductive ShareStep
  | insertion (index : Nat)
  | removal (index : Nat)

/-- The index is in range, and the number of shares stays between 2 and 64,
which are the sizes a group may have. -/
def ShareStep.Admissible (existing : List Nat) : ShareStep → Prop
  | .insertion index => index ≤ existing.length ∧ existing.length + 1 ≤ 64
  | .removal index => index < existing.length ∧ 2 + 1 ≤ existing.length

def ShareStep.apply (existing : List Nat) : ShareStep → Option (List Nat)
  | .insertion index => proportionalInsertionShares existing index
  | .removal index => proportionalRemovalShares existing index

/-- The shares a history of insertions and removals leads to, together with
the lengths its insertions found, the latest first. Their product bounds the
shares. -/
inductive ShareRun (start : List Nat) : List Nat → List Nat → Prop
  | start : ShareRun start start []
  | insertion {current next lengths : List Nat} {index : Nat} (hrun : ShareRun start current lengths)
      (hadmissible : ShareStep.Admissible current (.insertion index))
      (hstep : proportionalInsertionShares current index = some next) :
      ShareRun start next (current.length :: lengths)
  | removal {current next lengths : List Nat} {index : Nat} (hrun : ShareRun start current lengths)
      (hadmissible : ShareStep.Admissible current (.removal index))
      (hstep : proportionalRemovalShares current index = some next) : ShareRun start next lengths

/-- A share vector a history starts from: two shares or more, none of them
zero and none over `2^31`. -/
structure StartShares (start : List Nat) : Prop where
  two_le : 2 ≤ start.length
  pos : ∀ s ∈ start, 0 < s
  le : ∀ s ∈ start, s ≤ 2 ^ 31

section
variable {start current next lengths : List Nat} {index : Nat}

/-- What holds along a history: every insertion has multiplied the greatest
share by at most the length it found. -/
structure ShareBound (current lengths : List Nat) : Prop where
  two_le : 2 ≤ current.length
  pos : ∀ s ∈ current, 0 < s
  le : ∀ s ∈ current, s ≤ 2 ^ 31 * lengths.prod

theorem sum_le_length_mul {bound : Nat} (h : ∀ s ∈ current, s ≤ bound) :
    current.sum ≤ current.length * bound := by
  simpa using List.sum_le_card_nsmul current bound h

theorem ShareBound.insertion (h : ShareBound current lengths)
    (hadmissible : ShareStep.Admissible current (.insertion index))
    (hstep : proportionalInsertionShares current index = some next) :
    ShareBound next (current.length :: lengths) := by
  obtain ⟨hcount, hpos⟩ := proportionalInsertionShares_eq_some hstep
  have hne : current ≠ [] := List.ne_nil_of_length_pos (by have := h.two_le; omega)
  rw [proportionalInsertionShares_eq hne hadmissible.1 h.pos] at hstep
  split at hstep
  · obtain rfl := Option.some.inj hstep
    refine ⟨by have := h.two_le; omega, hpos, reduceShares_le fun t ht => ?_⟩
    have hbound : 2 ^ 31 * (current.length :: lengths).prod =
        current.length * (2 ^ 31 * lengths.prod) := by
      rw [List.prod_cons]
      ring
    rw [hbound]
    rcases mem_insertedShares ht with rfl | ⟨s, hs, rfl⟩
    · exact sum_le_length_mul h.le
    · rw [Nat.mul_comm]
      exact Nat.mul_le_mul_left _ (h.le s hs)
  · cases hstep

theorem ShareBound.removal (h : ShareBound current lengths)
    (hadmissible : ShareStep.Admissible current (.removal index))
    (hstep : proportionalRemovalShares current index = some next) : ShareBound next lengths := by
  obtain ⟨hindex, hthree⟩ := hadmissible
  obtain ⟨out, hout, hcount, hpos, -⟩ := proportionalRemovalShares_of_pos h.two_le hindex h.pos
  obtain rfl := Option.some.inj (hout.symm.trans hstep)
  refine ⟨by omega, hpos, ?_⟩
  rw [proportionalRemovalShares_eq_some hout]
  exact reduceShares_le fun s hs => h.le s ((List.eraseIdx_sublist current index).subset hs)

theorem ShareRun.bound (h : ShareRun start current lengths) (hstart : StartShares start) :
    ShareBound current lengths := by
  induction h with
  | start => exact ⟨hstart.two_le, hstart.pos, by simpa using hstart.le⟩
  | insertion _ hadmissible hstep ih => exact ih.insertion hadmissible hstep
  | removal _ hadmissible hstep ih => exact ih.removal hadmissible hstep

end

/-- Along every history removals succeed, and an insertion is refused exactly
when the total or a scaled share leaves `u64`; while `2^31` times the product
of the lengths the insertions found stays in `u64` none is refused. -/
theorem share_history {start current lengths : List Nat} (hstart : StartShares start)
    (hrun : ShareRun start current lengths) :
    (∀ index, ShareStep.Admissible current (.removal index) →
      ShareStep.apply current (.removal index) ≠ none) ∧
    ∀ index, ShareStep.Admissible current (.insertion index) →
      (ShareStep.apply current (.insertion index) = none ↔
        u64Size ≤ current.sum ∨ ∃ s ∈ current, u64Size ≤ s * current.length) ∧
      (2 ^ 31 * (current.length :: lengths).prod < u64Size →
        ShareStep.apply current (.insertion index) ≠ none) := by
  have hbound := hrun.bound hstart
  refine ⟨fun index hadmissible => ?_, fun index hadmissible => ?_⟩
  · obtain ⟨out, hout, -⟩ :=
      proportionalRemovalShares_of_pos hbound.two_le hadmissible.1 hbound.pos
    rw [ShareStep.apply, hout]
    exact Option.some_ne_none out
  · have hne : current ≠ [] := List.ne_nil_of_length_pos (by have := hbound.two_le; omega)
    have hstep := proportionalInsertionShares_eq hne hadmissible.1 hbound.pos
    have hiff : ShareStep.apply current (.insertion index) = none ↔
        u64Size ≤ current.sum ∨ ∃ s ∈ current, u64Size ≤ s * current.length := by
      rw [ShareStep.apply, hstep]
      split
      · rename_i hfits
        refine iff_of_false (Option.some_ne_none _) ?_
        rintro (htotal | ⟨s, hs, hscaled⟩)
        · exact absurd hfits.1 (by omega)
        · exact absurd (hfits.2 s hs) (by omega)
      · rename_i hfits
        refine iff_of_true rfl ?_
        by_contra hno
        push Not at hno
        exact hfits hno
    refine ⟨hiff, fun hproduct hnone => ?_⟩
    rw [List.prod_cons, Nat.mul_left_comm] at hproduct
    rcases hiff.mp hnone with htotal | ⟨s, hs, hscaled⟩
    · have hsum := sum_le_length_mul hbound.le
      omega
    · have hle := Nat.mul_le_mul_right current.length (hbound.le s hs)
      rw [Nat.mul_comm (2 ^ 31 * lengths.prod)] at hle
      omega

theorem startShares_uneven : StartShares [1, 2] := ⟨by decide, by decide, by decide⟩

/-- Uneven halves can always take a third window. -/
theorem share_history_uneven : ShareStep.apply [1, 2] (.insertion 1) ≠ none :=
  ((share_history startShares_uneven .start).2 1 ⟨by decide, by decide⟩).2 (by decide)

/-! A window is opened at the end of a pair and the first one closed, over and
over: each round doubles the shares, and no common divisor ever appears. -/

def turnover : Nat → Option (List Nat)
  | 0 => some [1, 2]
  | k + 1 => do
    let pair ← turnover k
    let triple ← proportionalInsertionShares pair pair.length
    proportionalRemovalShares triple 0

theorem turnover_run {k : Nat} {current : List Nat} (h : turnover k = some current) :
    current.length = 2 ∧ ∃ lengths, ShareRun [1, 2] current lengths := by
  induction k generalizing current with
  | zero =>
    obtain rfl := Option.some.inj h
    exact ⟨rfl, [], .start⟩
  | succ k ih =>
    simp only [turnover, Option.bind_eq_bind, Option.bind_eq_some_iff] at h
    obtain ⟨pair, hpair, triple, htriple, hcurrent⟩ := h
    obtain ⟨hlen, lengths, hrun⟩ := ih hpair
    have hcount := (proportionalInsertionShares_eq_some htriple).1
    have hlast := congrArg List.length (proportionalRemovalShares_eq_some hcurrent)
    rw [length_reduceShares, List.length_eraseIdx_of_lt (by omega)] at hlast
    have hinsert : ShareStep.Admissible pair (.insertion pair.length) := ⟨by omega, by omega⟩
    have hremove : ShareStep.Admissible triple (.removal 0) := ⟨by omega, by omega⟩
    exact ⟨by omega, _, (hrun.insertion hinsert htriple).removal hremove hcurrent⟩

/-- The sixty-fourth such insertion is refused. -/
theorem share_history_worn :
    ¬ ∀ start, StartShares start → start.length ≤ 64 → ∀ current lengths,
      ShareRun start current lengths →
        ∀ step, ShareStep.Admissible current step → ShareStep.apply current step ≠ none := by
  intro hclaim
  have hworn : turnover 63 = some [15372286728091293014, 15372286728091293013] := by decide +kernel
  obtain ⟨-, lengths, hrun⟩ := turnover_run hworn
  refine hclaim _ startShares_uneven (by decide) _ _ hrun (.insertion 2) ⟨by decide, by decide⟩ ?_
  decide +kernel

end PlasmaTiler
