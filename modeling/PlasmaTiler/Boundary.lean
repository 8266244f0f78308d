import Mathlib.Algebra.BigOperators.Ring.List
import Mathlib.Algebra.Ring.Nat
import Mathlib.Data.List.GetD
import PlasmaTiler.Resize

/-!
# Moving a boundary

A resize trades shares between two adjacent children of a group and rescales
all others. `MovedPair` is what the derived shares have in common with the
accepted ones; the reconciler's share checks follow from it.

Whether a keyboard step moves the focused share the way its mode says is
another matter. A step aims at a pixel size and looks for shares that are
projected to it, the least ones at some scale (`pixelSharesAtScale_moved`).
The share moves as the mode says exactly when that size lies on the expected
side of the size the share alone is worth; that is `sharesFor_moved`, and it
is where hints come in, which make projected sizes differ from what the
shares are worth.

The rest is about finding the pair. The walk goes up the levels of the
focused leaf and plans at the first one that can (`walkLevels_planned`); both
modes are the same walk with the roles of the children exchanged, so the
facts are stated for the left child and the mode says which one shrinks.
-/

namespace PlasmaTiler

/-- Two adjacent shares moved against each other, all shares rescaled by one
factor. The pair keeps its scaled sum, and its left share is not just the old
one rescaled, so that something did change. -/
structure MovedPair (old new : List Nat) (lo scale : Nat) : Prop where
  length : new.length = old.length
  inside : lo + 1 < old.length
  scale_pos : 0 < scale
  outside : ∀ i, i ≠ lo → i ≠ lo + 1 → new.getD i 0 = old.getD i 0 * scale
  pair : new.getD lo 0 + new.getD (lo + 1) 0 = (old.getD lo 0 + old.getD (lo + 1) 0) * scale
  moved : new.getD lo 0 ≠ old.getD lo 0 * scale
  total : new.sum = old.sum * scale
  bound : old.sum * scale < u64Size
  old_pos : 0 ∉ old
  new_pos : 0 ∉ new

namespace MovedPair

variable {old new : List Nat} {lo scale : Nat}

theorem getD_le_sum (l : List Nat) (i : Nat) : l.getD i 0 ≤ l.sum := by
  induction l generalizing i with
  | nil => simp
  | cons a l ih =>
    cases i with
    | zero => simp
    | succ i =>
      have := ih i
      simp only [List.getD_cons_succ, List.sum_cons]
      omega

theorem getD_add_le_sum (l : List Nat) (i : Nat) : l.getD i 0 + l.getD (i + 1) 0 ≤ l.sum := by
  induction l generalizing i with
  | nil => simp
  | cons a l ih =>
    cases i with
    | zero =>
      have := getD_le_sum l 0
      simp only [List.getD_cons_zero, List.getD_cons_succ, List.sum_cons]
      omega
    | succ i =>
      have := ih i
      simp only [List.getD_cons_succ, List.sum_cons]
      omega

theorem getD_pos {l : List Nat} (h : 0 ∉ l) {i : Nat} (hi : i < l.length) : 0 < l.getD i 0 := by
  have hmem : l.getD i 0 ∈ l := by
    rw [List.getD_eq_getElem _ _ hi]
    exact List.getElem_mem hi
  exact Nat.pos_of_ne_zero fun hzero => h (hzero ▸ hmem)

theorem scaled_lt (h : MovedPair old new lo scale) {n : Nat} (hn : n ≤ old.sum) :
    n * scale < u64Size :=
  (Nat.mul_le_mul_right scale hn).trans_lt h.bound

theorem checked (h : MovedPair old new lo scale) {n : Nat} (hn : n ≤ old.sum) :
    checkU64 (n * scale) = some (n * scale) :=
  checkU64_eq_some.mpr ⟨rfl, h.scaled_lt hn⟩

theorem moved_right (h : MovedPair old new lo scale) :
    new.getD (lo + 1) 0 ≠ old.getD (lo + 1) 0 * scale := by
  have hpair := h.pair
  have hmoved := h.moved
  rw [Nat.add_mul] at hpair
  omega

theorem old_sum_pos (h : MovedPair old new lo scale) : 0 < old.sum :=
  (getD_pos h.old_pos (by have := h.inside; omega : lo < old.length)).trans_le (getD_le_sum old lo)

theorem old_lt (h : MovedPair old new lo scale) {n : Nat} (hn : n ≤ old.sum) : n < u64Size :=
  (Nat.le_mul_of_pos_right n h.scale_pos).trans_lt (h.scaled_lt hn)

/-- The shares did change: at scale one inside the pair, at any other outside
it or in the pair's sum. -/
theorem ne (h : MovedPair old new lo scale) : old ≠ new := by
  rintro rfl
  have htotal := h.total
  have hpos := h.old_sum_pos
  have hscale : scale = 1 := by
    have : old.sum * 1 = old.sum * scale := by omega
    exact (Nat.eq_of_mul_eq_mul_left hpos this).symm
  exact h.moved (by rw [hscale, Nat.mul_one])

end MovedPair

/-- An operation names existing things, on two different children. -/
structure ResizeOperation.Named (operation : ResizeOperation) : Prop where
  domainOutput : operation.domainOutput.isEmpty = false
  domainWorkspace : operation.domainWorkspace.isEmpty = false
  focusedLeaf : operation.focusedLeaf.isEmpty = false
  focusedWindow : operation.focusedWindow.isEmpty = false
  targetGroup : operation.targetGroup.isEmpty = false
  focusedChild : operation.focusedChild.isEmpty = false
  neighborChild : operation.neighborChild.isEmpty = false
  children_ne : operation.focusedChild ≠ operation.neighborChild

/-- The focused and the neighboring index are the pair's two, one step apart in
the direction. -/
structure AdjacentPair (direction : Direction) (fi ni lo : Nat) : Prop where
  indices : fi = lo ∧ ni = lo + 1 ∨ fi = lo + 1 ∧ ni = lo
  step : (ni : Int) - fi = Reconciler.resizeStepFor direction

section
variable {operation : ResizeOperation} {lo scale : Nat}

/-- What a pair keeps of its indices and sums, whichever child is focused. -/
theorem AdjacentPair.facts {old new : List Nat} {direction : Direction} {fi ni : Nat}
    (h : AdjacentPair direction fi ni lo) (hmoved : MovedPair old new lo scale) :
    fi < old.length ∧ ni < old.length ∧ fi ≠ ni ∧ ((fi : Int) - ni).natAbs = 1 ∧
      new.getD fi 0 + new.getD ni 0 = (old.getD fi 0 + old.getD ni 0) * scale ∧
      old.getD fi 0 + old.getD ni 0 ≤ old.sum ∧
      new.getD fi 0 ≠ old.getD fi 0 * scale ∧ new.getD ni 0 ≠ old.getD ni 0 * scale ∧
      ∀ i, i ≠ fi → i ≠ ni → new.getD i 0 = old.getD i 0 * scale := by
  have hinside := hmoved.inside
  have hpair := hmoved.pair
  have hsum := MovedPair.getD_add_le_sum old lo
  rcases h.indices with ⟨rfl, rfl⟩ | ⟨rfl, rfl⟩
  · exact ⟨by omega, hinside, by omega, by omega, hpair, hsum, hmoved.moved, hmoved.moved_right,
      hmoved.outside⟩
  · refine ⟨hinside, by omega, by omega, by omega, ?_, by omega, hmoved.moved_right,
      hmoved.moved, fun i hi hi' => hmoved.outside i hi' hi⟩
    rw [Nat.add_comm, hpair, Nat.add_comm (old.getD ni 0)]

theorem validFixedShareOperation_of (hnamed : operation.Named)
    (hadjacent : AdjacentPair operation.direction operation.focusedIndex operation.neighborIndex lo)
    (hmoved : MovedPair operation.oldShares operation.newShares lo scale) :
    Reconciler.validFixedShareOperation operation = true := by
  obtain ⟨hfi, hni, hne, habs, hpair, hpairSum, hmovedF, hmovedN, houtside⟩ :=
    hadjacent.facts hmoved
  have hlength := hmoved.length
  have hinside := hmoved.inside
  have hold := hmoved.old_pos
  have hnew := hmoved.new_pos
  have hchanged := hmoved.ne
  have hstep := hadjacent.step
  have hsum := hmoved.total
  have hsumPos := hmoved.old_sum_pos
  have hbound := hmoved.bound
  have hscale := hmoved.scale_pos
  have hchecked := @MovedPair.checked _ _ _ _ hmoved
  have holdLt := @MovedPair.old_lt _ _ _ _ hmoved
  have hgetD := MovedPair.getD_le_sum operation.oldShares
  have hposF := MovedPair.getD_pos hold hfi
  have hposOld := @MovedPair.getD_pos operation.oldShares hold
  unfold Reconciler.validFixedShareOperation
  generalize operation.oldShares = old at *
  generalize operation.newShares = new at *
  generalize operation.focusedIndex = fi at *
  generalize operation.neighborIndex = ni at *
  have hempty : (operation.domainOutput.isEmpty || operation.domainWorkspace.isEmpty ||
      operation.focusedLeaf.isEmpty || operation.focusedWindow.isEmpty ||
      operation.targetGroup.isEmpty || operation.focusedChild.isEmpty ||
      operation.neighborChild.isEmpty) = false := by
    simp [hnamed.domainOutput, hnamed.domainWorkspace, hnamed.focusedLeaf, hnamed.focusedWindow,
      hnamed.targetGroup, hnamed.focusedChild, hnamed.neighborChild]
  have holdTotal : checkedTotal old = some old.sum :=
    checkedTotal_eq_some.mpr ⟨rfl, holdLt le_rfl⟩
  have hnewTotal : checkedTotal new = some (old.sum * scale) :=
    checkedTotal_eq_some.mpr ⟨hsum.symm, hsum ▸ hbound⟩
  have holdPair : checkU64 (old.getD fi 0 + old.getD ni 0) = some (old.getD fi 0 + old.getD ni 0) :=
    checkU64_eq_some.mpr ⟨rfl, holdLt hpairSum⟩
  have hnewPair : checkU64 (new.getD fi 0 + new.getD ni 0) =
      some ((old.getD fi 0 + old.getD ni 0) * scale) := by
    rw [hpair]
    exact hchecked hpairSum
  have hnot : ¬ (old.contains 0 = true ∨ new.contains 0 = true) := by simp [hold, hnew]
  have hpairPos : 0 < old.getD fi 0 + old.getD ni 0 := by omega
  have hzero : ¬ (old.sum = 0 ∨ old.sum * scale = 0 ∨ old.getD fi 0 + old.getD ni 0 = 0 ∨
      (old.getD fi 0 + old.getD ni 0) * scale = 0) := by
    have h₁ := Nat.mul_pos hsumPos hscale
    have h₂ := Nat.mul_pos hpairPos hscale
    omega
  have hbase : ∀ {base : Nat}, 0 < base → ¬ (base = 0 ∨ base * scale % base ≠ 0) ∧
      base * scale / base = scale := fun h =>
    ⟨by simp [Nat.pos_iff_ne_zero.mp h], Nat.mul_div_cancel_left scale h⟩
  have hall : (List.range old.length).all (fun i =>
      i = fi ∨ i = ni ∨ checkU64 (old.getD i 0 * scale) = some (new.getD i 0)) = true := by
    refine List.all_eq_true.mpr fun i _ => decide_eq_true ?_
    by_cases hi : i = fi
    · exact .inl hi
    · by_cases hi' : i = ni
      · exact .inr (.inl hi')
      · exact .inr (.inr (by rw [houtside i hi hi']; exact hchecked (hgetD i)))
  dsimp only
  rw [hempty, if_neg Bool.false_ne_true, if_neg hnamed.children_ne, if_neg (by omega),
    if_neg (by omega), if_neg (by omega), if_neg (by simp [hstep]), if_neg hnot, if_neg hchanged,
    holdTotal, hnewTotal, holdPair, hnewPair]
  dsimp only
  rw [if_neg hzero]
  have hpairNe : (new.getD fi 0 != old.getD fi 0 * scale &&
      new.getD ni 0 != old.getD ni 0 * scale) = true := by
    rw [Bool.and_eq_true, bne_iff_ne, bne_iff_ne]
    exact ⟨hmovedF, hmovedN⟩
  have hrest : (List.range old.length).all (fun i =>
        i = fi ∨ i = ni ∨ checkU64 (old.getD i 0 * scale) = some (new.getD i 0)) = true ∧
      (checkU64 ((old.getD fi 0 + old.getD ni 0) * scale) ==
        some ((old.getD fi 0 + old.getD ni 0) * scale)) = true ∧
      (checkU64 (old.sum * scale) == some (old.sum * scale)) = true :=
    ⟨hall, by rw [hchecked hpairSum, beq_self_eq_true], by rw [hchecked le_rfl, beq_self_eq_true]⟩
  cases hwitness : (List.range old.length).find? fun i => i ≠ fi ∧ i ≠ ni with
  | none =>
    dsimp only
    rw [if_neg (hbase hpairPos).1, (hbase hpairPos).2, if_neg hscale.ne', hrest.1, hrest.2.1,
      hrest.2.2, hchecked (hgetD fi), hchecked (hgetD ni)]
    exact hpairNe
  | some i =>
    have hfound := List.find?_some hwitness
    have hmem := List.mem_of_find?_eq_some hwitness
    rw [List.mem_range] at hmem
    obtain ⟨hi, hi'⟩ := of_decide_eq_true hfound
    simp only [houtside i hi hi']
    rw [if_neg (hbase (hposOld hmem)).1, (hbase (hposOld hmem)).2,
      if_neg hscale.ne', hrest.1, hrest.2.1, hrest.2.2, hchecked (hgetD fi), hchecked (hgetD ni)]
    exact hpairNe

/-- The mode check compares the focused share with its rescaled old one. -/
theorem validKeyboardResizeMode_iff
    (hadjacent : AdjacentPair operation.direction operation.focusedIndex operation.neighborIndex lo)
    (hmoved : MovedPair operation.oldShares operation.newShares lo scale) :
    Reconciler.validKeyboardResizeMode operation = true ↔
      match operation.mode with
      | .inwards => operation.newShares.getD operation.focusedIndex 0 <
          operation.oldShares.getD operation.focusedIndex 0 * scale
      | .outwards => operation.oldShares.getD operation.focusedIndex 0 * scale <
          operation.newShares.getD operation.focusedIndex 0 := by
  obtain ⟨hfi, -⟩ := hadjacent.facts hmoved
  have hlength := hmoved.length
  have hsumPos := hmoved.old_sum_pos
  have hscale := hmoved.scale_pos
  have hshare := hmoved.checked (MovedPair.getD_le_sum operation.oldShares operation.focusedIndex)
  have htotal := hmoved.checked le_rfl
  have holdTotal : checkedTotal operation.oldShares = some operation.oldShares.sum :=
    checkedTotal_eq_some.mpr ⟨rfl, hmoved.old_lt le_rfl⟩
  have hnewTotal : checkedTotal operation.newShares = some (operation.oldShares.sum * scale) :=
    checkedTotal_eq_some.mpr ⟨hmoved.total.symm, hmoved.total ▸ hmoved.bound⟩
  have hdiv : operation.oldShares.sum * scale / operation.oldShares.sum = scale :=
    Nat.mul_div_cancel_left scale hsumPos
  unfold Reconciler.validKeyboardResizeMode
  dsimp only
  rw [if_neg (by omega), holdTotal, hnewTotal]
  dsimp only
  rw [if_neg (by
    have := Nat.mul_pos hsumPos hscale
    rw [Nat.mul_mod_right]
    omega), hdiv, if_neg (by rw [htotal]; simp [hscale.ne']), hshare]
  cases operation.mode <;> simp

end

/-! ## Shares for pixels -/

/-- Rounding up stays below a bound exactly when the exact quotient does. -/
theorem ceil_le_iff {q total d a : Nat} (hd : 0 < d) :
    (q * total + (d - 1)) / d ≤ a ↔ q * total ≤ d * a := by
  rw [← Nat.lt_succ_iff, Nat.div_lt_iff_lt_mul hd, Nat.succ_mul, Nat.mul_comm a d]
  omega

section
variable {shares newShares : List Nat} {lo left distributable oldPair scale : Nat}

/-- Lists that agree outside two neighboring places, and on the sum of these,
have one sum. -/
theorem sum_eq_of_pair {l m : List Nat} (hlength : l.length = m.length) (hinside : lo + 1 < l.length)
    (houtside : ∀ i, i ≠ lo → i ≠ lo + 1 → l.getD i 0 = m.getD i 0)
    (hpair : l.getD lo 0 + l.getD (lo + 1) 0 = m.getD lo 0 + m.getD (lo + 1) 0) :
    l.sum = m.sum := by
  induction lo generalizing l m with
  | zero =>
    obtain ⟨a, b, l, rfl⟩ : ∃ a b l', l = a :: b :: l' := by
      match l, hinside with
      | a :: b :: l, _ => exact ⟨a, b, l, rfl⟩
    obtain ⟨c, d, m, rfl⟩ : ∃ c d m', m = c :: d :: m' := by
      match m, hlength with
      | c :: d :: m, _ => exact ⟨c, d, m, rfl⟩
    have hrest : l = m := by
      refine List.ext_getElem (by simpa using hlength) fun i hi hi' => ?_
      have := houtside (i + 2) (by omega) (by omega)
      simpa [List.getD_eq_getElem, hi, hi'] using this
    simp only [List.getD_cons_zero, List.getD_cons_succ] at hpair
    simp only [List.sum_cons, hrest]
    omega
  | succ lo ih =>
    match l, m, hlength, hinside with
    | a :: l, c :: m, hlength, hinside =>
      have hhead := houtside 0 (by omega) (by omega)
      have hsum := ih (l := l) (m := m) (by simpa using hlength) (by simpa using hinside)
        (fun i hi hi' => by simpa using houtside (i + 1) (by omega) (by omega))
        (by simpa using hpair)
      simp only [List.getD_cons_zero] at hhead
      rw [List.sum_cons, List.sum_cons, hhead, hsum]

theorem mapM_checkU64 {scaled : List Nat}
    (h : shares.mapM (fun s => checkU64 (s * scale)) = some scaled) :
    scaled = shares.map (· * scale) := by
  induction shares generalizing scaled with
  | nil =>
    cases h
    rfl
  | cons s shares ih =>
    simp only [List.mapM_cons, Option.bind_eq_bind, Option.bind_eq_some_iff, checkU64_eq_some,
      Option.pure_def, Option.some.injEq] at h
    obtain ⟨_, ⟨rfl, -⟩, rest, hrest, rfl⟩ := h
    rw [ih hrest, List.map_cons]

theorem sum_map_scale : (shares.map (· * scale)).sum = shares.sum * scale := by
  rw [List.sum_map_mul_right, List.map_id']

/-- The left child's shares at a scale: the least the projector maps to its
pixels. -/
theorem pixelSharesAtScale_moved
    (h : pixelSharesAtScale shares lo left distributable oldPair scale = some (some newShares))
    (hinside : lo + 1 < shares.length)
    (hpair : oldPair = shares.getD lo 0 + shares.getD (lo + 1) 0) (hpos : 0 ∉ shares)
    (hscale : 0 < scale) :
    MovedPair shares newShares lo scale ∧ newShares.getD lo 0 =
      max (((left - 1) * (shares.sum * scale) + (distributable - 1)) / distributable) 1 := by
  simp only [pixelSharesAtScale, Option.bind_eq_bind, Option.bind_eq_some_iff] at h
  obtain ⟨scaled, hscaled, scaledTotal, htotal, scaledPair, hscaledPair, h⟩ := h
  obtain rfl := mapM_checkU64 hscaled
  obtain ⟨rfl, hbound⟩ := checkedTotal_eq_some.mp htotal
  obtain ⟨rfl, -⟩ := checkU64_eq_some.mp hscaledPair
  have hsum : (shares.map (· * scale)).sum = shares.sum * scale := sum_map_scale
  rw [hsum] at h hbound
  split at h
  · cases h
  split at h
  · cases h
  rename_i hupper
  split at h
  · cases h
  rename_i hfits
  simp only [Option.bind_eq_some_iff, checkU64_eq_some] at h
  obtain ⟨leftNew, ⟨hleftNew, -⟩, scaledLo, ⟨hscaledLo, -⟩, h⟩ := h
  split at h
  · cases h
  rename_i hmoved
  simp only [Option.bind_eq_some_iff, require_eq_some, Bool.not_eq_true'] at h
  obtain ⟨_, hnonzero, h⟩ := h
  cases h
  have hget : ∀ i, i < shares.length → ((shares.map (· * scale)).mapIdx fun i share =>
      if i = lo then leftNew else if i = lo + 1 then oldPair * scale - leftNew else share).getD i 0 =
        if i = lo then leftNew else if i = lo + 1 then oldPair * scale - leftNew
        else shares.getD i 0 * scale := by
    intro i hi
    rw [List.getD_eq_getElem _ _ (by simpa using hi), List.getElem_mapIdx, List.getElem_map,
      List.getD_eq_getElem _ _ hi]
  have hleft := hget lo (by omega)
  have hright := hget (lo + 1) hinside
  rw [if_pos rfl] at hleft
  rw [if_neg (by omega), if_pos rfl] at hright
  have hlength : ((shares.map (· * scale)).mapIdx fun i share =>
      if i = lo then leftNew else if i = lo + 1 then oldPair * scale - leftNew
      else share).length = shares.length := by simp
  have hpairSum : leftNew + (oldPair * scale - leftNew) = oldPair * scale := by omega
  have houtside : ∀ i, i ≠ lo → i ≠ lo + 1 → ((shares.map (· * scale)).mapIdx fun i share =>
      if i = lo then leftNew else if i = lo + 1 then oldPair * scale - leftNew
      else share).getD i 0 = shares.getD i 0 * scale := by
    intro i hi hi'
    by_cases hlt : i < shares.length
    · rw [hget i hlt, if_neg hi, if_neg hi']
    · rw [List.getD_eq_default _ _ (by omega), List.getD_eq_default _ _ (by omega), Nat.zero_mul]
  generalize ((shares.map (· * scale)).mapIdx fun i share =>
      if i = lo then leftNew else if i = lo + 1 then oldPair * scale - leftNew else share) = new
    at hleft hright hlength houtside hnonzero ⊢
  have htotal : new.sum = shares.sum * scale := by
    rw [← hsum]
    have hscaledGet : ∀ i, (shares.map (· * scale)).getD i 0 = shares.getD i 0 * scale := by
      intro i
      by_cases hlt : i < shares.length
      · rw [List.getD_eq_getElem _ _ (by simpa using hlt), List.getElem_map,
          List.getD_eq_getElem _ _ hlt]
      · rw [List.getD_eq_default _ _ (by simpa using hlt), List.getD_eq_default _ _ (by omega),
          Nat.zero_mul]
    refine sum_eq_of_pair (by rw [hlength, List.length_map]) (show lo + 1 < _ by omega)
      (fun i hi hi' => by rw [houtside i hi hi', hscaledGet]) ?_
    rw [hleft, hright, hscaledGet, hscaledGet, hpairSum, hpair, Nat.add_mul]
  refine ⟨⟨hlength, hinside, hscale, houtside, ?_, ?_, htotal, hbound, hpos, ?_⟩, ?_⟩
  · rw [hleft, hright, hpairSum, hpair]
  · rw [hleft, ← hscaledLo]
    exact hmoved
  · simpa using hnonzero
  · rw [hleft, hleftNew]

/-- The pixels the share at an index is worth, the one every child has
included. -/
def shareSize (shares : List Nat) (index : Nat) (distributable : Int) : Int :=
  1 + distributable * shares.getD index 0 / shares.sum

/-- A success is one at some positive scale. -/
theorem exists_scale_of_pixelSharesForClamped {clampedLeft distributable : Int} {total : Nat}
    (h : pixelSharesForClamped shares lo clampedLeft distributable total oldPair =
      some newShares) :
    0 < distributable ∧ 0 < clampedLeft ∧ 0 < total ∧ ∃ scale, 0 < scale ∧
      pixelSharesAtScale shares lo clampedLeft.toNat distributable.toNat oldPair scale =
        some (some newShares) := by
  simp only [pixelSharesForClamped, Option.bind_eq_bind, Option.bind_eq_some_iff, require_eq_some,
    Bool.and_eq_true, decide_eq_true_eq, bne_iff_ne] at h
  obtain ⟨-, ⟨⟨⟨hdistributable, htotal⟩, -⟩, hclamped⟩, first, hfirst, h⟩ := h
  refine ⟨hdistributable, hclamped, Nat.pos_of_ne_zero htotal, ?_⟩
  cases first with
  | some found =>
    cases h
    exact ⟨1, Nat.one_pos, hfirst⟩
  | none =>
    obtain ⟨second, hsecond, h⟩ := Option.bind_eq_some_iff.mp h
    cases h
    refine ⟨_, ?_, hsecond⟩
    have hceil : 0 < (distributable.toNat + (total - 1)) / total :=
      Nat.div_pos (by omega) (by omega)
    have hmax : 0 < u64Size - 1 := by decide
    exact Nat.lt_min.mpr ⟨hceil, hmax⟩

theorem pixelSharesForClamped_moved {clampedLeft distributable : Int}
    (h : pixelSharesForClamped shares lo clampedLeft distributable shares.sum
      (shares.getD lo 0 + shares.getD (lo + 1) 0) = some newShares)
    (hinside : lo + 1 < shares.length) (hpos : 0 ∉ shares) :
    ∃ scale, MovedPair shares newShares lo scale ∧
      (newShares.getD lo 0 < shares.getD lo 0 * scale ↔
        clampedLeft ≤ shareSize shares lo distributable) := by
  obtain ⟨hdistributable, hclamped, hsum, scale, hscale, hnew⟩ :=
    exists_scale_of_pixelSharesForClamped h
  obtain ⟨hmoved, hleft⟩ := pixelSharesAtScale_moved hnew hinside rfl hpos hscale
  refine ⟨scale, hmoved, ?_⟩
  have hne := hmoved.moved
  have hshare := Nat.mul_pos (MovedPair.getD_pos hpos (by omega : lo < shares.length)) hscale
  have hceil : newShares.getD lo 0 < shares.getD lo 0 * scale ↔
      (clampedLeft.toNat - 1) * (shares.sum * scale) ≤
        distributable.toNat * (shares.getD lo 0 * scale) := by
    rw [← ceil_le_iff (by omega : 0 < distributable.toNat)]
    omega
  have hcancel : (clampedLeft.toNat - 1) * (shares.sum * scale) ≤
      distributable.toNat * (shares.getD lo 0 * scale) ↔
      (clampedLeft.toNat - 1) * shares.sum ≤ distributable.toNat * shares.getD lo 0 := by
    rw [← Nat.mul_assoc, ← Nat.mul_assoc]
    exact Nat.mul_le_mul_right_iff hscale
  rw [hceil, hcancel, shareSize]
  obtain ⟨d, rfl⟩ := Int.eq_ofNat_of_zero_le hdistributable.le
  obtain ⟨c, rfl⟩ := Int.eq_ofNat_of_zero_le hclamped.le
  rw [Int.toNat_natCast, Int.toNat_natCast, ← Nat.le_div_iff_mul_le (by omega)]
  norm_cast
  omega

end

/-! ## Levels of a valid tree -/

/-- Distinct nonempty ids. -/
structure IdsOk (tree : Node) : Prop where
  nodup : tree.ids.Nodup
  nonempty : ∀ i ∈ tree.ids, i.isEmpty = false

theorem TreeOk.idsOk {tree : Node} (h : TreeOk tree) : IdsOk tree := ⟨h.nodup, h.nonempty⟩

theorem IdsOk.of_mem {tree m : Node} (h : IdsOk tree) (hm : m ∈ tree.nodes) : IdsOk m := by
  obtain ⟨ctx, rfl⟩ := Node.mem_nodes_iff.mp hm
  have hids : (ctx.fill m).ids = ctx.idsBefore ++ m.ids ++ ctx.idsAfter := Context.ids_fill
  have hnodup := h.nodup
  have hnonempty := h.nonempty
  rw [hids, List.append_assoc] at hnodup
  rw [hids] at hnonempty
  refine ⟨(List.nodup_append.mp (List.nodup_append.mp hnodup).2.1).1, fun i hi => ?_⟩
  exact hnonempty i (List.mem_append_left _ (List.mem_append_right _ hi))

theorem map_id_sublist (cs : List Node) : (cs.map Node.id).Sublist (cs.flatMap Node.ids) := by
  induction cs with
  | nil => simp
  | cons c cs ih =>
    rw [List.map_cons, List.flatMap_cons]
    have hc : [c.id].Sublist c.ids := by cases c <;> simp
    exact hc.append ih

/-- A level shows a group of the tree by the ids of its children, and which of
the children leads on to the leaf. -/
def PointerLevel.Shows (level : PointerLevel) (tree : Node) : Prop :=
  ∃ cs, Node.group level.groupId level.axis cs level.shares ∈ tree.nodes ∧
    level.children = cs.map Node.id ∧ level.childIndex < cs.length

section
variable {tree : Node} {focused : NodeId} {levels : List PointerLevel} {level : PointerLevel}

theorem pointerPath_shows (h : pointerPath focused tree = some levels) :
    ∀ level ∈ levels, level.Shows tree := by
  induction tree generalizing levels with
  | leaf i => cases h
  | group i axis cs shares ih =>
    have hfrom : ∀ (before rest : List Node) (levels : List PointerLevel), cs = before ++ rest →
        pointerPathFrom focused (⟨i, axis, cs.map Node.id, shares, ·⟩) before.length rest =
          some levels → ∀ level ∈ levels, level.Shows (.group i axis cs shares) := by
      intro before rest
      induction rest generalizing before with
      | nil => intro levels _ h; cases h
      | cons c rest ihr =>
        intro levels hcs h
        have hindex : before.length < cs.length := by
          rw [hcs, List.length_append, List.length_cons]
          omega
        have hself : PointerLevel.Shows ⟨i, axis, cs.map Node.id, shares, before.length⟩
            (.group i axis cs shares) := ⟨cs, Node.self_mem_nodes _, rfl, hindex⟩
        rw [pointerPathFrom] at h
        split at h
        · cases h
          exact fun level hlevel => List.mem_singleton.mp hlevel ▸ hself
        · split at h
          · obtain ⟨inner, hinner, rfl⟩ := Option.map_eq_some_iff.mp h
            have hc : c ∈ cs := hcs ▸ List.mem_append_right _ List.mem_cons_self
            intro level hlevel
            rcases List.mem_append.mp hlevel with hlevel | hlevel
            · obtain ⟨ds, hgroup, hchildren, hlt⟩ := ih c hc hinner level hlevel
              refine ⟨ds, ?_, hchildren, hlt⟩
              rw [Node.nodes_group]
              exact List.mem_cons_of_mem _ (List.mem_flatMap.mpr ⟨c, hc, hgroup⟩)
            · exact List.mem_singleton.mp hlevel ▸ hself
          · exact ihr (before ++ [c]) levels (by simp [hcs]) (by simpa using h)
    rw [pointerPath] at h
    exact hfrom [] cs levels rfl h

theorem PointerLevel.Shows.children (hok : IdsOk tree) (h : level.Shows tree) :
    level.groupId.isEmpty = false ∧ level.children.Nodup ∧
      ∀ child ∈ level.children, child.isEmpty = false := by
  obtain ⟨cs, hgroup, hchildren, -⟩ := h
  have hgroupOk := hok.of_mem hgroup
  have hsub : level.children.Sublist (Node.group level.groupId level.axis cs level.shares).ids := by
    rw [hchildren, Node.ids_group]
    exact (map_id_sublist cs).cons _
  exact ⟨hgroupOk.nonempty _ (Node.id_mem_ids _), hgroupOk.nodup.sublist hsub,
    fun child hchild => hgroupOk.nonempty child (hsub.subset hchild)⟩

end

/-! ## Pairs -/

/-- A pair found at a level of a valid tree: two neighbours in the direction,
inside the group, with positive shares for all the children. -/
structure ResizePair.Found (p : ResizePair) (direction : Direction) : Prop where
  adjacent : AdjacentPair direction p.focusedIndex p.neighborIndex p.lo
  inside : p.lo + 1 < p.level.shares.length
  shares_pos : 0 ∉ p.level.shares
  children : p.level.shares.length = p.level.children.length

namespace ResizePair

variable {p : ResizePair} {direction : Direction} {tree : Node} {geometry : List DesiredGeometry}
  {level : PointerLevel} {left : Int} {newShares : List Nat}

/-- The pixels the pair's group distributes over shares. -/
def distributable (p : ResizePair) : Int := p.sizes.sum - p.sizes.length

/-- The size the left child's share alone is worth. -/
def leftShareSize (p : ResizePair) : Int := shareSize p.level.shares p.lo p.distributable

theorem found_of_resizePairAt
    (h : resizePairAt tree geometry direction level = some (some p)) :
    p.level = level ∧ p.Found direction := by
  unfold resizePairAt at h
  split at h
  · cases h
  split at h
  · cases h
  rename_i neighborIndex hstep
  split at h
  · cases h
  rename_i hneighbor
  simp only [Option.bind_eq_bind, Option.bind_eq_some_iff, require_eq_some, Bool.and_eq_true,
    beq_iff_eq, decide_eq_true_eq, Bool.not_eq_true', List.contains_eq_mem,
    decide_eq_false_iff_not] at h
  obtain ⟨_, ⟨⟨hlength, hindex⟩, hpos⟩, sizes, -, h⟩ := h
  cases h
  have hni : (neighborIndex : Int) = level.childIndex + stepFor direction := by
    unfold stepIndex at hstep
    split at hstep
    · cases hstep
      omega
    · cases hstep
  refine ⟨rfl, ⟨⟨?_, ?_⟩, ?_, hpos, hlength⟩⟩
  · simp only [focusedIndex, lo]
    cases direction <;> simp only [stepFor] at hni <;> omega
  · simp only [focusedIndex]
    cases direction <;> simp only [stepFor] at hni <;> simp only [Reconciler.resizeStepFor] <;> omega
  · simp only [focusedIndex, lo]
    cases direction <;> simp only [stepFor] at hni <;> omega

theorem foldlM_check_sum {sizes : List Int} {start total : Int}
    (h : sizes.foldlM (fun total size => IntRange.i64.check (total + size)) start = some total) :
    total = start + sizes.sum := by
  induction sizes generalizing start with
  | nil =>
    cases h
    simp
  | cons size sizes ih =>
    rw [List.foldlM_cons] at h
    obtain ⟨next, hnext, h⟩ := Option.bind_eq_some_iff.mp h
    rw [ih h, (IntRange.check_eq_some.mp hnext).1, List.sum_cons, Int.add_assoc]

/-- What the shares for a left size are computed from. -/
theorem sharesFor_eq_some (hfound : p.Found direction)
    (h : p.sharesFor left = some (some newShares)) :
    pixelSharesForClamped p.level.shares p.lo left p.distributable p.level.shares.sum
      (p.level.shares.getD p.lo 0 + p.level.shares.getD (p.lo + 1) 0) = some newShares := by
  simp only [sharesFor, Option.bind_eq_bind, Option.bind_eq_some_iff, Option.pure_def,
    Option.some.injEq] at h
  obtain ⟨availTotal, havail, distributable, hdistributable, oldTotal, htotal, oldPair, hpair, h⟩ := h
  obtain ⟨rfl, -⟩ := checkedTotal_eq_some.mp htotal
  obtain ⟨rfl, -⟩ := checkU64_eq_some.mp hpair
  have hsum := foldlM_check_sum havail
  have hdistributable := (IntRange.check_eq_some.mp hdistributable).1
  rw [hsum, Int.zero_add] at hdistributable
  have hpairEq : p.level.shares.getD p.focusedIndex 0 + p.level.shares.getD p.neighborIndex 0 =
      p.level.shares.getD p.lo 0 + p.level.shares.getD (p.lo + 1) 0 := by
    rcases hfound.adjacent.indices with ⟨hfi, hni⟩ | ⟨hfi, hni⟩
    · rw [hfi, hni]
    · rw [hfi, hni, Nat.add_comm]
  rw [hpairEq, hdistributable] at h
  exact h

/-- The shares derived for a left size move the pair, the way the size lies to
the share's own. -/
theorem sharesFor_moved (hfound : p.Found direction)
    (h : p.sharesFor left = some (some newShares)) :
    ∃ scale, MovedPair p.level.shares newShares p.lo scale ∧
      (newShares.getD p.lo 0 < p.level.shares.getD p.lo 0 * scale ↔ left ≤ p.leftShareSize) :=
  pixelSharesForClamped_moved (sharesFor_eq_some hfound h) hfound.inside hfound.shares_pos

end ResizePair

/-! ## Derived boundaries -/

section
variable {α : Type} {step : PointerLevel → Option (LevelStep α)} {levels : List PointerLevel}
  {below : Bool} {a : α}

/-- Whether a level is where the walk ends with a plan. -/
def LevelStep.plans : LevelStep α → Bool
  | planned _ => true
  | _ => false

/-- The walk plans what the first level that plans does. -/
theorem walkLevels_planned (h : walkLevels step levels below = some (.planned a)) :
    ∃ level ∈ levels, levels.find? (fun level => (step level).any LevelStep.plans) = some level ∧
      step level = some (.planned a) := by
  induction levels generalizing below with
  | nil =>
    rw [walkLevels] at h
    split at h <;> cases h
  | cons level levels ih =>
    rw [walkLevels] at h
    cases hstep : step level with
    | none =>
      rw [hstep] at h
      cases h
    | some outcome =>
      rw [hstep] at h
      cases outcome with
      | outward | belowMinimum =>
        obtain ⟨found, hmem, hfind, hfound⟩ := ih h
        exact ⟨found, List.mem_cons_of_mem _ hmem, by rw [List.find?_cons, hstep]; exact hfind, hfound⟩
      | planned b =>
        cases h
        exact ⟨level, List.mem_cons_self, by rw [List.find?_cons, hstep]; rfl, hstep⟩

end

namespace ResizePair

/-- Whether a mode shrinks the left child. -/
def shrinksLeft (p : ResizePair) (mode : ResizeMode) : Bool :=
  (p.focusedIndex == p.lo) == (mode == .inwards)

/-- The left size a keyboard step aims at. -/
def stepLeft (p : ResizePair) (mode : ResizeMode) (stepPx : Int) (axis : Axis) : Option Int :=
  let (shrink, grow) := match mode with
    | .inwards => (p.focusedSize, p.neighborSize)
    | .outwards => (p.neighborSize, p.focusedSize)
  (clampKeyboardShrinkPair shrink grow stepPx axis).map fun (newShrink, newGrow) =>
    if p.shrinksLeft mode then newShrink else newGrow

/-- The step aims at a left size on the wrong side of what the left share is
worth: the shares must move against the mode to reach it. -/
def reverses (p : ResizePair) (mode : ResizeMode) (stepPx : Int) (axis : Axis) : Bool :=
  (p.stepLeft mode stepPx axis).any fun left => p.shrinksLeft mode != decide (left ≤ p.leftShareSize)

end ResizePair

section
variable {tree : Node} {geometry : List DesiredGeometry} {edge direction : Direction}
  {mode : ResizeMode} {stepPx : Int} {level : PointerLevel} {target : PointerTarget}
  {newShares : List Nat} {focused : NodeId}

/-- The two modes differ in which size shrinks, and read the same from there:
a planned step has a left size it aims at, and shares for it. -/
theorem keyboardStep_planned {p : ResizePair} {shrink grow : Int}
    {option : Option (LevelStep (PointerTarget × List Nat))}
    (h : (match clampKeyboardShrinkPair shrink grow stepPx (Axis.forDirection edge) with
      | none => option
      | some (newShrink, newGrow) =>
        if newShrink = shrink ∧ newGrow = grow then some .outward
        else if (if p.shrinksLeft mode then newShrink else newGrow) = p.leftSize then
          some .outward
        else (p.sharesFor (if p.shrinksLeft mode then newShrink else newGrow)).bind fun
          | none => some .outward
          | some newShares => some (.planned (p.target, newShares))) =
      some (.planned (target, newShares)))
    (hoption : option ≠ some (.planned (target, newShares))) :
    ∃ left, (clampKeyboardShrinkPair shrink grow stepPx (Axis.forDirection edge)).map
        (fun (newShrink, newGrow) => if p.shrinksLeft mode then newShrink else newGrow) =
          some left ∧
      p.sharesFor left = some (some newShares) ∧ left ≠ p.leftSize ∧ target = p.target := by
  cases hclamp : clampKeyboardShrinkPair shrink grow stepPx (Axis.forDirection edge) with
  | none =>
    rw [hclamp] at h
    exact absurd h hoption
  | some clamped =>
    obtain ⟨newShrink, newGrow⟩ := clamped
    rw [hclamp] at h
    refine ⟨if p.shrinksLeft mode then newShrink else newGrow, rfl, ?_⟩
    dsimp only at h
    generalize (if p.shrinksLeft mode then newShrink else newGrow) = left at h ⊢
    split at h
    · cases h
    split at h
    · cases h
    rename_i hmoves
    obtain ⟨shares, hshares, h⟩ := Option.bind_eq_some_iff.mp h
    cases shares with
    | none => cases h
    | some shares =>
      cases h
      exact ⟨hshares, hmoves, rfl⟩

theorem keyboardLevel_planned
    (h : keyboardLevel tree geometry edge mode stepPx level = some (.planned (target, newShares))) :
    ∃ (p : ResizePair) (left : Int), resizePairAt tree geometry edge level = some (some p) ∧
      p.stepLeft mode stepPx (Axis.forDirection edge) = some left ∧
      p.sharesFor left = some (some newShares) ∧ left ≠ p.leftSize ∧ target = p.target := by
  simp only [keyboardLevel, Option.bind_eq_bind, Option.bind_eq_some_iff] at h
  obtain ⟨found, hfound, h⟩ := h
  cases found with
  | none => cases h
  | some p =>
    refine ⟨p, ?_⟩
    dsimp only at h
    obtain ⟨pairSum, -, h⟩ := Option.bind_eq_some_iff.mp h
    split at h
    · cases h
    have hstay : (some (if pairSum < pairMinForAxis (Axis.forDirection edge) then .belowMinimum
        else .outward) : Option (LevelStep (PointerTarget × List Nat))) ≠
          some (.planned (target, newShares)) := by
      split <;> rintro ⟨⟩
    cases mode with
    | inwards =>
      obtain ⟨left, hleft, hshares, hmoves, htarget⟩ := keyboardStep_planned h hstay
      exact ⟨left, hfound, hleft, hshares, hmoves, htarget⟩
    | outwards =>
      obtain ⟨left, hleft, hshares, hmoves, htarget⟩ := keyboardStep_planned h hstay
      exact ⟨left, hfound, hleft, hshares, hmoves, htarget⟩

theorem pointerLevelStep_planned {proposedBoundary gap : Int} {plan : PointerPlan}
    (h : pointerLevelStep tree geometry direction proposedBoundary gap level =
      some (.planned plan)) :
    ∃ (p : ResizePair) (left : Int), resizePairAt tree geometry direction level = some (some p) ∧
      p.sharesFor left = some (some plan.newShares) ∧ plan.target = p.target := by
  simp only [pointerLevelStep, Option.bind_eq_bind, Option.bind_eq_some_iff] at h
  obtain ⟨found, hfound, h⟩ := h
  cases found with
  | none => cases h
  | some p =>
    dsimp only at h
    obtain ⟨pairAvail, -, h⟩ := Option.bind_eq_some_iff.mp h
    split at h
    · cases h
    obtain ⟨groupOrigin, -, h⟩ := Option.bind_eq_some_iff.mp h
    obtain ⟨before, -, h⟩ := Option.bind_eq_some_iff.mp h
    obtain ⟨pairStart, -, h⟩ := Option.bind_eq_some_iff.mp h
    obtain ⟨leftDesired, -, h⟩ := Option.bind_eq_some_iff.mp h
    split at h
    · cases h
    split at h
    · cases h
    obtain ⟨shares, hshares, h⟩ := Option.bind_eq_some_iff.mp h
    cases shares with
    | none => cases h
    | some shares =>
      obtain ⟨effectiveBoundary, -, h⟩ := Option.bind_eq_some_iff.mp h
      cases h
      exact ⟨p, _, hfound, hshares, rfl⟩

end

/-! ## Operations on a found pair -/

section
variable {tree : Node} {p : ResizePair} {key : DomainKey} {leaf : NodeId} {window : WindowId}
  {direction : Direction} {mode : ResizeMode} {left : Int} {newShares : List Nat}

theorem target_named (hok : IdsOk tree) (hshows : p.level.Shows tree) (hfound : p.Found direction)
    (houtput : key.output.isEmpty = false) (hworkspace : key.workspace.isEmpty = false)
    (hleaf : leaf.isEmpty = false) (hwindow : window.isEmpty = false) :
    (Session.resizeOperation key leaf window direction mode p.target newShares).Named := by
  obtain ⟨hgroup, hnodup, hchildren⟩ := hshows.children hok
  have hlength := hfound.children
  have hinside := hfound.inside
  have hindices : p.focusedIndex < p.level.children.length ∧
      p.neighborIndex < p.level.children.length ∧ p.focusedIndex ≠ p.neighborIndex := by
    rcases hfound.adjacent.indices with ⟨hfi, hni⟩ | ⟨hfi, hni⟩ <;> omega
  obtain ⟨hfi, hni, hne⟩ := hindices
  have hchild : ∀ {i : Nat} (h : i < p.level.children.length),
      (p.level.children.getD i default).isEmpty = false := by
    intro i h
    rw [List.getD_eq_getElem _ _ h]
    exact hchildren _ (List.getElem_mem h)
  refine ⟨houtput, hworkspace, hleaf, hwindow, hgroup, hchild hfi, hchild hni, ?_⟩
  change p.level.children.getD p.focusedIndex default ≠ p.level.children.getD p.neighborIndex default
  rw [List.getD_eq_getElem _ _ hfi, List.getD_eq_getElem _ _ hni]
  exact fun heq => hne (hnodup.getElem_inj_iff.mp heq)

/-- A derived boundary passes the share checks; it passes the mode check
exactly when it lies on the expected side of what the left share is worth. -/
theorem resizeOperation_valid (hok : IdsOk tree) (hshows : p.level.Shows tree)
    (hfound : p.Found direction) (hshares : p.sharesFor left = some (some newShares))
    (houtput : key.output.isEmpty = false) (hworkspace : key.workspace.isEmpty = false)
    (hleaf : leaf.isEmpty = false) (hwindow : window.isEmpty = false) :
    Reconciler.validFixedShareOperation
        (Session.resizeOperation key leaf window direction mode p.target newShares) = true ∧
      (Reconciler.validKeyboardResizeMode
          (Session.resizeOperation key leaf window direction mode p.target newShares) = true ↔
        (p.shrinksLeft mode = true ↔ left ≤ p.leftShareSize)) := by
  obtain ⟨scale, hmoved, hside⟩ := ResizePair.sharesFor_moved hfound hshares
  have hnamed : (Session.resizeOperation key leaf window direction mode p.target newShares).Named :=
    target_named hok hshows hfound houtput hworkspace hleaf hwindow
  refine ⟨validFixedShareOperation_of hnamed hfound.adjacent hmoved, ?_⟩
  rw [validKeyboardResizeMode_iff hfound.adjacent hmoved, ← hside]
  have hleftMoved := hmoved.moved
  have hpair := hmoved.pair
  rw [Nat.add_mul] at hpair
  dsimp only [Session.resizeOperation, ResizePair.target]
  rcases hfound.adjacent.indices with ⟨hfi, -⟩ | ⟨hfi, -⟩
  all_goals
    rw [ResizePair.shrinksLeft, hfi]
    generalize newShares.getD p.lo 0 = newLeft at *
    generalize newShares.getD (p.lo + 1) 0 = newRight at *
    generalize p.level.shares.getD p.lo 0 * scale = oldLeft at *
    generalize p.level.shares.getD (p.lo + 1) 0 * scale = oldRight at *
    cases mode <;> simp <;> omega

end

end PlasmaTiler
