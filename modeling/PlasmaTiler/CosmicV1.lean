import PlasmaTiler.Contract
import PlasmaTiler.Geometry

/-!
# Layout policy arithmetic

The decisions a session takes from its layout policy: the admission split
axis, the integer share arithmetic of insertion and removal, the pixel rules
of resizing, and the drop zones. There is one policy, so sessions call these
functions directly.

Shares are relative weights, kept small by dividing out their common divisor.
An insertion scales the survivors by their count and gives the entrant their
old total, so that ratios stay exact; it is checked in 64 bits and can fail.
A removal only drops a share and reduces.
-/

namespace PlasmaTiler

/-! ## Admission -/

/-- A target strictly wider than tall splits its width; a tie splits the
height. -/
def admissionAxis (targetW targetH : Int) : Axis :=
  if targetH < targetW then .horizontal else .vertical

def admissionAxisForRect (rect : Rect) : Axis := admissionAxis rect.w rect.h

/-- Equal halves. -/
def newGroupShares : List Nat := [1, 1]

/-! ## Shares -/

/-- Greatest common divisor of a share vector. -/
def gcdAll (shares : List Nat) : Nat := shares.foldl Nat.gcd 0

/-- Divide a share vector by its greatest common divisor. -/
def reduceShares (shares : List Nat) : List Nat :=
  if 1 < gcdAll shares then shares.map (· / gcdAll shares) else shares

/-- Survivors scaled by their count, the entrant given their old total: the
survivors keep their ratios and the entrant gets an equal part. -/
def proportionalInsertionShares (existing : List Nat) (insertionIndex : Nat) :
    Option (List Nat) :=
  if existing.isEmpty ∨ existing.length < insertionIndex then none
  else if existing.contains 0 then none
  else do
    let sum ← checkedTotal existing
    if sum = 0 then none
    else
      let scaled ← existing.mapM fun s => checkU64 (s * existing.length)
      let out := scaled.take insertionIndex ++ sum :: scaled.drop insertionIndex
      if out.length ≠ existing.length + 1 ∨ out.contains 0 then none
      else some (reduceShares out)

/-- The remaining shares, reduced. -/
def proportionalRemovalShares (existing : List Nat) (removedIndex : Nat) : Option (List Nat) :=
  if existing.length < 2 ∨ existing.length ≤ removedIndex then none
  else if existing.contains 0 then none
  else
    let out := existing.eraseIdx removedIndex
    if out.isEmpty ∨ out.contains 0 then none
    else some (reduceShares out)

section
variable {shares existing out : List Nat} {index : Nat}

theorem gcdAll_dvd {s : Nat} (h : s ∈ shares) : gcdAll shares ∣ s := by
  have hfold : ∀ (l : List Nat) (g : Nat), l.foldl Nat.gcd g ∣ g ∧
      ∀ s ∈ l, l.foldl Nat.gcd g ∣ s := by
    intro l
    induction l with
    | nil => intro g; simp
    | cons a l ih =>
      intro g
      obtain ⟨hg, hl⟩ := ih (g.gcd a)
      refine ⟨Nat.dvd_trans hg (Nat.gcd_dvd_left g a), fun s hs => ?_⟩
      rcases List.mem_cons.mp hs with rfl | hs
      · exact Nat.dvd_trans hg (Nat.gcd_dvd_right g s)
      · exact hl s hs
  exact (hfold shares 0).2 s h

@[simp] theorem length_reduceShares : (reduceShares shares).length = shares.length := by
  unfold reduceShares
  split <;> simp

theorem pos_of_mem_reduceShares (h : ∀ s ∈ shares, 0 < s) : ∀ s ∈ reduceShares shares, 0 < s := by
  unfold reduceShares
  split
  · rename_i hg
    intro t ht
    obtain ⟨s, hs, rfl⟩ := List.mem_map.mp ht
    exact Nat.div_pos (Nat.le_of_dvd (h s hs) (gcdAll_dvd hs)) (by omega)
  · exact h

theorem sum_reduceShares_le : (reduceShares shares).sum ≤ shares.sum := by
  have hdiv : ∀ g, (shares.map (· / g)).sum ≤ shares.sum := by
    intro g
    induction shares with
    | nil => simp
    | cons s shares ih =>
      have := Nat.div_le_self s g
      simp only [List.map_cons, List.sum_cons]
      omega
  unfold reduceShares
  split
  · exact hdiv _
  · exact Nat.le_refl _

theorem sum_le_of_sublist (h : shares.Sublist existing) : shares.sum ≤ existing.sum := by
  induction h with
  | slnil => exact Nat.le_refl _
  | cons s _ ih => rw [List.sum_cons]; omega
  | cons_cons s _ ih => rw [List.sum_cons, List.sum_cons]; omega

/-- Removing one of at least two positive shares leaves positive shares with
no larger total. -/
theorem proportionalRemovalShares_of_pos (hlen : 2 ≤ existing.length)
    (hindex : index < existing.length) (hpos : ∀ s ∈ existing, 0 < s) :
    ∃ out, proportionalRemovalShares existing index = some out ∧
      out.length + 1 = existing.length ∧ (∀ s ∈ out, 0 < s) ∧ out.sum ≤ existing.sum := by
  have hsub := List.eraseIdx_sublist existing index
  have hposOut : ∀ s ∈ existing.eraseIdx index, 0 < s := fun s hs => hpos s (hsub.subset hs)
  have herase : (existing.eraseIdx index).length = existing.length - 1 :=
    List.length_eraseIdx_of_lt hindex
  have hne : (existing.eraseIdx index).isEmpty = false := by
    rw [List.isEmpty_eq_false_iff]
    exact List.ne_nil_of_length_pos (by omega)
  have hzero : ∀ l : List Nat, (∀ s ∈ l, 0 < s) → l.contains 0 = false := by
    intro l hl
    rw [List.contains_eq_mem, decide_eq_false_iff_not]
    exact fun h0 => absurd (hl 0 h0) (by omega)
  refine ⟨reduceShares (existing.eraseIdx index), ?_, by rw [length_reduceShares]; omega,
    pos_of_mem_reduceShares hposOut, ?_⟩
  · rw [proportionalRemovalShares, if_neg (by omega), hzero _ hpos]
    simp only [hne, hzero _ hposOut, Bool.false_eq_true, or_self, if_false]
  · exact Nat.le_trans sum_reduceShares_le (sum_le_of_sublist hsub)

/-- What a successful insertion computed. -/
theorem proportionalInsertionShares_eq_some
    (h : proportionalInsertionShares existing index = some out) :
    out.length = existing.length + 1 ∧ ∀ s ∈ out, 0 < s := by
  unfold proportionalInsertionShares at h
  split at h
  · cases h
  · split at h
    · cases h
    · simp only [bind, Option.bind_eq_some_iff] at h
      obtain ⟨sum, -, h⟩ := h
      split at h
      · cases h
      · simp only [Option.bind_eq_some_iff] at h
        obtain ⟨scaled, -, h⟩ := h
        split at h
        · cases h
        · rename_i hout
          simp only [not_or, ne_eq, Classical.not_not] at hout
          obtain ⟨hlen, hzero⟩ := hout
          obtain rfl := Option.some.inj h
          rw [length_reduceShares]
          refine ⟨hlen, pos_of_mem_reduceShares fun s hs => Nat.pos_of_ne_zero ?_⟩
          rintro rfl
          exact hzero (by simpa using hs)

end

/-! ## Resizing in pixels -/

def cosmicKeyboardPreviousPx : Nat := 10
def cosmicKeyboardStepIncrementPx : Nat := 2
def cosmicKeyboardMaxStepPx : Nat := 20

def keyboardStepPx (pressIndex : Nat) : Int :=
  (min cosmicKeyboardMaxStepPx (cosmicKeyboardPreviousPx + cosmicKeyboardStepIncrementPx +
    cosmicKeyboardStepIncrementPx * pressIndex) : Nat)

def pairMinForAxis : Axis → Int
  | .horizontal => 720
  | .vertical => 480

def childMinForAxis : Axis → Int
  | .horizontal => 360
  | .vertical => 240

def pairAdmitsResize (pairW pairH : Int) : Axis → Bool
  | .horizontal => pairMinForAxis .horizontal ≤ pairW
  | .vertical => pairMinForAxis .vertical ≤ pairH

/-- Two-sided clamp of a pair extent at the child minimum. -/
def clampPairSplit (pairTotal desiredFirst : Int) (axis : Axis) : Option (Int × Int) :=
  let lo := childMinForAxis axis
  if pairTotal < lo * 2 then none
  else
    let first := max lo (min (pairTotal - lo) desiredFirst)
    let second := pairTotal - first
    if first < lo ∨ second < lo then none else some (first, second)

/-- One-sided keyboard step: the shrinking child stops at its minimum, the
growing one takes what was removed. -/
def clampKeyboardShrinkPair (shrink grow amount : Int) (axis : Axis) : Option (Int × Int) := do
  let pairTotal ← IntRange.i64.check (shrink + grow)
  if pairTotal < pairMinForAxis axis then none
  else
    let newShrink := max (shrink - amount) (childMinForAxis axis)
    let newGrow ← IntRange.i64.check (grow + (shrink - newShrink))
    some (newShrink, newGrow)

/-! ## Drop zones -/

def cosmicGroupEdgeInactivePx : Int := 32
def cosmicGroupEdgeActivePx : Int := 80

/-- The group edge hovered before; its own zone is deeper. -/
structure PriorGroupEdge where
  group : NodeId
  edge : DragSide
deriving DecidableEq, Repr

def groupEdgeDepthFor (group : NodeId) (edge : DragSide) : Option PriorGroupEdge → Int
  | some p => if p.group = group ∧ p.edge = edge then cosmicGroupEdgeActivePx
      else cosmicGroupEdgeInactivePx
  | none => cosmicGroupEdgeInactivePx

/-- Offsets of a point inside a rectangle, `none` outside it. -/
def offsetsIn (rect : Rect) (x y : Int) : Option (Int × Int) :=
  if rect.w ≤ 0 ∨ rect.h ≤ 0 then none
  else do
    let dx ← IntRange.i32.check (x - rect.x)
    let dy ← IntRange.i32.check (y - rect.y)
    if dx < 0 ∨ dy < 0 ∨ rect.w ≤ dx ∨ rect.h ≤ dy then none else some (dx, dy)

/-- Zones are cut off in build order: left, then top, right and bottom of
what remains. -/
def classifyGroupPoint (rect : Rect) (group : NodeId) (x y : Int)
    (prior : Option PriorGroupEdge) : Option DragSide := do
  let (dx, dy) ← offsetsIn rect x y
  let leftDepth := min (groupEdgeDepthFor group .left prior) rect.w
  let topDepth := min (groupEdgeDepthFor group .top prior) rect.h
  if dx < leftDepth then some .left
  else
    let w1 := rect.w - leftDepth
    let h2 := rect.h - topDepth
    let rightDepth := min (groupEdgeDepthFor group .right prior) w1
    if w1 ≤ 0 then none
    else if 0 < h2 ∧ 0 < w1 ∧ rect.w - rightDepth ≤ dx ∧ topDepth ≤ dy then some .right
    else if leftDepth ≤ dx ∧ dy < topDepth then some .top
    else if h2 ≤ 0 ∨ w1 - rightDepth ≤ 0 then none
    else
      let bottomDepth := min (groupEdgeDepthFor group .bottom prior) h2
      if leftDepth ≤ dx ∧ dx < rect.w - rightDepth ∧ rect.h - bottomDepth ≤ dy then
        some .bottom
      else none

/-- The middle third stacks; elsewhere the nearest edge in proportion to the
rectangle's shape. -/
def classifyWindowPoint (rect : Rect) (x y : Int) : Option DragSide := do
  let (dx, dy) ← offsetsIn rect x y
  let thirdW := (rect.w + 1) / 3
  let thirdH := (rect.h + 1) / 3
  if (thirdW ≤ dx ∧ dx < rect.w - thirdW) ∧ (thirdH ≤ dy ∧ dy < rect.h - thirdH) then
    some .center
  else
    let hMin := min dx (rect.w - dx)
    let vMin := min dy (rect.h - dy)
    if hMin * rect.h < vMin * rect.w then
      some (if dx ≤ rect.w - dx then .left else .right)
    else some (if dy ≤ rect.h - dy then .top else .bottom)

/-- Predecessor of the first child start past the offset; the first child
when there is none. -/
def insertionIndexForOffset (childStarts : List Int) (offset : Int) : Nat :=
  match childStarts.findIdx? (offset < ·) with
  | some (pos + 1) => pos
  | _ => 0

end PlasmaTiler
