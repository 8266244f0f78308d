import PlasmaTiler.ResizedGroup

/-!
# Which way a keyboard step moves the focused child

The step takes pixels from the shrinking child of the pair and hands them to
the growing one, down to the child minimum. Two things can turn it round.

The first is the minimum itself: a shrinking child already below it is raised
to it, and the step goes the wrong way. At or above the minimum the sizes
follow the mode.

The second is the geometry the step is measured on. The pixels are read off
the accepted geometry, where size hints may have moved boundaries anywhere in
the tree; the new shares are laid out by the projector, which knows no hints.
What matters of the hints is how they change the group that is resized, not
the rest of the tree:

- `PairKept`: they move the pair's own boundary at most. The group then has
  as many pixels to distribute on either side, and the shares put the left
  child at exactly the size aimed at. The minimum alone decides.
- otherwise the group has some pixels `here`, in the accepted geometry, and
  others `there`, in the projection. The share derived for a size of `here` is
  worth a size of `there` between `fewestPixels` and `mostPixels`, and that
  size (`Attainable`) must lie on the side the mode asks for (`PairObeys`),
  while the other children must not have been moved (`Undisturbed`).

`keyboard_resize_sense` states both, for every accepted geometry.
-/

namespace PlasmaTiler

/-! ## Sizes that follow a mode -/

namespace PointerTarget

/-- The left child of the pair. -/
def lo (target : PointerTarget) : Nat := min target.focusedIndex target.neighborIndex

/-- The child of the pair a mode shrinks. -/
def shrinkIndex (target : PointerTarget) : ResizeMode → Nat
  | .inwards => target.focusedIndex
  | .outwards => target.neighborIndex

/-- The focused child's of the pair's two sizes. -/
def focusedOf (target : PointerTarget) (left right : Int) : Int :=
  if target.focusedIndex = target.lo then left else right

/-- What a step takes from the shrinking child: negative when that child is
raised to the minimum. -/
def taken (target : PointerTarget) (mode : ResizeMode) (stepPx childMin : Int)
    (before : List Int) : Int :=
  before.getD (target.shrinkIndex mode) 0 -
    max (before.getD (target.shrinkIndex mode) 0 - stepPx) childMin

/-- The left size a step aims at. -/
def steppedLeft (target : PointerTarget) (mode : ResizeMode) (stepPx childMin : Int)
    (before : List Int) : Int :=
  if target.shrinkIndex mode = target.lo then
    before.getD target.lo 0 - target.taken mode stepPx childMin before
  else before.getD target.lo 0 + target.taken mode stepPx childMin before

end PointerTarget

/-- The sizes follow the mode: the focused child is not larger inwards and not
smaller outwards, the boundary moves by at most the step, and no child but
the pair and the last changes. -/
structure ObeysMode (mode : ResizeMode) (stepPx : Int) (target : PointerTarget)
    (before after : List Int) : Prop where
  inwards : mode = .inwards →
    after.getD target.focusedIndex 0 ≤ before.getD target.focusedIndex 0
  outwards : mode = .outwards →
    before.getD target.focusedIndex 0 ≤ after.getD target.focusedIndex 0
  boundary :
    (after.take (min target.focusedIndex target.neighborIndex + 1)).sum -
        (before.take (min target.focusedIndex target.neighborIndex + 1)).sum ≤ stepPx ∧
      (before.take (min target.focusedIndex target.neighborIndex + 1)).sum -
        (after.take (min target.focusedIndex target.neighborIndex + 1)).sum ≤ stepPx
  others : ∀ i, i ≠ target.focusedIndex → i ≠ target.neighborIndex → i + 1 < before.length →
    after.getD i 0 = before.getD i 0

/-- The mode's demands on the two sizes of the pair: the focused child does
not grow inwards nor shrink outwards, and the boundary moves by the step at
most. -/
structure PairObeys (mode : ResizeMode) (stepPx : Int) (target : PointerTarget)
    (before : List Int) (left right : Int) : Prop where
  inwards : mode = .inwards → target.focusedOf left right ≤ before.getD target.focusedIndex 0
  outwards : mode = .outwards → before.getD target.focusedIndex 0 ≤ target.focusedOf left right
  boundary : left - before.getD target.lo 0 ≤ stepPx ∧ before.getD target.lo 0 - left ≤ stepPx

/-- Hints move no child of the group but the pair and the last, so that the
sizes read off the screen are otherwise those of the plain projection. -/
def Undisturbed (target : PointerTarget) (before plain : List Int) : Prop :=
  ∀ i, i ≠ target.focusedIndex → i ≠ target.neighborIndex → i + 1 < before.length →
    before.getD i 0 = plain.getD i 0

/-- Hints move the pair's own boundary at most: the other children have their
plain sizes, and the pair its plain sum. -/
structure PairKept (target : PointerTarget) (before plain : List Int) : Prop where
  elsewhere : ∀ i, i ≠ target.focusedIndex → i ≠ target.neighborIndex →
    before.getD i 0 = plain.getD i 0
  pair : before.getD target.lo 0 + before.getD (target.lo + 1) 0 =
    plain.getD target.lo 0 + plain.getD (target.lo + 1) 0

section
variable {direction : Direction} {target : PointerTarget} {mode : ResizeMode}
  {stepPx left right childMin : Int} {before plain after : List Int}

/-- The group's sizes follow the mode when the pair's do and the other
children are where they were. -/
theorem obeysMode_iff
    (hadj : AdjacentPair direction target.focusedIndex target.neighborIndex target.lo)
    (hlength : after.length = before.length) (hinside : target.lo + 1 < before.length) :
    ObeysMode mode stepPx target before after ↔
      PairObeys mode stepPx target before (after.getD target.lo 0) (after.getD (target.lo + 1) 0) ∧
        ∀ i, i ≠ target.focusedIndex → i ≠ target.neighborIndex → i + 1 < before.length →
          after.getD i 0 = before.getD i 0 := by
  have hfocused : target.focusedOf (after.getD target.lo 0) (after.getD (target.lo + 1) 0) =
      after.getD target.focusedIndex 0 := by
    rw [PointerTarget.focusedOf]
    rcases hadj.indices with ⟨hfi, -⟩ | ⟨hfi, -⟩
    · rw [if_pos hfi, hfi]
    · rw [if_neg (by omega), hfi]
  -- up to the pair nothing moved, so the boundary moves with the left child
  have hshift : (∀ i, i ≠ target.focusedIndex → i ≠ target.neighborIndex → i + 1 < before.length →
      after.getD i 0 = before.getD i 0) →
      (after.take (target.lo + 1)).sum - (before.take (target.lo + 1)).sum =
        after.getD target.lo 0 - before.getD target.lo 0 := by
    intro hothers
    have htake : after.take target.lo = before.take target.lo := by
      refine take_eq_of_getD (by omega) (by omega) fun i hi => hothers i ?_ ?_ (by omega)
      · rcases hadj.indices with ⟨hfi, -⟩ | ⟨hfi, -⟩ <;> omega
      · rcases hadj.indices with ⟨-, hni⟩ | ⟨-, hni⟩ <;> omega
    rw [sum_take_succ_getD (by omega), sum_take_succ_getD (by omega), htake]
    omega
  constructor
  · intro h
    have hmoves := hshift h.others
    have hboundary := h.boundary
    rw [show min target.focusedIndex target.neighborIndex = target.lo from rfl] at hboundary
    exact ⟨⟨fun hmode => hfocused ▸ h.inwards hmode, fun hmode => hfocused ▸ h.outwards hmode,
      by omega⟩, h.others⟩
  · rintro ⟨hpair, hothers⟩
    have hmoves := hshift hothers
    have hboundary := hpair.boundary
    refine ⟨fun hmode => hfocused ▸ hpair.inwards hmode,
      fun hmode => hfocused ▸ hpair.outwards hmode, ?_, hothers⟩
    rw [show min target.focusedIndex target.neighborIndex = target.lo from rfl]
    omega

/-- At or above the minimum the sizes aimed at follow the mode, and so do
those a pixel off on the right. -/
theorem pairObeys_of_min
    (hadj : AdjacentPair direction target.focusedIndex target.neighborIndex target.lo)
    (hstep : 0 < stepPx) (hmin : childMin ≤ before.getD (target.shrinkIndex mode) 0)
    (hleft : left = target.steppedLeft mode stepPx childMin before)
    (hmoves : left ≠ before.getD target.lo 0)
    (hnear : right ≤ before.getD target.lo 0 + before.getD (target.lo + 1) 0 - left + 1 ∧
      before.getD target.lo 0 + before.getD (target.lo + 1) 0 - left - 1 ≤ right) :
    PairObeys mode stepPx target before left right := by
  have htaken : 0 ≤ target.taken mode stepPx childMin before ∧
      target.taken mode stepPx childMin before ≤ stepPx := by
    rw [PointerTarget.taken]
    omega
  rw [PointerTarget.steppedLeft] at hleft
  refine ⟨?_, ?_, ?_⟩
  · rintro rfl
    rw [PointerTarget.focusedOf]
    rw [PointerTarget.shrinkIndex] at hleft
    rcases hadj.indices with ⟨hfi, -⟩ | ⟨hfi, -⟩
    · rw [if_pos hfi] at hleft ⊢
      rw [hfi]
      omega
    · rw [if_neg (by omega)] at hleft ⊢
      rw [hfi]
      omega
  · rintro rfl
    rw [PointerTarget.focusedOf]
    rw [PointerTarget.shrinkIndex] at hleft
    rcases hadj.indices with ⟨hfi, hni⟩ | ⟨hfi, hni⟩
    · rw [if_neg (by omega)] at hleft
      rw [if_pos hfi, hfi]
      omega
    · rw [if_pos hni] at hleft
      rw [if_neg (by omega), hfi]
      omega
  · split at hleft <;> omega

/-- Below it they do not, but for one pixel a right child may be given that is
not the last. -/
theorem min_of_pairObeys
    (hadj : AdjacentPair direction target.focusedIndex target.neighborIndex target.lo)
    (hleft : left = target.steppedLeft mode stepPx childMin before)
    (hnear : before.getD target.lo 0 + before.getD (target.lo + 1) 0 - left - 1 ≤ right ∧
      right ≤ before.getD target.lo 0 + before.getD (target.lo + 1) 0 - left + 1)
    (hlast : before.length ≤ target.lo + 2 →
      right = before.getD target.lo 0 + before.getD (target.lo + 1) 0 - left)
    (h : PairObeys mode stepPx target before left right) :
    childMin ≤ before.getD (target.shrinkIndex mode) 0 ∨
      target.neighborIndex < target.focusedIndex ∧ target.focusedIndex + 1 < before.length ∧
        before.getD (target.shrinkIndex mode) 0 + 1 = childMin := by
  by_contra hnot
  rw [not_or] at hnot
  obtain ⟨hbelow, hexact⟩ := hnot
  have htaken : target.taken mode stepPx childMin before ≤ -1 ∧
      (before.getD (target.shrinkIndex mode) 0 + 1 = childMin ∨
        target.taken mode stepPx childMin before ≤ -2) := by
    rw [PointerTarget.taken]
    omega
  rw [PointerTarget.steppedLeft] at hleft
  cases mode with
  | inwards =>
    have hfocused := h.inwards rfl
    rw [PointerTarget.focusedOf] at hfocused
    rw [PointerTarget.shrinkIndex] at hleft
    rcases hadj.indices with ⟨hfi, hni⟩ | ⟨hfi, hni⟩
    · rw [if_pos hfi] at hleft hfocused
      rw [hfi] at hfocused
      omega
    · rw [if_neg (by omega)] at hleft hfocused
      rw [hfi] at hfocused
      omega
  | outwards =>
    have hfocused := h.outwards rfl
    rw [PointerTarget.focusedOf] at hfocused
    rw [PointerTarget.shrinkIndex] at hleft
    rcases hadj.indices with ⟨hfi, hni⟩ | ⟨hfi, hni⟩
    · rw [if_neg (by omega)] at hleft
      rw [if_pos hfi, hfi] at hfocused
      omega
    · rw [if_pos hni] at hleft
      rw [if_neg (by omega), hfi] at hfocused
      omega

/-- With the pair kept, the group has the pixels it has in the projection. -/
theorem PairKept.sum_eq (h : PairKept target before plain)
    (hadj : AdjacentPair direction target.focusedIndex target.neighborIndex target.lo)
    (hlength : before.length = plain.length) (hinside : target.lo + 1 < before.length) :
    before.sum = plain.sum := by
  have helsewhere : ∀ i, i ≠ target.lo → i ≠ target.lo + 1 → before.getD i 0 = plain.getD i 0 := by
    intro i hi hi'
    rcases hadj.indices with ⟨hfi, hni⟩ | ⟨hfi, hni⟩ <;> exact h.elsewhere i (by omega) (by omega)
  have htake : before.take target.lo = plain.take target.lo :=
    take_eq_of_getD (by omega) (by omega) fun i hi => helsewhere i (by omega) (by omega)
  have hdrop : before.drop (target.lo + 2) = plain.drop (target.lo + 2) := by
    refine List.ext_getElem (by simp [hlength]) fun i hi hi' => ?_
    rw [List.length_drop] at hi hi'
    have := helsewhere (target.lo + 2 + i) (by omega) (by omega)
    rw [List.getD_eq_getElem _ _ (by omega), List.getD_eq_getElem _ _ (by omega)] at this
    rw [List.getElem_drop, List.getElem_drop, this]
  rw [← List.sum_take_add_sum_drop before (target.lo + 2),
    ← List.sum_take_add_sum_drop plain (target.lo + 2), hdrop, sum_take_succ_getD (by omega),
    sum_take_succ_getD (by omega), sum_take_succ_getD (l := plain) (by omega),
    sum_take_succ_getD (l := plain) (by omega), htake]
  have hpair := h.pair
  omega

end

/-! ## Pixels of one total in another -/

/-- The least a share worth `left` pixels of `here` is worth of `there`. -/
def fewestPixels (here there left : Int) : Int := 1 + there * (left - 1) / here

/-- The most it is worth. -/
def mostPixels (here there left : Int) : Int := 1 + max (there * left - 1) 0 / here

/-- Of the same total it is worth what it was. -/
theorem pixels_self {here left : Int} (hhere : 0 < here) (hleft : 0 < left) :
    fewestPixels here here left = left ∧ mostPixels here here left = left := by
  have hproduct : 0 < here * left := Int.mul_pos hhere hleft
  constructor
  · rw [fewestPixels, Int.mul_ediv_cancel_left _ hhere.ne']
    omega
  · rw [mostPixels, max_eq_left (by omega),
      ediv_eq_of_bounds (q := left - 1) hhere (by rw [Int.sub_mul, Int.mul_comm left]; omega)
        (by rw [Int.sub_add_cancel, Int.mul_comm left]; omega)]
    omega

theorem shareSize_between {here there : Int} {shares : List Nat} {lo : Nat} (hhere : 0 < here)
    (hthere : 0 ≤ there) (hsum : 0 < shares.sum) :
    fewestPixels here there (shareSize shares lo here) ≤ shareSize shares lo there ∧
      shareSize shares lo there ≤ mostPixels here there (shareSize shares lo here) := by
  have htotal : (0 : Int) < shares.sum := by exact_mod_cast hsum
  simp only [fewestPixels, mostPixels, shareSize]
  generalize (shares.getD lo 0 : Int) = share
  generalize (shares.sum : Int) = total at htotal
  have hlow := Int.ediv_mul_le (here * share) htotal.ne'
  have hhigh := Int.lt_ediv_add_one_mul_self (here * share) htotal
  generalize here * share / total = q at hlow hhigh ⊢
  constructor
  · have hquot := Int.ediv_mul_le (there * q) hhere.ne'
    have : there * (1 + q - 1) / here ≤ there * share / total := by
      rw [Int.le_ediv_iff_mul_le htotal, show 1 + q - 1 = q by omega]
      refine Int.le_of_mul_le_mul_left ?_ hhere
      calc here * (there * q / here * total)
          = there * q / here * here * total := by ring
        _ ≤ there * q * total := Int.mul_le_mul_of_nonneg_right hquot htotal.le
        _ = there * (q * total) := by ring
        _ ≤ there * (here * share) := Int.mul_le_mul_of_nonneg_left hlow hthere
        _ = here * (there * share) := by ring
    omega
  · have hquot := Int.ediv_mul_le (there * share) htotal.ne'
    have : there * share / total ≤ max (there * (1 + q) - 1) 0 / here := by
      rw [Int.le_ediv_iff_mul_le hhere]
      rcases hthere.eq_or_lt with rfl | hthere
      · simp
      refine le_max_of_le_left (Int.le_sub_one_of_lt ?_)
      refine Int.lt_of_mul_lt_mul_left ?_ htotal.le
      calc total * (there * share / total * here)
          = there * share / total * total * here := by ring
        _ ≤ there * share * here := Int.mul_le_mul_of_nonneg_right hquot hhere.le
        _ = there * (here * share) := by ring
        _ < there * ((q + 1) * total) := Int.mul_lt_mul_of_pos_left hhigh hthere
        _ = total * (there * (1 + q)) := by ring
    omega

/-- The sizes the pair may be laid out with for a left size of `left` measured
on `before`: the pair's share of the projection, the last child taking the
remainder. -/
structure Attainable (before plain : List Int) (lo : Nat) (left x y : Int) : Prop where
  least : fewestPixels (before.sum - before.length) (plain.sum - plain.length) left ≤ x
  most : x ≤ mostPixels (before.sum - before.length) (plain.sum - plain.length) left
  last : lo + 2 = plain.length → x + y = plain.getD lo 0 + plain.getD (lo + 1) 0
  near : x + y ≤ plain.getD lo 0 + plain.getD (lo + 1) 0 + 1 ∧
    plain.getD lo 0 + plain.getD (lo + 1) 0 ≤ x + y + 1

namespace ResizePair

variable {gap : Int} {tree : Node} {bounds rect : Rect} {axis : Axis} {direction : Direction}
  {geometry : List DesiredGeometry} {cs : List Node} {p : ResizePair} {mode : ResizeMode}
  {shrink grow stepPx left : Int} {newShares : List Nat}

/-- The left size of a clamped pair, from what was taken of the shrinking
child. -/
theorem clamped_left (h : (clampKeyboardShrinkPair shrink grow stepPx axis).map
      (fun (newShrink, newGrow) => if p.shrinksLeft mode then newShrink else newGrow) = some left) :
    left = if p.shrinksLeft mode then max (shrink - stepPx) (childMinForAxis axis)
      else grow + (shrink - max (shrink - stepPx) (childMinForAxis axis)) := by
  simp only [clampKeyboardShrinkPair, Option.bind_eq_bind, Option.map_eq_some_iff,
    Option.bind_eq_some_iff] at h
  obtain ⟨pair, ⟨total, -, hpair⟩, rfl⟩ := h
  split at hpair
  · cases hpair
  obtain ⟨newGrow, hgrow, hpair⟩ := Option.bind_eq_some_iff.mp hpair
  cases hpair
  rw [(IntRange.check_eq_some.mp hgrow).1]

theorem shrinksLeft_iff (hfound : p.Found direction) :
    p.shrinksLeft mode = true ↔ p.target.shrinkIndex mode = p.target.lo := by
  rw [shrinksLeft, show p.target.lo = p.lo from rfl]
  rcases hfound.adjacent.indices with ⟨hfi, hni⟩ | ⟨hfi, hni⟩ <;> cases mode <;>
    simp [PointerTarget.shrinkIndex, target, hfi, hni]

/-- The two children of a pair are its left and its right one, whichever
shrinks. -/
theorem clamped_eq_stepped {sizes : List Int} {shrink grow lo : Nat} {childMin : Int}
    (h : shrink = lo ∨ grow = lo) :
    (if shrink = lo then max (sizes.getD shrink 0 - stepPx) childMin
      else sizes.getD grow 0 + (sizes.getD shrink 0 - max (sizes.getD shrink 0 - stepPx) childMin)) =
    if shrink = lo then
      sizes.getD lo 0 - (sizes.getD shrink 0 - max (sizes.getD shrink 0 - stepPx) childMin)
    else sizes.getD lo 0 + (sizes.getD shrink 0 - max (sizes.getD shrink 0 - stepPx) childMin) := by
  split
  · rename_i hshrink
    rw [hshrink]
    omega
  · rename_i hgrow
    rw [h.resolve_left hgrow]

theorem stepLeft_eq_some (hfound : p.Found direction) (h : p.stepLeft mode stepPx axis = some left) :
    left = p.target.steppedLeft mode stepPx (childMinForAxis axis) p.sizes := by
  rw [clamped_left h]
  simp only [shrinksLeft_iff hfound]
  have hindices := hfound.adjacent.indices
  cases mode with
  | inwards =>
    have hsides : p.focusedIndex = p.lo ∨ p.neighborIndex = p.lo := by omega
    exact clamped_eq_stepped hsides
  | outwards =>
    have hsides : p.neighborIndex = p.lo ∨ p.focusedIndex = p.lo := by omega
    exact clamped_eq_stepped hsides

/-- The shares derived on any geometry split the projection's pair at a size
the size aimed at can be worth there. -/
theorem Placed.resplit (h : p.Placed gap tree bounds axis geometry cs rect)
    (hfound : p.Found direction) (hshares : p.sharesFor left = some (some newShares)) :
    ∃ scale x, 0 < p.distributable ∧ 0 < left ∧ MovedPair p.level.shares newShares p.lo scale ∧
      Resplit (groupSizes gap cs p.level.shares (rect.extent axis))
        (groupSizes gap cs newShares (rect.extent axis)) p.lo x ∧
      fewestPixels p.distributable (groupDistributable gap cs (rect.extent axis)) left ≤ x ∧
      x ≤ mostPixels p.distributable (groupDistributable gap cs (rect.extent axis)) left := by
  have hderived := sharesFor_eq_some hfound hshares
  obtain ⟨hhere, hleft, -⟩ := exists_scale_of_pixelSharesForClamped hderived
  obtain ⟨scale, hmoved, hexact⟩ :=
    pixelSharesForClamped_exact hderived hfound.inside hfound.shares_pos
  have hsum : 0 < newShares.sum := by exact_mod_cast hmoved.sum_cast.2
  have hbetween := @shareSize_between _ _ newShares p.lo hhere h.spare hsum
  rw [hexact] at hbetween
  exact ⟨scale, _, hhere, hleft, hmoved, hmoved.resplit h.spare, hbetween⟩

end ResizePair

/-- What a planned step makes of its group, measured on the accepted sizes
`before` and laid out over the projection's own `plain`. -/
theorem Resplit.sense {direction : Direction} {target : PointerTarget} {mode : ResizeMode}
    {stepPx left x : Int} {before plain after : List Int}
    (h : Resplit plain after target.lo x)
    (hadj : AdjacentPair direction target.focusedIndex target.neighborIndex target.lo)
    (hlength : before.length = plain.length)
    (hleast : fewestPixels (before.sum - before.length) (plain.sum - plain.length) left ≤ x)
    (hmost : x ≤ mostPixels (before.sum - before.length) (plain.sum - plain.length) left) :
    Attainable before plain target.lo left (after.getD target.lo 0) (after.getD (target.lo + 1) 0) ∧
      (ObeysMode mode stepPx target before after ↔ Undisturbed target before plain ∧
        PairObeys mode stepPx target before (after.getD target.lo 0)
          (after.getD (target.lo + 1) 0)) := by
  have haimed := h.aimed
  have hinside := h.inside
  have hnear := h.right_near
  have hlast := h.right_last
  refine ⟨⟨haimed ▸ hleast, haimed ▸ hmost, fun hend => by have := hlast hend; omega, by omega⟩, ?_⟩
  have houtside : ∀ i, i ≠ target.focusedIndex → i ≠ target.neighborIndex → i + 1 < before.length →
      after.getD i 0 = plain.getD i 0 := by
    intro i hi hi' hend
    rcases hadj.indices with ⟨hfi, hni⟩ | ⟨hfi, hni⟩ <;>
      exact h.outside i (by omega) (by omega) (by omega)
  rw [obeysMode_iff hadj (h.length.trans hlength.symm) (hlength ▸ hinside), and_comm]
  refine and_congr_left fun _ => ?_
  constructor
  · intro hothers i hi hi' hend
    rw [← hothers i hi hi' hend, houtside i hi hi' hend]
  · intro hundisturbed i hi hi' hend
    rw [houtside i hi hi' hend, hundisturbed i hi hi' hend]

/-- With the pair kept, the size aimed at is the size laid out, and the minimum
decides. -/
theorem Resplit.sense_of_kept {direction : Direction} {target : PointerTarget} {mode : ResizeMode}
    {stepPx left childMin x : Int} {before plain after : List Int}
    (h : Resplit plain after target.lo x)
    (hadj : AdjacentPair direction target.focusedIndex target.neighborIndex target.lo)
    (hlength : before.length = plain.length) (hkept : PairKept target before plain)
    (hhere : 0 < before.sum - before.length) (hpos : 0 < left) (hstep : 0 < stepPx)
    (hleft : left = target.steppedLeft mode stepPx childMin before)
    (hmoves : left ≠ before.getD target.lo 0)
    (hleast : fewestPixels (before.sum - before.length) (plain.sum - plain.length) left ≤ x)
    (hmost : x ≤ mostPixels (before.sum - before.length) (plain.sum - plain.length) left) :
    (childMin ≤ before.getD (target.shrinkIndex mode) 0 →
      ObeysMode mode stepPx target before after) ∧
    (ObeysMode mode stepPx target before after →
      childMin ≤ before.getD (target.shrinkIndex mode) 0 ∨
        target.neighborIndex < target.focusedIndex ∧ target.focusedIndex + 1 < before.length ∧
          before.getD (target.shrinkIndex mode) 0 + 1 = childMin) := by
  have hinside := h.inside
  have hiff := (@Resplit.sense _ _ mode stepPx _ _ _ _ _ h hadj hlength hleast hmost).2
  have hpair := hkept.pair
  have hnear := h.right_near
  have hlast := h.right_last
  -- the totals agree, so the share is worth what was asked of it
  rw [← hkept.sum_eq hadj hlength (by omega), ← hlength] at hleast hmost
  obtain ⟨hfewest, hmostSelf⟩ := pixels_self hhere hpos
  obtain rfl : x = left := by omega
  rw [h.aimed] at hiff
  constructor
  · intro hmin
    refine hiff.mpr ⟨fun i hi hi' _ => hkept.elsewhere i hi hi', ?_⟩
    exact pairObeys_of_min hadj hstep hmin hleft hmoves (by omega)
  · intro hobeys
    exact min_of_pairObeys hadj hleft (by omega) (fun hend => by have := hlast (by omega); omega)
      (hiff.mp hobeys).2

/-- Whatever the accepted geometry is, a planned keyboard step follows its mode
as follows. Where hints move no boundary of the group but the pair's own, it
does when the shrinking child is not below the child minimum, and otherwise
only when that child is one pixel short and the projector rounds the pixel
off. Where they do, it does when they move no other child and every size the
one aimed at can be worth obeys, and only when some such size does. -/
theorem keyboard_resize_sense {tree : Node} {bounds : Rect} {gap : Int} {out : List ProjectedLeaf}
    {geometry : List DesiredGeometry} {focused : NodeId} {edge : Direction} {mode : ResizeMode}
    {stepPx : Int} {target : PointerTarget} {newShares : List Nat}
    (hout : project tree bounds gap = .ok out)
    (h : deriveKeyboardPixelShares tree focused edge mode stepPx geometry =
      some (.planned (target, newShares))) :
    ∃ next cs rect before plain after left,
      Resized gap tree next bounds target.groupId (Axis.forDirection edge) cs target.oldShares
        newShares rect ∧
      ((cs.map Node.id).mapM fun child =>
        pointerChildExtent tree child (Axis.forDirection edge) geometry) = some before ∧
      plain = groupSizes gap cs target.oldShares (rect.extent (Axis.forDirection edge)) ∧
      after = groupSizes gap cs newShares (rect.extent (Axis.forDirection edge)) ∧
      left = target.steppedLeft mode stepPx (childMinForAxis (Axis.forDirection edge)) before ∧
      (PairKept target before plain →
        (childMinForAxis (Axis.forDirection edge) ≤ before.getD (target.shrinkIndex mode) 0 →
          ObeysMode mode stepPx target before after) ∧
        (ObeysMode mode stepPx target before after →
          childMinForAxis (Axis.forDirection edge) ≤ before.getD (target.shrinkIndex mode) 0 ∨
            target.neighborIndex < target.focusedIndex ∧
              target.focusedIndex + 1 < before.length ∧
              before.getD (target.shrinkIndex mode) 0 + 1 =
                childMinForAxis (Axis.forDirection edge))) ∧
      (Undisturbed target before plain →
        (∀ x y, Attainable before plain target.lo left x y →
          PairObeys mode stepPx target before x y) →
        ObeysMode mode stepPx target before after) ∧
      (ObeysMode mode stepPx target before after →
        Undisturbed target before plain ∧
          ∃ x y, Attainable before plain target.lo left x y ∧
            PairObeys mode stepPx target before x y) := by
  unfold deriveKeyboardPixelShares at h
  split at h
  · cases h
  split at h
  · cases h
  rename_i hinput levels hlevels
  obtain ⟨level, hmem, -, hstep⟩ := walkLevels_planned h
  obtain ⟨p, left, hpair, hleft, hshares, hmoves, rfl⟩ := keyboardLevel_planned hstep
  have hok := treeOk_of_project hout
  obtain ⟨hfound, cs, rect, hplaced⟩ := ResizePair.placed_of_resizePairAt hout
    (pointerPath_shows hlevels level hmem) hpair
  obtain ⟨scale, x, hhere, hpos, hmoved, hresplit, hleast, hmost⟩ := hplaced.resplit hfound hshares
  obtain ⟨next, hresized⟩ := hplaced.handed.resized hok hmoved.length hmoved.new_pos
    (hmoved.total ▸ hmoved.bound)
  have hlength : p.sizes.length =
      (groupSizes gap cs p.level.shares (rect.extent (Axis.forDirection edge))).length :=
    hplaced.count.trans length_groupSizes.symm
  have hthere : (groupSizes gap cs p.level.shares (rect.extent (Axis.forDirection edge))).sum -
      (groupSizes gap cs p.level.shares (rect.extent (Axis.forDirection edge))).length =
        groupDistributable gap cs (rect.extent (Axis.forDirection edge)) := by
    have hinside := hfound.inside
    rw [sum_groupSizes (List.ne_nil_of_length_pos (by omega)), (hplaced.handed.filled hout).count]
    rfl
  rw [← hthere] at hleast hmost
  have hstepped := ResizePair.stepLeft_eq_some hfound hleft
  have hadj : AdjacentPair edge p.target.focusedIndex p.target.neighborIndex p.target.lo :=
    hfound.adjacent
  have hsplit : Resplit _ _ p.target.lo x := hresplit
  obtain ⟨hattainable, hiff⟩ := @Resplit.sense _ _ mode stepPx _ _ _ _ _ hsplit hadj hlength hleast
    hmost
  refine ⟨next, cs, rect, p.sizes, _, _, left, hresized, hplaced.read, rfl, rfl, hstepped, ?_, ?_, ?_⟩
  · intro hkept
    exact hsplit.sense_of_kept hadj hlength hkept hhere hpos (by omega) hstepped hmoves
      hleast hmost
  · intro hundisturbed hall
    exact hiff.mpr ⟨hundisturbed, hall _ _ hattainable⟩
  · intro hobeys
    obtain ⟨hundisturbed, hpair⟩ := hiff.mp hobeys
    exact ⟨hundisturbed, _, _, hattainable, hpair⟩

/-! A leaf of 100 pixels beside one of 900: shrinking it raises it to the
child minimum of 360. -/

/-- The inwards step of 20 takes the leaf from 100 pixels to 360. -/
theorem keyboard_resize_grows :
    project (.group ⟨"g"⟩ .horizontal [.leaf ⟨"a"⟩, .leaf ⟨"b"⟩] [1, 9]) ⟨0, 0, 1000, 500⟩ 0 =
        .ok [⟨⟨"a"⟩, ⟨0, 0, 100, 500⟩⟩, ⟨⟨"b"⟩, ⟨100, 0, 900, 500⟩⟩] ∧
      deriveKeyboardPixelShares
          (.group ⟨"g"⟩ .horizontal [.leaf ⟨"a"⟩, .leaf ⟨"b"⟩] [1, 9]) ⟨"a"⟩ .right .inwards 20
          [⟨⟨"wa"⟩, ⟨"a"⟩, ⟨"o"⟩, ⟨"1"⟩, ⟨0, 0, 100, 500⟩, false, false⟩,
            ⟨⟨"wb"⟩, ⟨"b"⟩, ⟨"o"⟩, ⟨"1"⟩, ⟨100, 0, 900, 500⟩, false, false⟩] =
        some (.planned (⟨⟨"g"⟩, 0, 1, ⟨"a"⟩, ⟨"b"⟩, [1, 9]⟩, [360, 640])) ∧
      project (.group ⟨"g"⟩ .horizontal [.leaf ⟨"a"⟩, .leaf ⟨"b"⟩] [360, 640]) ⟨0, 0, 1000, 500⟩ 0 =
        .ok [⟨⟨"a"⟩, ⟨0, 0, 360, 500⟩⟩, ⟨⟨"b"⟩, ⟨360, 0, 640, 500⟩⟩] ∧
      ¬ ObeysMode .inwards 20 ⟨⟨"g"⟩, 0, 1, ⟨"a"⟩, ⟨"b"⟩, [1, 9]⟩ [100, 900] [360, 640] := by
  refine ⟨by decide, rfl, by decide, fun h => ?_⟩
  have := h.inwards rfl
  simp at this

/-- Two rows of two. -/
def twoRows : Node :=
  .group ⟨"rows"⟩ .vertical
    [.group ⟨"upper"⟩ .horizontal [.leaf ⟨"a"⟩, .leaf ⟨"b"⟩] [1, 1],
      .group ⟨"lower"⟩ .horizontal [.leaf ⟨"c"⟩, .leaf ⟨"d"⟩] [1, 1]] [1, 1]

/-- The rows as accepted, the lower boundary at `x`. -/
def twoRowsGeometry (x : Int) : List DesiredGeometry :=
  [⟨⟨"wa"⟩, ⟨"a"⟩, ⟨"o"⟩, ⟨"1"⟩, ⟨0, 0, 500, 250⟩, false, false⟩,
    ⟨⟨"wb"⟩, ⟨"b"⟩, ⟨"o"⟩, ⟨"1"⟩, ⟨500, 0, 500, 250⟩, false, false⟩,
    ⟨⟨"wc"⟩, ⟨"c"⟩, ⟨"o"⟩, ⟨"1"⟩, ⟨0, 250, x, 250⟩, false, false⟩,
    ⟨⟨"wd"⟩, ⟨"d"⟩, ⟨"o"⟩, ⟨"1"⟩, ⟨x, 250, 1000 - x, 250⟩, false, false⟩]

/-- A hint holds the lower row's left window at 800 pixels; a step of 20 in the
upper row still takes its left window from 500 to 480. -/
theorem keyboard_resize_sense_beside_hint :
    ∃ next cs rect after,
      Resized 0 twoRows next ⟨0, 0, 1000, 500⟩ ⟨"upper"⟩ .horizontal cs [1, 1] [479, 519] rect ∧
      after = groupSizes 0 cs [479, 519] (rect.extent .horizontal) ∧ after = [480, 520] ∧
      ObeysMode .inwards 20 ⟨⟨"upper"⟩, 0, 1, ⟨"a"⟩, ⟨"b"⟩, [1, 1]⟩ [500, 500] after := by
  have hout : project twoRows ⟨0, 0, 1000, 500⟩ 0 =
      .ok [⟨⟨"a"⟩, ⟨0, 0, 500, 250⟩⟩, ⟨⟨"b"⟩, ⟨500, 0, 500, 250⟩⟩,
        ⟨⟨"c"⟩, ⟨0, 250, 500, 250⟩⟩, ⟨⟨"d"⟩, ⟨500, 250, 500, 250⟩⟩] := by decide
  obtain ⟨next, cs, rect, before, plain, after, left, hresized, hread, hplain, hafter, -, hkept,
      -⟩ := @keyboard_resize_sense _ _ _ _ (twoRowsGeometry 800) ⟨"a"⟩ .right .inwards 20
    ⟨⟨"upper"⟩, 0, 1, ⟨"a"⟩, ⟨"b"⟩, [1, 1]⟩ [479, 519] hout rfl
  obtain ⟨-, rfl⟩ : Axis.forDirection .right = .horizontal ∧ cs = [.leaf ⟨"a"⟩, .leaf ⟨"b"⟩] := by
    simpa [twoRows] using hresized.before.mem
  have hdisplays : Displays (twoRowsGeometry 500)
      [⟨⟨"a"⟩, ⟨0, 0, 500, 250⟩⟩, ⟨⟨"b"⟩, ⟨500, 0, 500, 250⟩⟩,
        ⟨⟨"c"⟩, ⟨0, 250, 500, 250⟩⟩, ⟨⟨"d"⟩, ⟨500, 250, 500, 250⟩⟩] := by
    intro p hp
    simp only [List.mem_cons, List.not_mem_nil, or_false] at hp
    rcases hp with rfl | rfl | rfl | rfl <;> exact ⟨_, rfl, rfl⟩
  have hextent : some 1000 = some (rect.extent .horizontal) :=
    @Handed.childExtent _ _ _ _ _ _ _ .horizontal hresized.before hout (by decide) hdisplays
  obtain rfl : [500, 500] = before := Option.some.inj hread
  rw [Axis.forDirection] at hplain hafter
  rw [← Option.some.inj hextent] at hplain hafter
  obtain rfl : plain = [500, 500] := hplain
  have hobeys := (hkept ⟨fun _ _ _ => rfl, rfl⟩).1 (by decide)
  refine ⟨next, _, rect, after, hresized, ?_, hafter, hobeys⟩
  rw [← Option.some.inj hextent]
  exact hafter

end PlasmaTiler
