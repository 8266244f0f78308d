import PlasmaTiler.ResizedGroup

/-!
# A pointer resize is pixel exact

The user drags a boundary to a pixel, the planner derives shares, and the
projector turns the shares into pixels again, rounding every one of them. The
boundary should come out under the pointer.

The walk stops at the nearest pair of the axis that passes the pair minimum
and whose clamped split is not the current one. There shares exist that put
the end edge of the left child exactly on the effective boundary, with every
share outside the pair scaled by one factor. The right child takes the rest
of the pair when it is the last child; elsewhere its share is rounded down on
its own, and it may come out one pixel below the child minimum.

This holds where no hint takes part, for a pair in a plain group (`Plain`);
the folds that could overflow stay in range there, since everything is
bounded by the extent of a valid rectangle. `pointer_resize_exact` is both
halves: which pair is planned for, and where its edges are afterwards.
-/

namespace PlasmaTiler

/-! ## Folds that stay in range -/

theorem check_i64 {n : Int} (hlo : -9223372036854775808 ≤ n) (hhi : n ≤ 9223372036854775807) :
    IntRange.i64.check n = some n :=
  IntRange.check_eq_some.mpr ⟨rfl, hlo, hhi⟩

theorem foldlM_sum_of_le {sizes : List Int} {start : Int} (hpos : ∀ size ∈ sizes, 1 ≤ size)
    (hstart : 0 ≤ start) (hmax : start + sizes.sum ≤ IntRange.i32.hi) :
    sizes.foldlM (fun total size => IntRange.i64.check (total + size)) start =
      some (start + sizes.sum) := by
  induction sizes generalizing start with
  | nil => simp
  | cons size sizes ih =>
    obtain ⟨hsize, hrest⟩ := List.forall_mem_cons.mp hpos
    have hlast := length_le_sum hrest
    rw [List.sum_cons] at hmax ⊢
    have hmax' := hmax
    simp only [IntRange.i32] at hmax'
    have hcheck : IntRange.i64.check (start + size) = some (start + size) :=
      check_i64 (by omega) (by omega)
    rw [List.foldlM_cons, hcheck, Option.bind_eq_bind, Option.bind_some,
      ih hrest (by omega) (by omega), Int.add_assoc]

theorem foldlM_before_of_le {gap : Int} {sizes : List Int} {start : Int}
    (hpos : ∀ size ∈ sizes, 1 ≤ size) (hgap : 0 ≤ gap) (hstart : 0 ≤ start)
    (hmax : start + sizes.sum + gap * sizes.length ≤ IntRange.i32.hi) :
    sizes.foldlM (fun total size => do
      IntRange.i64.check ((← IntRange.i64.check (total + size)) + gap)) start =
        some (start + sizes.sum + gap * sizes.length) := by
  induction sizes generalizing start with
  | nil => simp
  | cons size sizes ih =>
    obtain ⟨hsize, hrest⟩ := List.forall_mem_cons.mp hpos
    have hlast := length_le_sum hrest
    have hgaps : 0 ≤ gap * (sizes.length : Int) := Int.mul_nonneg hgap (by omega)
    rw [List.sum_cons, List.length_cons, Nat.cast_add, Int.mul_add] at hmax ⊢
    simp only [Nat.cast_one, Int.mul_one] at hmax ⊢
    have hmax' := hmax
    simp only [IntRange.i32] at hmax'
    have hcheck : IntRange.i64.check (start + size) = some (start + size) :=
      check_i64 (by omega) (by omega)
    have hnextCheck : IntRange.i64.check (start + size + gap) = some (start + size + gap) :=
      check_i64 (by omega) (by omega)
    have hnext : sizes.foldlM (fun total size => do
        IntRange.i64.check ((← IntRange.i64.check (total + size)) + gap)) (start + size + gap) =
          some (start + size + gap + sizes.sum + gap * sizes.length) :=
      ih hrest (by omega) (by omega)
    simp only [Option.bind_eq_bind] at hnext ⊢
    rw [List.foldlM_cons]
    simp only [Option.bind_eq_bind, hcheck, hnextCheck, Option.bind_some]
    rw [hnext]
    congr 1
    omega

/-! ## A pair in its rectangle -/

namespace ResizePair

variable {tree : Node} {bounds : Rect} {gap boundary left : Int} {out : List ProjectedLeaf}
  {geometry : List DesiredGeometry} {direction : Direction} {level : PointerLevel} {p : ResizePair}
  {axis : Axis} {cs : List Node} {rect : Rect} {newShares : List Nat}

/-- The left size a boundary asks of a pair that starts at `start`, clamped. -/
def clampedLeft (p : ResizePair) (axis : Axis) (start boundary : Int) : Int :=
  max (childMinForAxis axis)
    (min (p.focusedSize + p.neighborSize - childMinForAxis axis) (boundary - start))

/-- The pair passes the pair minimum, and the boundary's clamped split is not
the current one. -/
def Admits (p : ResizePair) (axis : Axis) (start boundary : Int) : Prop :=
  pairMinForAxis axis ≤ p.focusedSize + p.neighborSize ∧
    p.clampedLeft axis start boundary ≠ p.leftSize

theorem Found.pair_sizes (h : p.Found direction) :
    p.focusedSize + p.neighborSize = p.sizes.getD p.lo 0 + p.sizes.getD (p.lo + 1) 0 := by
  rw [focusedSize, neighborSize]
  rcases h.adjacent.indices with ⟨hfi, hni⟩ | ⟨hfi, hni⟩ <;> rw [hfi, hni]
  exact Int.add_comm _ _

/-- Where a pair lies in the rectangle of its group: the children before it
and their gaps, the two sizes themselves, and that all of it fits the extent
without overflow. -/
structure Seated (p : ResizePair) (gap : Int) (axis : Axis) (rect : Rect) : Prop where
  fits : rect.Fits
  gap_nonneg : 0 ≤ gap
  positive : ∀ size ∈ p.sizes, 1 ≤ size
  inside : p.lo + 1 < p.sizes.length
  before : 0 ≤ (p.sizes.take p.lo).sum
  gaps : 0 ≤ gap * (p.lo : Int)
  ends : (p.sizes.take p.lo).sum + gap * p.lo + p.sizes.getD p.lo 0 + p.sizes.getD (p.lo + 1) 0 ≤
    rect.extent axis
  sum : p.sizes.sum ≤ rect.extent axis
  spare : p.sizes.getD p.lo 0 + p.sizes.getD (p.lo + 1) 0 - 2 ≤ p.distributable

theorem Plain.seated (h : p.Plain gap tree bounds axis cs rect)
    (hout : project tree bounds gap = .ok out) (hfound : p.Found direction) :
    p.Seated gap axis rect := by
  obtain ⟨hrect, hgap, ⟨hwf, -⟩, -⟩ := project_eq_ok.mp hout
  obtain ⟨hgroupWf, hfits⟩ := h.handed.fits hwf hgap (fits_of_validRect hrect)
  obtain ⟨hcount, hpos, hsum, -⟩ := h.handed.filled hout
  rw [← h.sizes] at hcount hpos hsum
  have hshares : p.sizes.length = p.level.shares.length := by rw [h.sizes, length_groupSizes]
  have hinside : p.lo + 1 < p.sizes.length := hshares ▸ hfound.inside
  have hbefore := @length_le_sum (p.sizes.take p.lo) fun size hsize =>
    hpos size (List.mem_of_mem_take hsize)
  have hafter := @length_le_sum (p.sizes.drop (p.lo + 2)) fun size hsize =>
    hpos size (List.mem_of_mem_drop hsize)
  have hcut : p.sizes.sum = (p.sizes.take p.lo).sum + p.sizes.getD p.lo 0 +
      p.sizes.getD (p.lo + 1) 0 + (p.sizes.drop (p.lo + 2)).sum := by
    rw [← sum_take_succ_getD (by omega), ← sum_take_succ_getD (by omega), ← List.sum_append,
      List.take_append_drop]
  rw [List.length_take] at hbefore
  rw [List.length_drop] at hafter
  have hgaps : gap * (p.lo : Int) ≤ gap * (cs.length - 1) :=
    Int.mul_le_mul_of_nonneg_left (by omega) hgap
  have hgapsLo : 0 ≤ gap * (p.lo : Int) := Int.mul_nonneg hgap (by omega)
  exact ⟨hfits, hgap, hpos, hinside, by omega, hgapsLo, by omega, by omega,
    by rw [ResizePair.distributable]; omega⟩

/-- The step at a pair whose sums are in range. -/
theorem pointerLevelStep_eq {origin before start : Int}
    (hpair : resizePairAt tree geometry direction p.level = some (some p))
    (hsum : IntRange.i64.check (p.focusedSize + p.neighborSize) =
      some (p.focusedSize + p.neighborSize))
    (horigin : pointerGroupOrigin tree p.level.groupId (Axis.forDirection direction) geometry =
      some origin)
    (hbefore : (p.sizes.take p.lo).foldlM
      (fun total size => do IntRange.i64.check ((← IntRange.i64.check (total + size)) + gap)) 0 =
        some before)
    (hstart : IntRange.i64.check (origin + before) = some start)
    (hdesired : IntRange.i64.check (boundary - start) = some (boundary - start)) :
    pointerLevelStep tree geometry direction boundary gap p.level =
      if !pairAdmitsResize (p.focusedSize + p.neighborSize) (p.focusedSize + p.neighborSize)
          (Axis.forDirection direction)
      then some .outward
      else
        match clampPairSplit (p.focusedSize + p.neighborSize) (boundary - start)
          (Axis.forDirection direction) with
        | none => some .outward
        | some (clampedLeft, _) =>
          if clampedLeft = p.leftSize then some .outward
          else
            (p.sharesFor clampedLeft).bind fun
              | none => some .outward
              | some newShares =>
                ((IntRange.i64.check (start + clampedLeft)).bind IntRange.i32.check).bind
                  fun effectiveBoundary => some (.planned {
                    target := p.target
                    newShares
                    effectiveBoundary
                    mode := if (if p.focusedIndex = p.lo then decide (p.leftSize < clampedLeft)
                      else decide (clampedLeft < p.leftSize)) then .outwards else .inwards }) := by
  simp only [pointerLevelStep, hpair, Option.bind_eq_bind, Option.bind_some, hsum, horigin]
  simp only [Option.bind_eq_bind] at hbefore
  rw [hbefore]
  simp only [Option.bind_some, hstart, hdesired]
  rfl

/-- What the step at a plain pair computes before it looks for shares: it goes
on outward unless the pair admits the boundary, and then whatever shares are
found are planned with the boundary they aim at. -/
theorem pointerLevelStep_of_pair (h : p.Plain gap tree bounds (Axis.forDirection direction) cs rect)
    (hout : project tree bounds gap = .ok out) (hgeometry : Displays geometry out)
    (hfound : p.Found direction)
    (hpair : resizePairAt tree geometry direction p.level = some (some p))
    (hlo : IntRange.i32.lo ≤ boundary) (hhi : boundary ≤ IntRange.i32.hi) :
    let start := childStart gap (Axis.forDirection direction) cs p.level.shares rect p.lo
    let left := p.clampedLeft (Axis.forDirection direction) start boundary
    (¬ p.Admits (Axis.forDirection direction) start boundary →
      pointerLevelStep tree geometry direction boundary gap p.level = some .outward) ∧
    (p.Admits (Axis.forDirection direction) start boundary →
      ∀ newShares, p.sharesFor left = some (some newShares) →
        ∃ plan, pointerLevelStep tree geometry direction boundary gap p.level =
            some (.planned plan) ∧
          plan.target = p.target ∧ plan.newShares = newShares ∧
          plan.effectiveBoundary = start + left) := by
  intro start left
  have hseated := h.seated hout hfound
  have hfits := hseated.fits (Axis.forDirection direction)
  have hbefore := hseated.before
  have hgapNonneg := hseated.gap_nonneg
  have hgaps := hseated.gaps
  have hends := hseated.ends
  have hsizes := hfound.pair_sizes
  have hpositive := hseated.positive
  have hleftPos : 1 ≤ p.sizes.getD p.lo 0 := by
    rw [List.getD_eq_getElem _ _ (Nat.lt_of_succ_lt hseated.inside)]
    exact hpositive _ (List.getElem_mem _)
  have hrightPos : 1 ≤ p.sizes.getD (p.lo + 1) 0 := by
    rw [List.getD_eq_getElem _ _ hseated.inside]
    exact hpositive _ (List.getElem_mem _)
  have horigin : pointerGroupOrigin tree p.level.groupId (Axis.forDirection direction) geometry =
      some (rect.start (Axis.forDirection direction)) :=
    h.handed.groupOrigin hout (treeOk_of_project hout).nodup hgeometry
  have htakeLength : (p.sizes.take p.lo).length = p.lo := by
    rw [List.length_take, Nat.min_eq_left (Nat.le_of_lt (Nat.lt_of_succ_lt hseated.inside))]
  have hfold := @foldlM_before_of_le gap (p.sizes.take p.lo) 0
    (fun size hsize => hpositive size (List.mem_of_mem_take hsize)) hgapNonneg (Int.le_refl 0)
    (show 0 + (p.sizes.take p.lo).sum + gap * ((p.sizes.take p.lo).length : Int) ≤ IntRange.i32.hi by
      rw [htakeLength]
      omega)
  rw [htakeLength, Int.zero_add] at hfold
  have hstart : start = rect.start (Axis.forDirection direction) +
      ((p.sizes.take p.lo).sum + gap * p.lo) := by
    rw [h.sizes, ← Int.add_assoc]
    rfl
  have hmin : pairMinForAxis (Axis.forDirection direction) =
      childMinForAxis (Axis.forDirection direction) * 2 ∧
        0 < childMinForAxis (Axis.forDirection direction) := by
    cases Axis.forDirection direction <;> exact ⟨rfl, by decide⟩
  obtain ⟨hpairMin, hchildMin⟩ := hmin
  have hallowed : pairAdmitsResize (p.focusedSize + p.neighborSize) (p.focusedSize + p.neighborSize)
      (Axis.forDirection direction) =
        decide (pairMinForAxis (Axis.forDirection direction) ≤ p.focusedSize + p.neighborSize) := by
    cases Axis.forDirection direction <;> rfl
  simp only [IntRange.i32] at hlo hhi hfits
  have hpairCheck : IntRange.i64.check (p.focusedSize + p.neighborSize) =
      some (p.focusedSize + p.neighborSize) :=
    check_i64 (by omega) (by omega)
  have hstartCheck : IntRange.i64.check (rect.start (Axis.forDirection direction) +
      ((p.sizes.take p.lo).sum + gap * p.lo)) = some start := by
    rw [← hstart]
    exact check_i64 (by omega) (by omega)
  have hdesiredCheck : IntRange.i64.check (boundary - start) = some (boundary - start) :=
    check_i64 (by omega) (by omega)
  have hstep := pointerLevelStep_eq hpair hpairCheck horigin hfold hstartCheck hdesiredCheck
  rw [hallowed] at hstep
  have hclamp : pairMinForAxis (Axis.forDirection direction) ≤ p.focusedSize + p.neighborSize →
      clampPairSplit (p.focusedSize + p.neighborSize) (boundary - start)
        (Axis.forDirection direction) = some (left, p.focusedSize + p.neighborSize - left) := by
    intro hle
    have hleft : max (childMinForAxis (Axis.forDirection direction))
        (min (p.focusedSize + p.neighborSize - childMinForAxis (Axis.forDirection direction))
          (boundary - start)) = left := rfl
    rw [clampPairSplit]
    dsimp only
    rw [if_neg (by omega), hleft, if_neg (by omega)]
  constructor
  · intro hnot
    rw [hstep]
    by_cases hle : pairMinForAxis (Axis.forDirection direction) ≤ p.focusedSize + p.neighborSize
    · have hsame : left = p.leftSize := by
        by_contra hne
        exact hnot ⟨hle, hne⟩
      rw [decide_eq_true hle, hclamp hle]
      exact if_pos hsame
    · rw [decide_eq_false hle]
      rfl
  · rintro ⟨hle, hne⟩ newShares hshares
    have hleft : left ≤ p.focusedSize + p.neighborSize ∧ 0 ≤ left := by
      change max _ _ ≤ _ ∧ 0 ≤ max _ _
      omega
    have hboundary : (IntRange.i64.check (start + left)).bind IntRange.i32.check =
        some (start + left) := by
      rw [Option.bind_eq_some_iff]
      refine ⟨_, check_i64 (by omega) (by omega), IntRange.check_eq_some.mpr ⟨rfl, ?_⟩⟩
      simp only [IntRange.i32]
      omega
    have hplanned : pointerLevelStep tree geometry direction boundary gap p.level =
        some (.planned ⟨p.target, newShares, start + left,
          if (if p.focusedIndex = p.lo then decide (p.leftSize < left)
            else decide (left < p.leftSize)) then .outwards else .inwards⟩) := by
      rw [hstep, decide_eq_true hle, hclamp hle]
      simp only [Bool.not_true, Bool.false_eq_true, if_false]
      rw [if_neg hne, hshares, Option.bind_some, hboundary]
      rfl
    exact ⟨_, hplanned, rfl, rfl, rfl⟩

/-- The shares of a plain pair are looked for without overflow. -/
theorem Plain.sharesFor_eq (h : p.Plain gap tree bounds axis cs rect)
    (hout : project tree bounds gap = .ok out) (hfound : p.Found direction) :
    p.sharesFor left = some (pixelSharesForClamped p.level.shares p.lo left p.distributable
      p.level.shares.sum (p.level.shares.getD p.lo 0 + p.level.shares.getD (p.lo + 1) 0)) := by
  obtain ⟨hrect, hgap, ⟨hwf, -⟩, -⟩ := project_eq_ok.mp hout
  obtain ⟨⟨-, -, -, hshares⟩, -⟩ :=
    Node.wellFormed_group.mp (h.handed.fits hwf hgap (fits_of_validRect hrect)).1
  have hseated := h.seated hout hfound
  have hfits := hseated.fits axis
  have hsum := hseated.sum
  have hlength := length_le_sum hseated.positive
  have hpairSum := MovedPair.getD_add_le_sum p.level.shares p.lo
  simp only [IntRange.i32] at hfits
  have hfold := foldlM_sum_of_le hseated.positive (Int.le_refl 0)
    (show 0 + p.sizes.sum ≤ IntRange.i32.hi by simp only [IntRange.i32]; omega)
  have hcheck : IntRange.i64.check (p.sizes.sum - p.sizes.length) = some p.distributable :=
    check_i64 (by omega) (by omega)
  have hpair : checkU64 (p.level.shares.getD p.focusedIndex 0 + p.level.shares.getD p.neighborIndex 0) =
      some (p.level.shares.getD p.lo 0 + p.level.shares.getD (p.lo + 1) 0) := by
    rw [checkU64_eq_some]
    rcases hfound.adjacent.indices with ⟨hfi, hni⟩ | ⟨hfi, hni⟩ <;> rw [hfi, hni] <;> omega
  rw [Int.zero_add] at hfold
  simp only [sharesFor, hfold, hcheck, checkedTotal_eq_some.mpr ⟨rfl, hshares⟩, hpair,
    Option.bind_eq_bind, Option.bind_some, Option.pure_def]

/-- Shares exist for every clamped split that is not the current one, provided
that the pair does not end its group or the group has no more children than
the child minimum has pixels. -/
theorem Plain.exists_shares (h : p.Plain gap tree bounds (Axis.forDirection direction) cs rect)
    (hout : project tree bounds gap = .ok out) (hfound : p.Found direction)
    (hroomy : p.lo + 2 < cs.length ∨ (cs.length : Int) ≤ childMinForAxis (Axis.forDirection direction))
    (hmin : childMinForAxis (Axis.forDirection direction) ≤ left)
    (hmax : left ≤ p.focusedSize + p.neighborSize - childMinForAxis (Axis.forDirection direction))
    (hne : left ≠ p.leftSize) :
    ∃ newShares, p.sharesFor left = some (some newShares) := by
  obtain ⟨hrect, hgap, ⟨hwf, -⟩, -⟩ := project_eq_ok.mp hout
  obtain ⟨⟨-, hlength, -, hshares⟩, -⟩ :=
    Node.wellFormed_group.mp (h.handed.fits hwf hgap (fits_of_validRect hrect)).1
  have hseated := h.seated hout hfound
  have hfits := hseated.fits (Axis.forDirection direction)
  have hsum := hseated.sum
  have hspare := hseated.spare
  have hinside := hfound.inside
  have hsizesPos := length_le_sum hseated.positive
  have hsharesPos : 0 < p.level.shares.sum :=
    (MovedPair.getD_pos hfound.shares_pos (by omega : p.lo < p.level.shares.length)).trans_le
      (MovedPair.getD_le_sum _ _)
  have hchildMin : 240 ≤ childMinForAxis (Axis.forDirection direction) := by
    cases Axis.forDirection direction <;> decide
  rw [hfound.pair_sizes] at hmax
  have hroom := pair_room h.spare hsharesPos hlength hinside
  rw [← h.sizes, ← h.distributable] at hroom
  have hscaled : left * p.level.shares.sum ≤ p.distributable *
      (p.level.shares.getD p.lo 0 + p.level.shares.getD (p.lo + 1) 0 : Nat) := by
    refine Int.le_trans (Int.mul_le_mul_of_nonneg_right ?_ (by omega)) hroom
    split <;> omega
  have hshareSize : left ≠ shareSize p.level.shares p.lo p.distributable := by
    rw [h.distributable, ← groupSizes_getD h.spare hinside, ← h.sizes]
    exact hne
  simp only [IntRange.i32] at hfits
  obtain ⟨newShares, hnew⟩ := exists_pixelSharesForClamped hinside hfound.shares_pos hshares
    (by omega) (by rw [ResizePair.distributable]; omega) (by omega) hscaled hshareSize
  exact ⟨newShares, by rw [h.sharesFor_eq hout hfound, hnew]⟩

end ResizePair

/-! ## The walk -/

/-- Levels that send the walk outward are passed over. -/
theorem walkLevels_append {α : Type} {step : PointerLevel → Option (LevelStep α)}
    {inner rest : List PointerLevel} {below : Bool}
    (h : ∀ level ∈ inner, step level = some .outward) :
    walkLevels step (inner ++ rest) below = walkLevels step rest below := by
  induction inner with
  | nil => rfl
  | cons level inner ih =>
    obtain ⟨hlevel, hinner⟩ := List.forall_mem_cons.mp h
    rw [List.cons_append, walkLevels, hlevel]
    exact ih hinner

/-- Where a planned boundary puts the pair: the left child ends on it at the
minimum or above, and the right child has the rest of the pair, exactly when
it is the last child. -/
structure PlacesPair (gap : Int) (next : Node) (bounds : Rect) (axis : Axis) (cs : List Node)
    (lo : Nat) (pair boundary : Int) (left right : Rect) : Prop where
  left_handed : ∃ child, cs[lo]? = some child ∧ Handed gap next bounds child left
  right_handed : ∃ child, cs[lo + 1]? = some child ∧ Handed gap next bounds child right
  left_end : left.start axis + left.extent axis = boundary
  left_min : childMinForAxis axis ≤ left.extent axis
  right_min : childMinForAxis axis - 1 ≤ right.extent axis
  right_near : right.extent axis ≤ pair - left.extent axis + 1 ∧
    pair - left.extent axis - 1 ≤ right.extent axis
  right_last : lo + 2 = cs.length →
    right.extent axis = pair - left.extent axis ∧ childMinForAxis axis ≤ right.extent axis

section
variable {tree next : Node} {bounds : Rect} {gap : Int} {axis : Axis} {id : NodeId} {cs : List Node}
  {old new : List Nat} {rect : Rect} {lo : Nat} {left : Int} {out : List ProjectedLeaf}

/-- The pair's rectangles under the new shares begin where they began and meet
at the boundary aimed at; each is no smaller than the minimum. -/
theorem Resized.placesPair (h : Resized gap tree next bounds id axis cs old new rect)
    (hout : project tree bounds gap = .ok out)
    (hmoved : Resplit (groupSizes gap cs old (rect.extent axis))
      (groupSizes gap cs new (rect.extent axis)) lo left)
    (hmin : childMinForAxis axis ≤ left)
    (hmax : left ≤ (groupSizes gap cs old (rect.extent axis)).getD lo 0 +
      (groupSizes gap cs old (rect.extent axis)).getD (lo + 1) 0 - childMinForAxis axis) :
    ∃ l r, PlacesPair gap next bounds axis cs lo
      ((groupSizes gap cs old (rect.extent axis)).getD lo 0 +
        (groupSizes gap cs old (rect.extent axis)).getD (lo + 1) 0)
      (childStart gap axis cs old rect lo + left) l r := by
  have hroom := h.before.room (project_eq_ok.mp hout).2.2.2
  have hcount := (h.before.filled hout).count
  have hlength := hmoved.length
  have hinside := hmoved.inside
  have haimed := hmoved.aimed
  have hnear := hmoved.right_near
  have hlast := hmoved.right_last
  rw [hcount] at hlength hinside hlast
  have hget : ∀ {i : Nat}, i < cs.length → (groupSizes gap cs new (rect.extent axis))[i]? =
      some ((groupSizes gap cs new (rect.extent axis)).getD i 0) := by
    intro i hi
    rw [List.getD_eq_getElem _ _ (by omega), List.getElem?_eq_getElem]
  have hleft := Handed.child h.after hroom (List.getElem?_eq_getElem (Nat.lt_of_succ_lt hinside))
    (hget (Nat.lt_of_succ_lt hinside))
  have hright := Handed.child h.after hroom (List.getElem?_eq_getElem hinside) (hget hinside)
  refine ⟨_, _, ⟨_, List.getElem?_eq_getElem _, hleft⟩, ⟨_, List.getElem?_eq_getElem _, hright⟩,
    ?_, ?_, ?_, ?_, ?_⟩
  · rw [Rect.segment_start, Rect.segment_extent, hmoved.take_eq, haimed, childStart]
  · rw [Rect.segment_extent, haimed]
    exact hmin
  · rw [Rect.segment_extent]
    omega
  · rw [Rect.segment_extent, Rect.segment_extent]
    omega
  · intro hlo
    rw [Rect.segment_extent, Rect.segment_extent, hlast hlo]
    omega

end

/-- At the nearest pair of the axis that passes the pair minimum and whose
clamped split is not the current one a pointer resize is planned, unless the
pair ends a group of more children than the child minimum has pixels. Its
shares scale everything outside the pair by one factor and put the left child
exactly on the effective boundary. -/
theorem pointer_resize_exact {tree : Node} {domain : OutputDomain} {out : List ProjectedLeaf}
    {geometry : List DesiredGeometry} {focused : NodeId} {direction : Direction} {boundary : Int}
    {inner outer : List PointerLevel} {p : ResizePair} {cs : List Node} {rect : Rect}
    (hout : project tree domain.bounds domain.gap = .ok out) (hgeometry : Displays geometry out)
    (hfocused : focused ∈ tree.ids)
    (hboundary : Session.insideWorkArea domain.bounds (Axis.forDirection direction) boundary = true)
    (hlevels : pointerPath focused tree = some (inner ++ p.level :: outer))
    (hinner : ∀ q : ResizePair, ∀ ds r, q.level ∈ inner →
      resizePairAt tree geometry direction q.level = some (some q) →
      q.Plain domain.gap tree domain.bounds (Axis.forDirection direction) ds r →
      ¬ q.Admits (Axis.forDirection direction)
        (childStart domain.gap (Axis.forDirection direction) ds q.level.shares r q.lo) boundary)
    (hpair : resizePairAt tree geometry direction p.level = some (some p))
    (hplain : p.Plain domain.gap tree domain.bounds (Axis.forDirection direction) cs rect)
    (hadmits : p.Admits (Axis.forDirection direction)
      (childStart domain.gap (Axis.forDirection direction) cs p.level.shares rect p.lo) boundary)
    (hroomy : p.lo + 2 < cs.length ∨
      (cs.length : Int) ≤ childMinForAxis (Axis.forDirection direction)) :
    ∃ plan next scale left right,
      derivePointerShares tree focused direction boundary domain geometry = some (.planned plan) ∧
      plan.target = p.target ∧
      Resized domain.gap tree next domain.bounds p.level.groupId (Axis.forDirection direction) cs
        p.level.shares plan.newShares rect ∧
      MovedPair p.level.shares plan.newShares p.lo scale ∧
      PlacesPair domain.gap next domain.bounds (Axis.forDirection direction) cs p.lo
        (p.focusedSize + p.neighborSize) plan.effectiveBoundary left right := by
  have hok := treeOk_of_project hout
  obtain ⟨hrect, -, -, -⟩ := project_eq_ok.mp hout
  have hbounds := fits_of_validRect hrect (Axis.forDirection direction)
  obtain ⟨hlow, hhigh⟩ : (domain.bounds.along (Axis.forDirection direction)).1 ≤ boundary ∧
      boundary ≤ (domain.bounds.along (Axis.forDirection direction)).1 +
        (domain.bounds.along (Axis.forDirection direction)).2 := by
    simpa [Session.insideWorkArea] using hboundary
  rw [← start_eq_along] at hlow hhigh
  rw [← extent_eq_along] at hhigh
  have hlo : IntRange.i32.lo ≤ boundary := by omega
  have hhi : boundary ≤ IntRange.i32.hi := by omega
  have hshows := pointerPath_shows hlevels
  obtain ⟨-, hfound⟩ := ResizePair.found_of_resizePairAt hpair
  -- every level inside sends the walk outward
  have hwalk : ∀ level ∈ inner,
      pointerLevelStep tree geometry direction boundary domain.gap level = some .outward := by
    intro level hlevel
    obtain ⟨found, hread, hplainAt⟩ := @ResizePair.exists_resizePairAt _ _ _ _ _ direction _ hout
      hgeometry (hshows level (List.mem_append_left _ hlevel))
    cases found with
    | none =>
      rw [pointerLevelStep, hread]
      rfl
    | some q =>
      obtain ⟨ds, r, hq⟩ := hplainAt q rfl
      obtain ⟨rfl, hfoundAt⟩ := ResizePair.found_of_resizePairAt hread
      exact (ResizePair.pointerLevelStep_of_pair hq hout hgeometry hfoundAt hread hlo hhi).1
        (hinner q ds r hlevel hread hq)
  obtain ⟨hle, hne⟩ := hadmits
  have hmin : pairMinForAxis (Axis.forDirection direction) =
      childMinForAxis (Axis.forDirection direction) * 2 := by
    cases Axis.forDirection direction <;> rfl
  generalize hstart : childStart domain.gap (Axis.forDirection direction) cs p.level.shares rect p.lo =
    start at hne
  have hclamped : childMinForAxis (Axis.forDirection direction) ≤
        p.clampedLeft (Axis.forDirection direction) start boundary ∧
      p.clampedLeft (Axis.forDirection direction) start boundary ≤
        p.focusedSize + p.neighborSize - childMinForAxis (Axis.forDirection direction) := by
    rw [ResizePair.clampedLeft]
    omega
  obtain ⟨newShares, hshares⟩ := hplain.exists_shares hout hfound hroomy hclamped.1 hclamped.2 hne
  have hstep := (ResizePair.pointerLevelStep_of_pair hplain hout hgeometry hfound hpair hlo hhi).2
  rw [hstart] at hstep
  obtain ⟨plan, hplanned, htarget, rfl, heffective⟩ := hstep ⟨hle, hne⟩ newShares hshares
  obtain ⟨scale, hmoved, hresplit⟩ := hplain.resplit hfound hshares
  obtain ⟨next, hresized⟩ := hplain.handed.resized hok hmoved.length hmoved.new_pos
    (hmoved.total ▸ hmoved.bound)
  rw [hplain.sizes] at hresplit
  rw [hfound.pair_sizes, hplain.sizes] at hclamped ⊢
  obtain ⟨left, right, hplaces⟩ := hresized.placesPair hout hresplit hclamped.1 hclamped.2
  refine ⟨plan, next, scale, left, right, ?_, htarget, hresized, hmoved, ?_⟩
  · rw [derivePointerShares, if_neg (by rw [hok.nonempty focused hfocused]; exact Bool.false_ne_true),
      hlevels]
    dsimp only
    rw [walkLevels_append hwalk, walkLevels, hplanned]
  · rw [heffective]
    rw [hstart] at hplaces
    exact hplaces

/-! Three columns at 2 : 1 : 1 in 984 pixels: the boundary of the first pair is
asked for at 377. The last column takes the remainder, and the middle one
comes out one pixel below the minimum. -/

/-- The planned shares show the middle column at 359 pixels. -/
theorem pointer_resize_short :
    project (.group ⟨"g"⟩ .horizontal [.leaf ⟨"a"⟩, .leaf ⟨"b"⟩, .leaf ⟨"c"⟩] [2, 1, 1])
        ⟨0, 0, 984, 500⟩ 0 =
      .ok [⟨⟨"a"⟩, ⟨0, 0, 491, 500⟩⟩, ⟨⟨"b"⟩, ⟨491, 0, 246, 500⟩⟩, ⟨⟨"c"⟩, ⟨737, 0, 247, 500⟩⟩] ∧
      (∃ plan, derivePointerShares
          (.group ⟨"g"⟩ .horizontal [.leaf ⟨"a"⟩, .leaf ⟨"b"⟩, .leaf ⟨"c"⟩] [2, 1, 1]) ⟨"a"⟩ .right 377
          ⟨⟨"o"⟩, ⟨"1"⟩, ⟨0, 0, 984, 500⟩, 0, ∅⟩
          [⟨⟨"wa"⟩, ⟨"a"⟩, ⟨"o"⟩, ⟨"1"⟩, ⟨0, 0, 491, 500⟩, false, false⟩,
            ⟨⟨"wb"⟩, ⟨"b"⟩, ⟨"o"⟩, ⟨"1"⟩, ⟨491, 0, 246, 500⟩, false, false⟩,
            ⟨⟨"wc"⟩, ⟨"c"⟩, ⟨"o"⟩, ⟨"1"⟩, ⟨737, 0, 247, 500⟩, false, false⟩] =
        some (.planned plan) ∧ plan.newShares = [378, 360, 246]) ∧
      project (.group ⟨"g"⟩ .horizontal [.leaf ⟨"a"⟩, .leaf ⟨"b"⟩, .leaf ⟨"c"⟩] [378, 360, 246])
        ⟨0, 0, 984, 500⟩ 0 =
      .ok [⟨⟨"a"⟩, ⟨0, 0, 377, 500⟩⟩, ⟨⟨"b"⟩, ⟨377, 0, 359, 500⟩⟩, ⟨⟨"c"⟩, ⟨736, 0, 248, 500⟩⟩] ∧
      359 < childMinForAxis .horizontal := by
  refine ⟨by decide, ⟨_, rfl, rfl⟩, by decide, by decide⟩

/-- Two halves of 500 pixels with the boundary dragged to 400. -/
theorem pointer_resize_exact_halves :
    ∃ plan next scale left right,
      derivePointerShares (.group ⟨"g"⟩ .horizontal [.leaf ⟨"a"⟩, .leaf ⟨"b"⟩] [1, 1]) ⟨"a"⟩ .right 400
          ⟨⟨"o"⟩, ⟨"1"⟩, ⟨0, 0, 1000, 500⟩, 0, ∅⟩
          [⟨⟨"wa"⟩, ⟨"a"⟩, ⟨"o"⟩, ⟨"1"⟩, ⟨0, 0, 500, 500⟩, false, false⟩,
            ⟨⟨"wb"⟩, ⟨"b"⟩, ⟨"o"⟩, ⟨"1"⟩, ⟨500, 0, 500, 500⟩, false, false⟩] =
        some (.planned plan) ∧
      plan.target = ⟨⟨"g"⟩, 0, 1, ⟨"a"⟩, ⟨"b"⟩, [1, 1]⟩ ∧
      Resized 0 (.group ⟨"g"⟩ .horizontal [.leaf ⟨"a"⟩, .leaf ⟨"b"⟩] [1, 1]) next
        ⟨0, 0, 1000, 500⟩ ⟨"g"⟩ .horizontal [.leaf ⟨"a"⟩, .leaf ⟨"b"⟩] [1, 1] plan.newShares
        ⟨0, 0, 1000, 500⟩ ∧
      MovedPair [1, 1] plan.newShares 0 scale ∧
      PlacesPair 0 next ⟨0, 0, 1000, 500⟩ .horizontal [.leaf ⟨"a"⟩, .leaf ⟨"b"⟩] 0 1000
        plan.effectiveBoundary left right := by
  have hout : project (.group ⟨"g"⟩ .horizontal [.leaf ⟨"a"⟩, .leaf ⟨"b"⟩] [1, 1])
      ⟨0, 0, 1000, 500⟩ 0 =
        .ok [⟨⟨"a"⟩, ⟨0, 0, 500, 500⟩⟩, ⟨⟨"b"⟩, ⟨500, 0, 500, 500⟩⟩] := by decide
  have hgeometry : Displays
      [⟨⟨"wa"⟩, ⟨"a"⟩, ⟨"o"⟩, ⟨"1"⟩, ⟨0, 0, 500, 500⟩, false, false⟩,
        ⟨⟨"wb"⟩, ⟨"b"⟩, ⟨"o"⟩, ⟨"1"⟩, ⟨500, 0, 500, 500⟩, false, false⟩]
      [⟨⟨"a"⟩, ⟨0, 0, 500, 500⟩⟩, ⟨⟨"b"⟩, ⟨500, 0, 500, 500⟩⟩] := by
    rintro q hq
    rcases List.mem_pair.mp hq with rfl | rfl
    · exact ⟨_, rfl, rfl⟩
    · exact ⟨_, rfl, rfl⟩
  have hplain : ResizePair.Plain
      ⟨⟨⟨"g"⟩, .horizontal, [⟨"a"⟩, ⟨"b"⟩], [1, 1], 0⟩, 1, [500, 500]⟩ 0
      (.group ⟨"g"⟩ .horizontal [.leaf ⟨"a"⟩, .leaf ⟨"b"⟩] [1, 1]) ⟨0, 0, 1000, 500⟩ .horizontal
      [.leaf ⟨"a"⟩, .leaf ⟨"b"⟩] ⟨0, 0, 1000, 500⟩ :=
    ⟨.root, by decide, by decide, by decide⟩
  exact @pointer_resize_exact _ ⟨⟨"o"⟩, ⟨"1"⟩, ⟨0, 0, 1000, 500⟩, 0, ∅⟩ _ _ ⟨"a"⟩ .right 400 [] []
    ⟨⟨⟨"g"⟩, .horizontal, [⟨"a"⟩, ⟨"b"⟩], [1, 1], 0⟩, 1, [500, 500]⟩
    [.leaf ⟨"a"⟩, .leaf ⟨"b"⟩] ⟨0, 0, 1000, 500⟩ hout hgeometry (by decide) (by decide) rfl
    (fun _ _ _ h => absurd h List.not_mem_nil) rfl hplain ⟨by decide, by decide⟩ (.inr (by decide))

end PlasmaTiler
