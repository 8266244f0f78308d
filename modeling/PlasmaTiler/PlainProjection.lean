import Mathlib.Algebra.Order.BigOperators.Group.List
import PlasmaTiler.Guillotine

/-!
# The plain projector is a partition

The projector divides a rectangle among the children of a group by their
shares, with gaps between them, and goes down. `Handed` follows it: the
rectangle each subtree is handed, with the child sizes of a group taken from
its shares. A projection succeeds exactly when every group is handed its gaps
and one unit for each child, and then the sizes and gaps of every group add
up to what it was handed.

Everything else is read off `Handed`. Leaves are listed in child order,
positive, inside the bounds, pairwise apart, and with exactly the gap between
the neighbours of a group.

The source computes in 32 bits in some places and in 64 in others, checked in
some and not in others. The values it computes at a group, checked or not,
are listed in `groupOps` with their types; all of them stay in range, since
sizes are parts of what is distributed and the placement ends where the
rectangle does.
-/

namespace PlasmaTiler

/-! ## What a subtree is handed -/

/-- What a group must be handed: its gaps and one unit for each child. -/
def neededExtent (gap : Int) (children : List Node) : Int :=
  gap * (children.length - 1) + children.length

/-- The child sizes of a group. -/
def groupSizes (gap : Int) (children : List Node) (shares : List Nat) (extent : Int) : List Int :=
  proportionalBaseSizes shares shares.sum (extent - gap * (children.length - 1) - children.length)
    (extent - gap * (children.length - 1))

/-- The projection of `tree` into `bounds` reaches a subtree with a
rectangle. -/
inductive Handed (gap : Int) (tree : Node) (bounds : Rect) : Node → Rect → Prop
  | root : Handed gap tree bounds tree bounds
  | child {id : NodeId} {axis : Axis} {children : List Node} {shares : List Nat} {rect : Rect}
      {i : Nat} {c : Node} {size : Int}
      (hgroup : Handed gap tree bounds (.group id axis children shares) rect)
      (hroom : neededExtent gap children ≤ rect.extent axis)
      (hchild : children[i]? = some c)
      (hsize : (groupSizes gap children shares (rect.extent axis))[i]? = some size) :
      Handed gap tree bounds c (rect.segment axis
        (rect.start axis + ((groupSizes gap children shares (rect.extent axis)).take i).sum + gap * i)
        size)

/-! ## What the projector computes at a group -/

def IntRange.i128 : IntRange := ⟨-2 ^ 127, 2 ^ 127 - 1⟩

/-- The values of the size loop, each with the type it is computed in. -/
def sizeOps (total : Nat) (distributable avail : Int) : Int → List Nat → List (IntRange × Int)
  | _, [] => []
  | used, [_] => [(.i64, avail - used)]
  | used, share :: shares =>
      let product := distributable * share
      let size := product.tdiv total + 1
      [(.i128, (share : Int)), (.i128, (total : Int)), (.i128, product), (.i64, product.tdiv total),
        (.i64, size), (.i64, used + size)] ++
        sizeOps total distributable avail (used + size) shares

/-- The values of the placement loop. -/
def placeOps (gap : Int) : Int → List Int → List (IntRange × Int)
  | _, [] => []
  | cursor, [size] => [(.i32, size), (.i32, cursor)]
  | cursor, size :: sizes =>
      [(.i32, size), (.i32, cursor), (.i64, cursor + size), (.i64, cursor + size + gap)] ++
        placeOps gap (cursor + size + gap) sizes

/-- The values of one group's layout. -/
def groupOps (gap : Int) (axis : Axis) (children : List Node) (shares : List Nat) (rect : Rect) :
    List (IntRange × Int) :=
  let n : Int := children.length
  let gapsTotal := gap * (n - 1)
  let avail := rect.extent axis - gapsTotal
  [(.i64, n), (.i64, n - 1), (.i64, gapsTotal), (.i64, avail), (.i64, avail - n)] ++
    sizeOps shares.sum (avail - n) avail 0 shares ++
    placeOps gap (rect.start axis) (groupSizes gap children shares (rect.extent axis))

/-- The value is one of its integer type, so a checked operation that computes
it succeeds. -/
def InRange (op : IntRange × Int) : Prop := op.1.lo ≤ op.2 ∧ op.2 ≤ op.1.hi

section
variable {gap : Int} {tree n m k : Node} {bounds rect r s : Rect} {axis : Axis}
  {children : List Node} {shares : List Nat} {sizes : List Int} {out : List ProjectedLeaf}

theorem Handed.trans (hm : Handed gap tree bounds m r) (hk : Handed gap m r k s) :
    Handed gap tree bounds k s := by
  induction hk with
  | root => exact hm
  | child _ hroom hchild hsize ih => exact .child ih hroom hchild hsize

/-! ## One group -/

/-- With room the splitter answers with the group's sizes. -/
theorem splitProportional_of_room (hgroup : Node.GroupOk (.group default axis children shares))
    (hgap : 0 ≤ gap) (hfits : rect.Fits) (hroom : neededExtent gap children ≤ rect.extent axis) :
    splitProportional gap axis children shares (rect.extent axis) =
      .ok (groupSizes gap children shares (rect.extent axis)) := by
  obtain ⟨hlen, hshares, hpos, htotal⟩ := hgroup
  obtain ⟨share, hshare⟩ := List.exists_mem_of_length_pos (l := shares) (by omega)
  have hsum : 0 < shares.sum := List.sum_pos_iff_exists_pos_nat.mpr ⟨share, hshare, hpos share hshare⟩
  have hgaps : 0 ≤ gap * (children.length - 1 : Int) := Int.mul_nonneg hgap (by omega)
  obtain ⟨-, -, hhi, -⟩ := hfits axis
  rw [neededExtent] at hroom
  have hi64 : IntRange.i64.lo ≤ gap * (children.length - 1 : Int) ∧
      gap * (children.length - 1 : Int) ≤ IntRange.i64.hi := by
    simp only [IntRange.i32, IntRange.i64] at hhi ⊢
    omega
  simp only [splitProportional, bind_eq_ok, okOr_eq_ok, checkedTotal_eq_some,
    IntRange.check_eq_some, ensure_eq_ok, decide_eq_true_eq, pure_eq_ok]
  exact ⟨_, ⟨rfl, htotal⟩, (), by omega, _, ⟨rfl, hi64⟩, (), by omega, (), by omega, rfl⟩

/-- The sizes of a group with room: one for each child, positive, and with
the gaps exactly what the group was handed. -/
theorem groupSizes_spec (hgroup : Node.GroupOk (.group default axis children shares))
    (hgap : 0 ≤ gap) (hfits : rect.Fits) (hroom : neededExtent gap children ≤ rect.extent axis) :
    (groupSizes gap children shares (rect.extent axis)).length = children.length ∧
      (∀ size ∈ groupSizes gap children shares (rect.extent axis), 1 ≤ size) ∧
      (groupSizes gap children shares (rect.extent axis)).sum + gap * (children.length - 1) =
        rect.extent axis := by
  have hsplit := splitProportional_of_room hgroup hgap hfits hroom
  have hne : children ≠ [] := List.ne_nil_of_length_pos (by have := hgroup.1; omega)
  obtain ⟨hcount, hsum⟩ := exhausts_splitProportional hgroup.2.1 hne hsplit
  exact ⟨hcount, generous_splitProportional hgroup hsplit, hsum⟩

theorem take_sum_add_le {i : Nat} {size : Int} (hpos : ∀ size ∈ sizes, 1 ≤ size)
    (hsize : sizes[i]? = some size) :
    0 ≤ (sizes.take i).sum ∧ (sizes.take i).sum + size ≤ sizes.sum := by
  obtain ⟨hi, rfl⟩ := List.getElem?_eq_some_iff.mp hsize
  have hcut : sizes.sum = (sizes.take i).sum + (sizes[i] + (sizes.drop (i + 1)).sum) := by
    rw [← List.sum_cons, ← List.drop_eq_getElem_cons hi, ← List.sum_append, List.take_append_drop]
  have hpre := @length_le_sum (sizes.take i) fun s hs => hpos s (List.mem_of_mem_take hs)
  have hpost := @length_le_sum (sizes.drop (i + 1)) fun s hs =>
    hpos s (List.mem_of_mem_drop hs)
  omega

/-- The rectangle handed to a child is inside the group's. -/
theorem handed_segment_fits {i : Nat} {size : Int}
    (hgroup : Node.GroupOk (.group default axis children shares)) (hgap : 0 ≤ gap)
    (hfits : rect.Fits) (hroom : neededExtent gap children ≤ rect.extent axis)
    (hsize : (groupSizes gap children shares (rect.extent axis))[i]? = some size) :
    (rect.segment axis (rect.start axis +
      ((groupSizes gap children shares (rect.extent axis)).take i).sum + gap * i) size).Fits := by
  obtain ⟨hcount, hpos, hsum⟩ := groupSizes_spec hgroup hgap hfits hroom
  obtain ⟨htake, hle⟩ := take_sum_add_le hpos hsize
  obtain ⟨hi, hget⟩ := List.getElem?_eq_some_iff.mp hsize
  have hone : 1 ≤ size := hpos size (List.mem_of_getElem? hsize)
  have hbefore : 0 ≤ gap * (i : Int) := Int.mul_nonneg hgap (by omega)
  have hgaps : gap * (i : Int) ≤ gap * (children.length - 1) :=
    Int.mul_le_mul_of_nonneg_left (by omega) hgap
  exact hfits.segment hone (by omega) (by omega)

/-- Every subtree reached is valid, and its rectangle has positive extents
and `i32` edges. -/
theorem Handed.fits (h : Handed gap tree bounds m r) (hwf : tree.WellFormed) (hgap : 0 ≤ gap)
    (hbounds : bounds.Fits) : m.WellFormed ∧ r.Fits := by
  induction h with
  | root => exact ⟨hwf, hbounds⟩
  | child _ hroom hchild hsize ih =>
    obtain ⟨hgroup, hcs⟩ := Node.wellFormed_group.mp ih.1
    exact ⟨hcs _ (List.mem_of_getElem? hchild), handed_segment_fits hgroup hgap ih.2 hroom hsize⟩

/-! ## Success is room at every group -/

section
variable {ε : Type} {err : String → ε}
  {split : Axis → List Node → List Nat → Int → Except ε (List Int)}
  {checkSize : Int → Except ε Unit}

/-- A placed child was laid out in its segment. -/
theorem layoutChildren_at {cursor size : Int} {i : Nat} {c : Node}
    (h : layoutChildren err split checkSize gap axis rect children sizes cursor = .ok out)
    (hchild : children[i]? = some c) (hsize : sizes[i]? = some size) :
    ∃ here ⊆ out, layoutWith err split checkSize gap c
      (rect.segment axis (cursor + (sizes.take i).sum + gap * i) size) = .ok here := by
  induction children generalizing sizes cursor i out with
  | nil => simp at hchild
  | cons child children ih =>
    cases sizes with
    | nil => simp at hsize
    | cons first sizes =>
      cases children with
      | nil =>
        obtain ⟨-, -, -, hhere⟩ := layoutChildren_last_eq_ok.mp h
        cases i with
        | zero =>
          obtain rfl := Option.some.inj hchild
          obtain rfl := Option.some.inj hsize
          exact ⟨out, List.Subset.refl _, by simpa using hhere⟩
        | succ i => simp at hchild
      | cons next children =>
        obtain ⟨-, -, -, -, -, here, rest, rfl, hhere, hrest⟩ := layoutChildren_cons_eq_ok.mp h
        cases i with
        | zero =>
          obtain rfl := Option.some.inj hchild
          obtain rfl := Option.some.inj hsize
          exact ⟨here, List.subset_append_left _ _, by simpa using hhere⟩
        | succ i =>
          obtain ⟨inner, hsub, hinner⟩ := ih hrest hchild hsize
          refine ⟨inner, List.Subset.trans hsub (List.subset_append_right _ _), ?_⟩
          rw [← hinner, List.take_succ_cons, List.sum_cons]
          congr 2
          push_cast
          ring

theorem hasRoomChildren_of_forall {extent : Axis → Int}
    (h : ∀ (i : Nat) (c : Node) (size : Int), children[i]? = some c → sizes[i]? = some size →
      hasRoom split gap c (fun a => if a = axis then size else extent a) = true) :
    hasRoomChildren split gap children axis extent sizes = true := by
  induction children generalizing sizes with
  | nil => rw [hasRoomChildren]; simp
  | cons child children ih =>
    cases sizes with
    | nil => rw [hasRoomChildren]; simp
    | cons size sizes =>
      rw [hasRoomChildren, Bool.and_eq_true]
      exact ⟨h 0 child size rfl rfl, ih fun i c size hc hsize => h (i + 1) c size hc hsize⟩

end

/-- A successful layout reached every subtree with its rectangle, and found
room at every group. -/
theorem Handed.laidOut (h : Handed gap tree bounds m r)
    (hout : layoutInto gap tree bounds = .ok out) : ∃ here ⊆ out, layoutInto gap m r = .ok here := by
  induction h with
  | root => exact ⟨out, List.Subset.refl _, hout⟩
  | child _ _ hchild hsize ih =>
    obtain ⟨here, hsub, hhere⟩ := ih
    rw [layoutInto, layoutWith, bind_eq_ok] at hhere
    obtain ⟨sizes, hsplit, hlayout⟩ := hhere
    obtain ⟨-, rfl⟩ := splitProportional_eq_ok hsplit
    obtain ⟨inner, hinner, hlaid⟩ := layoutChildren_at hlayout hchild hsize
    exact ⟨inner, List.Subset.trans hinner hsub, hlaid⟩

theorem Handed.room {id : NodeId} (h : Handed gap tree bounds (.group id axis children shares) r)
    (hout : layoutInto gap tree bounds = .ok out) : neededExtent gap children ≤ r.extent axis := by
  obtain ⟨here, -, hhere⟩ := h.laidOut hout
  rw [layoutInto, layoutWith, bind_eq_ok] at hhere
  obtain ⟨sizes, hsplit, -⟩ := hhere
  have hroom := (splitProportional_eq_ok hsplit).1
  rw [neededExtent]
  omega

/-- Room at every group reached is room for the layout. -/
theorem hasRoom_of_handed (hwf : n.WellFormed) (hgap : 0 ≤ gap) (hfits : rect.Fits)
    (h : ∀ {id axis children shares r}, Handed gap n rect (.group id axis children shares) r →
      neededExtent gap children ≤ r.extent axis) :
    hasRoom (splitProportional gap) gap n rect.extent = true := by
  induction n generalizing rect with
  | leaf id => rw [hasRoom]
  | group id axis children shares ih =>
    obtain ⟨hgroup, hcs⟩ := Node.wellFormed_group.mp hwf
    have hroom := h .root
    have hsplit := splitProportional_of_room hgroup hgap hfits hroom
    refine hasRoom_group.mpr ⟨hroom, _, hsplit, hasRoomChildren_of_forall ?_⟩
    intro i c size hchild hsize
    have hmem := List.mem_of_getElem? hchild
    rw [← Rect.extent_segment (rect.start axis +
      ((groupSizes gap children shares (rect.extent axis)).take i).sum + gap * i)]
    refine ih c hmem (hcs c hmem) (handed_segment_fits hgroup hgap hfits hroom hsize) ?_
    intro id' axis' children' shares' r hr
    exact h (Handed.trans (.child .root hroom hchild hsize) hr)

theorem layoutInto_ok_iff (hwf : n.WellFormed) (hgap : 0 ≤ gap) (hfits : rect.Fits) :
    (∃ out, layoutInto gap n rect = .ok out) ↔
      ∀ {id axis children shares r}, Handed gap n rect (.group id axis children shares) r →
        neededExtent gap children ≤ r.extent axis := by
  constructor
  · rintro ⟨out, hout⟩ id axis children shares r hr
    exact hr.room hout
  · intro h
    have hunit : Reserves (splitProportional gap) gap := fun {_ _ _ _ _} hgroup _ hsplit =>
      generous_splitProportional hgroup hsplit
    have hcheck : ∀ size : Int, 0 ≤ size →
        ensure (0 ≤ size) (ProjectionError.mk "segment size is negative") = .ok () :=
      fun size hsize => ensure_eq_ok.mpr (decide_eq_true hsize)
    obtain ⟨out, hout, -⟩ := layoutWith_of_hasRoom ProjectionError.mk exhausts_splitProportional hunit
      hcheck hgap hwf hfits (hasRoom_of_handed hwf hgap hfits h)
    exact ⟨out, hout⟩

/-! ## Nothing overflows -/

/-- The size loop never leaves its types: each size is a part of what is
distributed, and the sizes still to come are positive. -/
theorem sizeOps_inRange {total : Nat} {distributable avail used : Int}
    (hd : 0 ≤ distributable) (havail : avail ≤ IntRange.i32.hi) (hle : distributable ≤ avail)
    (hused : 0 ≤ used) (htotal : total < u64Size) (hshares : ∀ s ∈ shares, s ≤ total)
    (hpos : ∀ size ∈ proportionalBaseSizesFrom total distributable avail used shares, 1 ≤ size) :
    ∀ op ∈ sizeOps total distributable avail used shares, InRange op := by
  simp only [IntRange.i32] at havail
  induction shares generalizing used with
  | nil => simp [sizeOps]
  | cons share shares ih =>
    cases shares with
    | nil =>
      simp only [proportionalBaseSizesFrom, List.mem_singleton, forall_eq] at hpos
      simp only [sizeOps, List.mem_singleton, forall_eq, InRange, IntRange.i64]
      omega
    | cons next shares =>
      rw [proportionalBaseSizesFrom_cons_cons] at hpos
      obtain ⟨hsize, hrest⟩ := List.forall_mem_cons.mp hpos
      have hlast := length_le_sum hrest
      rw [sum_proportionalBaseSizesFrom (by simp)] at hlast
      obtain ⟨hshare, hshares⟩ := List.forall_mem_cons.mp hshares
      have hproduct : distributable * share ≤ 2147483647 * 18446744073709551616 := by
        have hs : (share : Int) ≤ 18446744073709551616 := by
          simp only [u64Size] at htotal
          omega
        exact Int.mul_le_mul (by omega) hs (by omega) (by omega)
      have hnonneg : 0 ≤ distributable * share := Int.mul_nonneg hd (by omega)
      simp only [sizeOps, List.cons_append, List.nil_append, List.forall_mem_cons]
      simp only [InRange, IntRange.i64, IntRange.i128, u64Size] at htotal ⊢
      refine ⟨⟨by omega, by omega⟩, ⟨by omega, by omega⟩, ⟨by omega, by omega⟩, by omega, by omega,
        by omega, ih (by omega) hshares hrest⟩

/-- The placement loop ends where the rectangle does. -/
theorem placeOps_inRange {cursor : Int} (hgap : 0 ≤ gap) (hcursor : IntRange.i32.lo ≤ cursor)
    (hpos : ∀ size ∈ sizes, 1 ≤ size)
    (hend : cursor + sizes.sum + gap * (sizes.length - 1) ≤ IntRange.i32.hi)
    (hext : sizes.sum + gap * (sizes.length - 1) ≤ IntRange.i32.hi) :
    ∀ op ∈ placeOps gap cursor sizes, InRange op := by
  induction sizes generalizing cursor with
  | nil => simp [placeOps]
  | cons size sizes ih =>
    obtain ⟨hsize, hrest⟩ := List.forall_mem_cons.mp hpos
    cases sizes with
    | nil =>
      simp only [placeOps, List.forall_mem_cons, InRange]
      simp only [List.sum_cons, List.sum_nil, List.length_singleton, IntRange.i32] at hend hext hcursor ⊢
      simp
      omega
    | cons next sizes =>
      have hlast := length_le_sum hrest
      have hgaps : 0 ≤ gap * ((next :: sizes).length - 1 : Int) :=
        Int.mul_nonneg hgap (by simp)
      have hsplit : gap * ((size :: next :: sizes).length - 1 : Int) =
          gap + gap * ((next :: sizes).length - 1) := by
        simp only [List.length_cons]
        push_cast
        ring
      rw [hsplit, List.sum_cons] at hend hext
      have hcount : (1 : Int) ≤ (next :: sizes).length := by simp
      simp only [placeOps, List.cons_append, List.nil_append, List.forall_mem_cons, InRange]
      simp only [IntRange.i32, IntRange.i64] at hcursor hend hext ⊢
      refine ⟨by omega, by omega, by omega, by omega, ih ?_ hrest ?_ ?_⟩ <;>
        simp only [IntRange.i32] <;> omega

/-- Every value computed at a group with room is one of its type. -/
theorem groupOps_inRange (hgroup : Node.GroupOk (.group default axis children shares))
    (hgap : 0 ≤ gap) (hfits : rect.Fits) (hroom : neededExtent gap children ≤ rect.extent axis) :
    ∀ op ∈ groupOps gap axis children shares rect, InRange op := by
  obtain ⟨hcount, hpos, hsum⟩ := groupSizes_spec hgroup hgap hfits hroom
  obtain ⟨hone, hlo, hhi, hend⟩ := hfits axis
  have hgaps : 0 ≤ gap * (children.length - 1 : Int) :=
    Int.mul_nonneg hgap (by have := hgroup.1; omega)
  rw [neededExtent] at hroom
  have hsizes : ∀ op ∈ sizeOps shares.sum
      (rect.extent axis - gap * (children.length - 1) - children.length)
      (rect.extent axis - gap * (children.length - 1)) 0 shares, InRange op :=
    sizeOps_inRange (by omega) (by omega) (by omega) (Int.le_refl 0) hgroup.2.2.2
      (fun s hs => List.le_sum_of_mem hs) hpos
  have hplace := placeOps_inRange hgap hlo hpos (by rw [hcount]; omega) (by rw [hcount]; omega)
  simp only [groupOps, List.cons_append, List.nil_append, List.forall_mem_cons,
    List.forall_mem_append]
  have htwo := hgroup.1
  simp only [IntRange.i32] at hhi
  refine ⟨?_, ?_, ?_, ?_, ?_, hsizes, hplace⟩ <;> simp only [InRange, IntRange.i64] <;> omega

/-! ## The projection -/

/-- A group whose segments and gaps are exactly what it was handed, computed
without leaving a type. -/
structure Filled (gap : Int) (axis : Axis) (children : List Node) (shares : List Nat)
    (rect : Rect) : Prop where
  count : (groupSizes gap children shares (rect.extent axis)).length = children.length
  positive : ∀ size ∈ groupSizes gap children shares (rect.extent axis), 1 ≤ size
  sum : (groupSizes gap children shares (rect.extent axis)).sum + gap * (children.length - 1) =
    rect.extent axis
  inRange : ∀ op ∈ groupOps gap axis children shares rect, InRange op

theorem Handed.filled {id : NodeId} (h : Handed gap tree bounds (.group id axis children shares) r)
    (hout : project tree bounds gap = .ok out) : Filled gap axis children shares r := by
  obtain ⟨hrect, hgap, ⟨hwf, -⟩, hout⟩ := project_eq_ok.mp hout
  obtain ⟨hgroupWf, hfits⟩ := h.fits hwf hgap (fits_of_validRect hrect)
  obtain ⟨hgroup, -⟩ := Node.wellFormed_group.mp hgroupWf
  obtain ⟨hcount, hpos, hsum⟩ := groupSizes_spec hgroup hgap hfits (h.room hout)
  exact ⟨hcount, hpos, hsum, groupOps_inRange hgroup hgap hfits (h.room hout)⟩

/-- The rectangle a leaf is handed is the one listed for it. -/
theorem Handed.listed {leaf : NodeId} (h : Handed gap tree bounds (.leaf leaf) r)
    (hout : project tree bounds gap = .ok out) : ⟨leaf, r⟩ ∈ out := by
  obtain ⟨here, hsub, hhere⟩ := h.laidOut (project_eq_ok.mp hout).2.2.2
  rw [layoutInto, layoutWith] at hhere
  obtain rfl := Except.ok.inj hhere
  exact hsub (List.mem_singleton_self _)

theorem exists_error_iff {ε α : Type} {x : Except ε α} :
    (∃ e, x = .error e) ↔ ¬ ∃ a, x = .ok a := by
  cases x <;> simp

theorem project_error_iff : (∃ e, project tree bounds gap = .error e) ↔
    validRect bounds = false ∨ gap < 0 ∨ ¬ (tree.WellFormed ∧ FreshIds tree.ids ∅) ∨
      ∃ id axis children shares rect,
        Handed gap tree bounds (.group id axis children shares) rect ∧
          rect.extent axis < neededExtent gap children := by
  rw [exists_error_iff]
  simp only [project_eq_ok, exists_and_left]
  by_cases hrect : validRect bounds = true
  · by_cases hgap : 0 ≤ gap
    · by_cases hvalid : tree.WellFormed ∧ FreshIds tree.ids ∅
      · rw [layoutInto_ok_iff hvalid.1 hgap (fits_of_validRect hrect)]
        have hnotGap : ¬ gap < 0 := by omega
        simp only [hrect, hgap, hvalid, hnotGap, true_and, Bool.true_eq_false, not_true, false_or]
        push Not
        rfl
      · simp [hvalid]
    · have hneg : gap < 0 := by omega
      simp [hgap, hneg]
  · have hfalse : validRect bounds = false := by simpa using hrect
    simp [hfalse]

end

/-- The plain projection is a partition: what it lists are the leaves in
child order, positive, contained, apart and exactly the gap apart; at every
group the segments and gaps are what the group was handed and nothing
computed overflows. It fails only on invalid bounds, a negative gap, an
invalid tree, or a group handed less than its gaps and one unit per child. -/
theorem project_partition {tree : Node} {bounds : Rect} {gap : Int} :
    (∀ {out : List ProjectedLeaf}, project tree bounds gap = .ok out →
      ProjectionWellFormed tree bounds gap out ∧
        (∀ {leaf rect}, Handed gap tree bounds (.leaf leaf) rect → ⟨leaf, rect⟩ ∈ out) ∧
        ∀ {id axis children shares rect},
          Handed gap tree bounds (.group id axis children shares) rect →
            Filled gap axis children shares rect) ∧
      ((∃ e, project tree bounds gap = .error e) ↔
        validRect bounds = false ∨ gap < 0 ∨ ¬ (tree.WellFormed ∧ FreshIds tree.ids ∅) ∨
          ∃ id axis children shares rect,
            Handed gap tree bounds (.group id axis children shares) rect ∧
              rect.extent axis < neededExtent gap children) :=
  ⟨fun hout => ⟨project_wellFormed hout, fun h => h.listed hout, fun h => h.filled hout⟩,
    project_error_iff⟩

/-- A nested group of two leaves fills the half it is handed. -/
theorem project_partition_inner :
    Filled 0 .horizontal [.leaf ⟨"b"⟩, .leaf ⟨"c"⟩] [1, 1] ⟨50, 0, 50, 50⟩ := by
  have hplain : project squeezedTree ⟨0, 0, 100, 50⟩ 0 =
      .ok [⟨⟨"a"⟩, ⟨0, 0, 50, 50⟩⟩, ⟨⟨"b"⟩, ⟨50, 0, 25, 50⟩⟩, ⟨⟨"c"⟩, ⟨75, 0, 25, 50⟩⟩] := by
    decide
  have hinner : Handed 0 squeezedTree ⟨0, 0, 100, 50⟩
      (.group ⟨"inner"⟩ .horizontal [.leaf ⟨"b"⟩, .leaf ⟨"c"⟩] [1, 1]) ⟨50, 0, 50, 50⟩ :=
    .child (i := 1) .root (by decide) rfl (by decide)
  exact (project_partition.1 hplain).2.2 hinner

end PlasmaTiler
