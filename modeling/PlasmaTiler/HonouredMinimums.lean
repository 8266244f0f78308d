import PlasmaTiler.Enforcement
import PlasmaTiler.PlainProjection

/-!
# Satisfiable minimums are honoured

When can the minimums of the leaves be met at all? `Allotted` says it with no
reference to the projector: the children of every group can be given positive
extents that, with the gaps, fill the group, so that every leaf has its
minimums. The question is whether the hint-aware projector finds such extents
whenever there are some.

Each group decides alone. It weighs its children by `subtreeMin` and raises
those that come out below, taking from the others in proportion. When a child
is weighed at no less than what it takes (`need`), enforcement hands every
child enough, level after level, and the induction goes down the tree with
`Enough`: what a subtree is handed covers what it takes.

`subtreeMin` counts a leaf without a minimum as nothing, so a nested group
with such a leaf may be weighed at less than it takes. Those trees are left
out, except along an axis on which no leaf has a minimum: there the sizes are
the plain projector's.

The last section has the other case in which nothing can go wrong: minimums
that the plain projection meets already move nothing.
-/

namespace PlasmaTiler

/-! ## What a subtree takes -/

section
variable (resolve : NodeId → WindowSizeHints) (gap : Int)

section
variable (axis : Axis)

mutual

/-- The least extent along `axis` at which every leaf of a subtree has its
minimum and at least one unit. -/
def need : Node → Int
  | .leaf id => max (((resolve id).minForAxis axis).getD 0) 1
  | .group _ groupAxis children _ =>
      if groupAxis = axis then needSum children + gap * (children.length - 1) else needMax children

def needSum : List Node → Int
  | [] => 0
  | child :: children => need child + needSum children

def needMax : List Node → Int
  | [] => 1
  | child :: children => max (need child) (needMax children)

end

/-- Every group along `axis` weighs its children at no less than they
take. -/
def Counted (n : Node) : Prop :=
  ∀ id children shares, .group id axis children shares ∈ n.nodes → ∀ c ∈ children,
    need resolve gap axis c ≤ max (subtreeMin resolve gap axis c) 1

/-- No leaf has a minimum along `axis`. Along such an axis every group is
split as the plain projector splits it. -/
def Unhinted (n : Node) : Prop := ∀ leaf ∈ n.leaves, (resolve leaf).minForAxis axis = none

end

/-- The children of every group can be given positive extents, which with the
gaps fill the group along its axis, so that every leaf has its minimums. -/
inductive Allotted : Node → (Axis → Int) → Prop
  | leaf {id : NodeId} {extent : Axis → Int}
      (hmin : ∀ axis m, (resolve id).minForAxis axis = some m → m ≤ extent axis) :
      Allotted (.leaf id) extent
  | group {id : NodeId} {axis : Axis} {children : List Node} {shares : List Nat}
      {extent : Axis → Int} {sizes : List Int} (hcount : sizes.length = children.length)
      (hpos : ∀ size ∈ sizes, 1 ≤ size)
      (hsum : sizes.sum + gap * (children.length - 1) = extent axis)
      (hchild : ∀ (i : Nat) (c : Node) (size : Int), children[i]? = some c → sizes[i]? = some size →
        Allotted c fun a => if a = axis then size else extent a) :
      Allotted (.group id axis children shares) extent

end

section
variable {resolve : NodeId → WindowSizeHints} {gap : Int} {axis : Axis} {n c : Node}
  {children : List Node} {sizes : List Int}

theorem needMax_le {bound : Int} (hbound : 1 ≤ bound) :
    needMax resolve gap axis children ≤ bound ↔
      ∀ c ∈ children, need resolve gap axis c ≤ bound := by
  induction children with
  | nil => simp [needMax, hbound]
  | cons child children ih => simp [needMax, ih]

theorem needSum_eq : needSum resolve gap axis children =
    (children.map (need resolve gap axis)).sum := by
  induction children with
  | nil => rfl
  | cons child children ih => rw [needSum, ih, List.map_cons, List.sum_cons]

theorem one_le_needMax : 1 ≤ needMax resolve gap axis children := by
  induction children with
  | nil => rw [needMax]
  | cons child children ih => exact Int.le_trans ih (Int.le_max_right _ _)

theorem one_le_need (hgap : 0 ≤ gap) (hwf : n.WellFormed) : 1 ≤ need resolve gap axis n := by
  induction n with
  | leaf id => rw [need]; exact Int.le_max_right _ _
  | group id groupAxis children shares ih =>
    obtain ⟨⟨hlen, -⟩, hcs⟩ := Node.wellFormed_group.mp hwf
    rw [need]
    split
    · have hgaps : 0 ≤ gap * ((children.length : Int) - 1) := Int.mul_nonneg hgap (by omega)
      have hunits := @length_le_sum (children.map (need resolve gap axis)) (by
        intro size hsize
        obtain ⟨c, hc, rfl⟩ := List.mem_map.mp hsize
        exact ih c hc (hcs c hc))
      rw [List.length_map] at hunits
      rw [needSum_eq]
      omega
    · exact one_le_needMax

/-! ## What a group weighs -/

theorem subtreeMinSum_bounds {sum : Int} (hsum : 0 ≤ sum)
    (h : ∀ c ∈ children, 0 ≤ subtreeMin resolve gap axis c ∧
      subtreeMin resolve gap axis c ≤ need resolve gap axis c) :
    0 ≤ subtreeMinSum resolve gap axis sum children ∧
      subtreeMinSum resolve gap axis sum children ≤ sum + needSum resolve gap axis children := by
  induction children generalizing sum with
  | nil =>
    rw [subtreeMinSum, needSum]
    omega
  | cons child children ih =>
    obtain ⟨hchild, hrest⟩ := List.forall_mem_cons.mp h
    rw [subtreeMinSum, needSum]
    have hsat : 0 ≤ IntRange.i64.saturate (sum + subtreeMin resolve gap axis child) ∧
        IntRange.i64.saturate (sum + subtreeMin resolve gap axis child) ≤
          sum + subtreeMin resolve gap axis child := by
      simp only [IntRange.saturate, IntRange.i64]
      omega
    have htail := ih hsat.1 hrest
    omega

theorem subtreeMinMax_bounds (h : ∀ c ∈ children, 0 ≤ subtreeMin resolve gap axis c ∧
      subtreeMin resolve gap axis c ≤ need resolve gap axis c) :
    0 ≤ (subtreeMinMax resolve gap axis children).getD 0 ∧
      (subtreeMinMax resolve gap axis children).getD 0 ≤ needMax resolve gap axis children := by
  induction children with
  | nil =>
    simp only [subtreeMinMax, Option.getD_none, needMax]
    omega
  | cons child children ih =>
    obtain ⟨hchild, hrest⟩ := List.forall_mem_cons.mp h
    have htail := ih hrest
    rw [subtreeMinMax, needMax]
    cases hmax : subtreeMinMax resolve gap axis children with
    | none =>
      simp only [Option.getD_some]
      omega
    | some rest =>
      rw [hmax, Option.getD_some] at htail
      simp only [Option.getD_some]
      omega

theorem one_le_of_minForAxis {hints : WindowSizeHints} {m : Int}
    (h : hints.minForAxis axis = some m) : 1 ≤ m := by
  have hmeaningful : ∀ bound, meaningful bound = some m → 1 ≤ m := by
    intro bound hbound
    unfold meaningful at hbound
    split at hbound
    · split at hbound
      · rename_i hrange
        obtain rfl := Option.some.inj hbound
        exact hrange.1
      · cases hbound
    · cases hbound
  cases axis
  · exact hmeaningful _ h
  · exact hmeaningful _ h

/-- A subtree is never weighed at more than it takes. -/
theorem subtreeMin_bounds (hgap : 0 ≤ gap) (hwf : n.WellFormed) :
    0 ≤ subtreeMin resolve gap axis n ∧ subtreeMin resolve gap axis n ≤ need resolve gap axis n := by
  induction n with
  | leaf id =>
    rw [subtreeMin, need]
    cases hmin : (resolve id).minForAxis axis with
    | none => simp
    | some m =>
      have hone := one_le_of_minForAxis hmin
      simp only [Option.getD_some]
      omega
  | group id groupAxis children shares ih =>
    obtain ⟨⟨hlen, -⟩, hcs⟩ := Node.wellFormed_group.mp hwf
    have hchildren : ∀ c ∈ children, 0 ≤ subtreeMin resolve gap axis c ∧
        subtreeMin resolve gap axis c ≤ need resolve gap axis c := fun c hc => ih c hc (hcs c hc)
    rw [subtreeMin, need]
    split
    · have hsum := subtreeMinSum_bounds (Int.le_refl 0) hchildren
      have hgaps : 0 ≤ gap * ((children.length : Int) - 1) := Int.mul_nonneg hgap (by omega)
      have hcast : ((children.length - 1 : Nat) : Int) = children.length - 1 := by omega
      rw [hcast]
      simp only [IntRange.saturate, IntRange.i64]
      omega
    · exact subtreeMinMax_bounds hchildren

/-! ## Extents that are enough -/

theorem sum_le_of_getElem? {l : List Node} {f : Node → Int} (hcount : sizes.length = l.length)
    (h : ∀ (i : Nat) (c : Node) (size : Int), l[i]? = some c → sizes[i]? = some size → f c ≤ size) :
    (l.map f).sum ≤ sizes.sum := by
  induction l generalizing sizes with
  | nil =>
    obtain rfl := List.eq_nil_of_length_eq_zero hcount
    simp
  | cons c l ih =>
    obtain ⟨size, sizes, rfl⟩ := List.exists_cons_of_length_eq_add_one hcount
    have hhead := h 0 c size rfl rfl
    have htail := ih (by simpa using hcount) fun i c size hc hsize => h (i + 1) c size hc hsize
    simp only [List.map_cons, List.sum_cons]
    omega

theorem hasRoomChildren_get {ε : Type} {split : Axis → List Node → List Nat → Int → Except ε (List Int)}
    {extent : Axis → Int} {i : Nat} {size : Int}
    (h : hasRoomChildren split gap children axis extent sizes = true)
    (hc : children[i]? = some c) (hsize : sizes[i]? = some size) :
    hasRoom split gap c (fun a => if a = axis then size else extent a) = true := by
  induction children generalizing sizes i with
  | nil => simp at hc
  | cons child children ih =>
    cases sizes with
    | nil => simp at hsize
    | cons first sizes =>
      rw [hasRoomChildren, Bool.and_eq_true] at h
      cases i with
      | zero =>
        obtain rfl := Option.some.inj hc
        obtain rfl := Option.some.inj hsize
        exact h.1
      | succ i => exact ih h.2 hc hsize

/-- A group takes no more than it was handed when no child does. -/
theorem need_group_le {id : NodeId} {groupAxis : Axis} {shares : List Nat} {extent : Axis → Int}
    (hpos : ∀ a, 1 ≤ extent a) (hcount : sizes.length = children.length)
    (hsum : sizes.sum + gap * (children.length - 1) = extent groupAxis)
    (h : ∀ (i : Nat) (c : Node) (size : Int), children[i]? = some c → sizes[i]? = some size →
      need resolve gap axis c ≤ if axis = groupAxis then size else extent axis) :
    need resolve gap axis (.group id groupAxis children shares) ≤ extent axis := by
  rw [need]
  split
  · subst groupAxis
    have hle := sum_le_of_getElem? hcount fun i c size hc hsize => by
      simpa using h i c size hc hsize
    rw [needSum_eq]
    omega
  · rename_i hcross
    refine (needMax_le (hpos axis)).mpr fun c hc => ?_
    obtain ⟨i, hi, rfl⟩ := List.mem_iff_getElem.mp hc
    have hchild := h i _ _ (List.getElem?_eq_getElem hi) (List.getElem?_eq_getElem (hcount ▸ hi))
    rwa [if_neg (Ne.symm hcross)] at hchild

theorem one_le_handed {extent : Axis → Int} {size : Int} (hpos : ∀ a, 1 ≤ extent a)
    (hsize : 1 ≤ size) : ∀ a, 1 ≤ (fun a => if a = axis then size else extent a) a := by
  intro a
  show 1 ≤ if a = axis then size else extent a
  split
  · exact hsize
  · exact hpos a

/-- Where the minimums can be met, a subtree takes no more than its extent. -/
theorem Allotted.need_le {extent : Axis → Int} (h : Allotted resolve gap n extent)
    (hpos : ∀ a, 1 ≤ extent a) : need resolve gap axis n ≤ extent axis := by
  induction h with
  | @leaf id extent hmin =>
    have hone := hpos axis
    rw [need]
    cases hm : (resolve id).minForAxis axis with
    | none =>
      simp only [Option.getD_none]
      omega
    | some m =>
      have hle := hmin axis m hm
      simp only [Option.getD_some]
      omega
  | @group id groupAxis children shares extent sizes hcount hsizes hsum _ ih =>
    refine need_group_le hpos hcount hsum fun i c size hc hsize => ?_
    exact ih i c size hc hsize (one_le_handed hpos (hsizes size (List.mem_of_getElem? hsize)))

/-- The children of a group allotted one by one. -/
theorem Allotted.of_children {id : NodeId} {shares : List Nat} {extent : Axis → Int}
    (hpos : ∀ size ∈ sizes, 1 ≤ size) (hsum : sizes.sum + gap * (children.length - 1) = extent axis)
    (h : List.Forall₂ (fun c size => Allotted resolve gap c fun a => if a = axis then size else extent a)
      children sizes) : Allotted resolve gap (.group id axis children shares) extent := by
  obtain ⟨hcount, hget⟩ := List.forall₂_iff_get.mp h
  refine .group hcount.symm hpos hsum fun i c size hc hsize => ?_
  obtain ⟨hi, rfl⟩ := List.getElem?_eq_some_iff.mp hc
  obtain ⟨hj, rfl⟩ := List.getElem?_eq_some_iff.mp hsize
  exact hget i hi hj

/-- A leaf whose minimums can be checked. -/
theorem Allotted.of_all {id : NodeId} {extent : Axis → Int}
    (h : ∀ axis, ((resolve id).minForAxis axis).all (fun m => decide (m ≤ extent axis)) = true) :
    Allotted resolve gap (.leaf id) extent := by
  refine .leaf fun axis m hm => ?_
  have hall := h axis
  rw [hm] at hall
  simpa using hall

theorem need_le_of_room {extent : Axis → Int} (hwf : n.WellFormed)
    (hroom : hasRoom (splitProportional gap) gap n extent = true) (hpos : ∀ a, 1 ≤ extent a)
    (hnone : Unhinted resolve axis n) : need resolve gap axis n ≤ extent axis := by
  induction n generalizing extent with
  | leaf id =>
    rw [need, hnone id (by simp)]
    exact hpos axis
  | group id groupAxis children shares ih =>
    obtain ⟨hgroup, hcs⟩ := Node.wellFormed_group.mp hwf
    obtain ⟨-, sizes, hsizes, hchildren⟩ := hasRoom_group.mp hroom
    have hne : children ≠ [] := List.ne_nil_of_length_pos (by have := hgroup.1; omega)
    obtain ⟨hcount, hsum⟩ := exhausts_splitProportional hgroup.2.1 hne hsizes
    refine need_group_le hpos hcount hsum fun i c size hc hsize => ?_
    have hmem := List.mem_of_getElem? hc
    have hone := generous_splitProportional hgroup hsizes size (List.mem_of_getElem? hsize)
    exact ih c hmem (hcs c hmem) (hasRoomChildren_get hchildren hc hsize) (one_le_handed hpos hone)
      fun leaf hleaf => hnone leaf (by
        rw [Node.leaves_group]
        exact List.mem_flatMap.mpr ⟨c, hmem, hleaf⟩)

/-! ## Every group hands its children enough -/

/-- What a subtree is handed by the hinted projector is enough: along an axis
with minimums it covers what the subtree takes, and along one without it is
what the plain projector hands down. -/
structure Enough (resolve : NodeId → WindowSizeHints) (gap : Int) (n : Node)
    (extent plain : Axis → Int) : Prop where
  room : hasRoom (splitProportional gap) gap n plain = true
  positive : ∀ a, 1 ≤ plain a
  fits : ∀ a, extent a ≤ IntRange.i32.hi
  along : ∀ a, (Counted resolve gap a n ∧ need resolve gap a n ≤ extent a) ∨
    (Unhinted resolve a n ∧ extent a = plain a)

theorem Counted.child {id : NodeId} {groupAxis : Axis} {shares : List Nat}
    (h : Counted resolve gap axis (.group id groupAxis children shares)) (hc : c ∈ children) :
    Counted resolve gap axis c := by
  intro id' children' shares' hmem
  refine h id' children' shares' ?_
  rw [Node.nodes_group]
  exact List.mem_cons_of_mem _ (List.mem_flatMap.mpr ⟨c, hc, hmem⟩)

theorem Unhinted.child {id : NodeId} {groupAxis : Axis} {shares : List Nat}
    (h : Unhinted resolve axis (.group id groupAxis children shares)) (hc : c ∈ children) :
    Unhinted resolve axis c := by
  intro leaf hleaf
  refine h leaf ?_
  rw [Node.leaves_group]
  exact List.mem_flatMap.mpr ⟨c, hc, hleaf⟩

theorem Enough.need_le {extent plain : Axis → Int} (h : Enough resolve gap n extent plain)
    (hwf : n.WellFormed) : need resolve gap axis n ≤ extent axis := by
  rcases h.along axis with ⟨-, hle⟩ | ⟨hnone, heq⟩
  · exact hle
  · rw [heq]
    exact need_le_of_room hwf h.room h.positive hnone

theorem need_cross_le {id : NodeId} {groupAxis : Axis} {shares : List Nat} (hc : c ∈ children)
    (hcross : groupAxis ≠ axis) :
    need resolve gap axis c ≤ need resolve gap axis (.group id groupAxis children shares) := by
  rw [need, if_neg hcross]
  exact (needMax_le one_le_needMax).mp (Int.le_refl _) c hc

theorem room_le_need {id : NodeId} {shares : List Nat} (hgap : 0 ≤ gap)
    (hcs : ∀ c ∈ children, c.WellFormed) : gap * (children.length - 1) + children.length ≤
      need resolve gap axis (.group id axis children shares) := by
  rw [need, if_pos rfl, needSum_eq]
  have hunits := @length_le_sum (children.map (need resolve gap axis)) (by
    intro size hsize
    obtain ⟨c, hc, rfl⟩ := List.mem_map.mp hsize
    exact one_le_need hgap (hcs c hc))
  rw [List.length_map] at hunits
  omega

/-- Sizes that reach their floors stay as they are. -/
theorem enforceMinimums_eq_self {mins : List Int}
    (h : ∀ entry ∈ sizes.zip (mins.map fun m => max m 1), entry.2 ≤ entry.1) :
    (enforceMinimums sizes mins).2 = sizes := by
  have hzero : ((sizes.zip (mins.map fun m => max m 1)).map deficitOf).sum = 0 := by
    refine List.sum_eq_zero fun d hd => ?_
    obtain ⟨entry, hentry, rfl⟩ := List.mem_map.mp hd
    rw [deficitOf, if_neg (Int.not_lt.mpr (h entry hentry))]
  unfold enforceMinimums
  dsimp only
  rw [hzero]
  split
  · rfl
  · split <;> rfl

/-- A property of every entry of a group's sizes and floors. -/
theorem forall_floors {P : Int × Int → Prop} (h : ∀ (i : Nat) (c : Node) (size : Int),
      children[i]? = some c → sizes[i]? = some size → P (size, max (subtreeMin resolve gap axis c) 1)) :
    ∀ entry ∈ sizes.zip ((children.map (subtreeMin resolve gap axis)).map fun m => max m 1),
      P entry := by
  intro entry hentry
  obtain ⟨i, hi⟩ := List.getElem?_of_mem hentry
  rw [List.getElem?_zip_eq_some] at hi
  obtain ⟨hsize, hfloor⟩ := hi
  rw [List.getElem?_map, List.getElem?_map, Option.map_map, Option.map_eq_some_iff] at hfloor
  obtain ⟨c, hc, hentry⟩ := hfloor
  have hgoal := h i c entry.1 hc hsize
  rwa [show max (subtreeMin resolve gap axis c) 1 = entry.2 from hentry] at hgoal

/-- A group handed what it takes has a size at its floor or above for every
child. -/
theorem splitHinted_reaches {id : NodeId} {shares : List Nat} {extent : Int} (hgap : 0 ≤ gap)
    (hwf : (Node.group id axis children shares).WellFormed) (hfits : extent ≤ IntRange.i32.hi)
    (hneed : need resolve gap axis (.group id axis children shares) ≤ extent) :
    ∃ sizes, splitHinted gap resolve axis children shares extent = .ok sizes ∧
      sizes.length = children.length ∧ sizes.sum ≤ extent ∧
      ∀ (i : Nat) (c : Node) (size : Int), children[i]? = some c → sizes[i]? = some size →
        max (subtreeMin resolve gap axis c) 1 ≤ size := by
  obtain ⟨⟨htwo, hshares, -, htotal⟩, hcs⟩ := Node.wellFormed_group.mp hwf
  have hne : shares ≠ [] := List.ne_nil_of_length_pos (by omega)
  have hroom : gap * (children.length - 1) + children.length ≤
      need resolve gap axis (.group id axis children shares) := room_le_need hgap hcs
  have hgaps : 0 ≤ gap * ((children.length : Int) - 1) := Int.mul_nonneg hgap (by omega)
  have hi64 : IntRange.i64.lo ≤ gap * ((children.length : Int) - 1) ∧
      gap * ((children.length : Int) - 1) ≤ IntRange.i64.hi := by
    simp only [IntRange.i32, IntRange.i64] at hfits ⊢
    omega
  generalize hbase : proportionalBaseSizes shares shares.sum
    (extent - gap * (children.length - 1) - children.length)
    (extent - gap * (children.length - 1)) = base
  have hok : splitHinted gap resolve axis children shares extent =
      .ok (enforceMinimums base (children.map (subtreeMin resolve gap axis))).2 :=
    splitHinted_eq_ok.mpr ⟨htotal, hi64, by rw [hbase]⟩
  have hcount : base.length = children.length := by
    rw [← hbase, proportionalBaseSizes, length_proportionalBaseSizesFrom, hshares]
  have hsum : base.sum = extent - gap * (children.length - 1) := by
    rw [← hbase, proportionalBaseSizes, sum_proportionalBaseSizesFrom hne, Int.sub_zero]
  -- the floors add up to no more than the children take
  have hfloors : ((children.map (subtreeMin resolve gap axis)).map fun m => max m 1).sum ≤ base.sum := by
    have hle : (children.map ((fun m => max m 1) ∘ subtreeMin resolve gap axis)).sum ≤
        (children.map (need resolve gap axis)).sum := by
      refine List.sum_le_sum fun c hc => ?_
      have hweighed := (@subtreeMin_bounds resolve gap axis c hgap (hcs c hc)).2
      exact max_le hweighed (one_le_need hgap (hcs c hc))
    rw [need, if_pos rfl, needSum_eq] at hneed
    rw [List.map_map]
    omega
  have hreaches := enforceMinimums_reaches (by rw [List.length_map, hcount]) hfloors
  refine ⟨_, hok, by rw [length_enforceMinimums, hcount], by rw [sum_enforceMinimums]; omega, ?_⟩
  intro i c size hc hsize
  have hlt : i < base.length := hcount ▸ (List.getElem?_eq_some_iff.mp hc).1
  have hfloor : ((children.map (subtreeMin resolve gap axis)).map fun m => max m 1)[i]? =
      some (max (subtreeMin resolve gap axis c) 1) := by
    rw [List.getElem?_map, List.getElem?_map, hc]
    rfl
  have hentry : (base.zip ((children.map (subtreeMin resolve gap axis)).map fun m => max m 1))[i]? =
      some (base[i], max (subtreeMin resolve gap axis c) 1) :=
    List.getElem?_zip_eq_some.mpr ⟨List.getElem?_eq_getElem hlt, hfloor⟩
  exact (List.forall₂_iff_zip.mp hreaches).2
    (List.mem_of_getElem? (List.getElem?_zip_eq_some.mpr ⟨hsize, hentry⟩))

/-- Where every child's floor fits its plain size, the sizes are the plain
ones. -/
theorem splitHinted_plain {shares : List Nat} {extent : Int} {plainSizes : List Int}
    (hplain : splitProportional gap axis children shares extent = .ok plainSizes)
    (h : splitHinted gap resolve axis children shares extent = .ok sizes)
    (hfloors : ∀ (i : Nat) (c : Node) (size : Int), children[i]? = some c →
      plainSizes[i]? = some size → max (subtreeMin resolve gap axis c) 1 ≤ size) :
    sizes = plainSizes := by
  obtain ⟨-, -, rfl⟩ := splitHinted_eq_ok.mp h
  obtain ⟨-, rfl⟩ := splitProportional_eq_ok hplain
  exact enforceMinimums_eq_self (forall_floors hfloors)

/-- One group: the hinted splitter answers, and every child is handed enough.
Along the group's axis that is what the splitter promises, across it the
extent is the group's own. -/
theorem Enough.split {id : NodeId} {groupAxis : Axis} {shares : List Nat} {extent plain : Axis → Int}
    (h : Enough resolve gap (.group id groupAxis children shares) extent plain) (hgap : 0 ≤ gap)
    (hwf : (Node.group id groupAxis children shares).WellFormed) :
    ∃ sizes, splitHinted gap resolve groupAxis children shares (extent groupAxis) = .ok sizes ∧
      ∀ (i : Nat) (c : Node) (size : Int), children[i]? = some c → sizes[i]? = some size →
        ∃ plainSize, Enough resolve gap c (fun a => if a = groupAxis then size else extent a)
          (fun a => if a = groupAxis then plainSize else plain a) := by
  obtain ⟨hgroup, hcs⟩ := Node.wellFormed_group.mp hwf
  have htwo := hgroup.1
  have hne : children ≠ [] := List.ne_nil_of_length_pos (by omega)
  obtain ⟨sizes, hok, hcount, hsum, hfloors⟩ :=
    splitHinted_reaches hgap hwf (h.fits groupAxis) (h.need_le hwf)
  obtain ⟨-, plainSizes, hplain, hroom⟩ := hasRoom_group.mp h.room
  obtain ⟨hplainCount, -⟩ := exhausts_splitProportional hgroup.2.1 hne hplain
  have hplainPos := generous_splitProportional hgroup hplain
  refine ⟨sizes, hok, fun i c size hc hsize => ?_⟩
  have hmem := List.mem_of_getElem? hc
  have hlt : i < plainSizes.length := hplainCount ▸ (List.getElem?_eq_some_iff.mp hc).1
  have hplainSize := List.getElem?_eq_getElem hlt
  have hone : 1 ≤ plainSizes[i] := hplainPos _ (List.getElem_mem hlt)
  have hpositive := @one_le_handed groupAxis plain _ h.positive hone
  have hsizes : ∀ s ∈ sizes, 0 ≤ s := by
    intro s hs
    obtain ⟨j, hj, rfl⟩ := List.mem_iff_getElem.mp hs
    have hfloor := hfloors j _ _ (List.getElem?_eq_getElem (hcount ▸ hj)) (List.getElem?_eq_getElem hj)
    omega
  have hle : size ≤ extent groupAxis :=
    Int.le_trans (List.single_le_sum hsizes _ (List.mem_of_getElem? hsize)) hsum
  refine ⟨plainSizes[i], hasRoomChildren_get hroom hc hplainSize, hpositive, fun a => ?_, fun a => ?_⟩
  · show (if a = groupAxis then size else extent a) ≤ IntRange.i32.hi
    split
    · exact Int.le_trans hle (h.fits groupAxis)
    · exact h.fits a
  · show (Counted resolve gap a c ∧
        need resolve gap a c ≤ if a = groupAxis then size else extent a) ∨
      (Unhinted resolve a c ∧ (if a = groupAxis then size else extent a) =
        if a = groupAxis then plainSizes[i] else plain a)
    rcases h.along a with ⟨hcounted, hneed⟩ | ⟨hnone, hsame⟩
    · refine .inl ⟨hcounted.child hmem, ?_⟩
      split
      · subst groupAxis
        exact Int.le_trans (hcounted _ _ _ (Node.self_mem_nodes _) c hmem) (hfloors i c size hc hsize)
      · rename_i hcross
        exact Int.le_trans (need_cross_le hmem (Ne.symm hcross)) hneed
    · refine .inr ⟨hnone.child hmem, ?_⟩
      split
      · subst groupAxis
        -- no leaf below asks for more than it was handed
        rw [hsame] at hok
        have hplainFloors : ∀ (i : Nat) (c : Node) (size : Int), children[i]? = some c →
            plainSizes[i]? = some size → max (subtreeMin resolve gap a c) 1 ≤ size := by
          intro i c size hc hsize
          have hmem := List.mem_of_getElem? hc
          have hone := hplainPos size (List.mem_of_getElem? hsize)
          have hneed := @need_le_of_room resolve gap a c _ (hcs c hmem)
            (hasRoomChildren_get hroom hc hsize) (one_le_handed h.positive hone) (hnone.child hmem)
          rw [if_pos rfl] at hneed
          exact max_le (Int.le_trans (subtreeMin_bounds hgap (hcs c hmem)).2 hneed) hone
        obtain rfl := splitHinted_plain hplain hok hplainFloors
        exact Option.some.inj (hsize.symm.trans hplainSize)
      · exact hsame

/-! ## Every level, every leaf -/

theorem Enough.hasRoom {extent plain : Axis → Int} (h : Enough resolve gap n extent plain)
    (hgap : 0 ≤ gap) (hwf : n.WellFormed) :
    hasRoom (splitHinted gap resolve) gap n extent = true := by
  induction n generalizing extent plain with
  | leaf id => rw [PlasmaTiler.hasRoom]
  | group id groupAxis children shares ih =>
    obtain ⟨-, hcs⟩ := Node.wellFormed_group.mp hwf
    obtain ⟨sizes, hok, hchildren⟩ := h.split hgap hwf
    have hroom := Int.le_trans (room_le_need hgap hcs) (h.need_le hwf)
    refine hasRoom_group.mpr ⟨hroom, sizes, hok, hasRoomChildren_of_forall ?_⟩
    intro i c size hc hsize
    have hmem := List.mem_of_getElem? hc
    obtain ⟨plainSize, henough⟩ := hchildren i c size hc hsize
    exact ih c hmem henough (hcs c hmem)

section
variable {ε : Type} {err : String → ε}
  {split : Axis → List Node → List Nat → Int → Except ε (List Int)}
  {checkSize : Int → Except ε Unit} {rect : Rect} {out : List ProjectedLeaf} {p : ProjectedLeaf}

/-- Every leaf placed belongs to a child, laid out in its segment. -/
theorem mem_layoutChildren {cursor : Int}
    (h : layoutChildren err split checkSize gap axis rect children sizes cursor = .ok out)
    (hp : p ∈ out) : ∃ (i : Nat) (c : Node) (size offset : Int) (here : List ProjectedLeaf),
      children[i]? = some c ∧ sizes[i]? = some size ∧ p ∈ here ∧
        layoutWith err split checkSize gap c (rect.segment axis offset size) = .ok here := by
  induction children generalizing sizes cursor out with
  | nil =>
    rw [layoutChildren] at h
    obtain rfl := Except.ok.inj h
    cases hp
  | cons child children ih =>
    cases sizes with
    | nil =>
      rw [layoutChildren] at h
      · obtain rfl := Except.ok.inj h
        cases hp
      · simp
    | cons size sizes =>
      cases children with
      | nil =>
        obtain ⟨-, -, -, hhere⟩ := layoutChildren_last_eq_ok.mp h
        exact ⟨0, child, size, cursor, out, rfl, rfl, hp, hhere⟩
      | cons next children =>
        obtain ⟨-, -, -, -, -, here, rest, rfl, hhere, hrest⟩ := layoutChildren_cons_eq_ok.mp h
        rcases List.mem_append.mp hp with hp | hp
        · exact ⟨0, child, size, cursor, here, rfl, rfl, hp, hhere⟩
        · obtain ⟨i, c, size', offset, inner, hc, hsize, hp, hinner⟩ := ih hrest hp
          exact ⟨i + 1, c, size', offset, inner, hc, hsize, hp, hinner⟩

end

theorem Enough.meets {plain : Axis → Int} {rect : Rect} {out : List ProjectedLeaf}
    (h : Enough resolve gap n rect.extent plain) (hgap : 0 ≤ gap) (hwf : n.WellFormed)
    (hout : layoutHinted gap resolve n rect = .ok out) :
    ∀ p ∈ out, ∀ axis m, (resolve p.leaf).minForAxis axis = some m → m ≤ p.rect.extent axis := by
  induction n generalizing rect plain out with
  | leaf id =>
    intro p hp axis m hm
    rw [layoutHinted, layoutWith] at hout
    obtain rfl := Except.ok.inj hout
    obtain rfl := List.mem_singleton.mp hp
    have hneed : need resolve gap axis (.leaf id) ≤ rect.extent axis := h.need_le hwf
    rw [need, show (resolve id).minForAxis axis = some m from hm, Option.getD_some] at hneed
    exact Int.le_trans (Int.le_max_left _ _) hneed
  | group id groupAxis children shares ih =>
    intro p hp
    obtain ⟨-, hcs⟩ := Node.wellFormed_group.mp hwf
    obtain ⟨sizes, hok, hchildren⟩ := h.split hgap hwf
    rw [layoutHinted, layoutWith, hok] at hout
    obtain ⟨i, c, size, offset, here, hc, hsize, hp, hhere⟩ := mem_layoutChildren hout hp
    have hmem := List.mem_of_getElem? hc
    obtain ⟨plainSize, henough⟩ := hchildren i c size hc hsize
    rw [← Rect.extent_segment offset] at henough
    exact ih c hmem henough (hcs c hmem) hhere p hp

theorem violatesMinimum_eq_false {rect : Rect} {hints : WindowSizeHints} :
    violatesMinimum rect hints = false ↔
      ∀ axis m, hints.minForAxis axis = some m → m ≤ rect.extent axis := by
  have hany : ∀ bound : Option Int, ∀ extent : Int,
      bound.any (extent < ·) = false ↔ ∀ m, bound = some m → m ≤ extent := by
    intro bound extent
    cases bound <;> simp
  rw [violatesMinimum, Bool.or_eq_false_iff, hany, hany]
  constructor
  · rintro ⟨hw, hh⟩ axis m hm
    cases axis
    · exact hw m hm
    · exact hh m hm
  · intro h
    exact ⟨h .horizontal, h .vertical⟩

theorem overconstrainedLeaves_eq_nil {out : List ProjectedLeaf} {seen : BTreeSet NodeId}
    (h : ∀ p ∈ out, violatesMinimum p.rect (resolve p.leaf) = false) :
    overconstrainedLeaves resolve out seen = [] := by
  induction out with
  | nil => rfl
  | cons p out ih =>
    obtain ⟨hp, hout⟩ := List.forall_mem_cons.mp h
    rw [overconstrainedLeaves, hp, Bool.false_and, if_neg (by simp)]
    exact ih hout

end

/-- Minimums that can be met are met: the plain projection succeeds, along
each axis either no leaf has a minimum or every group weighs its children at
no less than they take, and some assignment of extents gives every leaf its
minimums. Then the hinted projection is well formed, lists no leaf as
overconstrained, and every leaf has its minimums. -/
theorem minimums_honoured {tree : Node} {bounds : Rect} {gap : Int}
    {resolve : NodeId → WindowSizeHints} {plain : List ProjectedLeaf}
    (hplain : project tree bounds gap = .ok plain)
    (hcounted : ∀ axis, Counted resolve gap axis tree ∨ Unhinted resolve axis tree)
    (hallotted : Allotted resolve gap tree bounds.extent) :
    ∃ hinted, projectWithHints tree bounds gap resolve = .ok hinted ∧
      ProjectionWellFormed tree bounds gap hinted.leaves ∧ hinted.overconstrained = [] ∧
      ∀ p ∈ hinted.leaves, violatesMinimum p.rect (resolve p.leaf) = false := by
  obtain ⟨hrect, hgap, ⟨hwf, -⟩, hlaid⟩ := project_eq_ok.mp hplain
  have hfits := fits_of_validRect hrect
  have hpositive : ∀ a, 1 ≤ bounds.extent a := fun a => (hfits a).1
  have henough : Enough resolve gap tree bounds.extent bounds.extent := by
    refine ⟨?_, hpositive, fun a => (hfits a).2.2.1, fun a => ?_⟩
    · exact hasRoom_of_handed hwf hgap hfits fun h => h.room hlaid
    · rcases hcounted a with hcounted | hnone
      · exact .inl ⟨hcounted, hallotted.need_le hpositive⟩
      · exact .inr ⟨hnone, rfl⟩
  obtain ⟨hinted, hok, hwell⟩ :=
    (projectWithHints_wellFormed_iff hplain).mpr (henough.hasRoom hgap hwf)
  obtain ⟨hleaves, hover⟩ := (projectWithHints_eq_ok hplain).mp hok
  have hmeets : ∀ p ∈ hinted.leaves, violatesMinimum p.rect (resolve p.leaf) = false := fun p hp =>
    violatesMinimum_eq_false.mpr (henough.meets hgap hwf hleaves p hp)
  exact ⟨hinted, hok, hwell, hover.trans (overconstrainedLeaves_eq_nil hmeets), hmeets⟩

/-! ## Minimums that are met already -/

section
variable {resolve : NodeId → WindowSizeHints} {gap : Int} {n : Node} {rect : Rect}
  {out : List ProjectedLeaf}

/-- A plain layout whose leaves have their minimums is an assignment. -/
theorem allotted_of_layout (hwf : n.WellFormed) (hout : layoutInto gap n rect = .ok out)
    (hmeets : ∀ p ∈ out, violatesMinimum p.rect (resolve p.leaf) = false) :
    Allotted resolve gap n rect.extent := by
  induction n generalizing rect out with
  | leaf id =>
    rw [layoutInto, layoutWith] at hout
    obtain rfl := Except.ok.inj hout
    exact .leaf (violatesMinimum_eq_false.mp (hmeets ⟨id, rect⟩ (List.mem_singleton_self _)))
  | group id axis children shares ih =>
    obtain ⟨hgroup, hcs⟩ := Node.wellFormed_group.mp hwf
    have hne : children ≠ [] := List.ne_nil_of_length_pos (by have := hgroup.1; omega)
    rw [layoutInto, layoutWith, bind_eq_ok] at hout
    obtain ⟨sizes, hsizes, hout⟩ := hout
    obtain ⟨hcount, hsum⟩ := exhausts_splitProportional hgroup.2.1 hne hsizes
    refine .group hcount (generous_splitProportional hgroup hsizes) hsum fun i c size hc hsize => ?_
    have hmem := List.mem_of_getElem? hc
    obtain ⟨here, hsub, hhere⟩ := layoutChildren_at hout hc hsize
    rw [← Rect.extent_segment]
    exact ih c hmem (hcs c hmem) hhere fun p hp => hmeets p (hsub hp)

/-- Two projectors place children alike when they lay each of them out alike. -/
theorem layoutChildren_alike {ε₁ ε₂ : Type} {err₁ : String → ε₁} {err₂ : String → ε₂}
    {split₁ : Axis → List Node → List Nat → Int → Except ε₁ (List Int)}
    {split₂ : Axis → List Node → List Nat → Int → Except ε₂ (List Int)}
    {check₁ : Int → Except ε₁ Unit} {check₂ : Int → Except ε₂ Unit} {axis : Axis}
    {children : List Node} {sizes : List Int} {cursor : Int}
    (hcheck : ∀ size, check₂ size = .ok ())
    (halike : ∀ c ∈ children, ∀ size ∈ sizes, ∀ offset, ∀ here ⊆ out,
      layoutWith err₁ split₁ check₁ gap c (rect.segment axis offset size) = .ok here →
        layoutWith err₂ split₂ check₂ gap c (rect.segment axis offset size) = .ok here)
    (h : layoutChildren err₁ split₁ check₁ gap axis rect children sizes cursor = .ok out) :
    layoutChildren err₂ split₂ check₂ gap axis rect children sizes cursor = .ok out := by
  induction children generalizing sizes cursor out with
  | nil =>
    rw [layoutChildren] at h ⊢
    exact congrArg Except.ok (Except.ok.inj h)
  | cons child children ih =>
    cases sizes with
    | nil =>
      rw [layoutChildren] at h ⊢
      · exact congrArg Except.ok (Except.ok.inj h)
      · simp
      · simp
    | cons size sizes =>
      obtain ⟨hchild, hrest⟩ := List.forall_mem_cons.mp halike
      cases children with
      | nil =>
        obtain ⟨hsize, -, hcursor, hhere⟩ := layoutChildren_last_eq_ok.mp h
        exact layoutChildren_last_eq_ok.mpr ⟨hsize, hcheck size, hcursor,
          hchild size List.mem_cons_self cursor out (List.Subset.refl _) hhere⟩
      | cons next children =>
        obtain ⟨hsize, -, hcursor, hend, hnext, here, rest, rfl, hhere, htail⟩ :=
          layoutChildren_cons_eq_ok.mp h
        refine layoutChildren_cons_eq_ok.mpr ⟨hsize, hcheck size, hcursor, hend, hnext, here, rest, rfl,
          hchild size List.mem_cons_self cursor here (List.subset_append_left _ _) hhere, ih ?_ htail⟩
        intro c hc size hsize offset inner hinner
        exact hrest c hc size (List.mem_cons_of_mem _ hsize) offset inner
          (List.Subset.trans hinner (List.subset_append_right _ _))

/-- Where the plain layout meets every minimum it is what the hinted projector
answers too: no child is below what it needs, so at no group a unit is moved. -/
theorem layoutHinted_plain (hgap : 0 ≤ gap) (hwf : n.WellFormed)
    (hfits : ∀ a, 1 ≤ rect.extent a ∧ rect.extent a ≤ IntRange.i32.hi)
    (hout : layoutInto gap n rect = .ok out)
    (hmeets : ∀ p ∈ out, violatesMinimum p.rect (resolve p.leaf) = false) :
    layoutHinted gap resolve n rect = .ok out := by
  induction n generalizing rect out with
  | leaf id =>
    rw [layoutInto, layoutWith] at hout
    rw [layoutHinted, layoutWith]
    exact congrArg Except.ok (Except.ok.inj hout)
  | group id axis children shares ih =>
    have hallotted := allotted_of_layout hwf hout hmeets
    obtain ⟨hgroup, hcs⟩ := Node.wellFormed_group.mp hwf
    have hne : children ≠ [] := List.ne_nil_of_length_pos (by have := hgroup.1; omega)
    rw [layoutInto, layoutWith, bind_eq_ok] at hout
    obtain ⟨sizes, hsizes, hout⟩ := hout
    obtain ⟨hcount, hsum⟩ := exhausts_splitProportional hgroup.2.1 hne hsizes
    have hpos := generous_splitProportional hgroup hsizes
    have hle : ∀ size ∈ sizes, size ≤ rect.extent axis := by
      intro size hsize
      have hgaps : 0 ≤ gap * ((children.length : Int) - 1) :=
        Int.mul_nonneg hgap (by have := hgroup.1; omega)
      have hone := List.single_le_sum (fun s hs => Int.le_trans Int.one_nonneg (hpos s hs)) _ hsize
      omega
    have hsegment : ∀ (offset : Int), ∀ size ∈ sizes, ∀ a, 1 ≤ (rect.segment axis offset size).extent a ∧
        (rect.segment axis offset size).extent a ≤ IntRange.i32.hi := by
      intro offset size hsize a
      have hone := hpos size hsize
      have hbound := hle size hsize
      have haxis := hfits axis
      have ha := hfits a
      rw [Rect.extent_segment]
      dsimp only
      split <;> omega
    -- every child's floor fits its plain size
    have hfloors : ∀ (i : Nat) (c : Node) (size : Int), children[i]? = some c → sizes[i]? = some size →
        max (subtreeMin resolve gap axis c) 1 ≤ size := by
      intro i c size hc hsize
      have hmem := List.mem_of_getElem? hc
      have hsizeMem := List.mem_of_getElem? hsize
      obtain ⟨here, hsub, hhere⟩ := layoutChildren_at hout hc hsize
      have hchild := allotted_of_layout (hcs c hmem) hhere fun p hp => hmeets p (hsub hp)
      have hneed := @Allotted.need_le resolve gap axis c _ hchild fun a => (hsegment _ size hsizeMem a).1
      rw [Rect.segment_extent] at hneed
      exact max_le (Int.le_trans (subtreeMin_bounds hgap (hcs c hmem)).2 hneed) (hpos size hsizeMem)
    obtain ⟨hinted, hok, -⟩ := splitHinted_reaches hgap hwf (hfits axis).2
      (hallotted.need_le fun a => (hfits a).1)
    obtain rfl := splitHinted_plain hsizes hok hfloors
    rw [layoutHinted, layoutWith, hok]
    refine layoutChildren_alike (fun _ => rfl) ?_ hout
    intro c hc size hsize offset here hsub hhere
    exact ih c hc (hcs c hc) (hsegment offset size hsize) hhere fun p hp => hmeets p (hsub hp)

end

/-- Minimums the plain projection meets move nothing. -/
theorem projectWithHints_plain {tree : Node} {bounds : Rect} {gap : Int}
    {resolve : NodeId → WindowSizeHints} {plain : List ProjectedLeaf}
    (hplain : project tree bounds gap = .ok plain)
    (hmeets : ∀ p ∈ plain, violatesMinimum p.rect (resolve p.leaf) = false) :
    projectWithHints tree bounds gap resolve = .ok ⟨plain, []⟩ := by
  obtain ⟨hrect, hgap, ⟨hwf, -⟩, hlaid⟩ := project_eq_ok.mp hplain
  have hfits := fits_of_validRect hrect
  rw [projectWithHints_eq_ok hplain]
  exact ⟨layoutHinted_plain hgap hwf (fun a => ⟨(hfits a).1, (hfits a).2.2.1⟩) hlaid hmeets,
    (overconstrainedLeaves_eq_nil hmeets).symm⟩

/-! Where only leaves are weighed, nothing is weighed short. -/

def stackedTree : Node :=
  .group ⟨"root"⟩ .horizontal
    [.leaf ⟨"a"⟩, .group ⟨"inner"⟩ .vertical [.leaf ⟨"b"⟩, .leaf ⟨"c"⟩] [1, 1]] [1, 1]

/-- The leaf that asks for most of the width beside a stack that asks for
none. -/
theorem minimums_honoured_stacked :
    ∃ hinted, projectWithHints stackedTree ⟨0, 0, 100, 50⟩ 0 squeezedHints = .ok hinted ∧
      ProjectionWellFormed stackedTree ⟨0, 0, 100, 50⟩ 0 hinted.leaves ∧ hinted.overconstrained = [] ∧
      ∀ p ∈ hinted.leaves, violatesMinimum p.rect (squeezedHints p.leaf) = false := by
  have hplain : project stackedTree ⟨0, 0, 100, 50⟩ 0 = .ok [⟨⟨"a"⟩, ⟨0, 0, 50, 50⟩⟩,
      ⟨⟨"b"⟩, ⟨50, 0, 50, 25⟩⟩, ⟨⟨"c"⟩, ⟨50, 25, 50, 25⟩⟩] := by
    decide
  refine minimums_honoured hplain (fun axis => ?_) ?_
  · cases axis with
    | horizontal =>
      refine .inl fun id children shares hmem c hc => ?_
      obtain ⟨rfl, rfl, rfl⟩ : id = ⟨"root"⟩ ∧ children = [.leaf ⟨"a"⟩,
          .group ⟨"inner"⟩ .vertical [.leaf ⟨"b"⟩, .leaf ⟨"c"⟩] [1, 1]] ∧ shares = [1, 1] := by
        simpa [stackedTree] using hmem
      rcases List.mem_pair.mp hc with rfl | rfl <;> decide
    | vertical =>
      refine .inr fun leaf _ => ?_
      rw [squeezedHints]
      split <;> rfl
  · refine @Allotted.of_children _ _ _ _ [99, 1] _ _ _ (by decide) (by decide) (.cons (.of_all ?_)
      (.cons (@Allotted.of_children _ _ _ _ [25, 25] _ _ _ (by decide) (by decide)
        (.cons (.of_all ?_) (.cons (.of_all ?_) .nil))) .nil)) <;>
      intro axis <;> cases axis <;> decide

/-! Two ways to miss minimums that could be met. The plain projector refuses
a nested group whose share is below its gap; and a group of a hinted and an
unhinted leaf is weighed one unit short, so it gives that unit away and falls
back to its proportional sizes. -/

def narrowTree : Node :=
  .group ⟨"root"⟩ .horizontal
    [.leaf ⟨"a"⟩, .group ⟨"inner"⟩ .horizontal [.leaf ⟨"b"⟩, .leaf ⟨"c"⟩] [1, 1]] [99, 1]

def shortTree : Node :=
  .group ⟨"root"⟩ .horizontal
    [.leaf ⟨"a"⟩, .group ⟨"inner"⟩ .horizontal [.leaf ⟨"b"⟩, .leaf ⟨"c"⟩] [1, 1], .leaf ⟨"d"⟩]
    [1, 1, 1]

def shortHints (id : NodeId) : WindowSizeHints :=
  if id = ⟨"a"⟩ then { minW := some 8 } else if id = ⟨"b"⟩ then { minW := some 5 } else {}

/-- Neither the room for the minimums nor a projectable tree is enough: a
narrow tree does not project, and a group weighed short takes less than its
leaves need. -/
theorem minimums_missed :
    (¬ ∀ (tree : Node) (bounds : Rect) (gap : Int) (resolve : NodeId → WindowSizeHints),
      validRect bounds = true → 0 ≤ gap → tree.WellFormed ∧ FreshIds tree.ids ∅ →
      Allotted resolve gap tree bounds.extent →
        ∃ hinted, projectWithHints tree bounds gap resolve = .ok hinted ∧ hinted.overconstrained = [] ∧
          ∀ p ∈ hinted.leaves, violatesMinimum p.rect (resolve p.leaf) = false) ∧
      ¬ ∀ (tree : Node) (bounds : Rect) (gap : Int) (resolve : NodeId → WindowSizeHints),
        (∃ plain, project tree bounds gap = .ok plain) → Allotted resolve gap tree bounds.extent →
          ∃ hinted, projectWithHints tree bounds gap resolve = .ok hinted ∧
            hinted.overconstrained = [] ∧
            ∀ p ∈ hinted.leaves, violatesMinimum p.rect (resolve p.leaf) = false := by
  constructor
  · intro hall
    have hallotted : Allotted (fun _ => {}) 8 narrowTree (Rect.extent ⟨0, 0, 100, 50⟩) := by
      refine @Allotted.of_children _ _ _ _ [50, 42] _ _ _ (by decide) (by decide) (.cons (.of_all ?_)
        (.cons (@Allotted.of_children _ _ _ _ [17, 17] _ _ _ (by decide) (by decide)
          (.cons (.of_all ?_) (.cons (.of_all ?_) .nil))) .nil)) <;>
        intro axis <;> cases axis <;> decide
    have hwf : narrowTree.WellFormed ∧ FreshIds narrowTree.ids ∅ :=
      ⟨by simp [narrowTree, u64Size], by simp [narrowTree, FreshIds]; decide⟩
    obtain ⟨hinted, hok, -⟩ := hall narrowTree ⟨0, 0, 100, 50⟩ 8 (fun _ => {}) (by decide) (by decide)
      hwf hallotted
    have herror : (projectWithHints narrowTree ⟨0, 0, 100, 50⟩ 8 (fun _ => {})).toOption = none := by
      decide
    rw [hok] at herror
    cases herror
  · intro hall
    have hplain : project shortTree ⟨0, 0, 18, 50⟩ 0 = .ok [⟨⟨"a"⟩, ⟨0, 0, 6, 50⟩⟩,
        ⟨⟨"b"⟩, ⟨6, 0, 3, 50⟩⟩, ⟨⟨"c"⟩, ⟨9, 0, 3, 50⟩⟩, ⟨⟨"d"⟩, ⟨12, 0, 6, 50⟩⟩] := by
      decide
    have hallotted : Allotted shortHints 0 shortTree (Rect.extent ⟨0, 0, 18, 50⟩) := by
      refine @Allotted.of_children _ _ _ _ [8, 6, 4] _ _ _ (by decide) (by decide) (.cons (.of_all ?_)
        (.cons (@Allotted.of_children _ _ _ _ [5, 1] _ _ _ (by decide) (by decide)
          (.cons (.of_all ?_) (.cons (.of_all ?_) .nil))) (.cons (.of_all ?_) .nil))) <;>
        intro axis <;> cases axis <;> decide
    obtain ⟨hinted, hok, hnone, -⟩ := hall shortTree ⟨0, 0, 18, 50⟩ 0 shortHints ⟨_, hplain⟩ hallotted
    have hover : (projectWithHints shortTree ⟨0, 0, 18, 50⟩ 0 shortHints).toOption.map
        HintedProjection.overconstrained = some [⟨"b"⟩] := by
      decide
    rw [hok] at hover
    rw [show (Except.toOption (.ok hinted : Except HintProjectionError _)).map
      HintedProjection.overconstrained = some hinted.overconstrained from rfl, hnone] at hover
    cases hover

end PlasmaTiler
