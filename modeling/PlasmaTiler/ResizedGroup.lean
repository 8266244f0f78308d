import PlasmaTiler.GroupLayouts
import PlasmaTiler.PixelExact

/-!
# A resized group in its projection

The resize reads child extents off the accepted geometry and hands the
projector a tree with one group's shares replaced. To know where the boundary
ends up, the group has to be found again in both projections.

When the accepted geometry is the plain projection, the extents read are the
projector's own sizes of that group (`Plain`): the code takes the bounding
box of the leaves below a child, and a tiled layout touches every side of
what it was handed. Whatever the geometry is, the plain projection hands the
group a rectangle (`Placed`). After the resize the group is handed the same
rectangle, with the same children, under its new shares (`Resized`), since
what a subtree is handed depends on nothing inside it.
-/

namespace PlasmaTiler

/-! ## The leaves below a node -/

section
variable {tree n m : Node} {target : NodeId} {ctx : Context} {children : List Node}

theorem pointerLeavesOf_eq_nil (h : ∀ c ∈ children, target ∉ c.ids) :
    pointerLeavesOf target children = [] := by
  induction children with
  | nil => rfl
  | cons c cs ih =>
    obtain ⟨hc, hcs⟩ := List.forall_mem_cons.mp h
    rw [pointerLeavesOf, if_neg (mt subtreeContainsId_iff.mp hc), ih hcs, List.append_nil]

theorem pointerLeavesOf_append {after : List Node} (hbefore : ∀ c ∈ children, target ∉ c.ids)
    (hafter : ∀ c ∈ after, target ∉ c.ids) (hm : target ∈ m.ids) :
    pointerLeavesOf target (children ++ m :: after) = pointerLeaves target m := by
  induction children with
  | nil =>
    rw [List.nil_append, pointerLeavesOf, if_pos (subtreeContainsId_iff.mpr hm),
      pointerLeavesOf_eq_nil hafter, List.append_nil]
  | cons c cs ih =>
    obtain ⟨hc, hcs⟩ := List.forall_mem_cons.mp hbefore
    rw [List.cons_append, pointerLeavesOf, if_neg (mt subtreeContainsId_iff.mp hc), ih hcs,
      List.nil_append]

/-- With distinct ids an id inside the hole is nowhere else. -/
theorem Context.apart_of_nodup {f : Frame} (hnodup : (Context.fill (f :: ctx) m).ids.Nodup)
    (hm : target ∈ (ctx.fill m).ids) :
    f.id ≠ target ∧ (∀ c ∈ f.before, target ∉ c.ids) ∧ (∀ c ∈ f.after, target ∉ c.ids) ∧
      (ctx.fill m).ids.Nodup := by
  rw [Context.fill_cons, Frame.fill, Node.ids_group, List.flatMap_append, List.flatMap_cons,
    List.nodup_cons, List.nodup_append] at hnodup
  obtain ⟨hid, -, hrest, hdisj⟩ := hnodup
  obtain ⟨hfill, -, hapart⟩ := List.nodup_append.mp hrest
  refine ⟨?_, fun c hc hin => ?_, fun c hc hin => ?_, hfill⟩
  · rintro rfl
    exact hid (List.mem_append_right _ (List.mem_append_left _ hm))
  · exact hdisj _ (List.mem_flatMap.mpr ⟨c, hc, hin⟩) _ (List.mem_append_left _ hm) rfl
  · exact hapart _ hm _ (List.mem_flatMap.mpr ⟨c, hc, hin⟩) rfl

/-- The leaves collected for a subtree's id are the subtree's. -/
theorem pointerLeaves_of_mem (hnodup : tree.ids.Nodup) (hm : m ∈ tree.nodes) :
    pointerLeaves m.id tree = m.leaves := by
  obtain ⟨ctx, rfl⟩ := Node.mem_nodes_iff.mp hm
  clear hm
  induction ctx with
  | nil =>
    rw [Context.fill_nil]
    cases m with
    | leaf id => rw [pointerLeaves, Node.id_leaf, if_pos rfl, Node.leaves_leaf]
    | group id axis cs shares => rw [pointerLeaves, Node.id_group, if_pos rfl]
  | cons f ctx ih =>
    have hin : m.id ∈ (Context.fill ctx m).ids := by
      rw [Context.ids_fill]
      exact List.mem_append_left _ (List.mem_append_right _ m.id_mem_ids)
    obtain ⟨hid, hbefore, hafter, hfill⟩ := Context.apart_of_nodup hnodup hin
    rw [Context.fill_cons, Frame.fill, pointerLeaves, if_neg hid,
      pointerLeavesOf_append hbefore hafter hin, ih hfill]

end

/-! ## Extents read off the geometry -/

/-- The geometry has, for each leaf of a projection, that leaf's rectangle; of
other windows it may say what it likes. -/
def Displays (geometry : List DesiredGeometry) (out : List ProjectedLeaf) : Prop :=
  ∀ p ∈ out, ∃ entry, geometry.find? (·.leaf == p.leaf) = some entry ∧ entry.rect = p.rect

theorem mapM_eq_some_map {α β γ : Type} {f : α → Option β} {g : γ → β} {key : γ → α} {l : List γ}
    (h : ∀ a ∈ l, f (key a) = some (g a)) : (l.map key).mapM f = some (l.map g) := by
  induction l with
  | nil => rfl
  | cons a l ih =>
    obtain ⟨ha, hl⟩ := List.forall_mem_cons.mp h
    rw [List.map_cons, List.mapM_cons, ha, ih hl]
    rfl

/-- Sizes read one by one, each checked to be positive, are the sizes read. -/
theorem mapM_of_mapM_require {α : Type} {f : α → Option Int} {l : List α} {sizes : List Int}
    (h : (l.mapM fun a => do
      let size ← f a
      require (decide (0 < size))
      return size) = some sizes) : l.mapM f = some sizes ∧ sizes.length = l.length := by
  induction l generalizing sizes with
  | nil =>
    cases h
    exact ⟨rfl, rfl⟩
  | cons a l ih =>
    rw [List.mapM_cons] at h
    obtain ⟨size, hsize, h⟩ := Option.bind_eq_some_iff.mp h
    obtain ⟨read, hread, hchecked⟩ := Option.bind_eq_some_iff.mp hsize
    obtain ⟨-, -, hchecked⟩ := Option.bind_eq_some_iff.mp hchecked
    cases hchecked
    obtain ⟨rest, hrest, h⟩ := Option.bind_eq_some_iff.mp h
    cases h
    obtain ⟨hmap, hlength⟩ := ih hrest
    rw [List.mapM_cons, hread, hmap]
    exact ⟨rfl, congrArg (· + 1) hlength⟩

section
variable {gap : Int} {tree m : Node} {bounds r rect : Rect} {out : List ProjectedLeaf}
  {geometry : List DesiredGeometry} {axis : Axis} {id : NodeId} {cs : List Node} {shares : List Nat}

theorem Handed.childExtent (h : Handed gap tree bounds m r)
    (hout : project tree bounds gap = .ok out) (hnodup : tree.ids.Nodup)
    (hgeometry : Displays geometry out) :
    pointerChildExtent tree m.id axis geometry = some (r.extent axis) := by
  obtain ⟨here, hhere⟩ := h.layout hout
  have hmin := hhere.touches.min_start hhere.layout.contained axis
  have hmax := hhere.touches.max_end hhere.layout.contained axis
  have hspans : (here.map ProjectedLeaf.leaf).mapM (fun leaf => do
      let entry ← geometry.find? (·.leaf == leaf)
      require (decide (0 < entry.rect.w) && decide (0 < entry.rect.h))
      return entry.rect.along axis) = some (here.map fun p => p.rect.along axis) := by
    refine mapM_eq_some_map fun p hp => ?_
    obtain ⟨entry, hentry, hrect⟩ := hgeometry p (hhere.subset hp)
    obtain ⟨hw, hh⟩ := hhere.layout.positive p hp
    have hguard : (decide (0 < p.rect.w) && decide (0 < p.rect.h)) = true := by
      rw [Bool.and_eq_true, decide_eq_true_eq, decide_eq_true_eq]
      omega
    rw [hentry]
    simp only [Option.bind_eq_bind, Option.bind_some, hrect, hguard]
    rfl
  rw [pointerChildExtent, pointerLeaves_of_mem hnodup h.mem, ← hhere.layout.leaves]
  simp only [Option.bind_eq_bind] at hspans ⊢
  rw [hspans, Option.bind_some, List.map_map, List.map_map]
  have hstart : (Prod.fst ∘ fun p : ProjectedLeaf => p.rect.along axis) =
      fun p => p.rect.start axis := funext fun p => start_eq_along.symm
  have hend : ((fun span : Int × Int => span.1 + span.2) ∘ fun p : ProjectedLeaf =>
      p.rect.along axis) = fun p => p.rect.start axis + p.rect.extent axis := by
    funext p
    rw [start_eq_along, extent_eq_along]
    rfl
  rw [hstart, hend, hmin, hmax]
  simp only [Option.bind_some, Option.pure_def]
  congr 1
  omega

theorem Handed.groupOrigin (h : Handed gap tree bounds m r)
    (hout : project tree bounds gap = .ok out) (hnodup : tree.ids.Nodup)
    (hgeometry : Displays geometry out) :
    pointerGroupOrigin tree m.id axis geometry = some (r.start axis) := by
  obtain ⟨here, hhere⟩ := h.layout hout
  have hmin := hhere.touches.min_start hhere.layout.contained axis
  have horigins : (here.map ProjectedLeaf.leaf).mapM (fun leaf => do
      let entry ← geometry.find? (·.leaf == leaf)
      return (entry.rect.along axis).1) = some (here.map fun p => p.rect.start axis) := by
    refine mapM_eq_some_map fun p hp => ?_
    obtain ⟨entry, hentry, hrect⟩ := hgeometry p (hhere.subset hp)
    rw [hentry, start_eq_along, ← hrect]
    rfl
  rw [pointerGroupOrigin, pointerLeaves_of_mem hnodup h.mem, ← hhere.layout.leaves]
  simp only [Option.bind_eq_bind] at horigins ⊢
  rw [horigins, Option.bind_some, hmin]

/-- The child sizes read at a group are the projector's. Each child is handed
its segment, and the geometry shows its leaves there. -/
theorem Handed.childSizes (h : Handed gap tree bounds (.group id axis cs shares) rect)
    (hout : project tree bounds gap = .ok out) (hnodup : tree.ids.Nodup)
    (hgeometry : Displays geometry out) :
    ((cs.map Node.id).mapM fun child => do
      let size ← pointerChildExtent tree child axis geometry
      require (decide (0 < size))
      return size) = some (groupSizes gap cs shares (rect.extent axis)) := by
  have hfilled := h.filled hout
  have hroom := h.room (project_eq_ok.mp hout).2.2.2
  have hsizes : ∀ (before rest : List Node) (sizes : List Int), cs = before ++ rest →
      sizes = (groupSizes gap cs shares (rect.extent axis)).drop before.length →
      ((rest.map Node.id).mapM fun child => do
        let size ← pointerChildExtent tree child axis geometry
        require (decide (0 < size))
        return size) = some sizes := by
    intro before rest
    induction rest generalizing before with
    | nil =>
      rintro sizes hcs rfl
      rw [List.drop_of_length_le (by rw [hfilled.count, hcs]; simp)]
      rfl
    | cons c rest ih =>
      rintro sizes hcs rfl
      have hlt : before.length < (groupSizes gap cs shares (rect.extent axis)).length := by
        rw [hfilled.count, hcs, List.length_append, List.length_cons]
        omega
      have hchild : cs[before.length]? = some c := by
        rw [hcs, List.getElem?_append_right (Nat.le_refl _), Nat.sub_self]
        rfl
      have hextent := @Handed.childExtent _ _ _ _ _ _ _ axis
        (Handed.child h hroom hchild (List.getElem?_eq_getElem hlt)) hout hnodup hgeometry
      rw [Rect.segment_extent] at hextent
      have hpos := hfilled.positive _ (List.getElem_mem hlt)
      have hrest := ih (before ++ [c]) _ (by simp [hcs]) rfl
      simp only [Option.bind_eq_bind] at hrest ⊢
      rw [List.drop_eq_getElem_cons hlt, List.map_cons, List.mapM_cons]
      simp only [Option.bind_eq_bind, hextent, Option.bind_some]
      rw [hrest, decide_eq_true (by omega : 0 < (groupSizes gap cs shares
        (rect.extent axis))[before.length]), List.length_append, List.length_singleton]
      rfl
  exact hsizes [] cs _ rfl rfl

end

/-! ## The tree with new shares -/

section
variable {gap : Int} {tree m : Node} {bounds r rect : Rect} {id : NodeId} {axis : Axis}
  {cs : List Node} {old new : List Nat} {ctx : Context}

/-- What a subtree is handed depends on nothing inside it. -/
theorem Handed.refill (h : Handed gap tree bounds m r) :
    ∃ ctx : Context, tree = ctx.fill m ∧ ∀ m', Handed gap (ctx.fill m') bounds m' r := by
  induction h with
  | root => exact ⟨[], rfl, fun m' => .root⟩
  | @child id axis children shares rect i c size hgroup hroom hchild hsize ih =>
    obtain ⟨ctx, htree, hfill⟩ := ih
    obtain ⟨hi, rfl⟩ := List.getElem?_eq_some_iff.mp hchild
    have hcut : children = children.take i ++ children[i] :: children.drop (i + 1) := by
      rw [← List.drop_eq_getElem_cons hi, List.take_append_drop]
    refine ⟨ctx ++ [⟨id, axis, children.take i, children.drop (i + 1), shares⟩], ?_, fun m' => ?_⟩
    · rw [Context.fill_concat, Frame.fill, ← hcut]
      exact htree
    · rw [Context.fill_concat, Frame.fill]
      -- the sizes depend on the children's number only
      have hlength : (children.take i ++ m' :: children.drop (i + 1)).length = children.length := by
        simp
        omega
      have hsizes : groupSizes gap (children.take i ++ m' :: children.drop (i + 1)) shares =
          groupSizes gap children shares := by
        funext extent
        rw [groupSizes, groupSizes, hlength]
      have hthere := @Handed.child gap _ bounds id axis _ shares rect i m' size (hfill _)
        (by rw [neededExtent, hlength]; exact hroom) (by simp [Nat.min_eq_left (Nat.le_of_lt hi)])
        (by rw [hsizes]; exact hsize)
      rw [hsizes] at hthere
      exact hthere

theorem applyResizeSharesIn_fresh {group : NodeId} (h : ∀ c ∈ cs, group ∉ c.ids) :
    applyResizeSharesIn group new cs = some (cs, 0) := by
  have hnode : ∀ {n : Node}, group ∉ n.ids → applyResizeSharesChecked group new n = some (n, 0) := by
    intro n hn
    induction n with
    | leaf i => rfl
    | group i axis ds shares ih =>
      rw [Node.ids_group, List.mem_cons, not_or] at hn
      have hds : applyResizeSharesIn group new ds = some (ds, 0) := by
        have hfresh : ∀ c ∈ ds, group ∉ c.ids := fun c hc hin =>
          hn.2 (List.mem_flatMap.mpr ⟨c, hc, hin⟩)
        clear hn
        induction ds with
        | nil => rfl
        | cons d ds ihd =>
          obtain ⟨hd, hds⟩ := List.forall_mem_cons.mp hfresh
          rw [applyResizeSharesIn, ih d List.mem_cons_self hd,
            ihd (fun c hc => ih c (List.mem_cons_of_mem _ hc)) hds]
          rfl
      rw [applyResizeSharesChecked, hds]
      simp only [Option.bind_eq_bind, Option.bind_some]
      rw [if_neg (Ne.symm hn.1)]
      rfl
  induction cs with
  | nil => rfl
  | cons c cs ih =>
    obtain ⟨hc, hcs⟩ := List.forall_mem_cons.mp h
    rw [applyResizeSharesIn, hnode hc, ih hcs]
    rfl

theorem applyResizeSharesIn_at {group : NodeId} {after : List Node} {m' : Node}
    (hbefore : ∀ c ∈ cs, group ∉ c.ids) (hafter : ∀ c ∈ after, group ∉ c.ids)
    (hm : applyResizeSharesChecked group new m = some (m', 1)) :
    applyResizeSharesIn group new (cs ++ m :: after) = some (cs ++ m' :: after, 1) := by
  induction cs with
  | nil =>
    rw [List.nil_append, applyResizeSharesIn, hm, applyResizeSharesIn_fresh hafter]
    rfl
  | cons c cs ih =>
    obtain ⟨hc, hcs⟩ := List.forall_mem_cons.mp hbefore
    have hfresh : applyResizeSharesIn group new [c] = some ([c], 0) :=
      applyResizeSharesIn_fresh (by simpa using hc)
    rw [applyResizeSharesIn, applyResizeSharesIn] at hfresh
    simp only [Option.bind_eq_bind, Option.bind_eq_some_iff] at hfresh
    obtain ⟨⟨c', k⟩, hhere, _, hnil, hfresh⟩ := hfresh
    cases hnil
    cases hfresh
    rw [List.cons_append, applyResizeSharesIn, hhere, ih hcs]
    rfl

/-- Applying shares to a group of a valid tree replaces exactly these. -/
theorem applyResizeShares_fill (hok : TreeOk (ctx.fill (.group id axis cs old)))
    (hlength : new.length = old.length) (hpos : 0 ∉ new) (htotal : new.sum < u64Size) :
    applyResizeShares (ctx.fill (.group id axis cs old)) id new =
      some (ctx.fill (.group id axis cs new)) := by
  have hnodup := hok.nodup
  obtain ⟨-, ⟨htwo, hold, -⟩, -⟩ :=
    (Context.wellFormed_fill.mp hok.wellFormed).imp_right Node.wellFormed_group.mp
  have hmem : id ∈ (ctx.fill (.group id axis cs old)).ids := by
    rw [Context.ids_fill, Node.ids_group]
    simp
  have hchecked : applyResizeSharesChecked id new (ctx.fill (.group id axis cs old)) =
      some (ctx.fill (.group id axis cs new), 1) := by
    clear hok hmem
    induction ctx with
    | nil =>
      rw [Context.fill_nil, Node.ids_group, List.nodup_cons] at hnodup
      have hfresh : ∀ c ∈ cs, id ∉ c.ids := fun c hc hin =>
        hnodup.1 (List.mem_flatMap.mpr ⟨c, hc, hin⟩)
      rw [Context.fill_nil, Context.fill_nil, applyResizeSharesChecked, applyResizeSharesIn_fresh hfresh]
      simp only [Option.bind_eq_bind, Option.bind_some, if_true, hlength, hold, beq_self_eq_true,
        Bool.and_self]
      rfl
    | cons f ctx ih =>
      have hin : id ∈ (Context.fill ctx (.group id axis cs old)).ids := by
        rw [Context.ids_fill, Node.ids_group]
        simp
      obtain ⟨hid, hbefore, hafter, hfill⟩ := Context.apart_of_nodup hnodup hin
      rw [Context.fill_cons, Context.fill_cons, Frame.fill, Frame.fill, applyResizeSharesChecked,
        applyResizeSharesIn_at hbefore hafter (ih hfill)]
      simp only [Option.bind_eq_bind, Option.bind_some]
      rw [if_neg hid]
      rfl
  have hguard : (!id.isEmpty && decide (2 ≤ new.length) && !new.contains 0) = true := by
    simp [hok.nonempty id hmem, hpos]
    omega
  have hsum : checkedTotal new = some new.sum := checkedTotal_eq_some.mpr ⟨rfl, htotal⟩
  rw [applyResizeShares, hguard, hsum, validateNodeShares_iff.mpr hok, hchecked]
  rfl

/-- A group before and after its shares were replaced: the same children and
the same rectangle. -/
structure Resized (gap : Int) (tree next : Node) (bounds : Rect) (id : NodeId) (axis : Axis)
    (cs : List Node) (old new : List Nat) (rect : Rect) : Prop where
  before : Handed gap tree bounds (.group id axis cs old) rect
  applied : applyResizeShares tree id new = some next
  after : Handed gap next bounds (.group id axis cs new) rect

theorem Handed.resized (h : Handed gap tree bounds (.group id axis cs old) rect) (hok : TreeOk tree)
    (hlength : new.length = old.length) (hpos : 0 ∉ new) (htotal : new.sum < u64Size) :
    ∃ next, Resized gap tree next bounds id axis cs old new rect := by
  obtain ⟨ctx, rfl, hfill⟩ := h.refill
  exact ⟨_, h, applyResizeShares_fill hok hlength hpos htotal, hfill _⟩

end

/-! ## A pair in a plain projection -/

namespace ResizePair

section
variable {tree : Node} {bounds : Rect} {gap : Int} {out : List ProjectedLeaf}
  {geometry : List DesiredGeometry} {direction : Direction} {level : PointerLevel} {p : ResizePair}
  {cs : List Node} {rect : Rect} {left : Int} {newShares : List Nat}

/-- The sizes a resize reads of its pair are those the projector computes for
the group from its shares, as they are where no hint has moved a boundary. -/
structure Plain (p : ResizePair) (gap : Int) (tree : Node) (bounds : Rect) (axis : Axis)
    (cs : List Node) (rect : Rect) : Prop where
  handed : Handed gap tree bounds (.group p.level.groupId axis cs p.level.shares) rect
  sizes : p.sizes = groupSizes gap cs p.level.shares (rect.extent axis)
  spare : 0 ≤ groupDistributable gap cs (rect.extent axis)
  distributable : p.distributable = groupDistributable gap cs (rect.extent axis)

/-- On a plain projection every level can be read: it has no pair, or one with
the projector's sizes. -/
theorem exists_resizePairAt (hout : project tree bounds gap = .ok out)
    (hgeometry : Displays geometry out) (hshows : level.Shows tree) :
    ∃ found, resizePairAt tree geometry direction level = some found ∧ ∀ p, found = some p →
      ∃ cs rect, p.Plain gap tree bounds (Axis.forDirection direction) cs rect := by
  obtain ⟨cs, hgroup, hchildren, hindex⟩ := hshows
  obtain ⟨hrect, hgap, ⟨hwf, -⟩, hlaid⟩ := project_eq_ok.mp hout
  obtain ⟨rect, hhanded⟩ := Handed.of_mem hwf hgap (fits_of_validRect hrect) hlaid hgroup
  obtain ⟨⟨htwo, hshares, hpos, -⟩, -⟩ :=
    Node.wellFormed_group.mp (hhanded.fits hwf hgap (fits_of_validRect hrect)).1
  unfold resizePairAt
  split
  · exact ⟨none, rfl, nofun⟩
  rename_i haxis
  rw [not_not] at haxis
  split
  · exact ⟨none, rfl, nofun⟩
  split
  · exact ⟨none, rfl, nofun⟩
  have hguard : (level.shares.length == level.children.length &&
      decide (level.childIndex < level.shares.length) && !level.shares.contains 0) = true := by
    have hzero : 0 ∉ level.shares := fun hmem => absurd (hpos 0 hmem) (by omega)
    simp [hchildren, hshares, hindex, hzero]
  rw [haxis] at hhanded
  have hread := hhanded.childSizes hout (treeOk_of_project hout).nodup hgeometry
  have hroom := hhanded.room hlaid
  rw [neededExtent] at hroom
  rw [hguard, hchildren, hread]
  refine ⟨_, rfl, ?_⟩
  rintro p ⟨⟩
  refine ⟨cs, rect, hhanded, rfl, by rw [groupDistributable]; omega, ?_⟩
  have hne : level.shares ≠ [] := List.ne_nil_of_length_pos (by omega)
  have hcount := (hhanded.filled hout).count
  rw [ResizePair.distributable, sum_groupSizes hne, hcount]
  rfl

/-- The pair's sizes are read off any accepted geometry; the plain projection
hands its group a rectangle all the same. -/
structure Placed (p : ResizePair) (gap : Int) (tree : Node) (bounds : Rect) (axis : Axis)
    (geometry : List DesiredGeometry) (cs : List Node) (rect : Rect) : Prop where
  handed : Handed gap tree bounds (.group p.level.groupId axis cs p.level.shares) rect
  spare : 0 ≤ groupDistributable gap cs (rect.extent axis)
  read : ((cs.map Node.id).mapM fun child => pointerChildExtent tree child axis geometry) =
    some p.sizes
  count : p.sizes.length = p.level.shares.length

/-- The pair found at a level, whatever the accepted geometry is. -/
theorem placed_of_resizePairAt (hout : project tree bounds gap = .ok out)
    (hshows : level.Shows tree)
    (h : resizePairAt tree geometry direction level = some (some p)) :
    p.Found direction ∧
      ∃ cs rect, p.Placed gap tree bounds (Axis.forDirection direction) geometry cs rect := by
  obtain ⟨-, hfound⟩ := found_of_resizePairAt h
  obtain ⟨cs, hgroup, hchildren, -⟩ := hshows
  obtain ⟨hrect, hgap, ⟨hwf, -⟩, hlaid⟩ := project_eq_ok.mp hout
  obtain ⟨rect, hhanded⟩ := Handed.of_mem hwf hgap (fits_of_validRect hrect) hlaid hgroup
  have hroom := hhanded.room hlaid
  rw [neededExtent] at hroom
  unfold resizePairAt at h
  split at h
  · cases h
  rename_i haxis
  rw [not_not] at haxis
  split at h
  · cases h
  split at h
  · cases h
  simp only [Option.bind_eq_bind, Option.bind_eq_some_iff] at h
  obtain ⟨-, -, sizes, hsizes, h⟩ := h
  cases h
  obtain ⟨hread, hcount⟩ := mapM_of_mapM_require hsizes
  rw [haxis] at hhanded hroom
  rw [hchildren] at hread
  exact ⟨hfound, cs, rect, hhanded, by rw [groupDistributable]; omega, hread,
    hcount.trans hfound.children.symm⟩

/-- The projected sizes under the shares derived for a left size. -/
theorem Plain.resplit (h : p.Plain gap tree bounds (Axis.forDirection direction) cs rect)
    (hfound : p.Found direction) (hshares : p.sharesFor left = some (some newShares)) :
    ∃ scale, MovedPair p.level.shares newShares p.lo scale ∧
      Resplit p.sizes (groupSizes gap cs newShares (rect.extent (Axis.forDirection direction)))
        p.lo left := by
  obtain ⟨scale, hmoved, hexact⟩ := pixelSharesForClamped_exact (sharesFor_eq_some hfound hshares)
    hfound.inside hfound.shares_pos
  have hresplit := hmoved.resplit h.spare
  rw [← h.sizes, ← h.distributable, hexact] at hresplit
  exact ⟨scale, hmoved, hresplit⟩

end

end ResizePair

end PlasmaTiler
