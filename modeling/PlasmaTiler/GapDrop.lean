import PlasmaTiler.Drops
import PlasmaTiler.Agreement
import PlasmaTiler.GroupLayouts
import PlasmaTiler.Removal

/-!
# Drops into a gap

A drop between two children of a group aims past the first of them. Its slot
is read off the tree with the dragged leaf still in it and used in the tree
without it: when the leaf was a child of that group before the gap, every
slot after it has moved one to the left, and the drop lands past the second
child instead. The edge placements do correct for that; the interior one does
not.

Whether the leaf lands between the two children is stated on what the lift
left of them (`Between`), since a neighbour may be a group that has lost a
leaf or collapsed. The point is related to the gap by the layout of the group
(`InGap`, `insertionIndexForOffset_gap`), and the slots before and after the
lift by `Survives`. `between_iff` is the condition: the drop lands in the gap
exactly when the leaf was not a child of the group before it.

`drop_into_gap` carries it through the resolver to every accepted drop into a
gap, with the order of the other leaves kept in any case.
-/

namespace PlasmaTiler

/-! ## What an interior drop resolves to -/

/-- The descent goes on in a child that contains the point. -/
theorem deepestOf_some {contains : Node → Bool} {children : List Node} {m : Node}
    (h : deepestOf contains children = some m) :
    ∃ c ∈ children, contains c = true ∧ deepestContaining contains c = m := by
  induction children with
  | nil =>
    rw [deepestOf] at h
    cases h
  | cons c children ih =>
    rw [deepestOf] at h
    split at h
    · rename_i hcontains
      exact ⟨c, List.mem_cons_self, hcontains, Option.some.inj h⟩
    · obtain ⟨d, hd, hrest⟩ := ih h
      exact ⟨d, List.mem_cons_of_mem _ hd, hrest⟩

theorem deepestContaining_mem {contains : Node → Bool} {n : Node} :
    deepestContaining contains n ∈ n.nodes := by
  induction n with
  | leaf id => simp [deepestContaining]
  | group id axis children shares ih =>
    rw [deepestContaining, Node.nodes_group]
    cases hdeep : deepestOf contains children with
    | none => exact List.mem_cons_self
    | some m =>
      obtain ⟨c, hc, -, rfl⟩ := deepestOf_some hdeep
      rw [Option.getD_some]
      exact List.mem_cons_of_mem _ (List.mem_flatMap_of_mem hc (ih c hc))

theorem deepestAt_mem {tree : Node} {projected : List ProjectedLeaf} {x y : Int} :
    deepestAt tree projected x y ∈ tree.nodes := deepestContaining_mem

/-- A coordinate of a point along an axis. -/
def along (axis : Axis) (x y : Int) : Int := match axis with | .horizontal => x | .vertical => y

section
variable {tree : Node} {windows : Links} {exceptions : Exceptions} {capture : DragState}
  {layout : GroupLayout} {resolved : SharedDragResolved} {x y : Int}

theorem resolveGroup_target
    (h : resolveGroup tree windows exceptions capture layout x y = .ok resolved) :
    resolved.targetLeaf = layout.id := by
  simp only [resolveGroup, bind_eq_ok, okOr_eq_ok] at h
  obtain ⟨rep, -, _, -, h⟩ := h
  split at h
  · simp only [bind_eq_ok, okOr_eq_ok, pure_eq_ok] at h
    obtain ⟨axis, -, before, -, placement, -, rfl⟩ := h
    rfl
  · simp only [bind_eq_ok, okOr_eq_ok, pure_eq_ok] at h
    obtain ⟨placement, -, axis, -, before, -, rfl⟩ := h
    rfl

/-- A group target without a group edge is its interior. -/
theorem resolveGroup_interior
    (h : resolveGroup tree windows exceptions capture layout x y = .ok resolved)
    (hprior : resolved.nextPrior = none) :
    applyGroupInteriorPlacement tree capture.sourceLeaf layout.id
      (insertionIndexForOffset layout.childStarts (along layout.axis x y)) =
        some resolved.placement := by
  simp only [resolveGroup, bind_eq_ok, okOr_eq_ok] at h
  obtain ⟨rep, -, _, -, h⟩ := h
  split at h
  · simp only [bind_eq_ok, okOr_eq_ok, pure_eq_ok] at h
    obtain ⟨axis, -, before, -, placement, -, rfl⟩ := h
    cases hprior
  · simp only [bind_eq_ok, okOr_eq_ok, pure_eq_ok] at h
    obtain ⟨placement, hplacement, axis, -, before, -, rfl⟩ := h
    exact hplacement

theorem resolveLeaf_target {leafRects : BTreeMap NodeId Rect} {id : NodeId}
    (h : resolveLeaf tree windows exceptions capture leafRects id x y = .ok resolved) :
    resolved.targetLeaf = id := by
  simp only [resolveLeaf, bind_eq_ok, ensure_eq_ok, okOr_eq_ok, pure_eq_ok] at h
  obtain ⟨_, -, rect, -, side, -, _, -, targetWindow, -, _, -, axis, -, before, -, placement, -,
    rfl⟩ := h
  rfl

/-- A drop inside a group goes by the layout of that group. -/
theorem resolveDragShared_interior {domain : OutputDomain} {gid : NodeId} {axis : Axis}
    {children : List Node} {shares : List Nat} (hnodup : tree.ids.Nodup)
    (h : resolveDragShared tree domain windows exceptions capture x y = .ok resolved)
    (hgroup : .group gid axis children shares ∈ tree.nodes) (htarget : resolved.targetLeaf = gid)
    (hprior : resolved.nextPrior = none) :
    ∃ out, project tree domain.bounds domain.gap = .ok out ∧
      ∀ layout, groupLayout (leafRectsOf out) (.group gid axis children shares) = some layout →
        applyGroupInteriorPlacement tree capture.sourceLeaf gid
          (insertionIndexForOffset layout.childStarts (along layout.axis x y)) =
            some resolved.placement := by
  simp only [resolveDragShared, bind_eq_ok, mapError_eq_ok] at h
  obtain ⟨_, -, out, hout, h⟩ := h
  refine ⟨out, hout, fun layout hlayout => ?_⟩
  have hget := layoutsOf_get hnodup hgroup hlayout
  rw [Node.id_group] at hget
  split at h
  · rename_i id axis' children' shares' hdeep
    simp only [bind_eq_ok, okOr_eq_ok] at h
    obtain ⟨found, hfound, h⟩ := h
    have hid : found.id = gid := (resolveGroup_target h).symm.trans htarget
    -- the group descended to is the target
    obtain rfl : id = gid := (layoutsOf_id hfound).symm.trans hid
    obtain rfl := Option.some.inj (hget.symm.trans hfound)
    rw [← hid]
    exact resolveGroup_interior h hprior
  · rename_i id hdeep
    have hmem : Node.leaf id ∈ tree.nodes := hdeep ▸ deepestAt_mem
    obtain rfl := (resolveLeaf_target h).symm.trans htarget
    exact absurd (Node.eq_of_id_eq hnodup hmem hgroup rfl) (by simp)

end

/-! ## The slot of a gap -/

/-- The offset lies in the gap after child `i` of a group: behind the end of
that child, and before the start of the next one. -/
def InGap (gap : Int) (axis : Axis) (children : List Node) (shares : List Nat) (rect : Rect)
    (i : Nat) (offset : Int) : Prop :=
  ∃ size, (groupSizes gap children shares (rect.extent axis))[i]? = some size ∧
    childStart gap axis children shares rect i + size ≤ offset ∧
    offset < childStart gap axis children shares rect (i + 1)

section
variable {gap offset : Int} {axis : Axis} {children : List Node} {shares : List Nat} {rect : Rect}
  {i j : Nat}

theorem childStart_succ {size : Int}
    (hsize : (groupSizes gap children shares (rect.extent axis))[i]? = some size) :
    childStart gap axis children shares rect (i + 1) =
      childStart gap axis children shares rect i + size + gap := by
  obtain ⟨hi, rfl⟩ := List.getElem?_eq_some_iff.mp hsize
  have htake := List.sum_take_succ (groupSizes gap children shares (rect.extent axis)) i hi
  rw [childStart, childStart, htake]
  push_cast
  ring

/-- Children start one after another. -/
theorem childStart_mono (h : Filled gap axis children shares rect) (hgap : 0 ≤ gap) (hij : i ≤ j)
    (hj : j < children.length) :
    childStart gap axis children shares rect i ≤ childStart gap axis children shares rect j := by
  induction j, hij using Nat.le_induction with
  | base => exact Int.le_refl _
  | succ j hij ih =>
    have hsize := List.getElem?_eq_getElem (h.count ▸ Nat.lt_of_succ_lt hj)
    have hpos := h.positive _ (List.mem_of_getElem? hsize)
    have hstep := childStart_succ hsize
    have hprev := ih (Nat.lt_of_succ_lt hj)
    omega

theorem insertionIndexForOffset_eq {starts : List Int} {next : Int}
    (hle : ∀ j ≤ i, ∃ b, starts[j]? = some b ∧ b ≤ offset) (hnext : starts[i + 1]? = some next)
    (hlt : offset < next) : insertionIndexForOffset starts offset = i := by
  obtain ⟨hlen, rfl⟩ := List.getElem?_eq_some_iff.mp hnext
  have hfind : starts.findIdx? (fun s => decide (offset < s)) = some (i + 1) := by
    refine List.findIdx?_eq_some_iff_getElem.mpr ⟨hlen, decide_eq_true hlt, fun j hj => ?_⟩
    obtain ⟨b, hb, hbefore⟩ := hle j (by omega)
    obtain ⟨_, rfl⟩ := List.getElem?_eq_some_iff.mp hb
    simpa using hbefore
  rw [insertionIndexForOffset, hfind]

/-- The predecessor of a gap is the child before it. -/
theorem insertionIndexForOffset_gap {starts : List Int} (h : Filled gap axis children shares rect)
    (hgap : 0 ≤ gap) (hi : i + 1 < children.length)
    (hstarts : ∀ j < children.length, starts[j]? = some (childStart gap axis children shares rect j))
    (hoffset : InGap gap axis children shares rect i offset) :
    insertionIndexForOffset starts offset = i := by
  obtain ⟨size, hsize, hlo, hhi⟩ := hoffset
  have hpos := h.positive _ (List.mem_of_getElem? hsize)
  refine insertionIndexForOffset_eq (fun j hj => ⟨_, hstarts j (by omega), ?_⟩) (hstarts _ hi) hhi
  have hmono := childStart_mono h hgap hj (by omega)
  omega

end

/-! ## The children after the drop -/

section
variable {tree : Node} {x gid : NodeId} {axis : Axis} {children : List Node} {shares : List Nat}

theorem map_fst_otherSlots (hlen : shares.length = children.length) :
    (otherSlots x children shares).map Prod.fst = children.filter fun c => !isLeafNamed x c := by
  show ((children.zip shares).filter ((fun c => !isLeafNamed x c) ∘ Prod.fst)).map Prod.fst = _
  rw [← List.filter_map, List.map_fst_zip (by omega)]

/-- What survives of a group has the children the removal leaves. -/
theorem Survives.eq_group {m' : Node} (hlen : shares.length = children.length)
    (hok : ∀ c ∈ children, TreeOk c) (h : Survives x (.group gid axis children shares) m') :
    ∃ shares', m' = .group gid axis (children.filterMap (removeNode x)) shares' := by
  cases h with
  | @group _ _ _ children' _ shares' k hk hchildren hshares =>
    refine ⟨shares', congrArg (fun cs => Node.group gid axis cs shares') ?_⟩
    have hfst := @map_fst_otherSlots x children shares hlen
    have hmap : children'.map some = (children.filter fun c => !isLeafNamed x c).map (removeNode x) := by
      rw [hchildren, ← hfst, List.map_map]
      rfl
    have hnone : ∀ c ∈ children, removeNode x c = none ↔ isLeafNamed x c = true := fun c hc => by
      rw [removeNode_eq_none (hok c hc), isLeafNamed_iff]
    have hfilter : children.filterMap (removeNode x) =
        (children.filter fun c => !isLeafNamed x c).filterMap (removeNode x) := by
      rw [List.filterMap_filter]
      refine List.filterMap_congr fun c hc => ?_
      cases hnamed : isLeafNamed x c with
      | true => rw [(hnone c hc).mpr hnamed]; rfl
      | false => rfl
    calc children' = (children'.map some).filterMap id := by simp
      _ = ((children.filter fun c => !isLeafNamed x c).map (removeNode x)).filterMap id := by rw [hmap]
      _ = children.filterMap (removeNode x) := by rw [hfilter, List.filterMap_map]; rfl

/-- A new leaf among the children of a group. -/
theorem fill_insertIdx {ctx : Context} {cs : List Node} {out : List Nat} {k : Nat}
    (hk : k ≤ cs.length) :
    (ctx.fill (.group gid axis (cs.insertIdx k (.leaf x)) out)).ids.Perm
        (x :: (ctx.fill (.group gid axis cs shares)).ids) ∧
      (x ∉ (ctx.fill (.group gid axis cs shares)).leaves →
        (ctx.fill (.group gid axis (cs.insertIdx k (.leaf x)) out)).leaves.filter (· ≠ x) =
          (ctx.fill (.group gid axis cs shares)).leaves) := by
  obtain ⟨pre, post, rfl, rfl⟩ := exists_cut hk
  rw [insertIdx_middle]
  simp only [Context.ids_fill, Context.leaves_fill, Node.ids_group, Node.leaves_group,
    List.flatMap_append, List.flatMap_cons, Node.ids_leaf, Node.leaves_leaf, List.singleton_append]
  refine ⟨?_, fun hx => ?_⟩
  · have hmove := @List.perm_middle _ x (ctx.idsBefore ++ gid :: pre.flatMap Node.ids)
      (post.flatMap Node.ids ++ ctx.idsAfter)
    simpa using hmove
  · simp only [List.mem_append, not_or] at hx
    have hkeep : ∀ l : List NodeId, x ∉ l → l.filter (· ≠ x) = l := fun l hl =>
      List.filter_eq_self.mpr fun y hy => by simpa using fun heq : y = x => hl (heq ▸ hy)
    rw [List.filter_append, List.filter_append, List.filter_append,
      List.filter_cons_of_neg (by simp), hkeep _ hx.1.1, hkeep _ hx.1.2.1, hkeep _ hx.1.2.2,
      hkeep _ hx.2]

/-- The group after an interior drop: the children the lift left, and the
leaf past the predecessor. -/
theorem applyGroupInteriorPlacement_children {k : Nat} {p : DragPlacement} (hok : TreeOk tree)
    (hx : x ∈ tree.leaves) (hgroup : .group gid axis children shares ∈ tree.nodes)
    (htwo : 2 ≤ (otherSlots x children shares).length)
    (h : applyGroupInteriorPlacement tree x gid k = some p) :
    (∃ shares', Node.group gid axis ((children.filterMap (removeNode x)).insertIdx
        (min (children.filterMap (removeNode x)).length (k + 1)) (.leaf x)) shares' ∈ p.tree.nodes) ∧
      p.tree.ids.Nodup ∧ p.tree.leaves.filter (· ≠ x) = tree.leaves.filter (· ≠ x) := by
  simp only [applyGroupInteriorPlacement, liftSource, removeLeafFromTree, Option.bind_some,
    Option.bind_eq_bind, Option.bind_eq_some_iff] at h
  obtain ⟨_, -, working, ⟨lifted, hremove, _, -, hlifted⟩, ⟨cs, ss, g, a⟩, hfull, updated, hinsert, h⟩ := h
  obtain rfl := Option.some.inj hlifted
  obtain rfl := Option.some.inj h
  have hremoved := removeNode_removed hok.wellFormed hok.nodup hx hremove
  have hworking := treeOk_of_removed hok hremoved
  obtain ⟨⟨-, hlen, -⟩, hcs⟩ := Node.wellFormed_group.mp (hok.of_mem hgroup).wellFormed
  have hchildren : ∀ c ∈ children, TreeOk c := fun c hc =>
    hok.of_mem (mem_nodes_of_child hgroup hc)
  obtain ⟨m', hm', hsurvives⟩ := (removeNode_thinned hok hremove).survivor hgroup htwo
  obtain ⟨ss', rfl⟩ := hsurvives.eq_group hlen hchildren
  -- the lookup finds what survives of the group
  obtain ⟨rfl, rfl, rfl, rfl⟩ : _ = cs ∧ ss' = ss ∧ gid = g ∧ axis = a := by
    simpa using (Node.findGroupFull_eq hworking.nodup hm').symm.trans hfull
  obtain ⟨ctx, hctx⟩ := Node.mem_nodes_iff.mp hm'
  have hmin : min (children.filterMap (removeNode x)).length (k + 1) ≤
      (children.filterMap (removeNode x)).length := Nat.min_le_left _ _
  rw [hctx] at hinsert hworking hremoved
  rw [insertLeafIntoGroup_fill hworking.nodup hmin] at hinsert
  obtain ⟨out, -, rfl⟩ := Option.map_eq_some_iff.mp hinsert
  obtain ⟨hids, hleaves⟩ := @fill_insertIdx x gid axis ss' ctx _ out _ hmin
  have hfresh : x ∉ (ctx.fill (.group gid axis (children.filterMap (removeNode x)) ss')).leaves :=
    fun hin => hremoved.leaf_not_mem (Node.mem_ids_of_mem_leaves hin)
  refine ⟨⟨out, Context.mem_nodes_fill⟩, ?_, ?_⟩
  · exact hids.nodup_iff.mpr (List.nodup_cons.mpr ⟨hremoved.leaf_not_mem, hworking.nodup⟩)
  · rw [hleaves hfresh, hremoved.leaves]

end

/-! ## Where the leaf lands -/

/-- The leaf is a child of the group, directly between what its lift left of
the two subtrees. -/
def Between (x gid : NodeId) (before after : Node) (tree : Node) : Prop :=
  ∃ axis pre left right post shares, removeNode x before = some left ∧
    removeNode x after = some right ∧
    Node.group gid axis (pre ++ left :: .leaf x :: right :: post) shares ∈ tree.nodes

section
variable {tree X Y : Node} {x gid : NodeId} {axis : Axis} {pre post : List Node} {shares : List Nat}
  {p : DragPlacement}

theorem removeNode_isSome {n : Node} (hok : TreeOk n) (hne : n ≠ .leaf x) :
    ∃ n', removeNode x n = some n' := by
  cases h : removeNode x n with
  | none => exact absurd ((removeNode_eq_none hok).mp h) hne
  | some n' => exact ⟨n', rfl⟩

/-- Beside a child leaf no sibling holds the leaf. -/
theorem not_mem_siblings (hok : TreeOk (.group gid axis (pre ++ .leaf x :: post) shares)) :
    ∀ c ∈ pre ++ post, x ∉ c.leaves := by
  have hnodup := hok.nodup
  rw [Node.ids_group, List.flatMap_append, List.flatMap_cons, Node.ids_leaf, List.singleton_append,
    List.nodup_cons, List.nodup_middle] at hnodup
  intro c hc hin
  refine (List.nodup_cons.mp hnodup.2).1 ?_
  rw [← List.flatMap_append]
  exact List.mem_flatMap.mpr ⟨c, hc, Node.mem_ids_of_mem_leaves hin⟩

/-- Adjacent children differ. -/
theorem sibling_ne (hok : TreeOk (.group gid axis (pre ++ X :: Y :: post) shares)) : X ≠ Y := by
  rintro rfl
  have hnodup := hok.nodup
  rw [Node.ids_group, List.flatMap_append, List.flatMap_cons, List.flatMap_cons, List.nodup_cons,
    List.nodup_append] at hnodup
  obtain ⟨-, -, hnodup, -⟩ := hnodup
  exact (List.nodup_append.mp hnodup).2.2 X.id X.id_mem_ids X.id
    (List.mem_append_left _ X.id_mem_ids) rfl

theorem filterMap_removeNode_of_not_mem {l : List Node} (h : ∀ c ∈ l, x ∉ c.leaves) :
    l.filterMap (removeNode x) = l := by
  rw [List.filterMap_congr fun c hc => removeNode_of_not_mem (h c hc)]
  simp

theorem length_filterMap_removeNode {l : List Node} (hok : ∀ c ∈ l, TreeOk c) (h : .leaf x ∉ l) :
    (l.filterMap (removeNode x)).length = l.length := by
  induction l with
  | nil => rfl
  | cons c l ih =>
    obtain ⟨hc, hl⟩ := List.forall_mem_cons.mp hok
    rw [List.mem_cons, not_or] at h
    obtain ⟨c', hc'⟩ := removeNode_isSome hc (Ne.symm h.1)
    rw [List.filterMap_cons_some hc', List.length_cons, List.length_cons, ih hl h.2]

/-- An interior drop past the child before a gap lands in the gap exactly
when the leaf was not a child of the group before it. -/
theorem between_iff (hok : TreeOk tree) (hx : x ∈ tree.leaves)
    (hgroup : .group gid axis (pre ++ X :: Y :: post) shares ∈ tree.nodes)
    (hX : X ≠ .leaf x) (hY : Y ≠ .leaf x)
    (h : applyGroupInteriorPlacement tree x gid pre.length = some p) :
    (Between x gid X Y p.tree ∧ p.tree.leaves.filter (· ≠ x) = tree.leaves.filter (· ≠ x)) ↔
      .leaf x ∉ pre := by
  have hokGroup := hok.of_mem hgroup
  obtain ⟨⟨-, hlen, -⟩, -⟩ := Node.wellFormed_group.mp hokGroup.wellFormed
  have hchildren : ∀ c ∈ pre ++ X :: Y :: post, TreeOk c := fun c hc =>
    hok.of_mem (mem_nodes_of_child hgroup hc)
  have hXnamed : isLeafNamed x X = false := by
    rw [Bool.eq_false_iff, ne_eq, isLeafNamed_iff]
    exact hX
  have hYnamed : isLeafNamed x Y = false := by
    rw [Bool.eq_false_iff, ne_eq, isLeafNamed_iff]
    exact hY
  have htwo : 2 ≤ (otherSlots x (pre ++ X :: Y :: post) shares).length := by
    rw [← List.length_map Prod.fst, map_fst_otherSlots hlen, List.filter_append,
      List.filter_cons_of_pos (by simp [hXnamed]), List.filter_cons_of_pos (by simp [hYnamed])]
    simp only [List.length_append, List.length_cons]
    omega
  obtain ⟨⟨shares', hnode⟩, hnodup, horder⟩ :=
    applyGroupInteriorPlacement_children hok hx hgroup htwo h
  obtain ⟨X', hX'⟩ := removeNode_isSome (hchildren X (by simp)) hX
  obtain ⟨Y', hY'⟩ := removeNode_isSome (hchildren Y (by simp)) hY
  rw [List.filterMap_append, List.filterMap_cons_some hX', List.filterMap_cons_some hY'] at hnode
  constructor
  · rintro ⟨⟨axis', before, left, right, after, shares'', hleft, -, hbetween⟩, -⟩ hmem
    -- the leaf has left a slot before the gap, so it lands past `Y`
    obtain ⟨first, second, rfl⟩ := List.append_of_mem hmem
    have hsiblings : ∀ c ∈ first ++ (second ++ X :: Y :: post), x ∉ c.leaves := by
      rw [List.append_assoc, List.cons_append] at hokGroup
      exact not_mem_siblings hokGroup
    have hall := hsiblings
    simp only [List.forall_mem_append, List.forall_mem_cons] at hsiblings
    obtain ⟨hfirst, hsecond, hXx, hYx, hpost⟩ := hsiblings
    obtain rfl := Option.some.inj ((removeNode_of_not_mem hXx).symm.trans hX')
    obtain rfl := Option.some.inj ((removeNode_of_not_mem hYx).symm.trans hY')
    obtain rfl := Option.some.inj (hX'.symm.trans hleft)
    have hself : removeNode x (.leaf x) = none := by rw [removeNode, if_pos rfl]
    rw [List.filterMap_append, List.filterMap_cons_none hself, filterMap_removeNode_of_not_mem hfirst,
      filterMap_removeNode_of_not_mem hsecond, filterMap_removeNode_of_not_mem hpost] at hnode
    have hindex : min (first ++ second ++ X :: Y :: post).length
        ((first ++ .leaf x :: second).length + 1) = (first ++ second ++ [X, Y]).length := by
      simp only [List.length_append, List.length_cons, List.length_nil]
      omega
    have hlanded : (first ++ second ++ X :: Y :: post).insertIdx
        (first ++ second ++ [X, Y]).length (.leaf x) =
          (first ++ second ++ [X, Y]) ++ .leaf x :: post := by
      rw [show first ++ second ++ X :: Y :: post = (first ++ second ++ [X, Y]) ++ post by simp,
        insertIdx_middle]
    rw [hindex, hlanded] at hnode
    have heq := Node.eq_of_id_eq hnodup hbetween hnode rfl
    have hlists : (before ++ [X]) ++ Node.leaf x :: right :: after =
        (first ++ second ++ [X, Y]) ++ .leaf x :: post := by
      simpa using (Node.group.inj heq).2.2.1
    have hnone : ∀ {l : List Node}, (∀ c ∈ l, x ∉ c.leaves) → Node.leaf x ∉ l := fun hl hin =>
      hl _ hin (by simp)
    have hprefix : Node.leaf x ∉ first ++ second ++ [X, Y] :=
      hnone fun c hc => hall c (by simp only [List.mem_append, List.mem_cons] at hc ⊢; grind)
    obtain ⟨hbefore, -⟩ := (List.append_cons_inj_of_notMem hprefix (hnone hpost)).mp hlists.symm
    have hsame : X = Y := by
      have hlast := congrArg List.getLast? hbefore
      simpa using hlast.symm
    exact sibling_ne hokGroup hsame
  · intro hmem
    refine ⟨⟨axis, pre.filterMap (removeNode x), X', Y', post.filterMap (removeNode x), shares', hX',
      hY', ?_⟩, horder⟩
    have hcount := length_filterMap_removeNode (fun c hc => hchildren c (by simp [hc])) hmem
    have hindex : min (pre.filterMap (removeNode x) ++ X' :: Y' :: post.filterMap (removeNode x)).length
        (pre.length + 1) = (pre.filterMap (removeNode x) ++ [X']).length := by
      simp only [List.length_append, List.length_cons, List.length_nil, hcount]
      omega
    have hlanded : (pre.filterMap (removeNode x) ++ X' :: Y' :: post.filterMap (removeNode x)).insertIdx
        (pre.filterMap (removeNode x) ++ [X']).length (.leaf x) =
          pre.filterMap (removeNode x) ++ X' :: .leaf x :: Y' :: post.filterMap (removeNode x) := by
      rw [show pre.filterMap (removeNode x) ++ X' :: Y' :: post.filterMap (removeNode x) =
          (pre.filterMap (removeNode x) ++ [X']) ++ Y' :: post.filterMap (removeNode x) by simp,
        insertIdx_middle]
      simp
    rw [hindex, hlanded] at hnode
    exact hnode

end

/-- A drop into the gap between two children of a group, neither of them the
dragged leaf, lands between them and keeps the order of the other leaves
exactly when the dragged leaf is not itself a child of the group before the
gap. -/
theorem drop_into_gap {tree : Node} {domain : OutputDomain} {windows : Links}
    {exceptions : Exceptions} {capture : DragState} {x y : Int} {resolved : SharedDragResolved}
    {gid : NodeId} {axis : Axis} {pre post : List Node} {X Y : Node} {shares : List Nat} {rect : Rect}
    (hok : TreeOk tree) (hsource : capture.sourceLeaf ∈ tree.leaves)
    (hgroup : Handed domain.gap tree domain.bounds (.group gid axis (pre ++ X :: Y :: post) shares)
      rect)
    (hX : X ≠ .leaf capture.sourceLeaf) (hY : Y ≠ .leaf capture.sourceLeaf)
    (hgap : InGap domain.gap axis (pre ++ X :: Y :: post) shares rect pre.length (along axis x y))
    (hresolved : resolveDragShared tree domain windows exceptions capture x y = .ok resolved)
    (htarget : resolved.targetLeaf = gid) (hinterior : resolved.nextPrior = none) :
    (Between capture.sourceLeaf gid X Y resolved.placement.tree ∧
        resolved.placement.tree.leaves.filter (· ≠ capture.sourceLeaf) =
          tree.leaves.filter (· ≠ capture.sourceLeaf)) ↔
      .leaf capture.sourceLeaf ∉ pre := by
  obtain ⟨out, hout, hplacement⟩ :=
    resolveDragShared_interior hok.nodup hresolved hgroup.mem htarget hinterior
  obtain ⟨starts, hlayout, hcount, hstarts⟩ := groupLayout_handed hok.nodup hout hgroup
  have hplaced := hplacement _ hlayout
  have hindex : insertionIndexForOffset starts (along axis x y) = pre.length :=
    insertionIndexForOffset_gap (hgroup.filled hout) (project_eq_ok.mp hout).2.1 (by simp) hstarts hgap
  rw [hindex] at hplaced
  exact between_iff hok hsource hgroup.mem hX hY hplaced

/-! Three windows side by side; the first is dropped into the gap between the
other two, and lands past both. -/

def rowTree : Node :=
  .group ⟨"row"⟩ .horizontal [.leaf ⟨"s"⟩, .leaf ⟨"x"⟩, .leaf ⟨"y"⟩] [1, 1, 1]

def rowDomain : OutputDomain := ⟨⟨"DP-1"⟩, ⟨"ws"⟩, ⟨0, 0, 1000, 600⟩, 10, ∅⟩

def rowLink (window : WindowId) (leaf : NodeId) : WindowLink := ⟨window, leaf, ⟨"DP-1"⟩, ⟨"ws"⟩⟩

def rowWindows : Links :=
  ((∅ : Links).insert ⟨"ws"⟩ (rowLink ⟨"ws"⟩ ⟨"s"⟩)).insert ⟨"wx"⟩ (rowLink ⟨"wx"⟩ ⟨"x"⟩)
    |>.insert ⟨"wy"⟩ (rowLink ⟨"wy"⟩ ⟨"y"⟩)

def rowCapture : DragState where
  domain := ⟨⟨"DP-1"⟩, ⟨"ws"⟩⟩
  sourceLeaf := ⟨"s"⟩
  sourceWindow := ⟨"ws"⟩
  revision := 1
  generation := ⟨"g", by decide⟩
  trees := (∅ : Trees).insert ⟨⟨"DP-1"⟩, ⟨"ws"⟩⟩ (some rowTree)
  windows := rowWindows
  exceptions := ∅
  focusedDomain := some ⟨⟨"DP-1"⟩, ⟨"ws"⟩⟩
  focusedLeaf := some ⟨"s"⟩
  sourceRect := ⟨0, 0, 326, 600⟩
  workArea := ⟨0, 0, 1000, 600⟩
  prior := none

/-- What the drop of a leaf of the row at a point makes of the row. -/
def rowDrop (leaf : NodeId) (window : WindowId) (x : Int) :
    Except RefusalKind SharedDragResolved :=
  resolveDragShared rowTree rowDomain rowWindows ∅
    { rowCapture with sourceLeaf := leaf, sourceWindow := window } x 300

theorem rowTree_ok : TreeOk rowTree := ⟨by simp [rowTree, u64Size], by decide, by decide⟩

theorem exists_of_toOption {ε α β : Type} {x : Except ε α} {f : α → β} {b : β}
    (h : x.toOption.map f = some b) : ∃ a, x = .ok a ∧ f a = b := by
  obtain ⟨a, ha, hb⟩ := Option.map_eq_some_iff.mp h
  exact ⟨a, toOption_eq_ok.mp ha, hb⟩

/-- The last window of the row, dropped into the first gap, lands in it. -/
theorem drop_into_gap_row : ∃ resolved, rowDrop ⟨"y"⟩ ⟨"wy"⟩ 331 = .ok resolved ∧
    Between ⟨"y"⟩ ⟨"row"⟩ (.leaf ⟨"s"⟩) (.leaf ⟨"x"⟩) resolved.placement.tree := by
  have heval : (rowDrop ⟨"y"⟩ ⟨"wy"⟩ 331).toOption.map
      (fun resolved => (resolved.targetLeaf, resolved.nextPrior)) = some (⟨"row"⟩, none) := by
    decide +kernel
  obtain ⟨resolved, hresolved, htarget⟩ := exists_of_toOption heval
  simp only [Prod.mk.injEq] at htarget
  have hgap : InGap 10 .horizontal [.leaf ⟨"s"⟩, .leaf ⟨"x"⟩, .leaf ⟨"y"⟩] [1, 1, 1]
      ⟨0, 0, 1000, 600⟩ 0 331 := ⟨326, by decide, by decide, by decide⟩
  have hlands := @drop_into_gap _ _ _ _ _ _ _ _ _ _ [] _ _ _ _ _ rowTree_ok (by decide) .root
    (by decide) (by decide) hgap hresolved htarget.1 htarget.2
  exact ⟨resolved, hresolved, (hlands.mpr (by simp)).1⟩

/-- The first window of the row, dropped into the second gap, does not. -/
theorem drop_past_gap_row :
    ¬ ∀ (tree : Node) (domain : OutputDomain) (windows : Links) (exceptions : Exceptions)
      (capture : DragState) (x y : Int) (resolved : SharedDragResolved) (gid : NodeId) (axis : Axis)
      (pre post : List Node) (X Y : Node) (shares : List Nat) (rect : Rect),
      TreeOk tree → capture.sourceLeaf ∈ tree.leaves →
      Handed domain.gap tree domain.bounds (.group gid axis (pre ++ X :: Y :: post) shares) rect →
      X ≠ .leaf capture.sourceLeaf → Y ≠ .leaf capture.sourceLeaf →
      InGap domain.gap axis (pre ++ X :: Y :: post) shares rect pre.length (along axis x y) →
      resolveDragShared tree domain windows exceptions capture x y = .ok resolved →
      resolved.targetLeaf = gid → resolved.nextPrior = none →
        Between capture.sourceLeaf gid X Y resolved.placement.tree ∧
          resolved.placement.tree.leaves.filter (· ≠ capture.sourceLeaf) =
            tree.leaves.filter (· ≠ capture.sourceLeaf) := by
  intro hclaim
  have heval : (rowDrop ⟨"s"⟩ ⟨"ws"⟩ 665).toOption.map
      (fun resolved => (resolved.targetLeaf, resolved.nextPrior, resolved.placement.tree)) =
        some (⟨"row"⟩, none,
          .group ⟨"row"⟩ .horizontal [.leaf ⟨"x"⟩, .leaf ⟨"y"⟩, .leaf ⟨"s"⟩] [1, 1, 1]) := by
    decide +kernel
  obtain ⟨resolved, hresolved, hrest⟩ := exists_of_toOption heval
  simp only [Prod.mk.injEq] at hrest
  obtain ⟨htarget, hprior, htree⟩ := hrest
  have hgap : InGap 10 .horizontal [.leaf ⟨"s"⟩, .leaf ⟨"x"⟩, .leaf ⟨"y"⟩] [1, 1, 1]
      ⟨0, 0, 1000, 600⟩ 1 665 := ⟨326, by decide, by decide, by decide⟩
  obtain ⟨⟨axis, pre, left, right, post, shares, -, -, hmem⟩, -⟩ :=
    hclaim _ _ _ _ _ _ _ _ _ _ [.leaf ⟨"s"⟩] [] (.leaf ⟨"x"⟩) (.leaf ⟨"y"⟩) _ _ rowTree_ok (by decide)
      .root (by decide) (by decide) hgap hresolved htarget hprior
  rw [htree] at hmem
  -- the leaf is the last child, so nothing follows it
  obtain ⟨-, hchildren, -⟩ : axis = .horizontal ∧ pre ++ left :: .leaf ⟨"s"⟩ :: right :: post =
      [.leaf ⟨"x"⟩, .leaf ⟨"y"⟩, .leaf ⟨"s"⟩] ∧ shares = [1, 1, 1] := by
    simpa using hmem
  match pre, hchildren with
  | [], hchildren => simp at hchildren
  | [_], hchildren => simp at hchildren
  | [_, _], hchildren => simp at hchildren
  | _ :: _ :: _ :: _, hchildren => simp at hchildren

end PlasmaTiler
