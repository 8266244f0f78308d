import PlasmaTiler.Agreed
import PlasmaTiler.Drops
import PlasmaTiler.GroupLayouts

/-!
# A drop does what its preview showed

A preview is made without staging anything, and the drop that follows
resolves the point again. In between the preview has left a trace: it
remembers the group edge it resolved to, which widens that edge's zone, so
that the pointer does not flicker between two targets. The drop therefore
resolves against other zones than the preview did.

The widened zone still holds the point, and the others it could fall into
only shrink (`groupZone_deepened`), so the drop resolves the point to the
same target (`resolveDragShared_remembered`). What the drop checks beyond the
preview holds of every placement: the tree keeps its leaves, so the world
stays valid, and the projection has a rectangle for each of them
(`Covers.coversAffected`). While a window is dragged no plan is pending, so
the reconciler is idle and takes the plan.

One thing can come between: at the last revision there is no successor to
plan for, and the drop is refused although the preview was shown
(`dropDrag_exhausted`). `dropDrag_carriesOut` is the statement below it.
-/

namespace PlasmaTiler

/-! ## Remembering an edge -/

/-- The zones of a group from the depths of its edges. -/
def groupZone (w h dx dy left top right bottom : Int) : Option DragSide :=
  let leftDepth := min left w
  let topDepth := min top h
  if dx < leftDepth then some .left
  else
    let w1 := w - leftDepth
    let h2 := h - topDepth
    let rightDepth := min right w1
    if w1 ≤ 0 then none
    else if 0 < h2 ∧ 0 < w1 ∧ w - rightDepth ≤ dx ∧ topDepth ≤ dy then some .right
    else if leftDepth ≤ dx ∧ dy < topDepth then some .top
    else if h2 ≤ 0 ∨ w1 - rightDepth ≤ 0 then none
    else
      let bottomDepth := min bottom h2
      if leftDepth ≤ dx ∧ dx < w - rightDepth ∧ h - bottomDepth ≤ dy then some .bottom else none

theorem classifyGroupPoint_eq {rect : Rect} {group : NodeId} {x y : Int}
    {prior : Option PriorGroupEdge} :
    classifyGroupPoint rect group x y prior = (offsetsIn rect x y).bind fun (dx, dy) =>
      groupZone rect.w rect.h dx dy (groupEdgeDepthFor group .left prior)
        (groupEdgeDepthFor group .top prior) (groupEdgeDepthFor group .right prior)
        (groupEdgeDepthFor group .bottom prior) :=
  rfl

theorem groupEdgeDepthFor_bounds {group : NodeId} {edge : DragSide} {prior : Option PriorGroupEdge} :
    32 ≤ groupEdgeDepthFor group edge prior ∧ groupEdgeDepthFor group edge prior ≤ 80 := by
  have hdepths : cosmicGroupEdgeInactivePx = 32 ∧ cosmicGroupEdgeActivePx = 80 := ⟨rfl, rfl⟩
  unfold groupEdgeDepthFor
  split
  · split <;> omega
  · omega

theorem groupEdgeDepthFor_remembered {group : NodeId} {edge e : DragSide} :
    groupEdgeDepthFor group edge (some ⟨group, e⟩) = if e = edge then 80 else 32 := by
  rw [groupEdgeDepthFor]
  by_cases he : e = edge
  · rw [if_pos ⟨rfl, he⟩, if_pos he]
    rfl
  · rw [if_neg fun h => he h.2, if_neg he]
    rfl

section
variable {w h dx dy left top right bottom : Int} {e : DragSide}

/-- Deepening the zone a point lies in, and shrinking the others, leaves it
there: the zones are tried in order, and the point is in none before it. -/
theorem groupZone_deepened (hleft : 32 ≤ left ∧ left ≤ 80) (htop : 32 ≤ top ∧ top ≤ 80)
    (hright : 32 ≤ right ∧ right ≤ 80) (hbottom : 32 ≤ bottom ∧ bottom ≤ 80)
    (hzone : groupZone w h dx dy left top right bottom = some e) :
    groupZone w h dx dy (if e = .left then 80 else 32) (if e = .top then 80 else 32)
      (if e = .right then 80 else 32) (if e = .bottom then 80 else 32) = some e := by
  simp only [groupZone] at hzone
  split at hzone
  · cases hzone
    simp only [groupZone, if_true]
    rw [if_pos (by omega)]
  rename_i hnotLeft
  split at hzone
  · cases hzone
  rename_i hwidth
  split at hzone
  · cases hzone
    rename_i hin
    simp only [groupZone, reduceCtorEq, if_false, if_true]
    rw [if_neg (by omega), if_neg (by omega), if_pos (by omega)]
  rename_i hnotRight
  split at hzone
  · cases hzone
    rename_i hin
    simp only [groupZone, reduceCtorEq, if_false, if_true]
    rw [if_neg (by omega), if_neg (by omega), if_neg (by omega), if_pos (by omega)]
  rename_i hnotTop
  split at hzone
  · cases hzone
  rename_i hrest
  split at hzone
  · cases hzone
    rename_i hin
    simp only [groupZone, reduceCtorEq, if_false, if_true]
    rw [if_neg (by omega), if_neg (by omega), if_neg (by omega), if_neg (by omega),
      if_neg (by omega), if_pos (by omega)]
  · cases hzone

/-- A point outside every zone stays outside the shallow ones. -/
theorem groupZone_shallow (hleft : 32 ≤ left) (htop : 32 ≤ top) (hright : 32 ≤ right)
    (hbottom : 32 ≤ bottom) (hdx : 0 ≤ dx ∧ dx < w) (hdy : 0 ≤ dy ∧ dy < h)
    (hzone : groupZone w h dx dy left top right bottom = none) :
    groupZone w h dx dy 32 32 32 32 = none := by
  simp only [groupZone] at hzone
  split at hzone
  · cases hzone
  rename_i hnotLeft
  split at hzone
  · omega
  split at hzone
  · cases hzone
  rename_i hnotRight
  split at hzone
  · cases hzone
  rename_i hnotTop
  split at hzone
  · omega
  rename_i hrest
  split at hzone
  · cases hzone
  rename_i hnotBottom
  simp only [groupZone]
  rw [if_neg (by omega), if_neg (by omega), if_neg (by omega), if_neg (by omega),
    if_neg (by omega), if_neg (by omega)]

end

theorem offsetsIn_bounds {rect : Rect} {x y dx dy : Int} (h : offsetsIn rect x y = some (dx, dy)) :
    (0 ≤ dx ∧ dx < rect.w) ∧ 0 ≤ dy ∧ dy < rect.h := by
  unfold offsetsIn at h
  split at h
  · cases h
  simp only [Option.bind_eq_bind, Option.bind_eq_some_iff] at h
  obtain ⟨dx', -, dy', -, h⟩ := h
  split at h
  · cases h
  · cases h
    omega

/-- Classifying a point again with its own result remembered changes
nothing. -/
theorem classifyGroupPoint_remembered {rect : Rect} {group : NodeId} {x y : Int}
    {prior : Option PriorGroupEdge} :
    classifyGroupPoint rect group x y
        ((classifyGroupPoint rect group x y prior).map fun edge => ⟨group, edge⟩) =
      classifyGroupPoint rect group x y prior := by
  rw [classifyGroupPoint_eq, classifyGroupPoint_eq]
  cases hoffsets : offsetsIn rect x y with
  | none => rfl
  | some offsets =>
    obtain ⟨dx, dy⟩ := offsets
    obtain ⟨hdx, hdy⟩ := offsetsIn_bounds hoffsets
    simp only [Option.bind_some]
    cases hzone : groupZone rect.w rect.h dx dy (groupEdgeDepthFor group .left prior)
        (groupEdgeDepthFor group .top prior) (groupEdgeDepthFor group .right prior)
        (groupEdgeDepthFor group .bottom prior) with
    | none =>
      exact groupZone_shallow groupEdgeDepthFor_bounds.1 groupEdgeDepthFor_bounds.1
        groupEdgeDepthFor_bounds.1 groupEdgeDepthFor_bounds.1 hdx hdy hzone
    | some e =>
      simp only [Option.map_some, groupEdgeDepthFor_remembered]
      exact groupZone_deepened groupEdgeDepthFor_bounds groupEdgeDepthFor_bounds
        groupEdgeDepthFor_bounds groupEdgeDepthFor_bounds hzone

/-! ## Resolving again -/

section
variable {tree : Node} {windows : Links} {exceptions : Exceptions} {capture : DragState}
  {resolved : SharedDragResolved} {x y : Int}

theorem resolveGroup_remembered {layout : GroupLayout}
    (h : resolveGroup tree windows exceptions capture layout x y = .ok resolved) :
    resolveGroup tree windows exceptions { capture with prior := resolved.nextPrior } layout x y =
      .ok resolved := by
  have hprior : resolved.nextPrior =
      (classifyGroupPoint layout.rect layout.id x y capture.prior).map
        fun edge => ⟨layout.id, edge⟩ := by
    simp only [resolveGroup, bind_eq_ok] at h
    obtain ⟨rep, -, _, -, h⟩ := h
    split at h
    · rename_i hedge
      simp only [bind_eq_ok, pure_eq_ok] at h
      obtain ⟨_, -, _, -, _, -, rfl⟩ := h
      rw [hedge]
      rfl
    · rename_i hedge
      simp only [bind_eq_ok, pure_eq_ok] at h
      obtain ⟨_, -, _, -, _, -, rfl⟩ := h
      rw [hedge]
      rfl
  rw [hprior, resolveGroup]
  simp only [classifyGroupPoint_remembered]
  exact h

/-- A point resolves again to what it resolved to, remembered. -/
theorem resolveDragShared_remembered {domain : OutputDomain}
    (h : resolveDragShared tree domain windows exceptions capture x y = .ok resolved) :
    resolveDragShared tree domain windows exceptions { capture with prior := resolved.nextPrior }
      x y = .ok resolved := by
  simp only [resolveDragShared, bind_eq_ok] at h ⊢
  obtain ⟨_, harea, projected, hprojected, h⟩ := h
  refine ⟨_, harea, projected, hprojected, ?_⟩
  split at h
  · simp only [bind_eq_ok] at h ⊢
    obtain ⟨layout, hlayout, h⟩ := h
    exact ⟨layout, hlayout, resolveGroup_remembered h⟩
  · exact h

end

/-! ## Placements keep the leaves -/

section
variable {tree working tree' : Node} {sourceLeaf target group : NodeId} {side : DragSide}
  {baseRevision : Nat} {p : DragPlacement}

theorem insertLeafIntoGroup_perm {index : Nat}
    (h : insertLeafIntoGroup working group index (.leaf sourceLeaf) = some tree') :
    tree'.leaves.Perm (sourceLeaf :: working.leaves) := by
  obtain ⟨ctx, m, m', rfl, rfl, -, hm⟩ := updateAt_eq_some h
  cases m with
  | leaf i => cases hm
  | group id axis children shares =>
    dsimp only at hm
    split at hm
    · cases hm
    · rename_i hindex
      obtain ⟨shares', -, rfl⟩ := Option.map_eq_some_iff.mp hm
      have hinsert : (children.insertIdx index (.leaf sourceLeaf)).flatMap Node.leaves |>.Perm
          (sourceLeaf :: children.flatMap Node.leaves) :=
        (List.perm_insertIdx (Node.leaf sourceLeaf) children (by omega)).flatMap_right _
      rw [Context.leaves_fill, Context.leaves_fill, Node.leaves_group, Node.leaves_group]
      refine ((hinsert.append_left _).append_right _).trans ?_
      simp

/-- A wrap grafts the source beside the target, which it finds in its slot: at
the root of the tree, or among the children of the parent it names. -/
theorem wrapTarget_grafted {targetNode : Node} {parent : Option NodeId} {axis : Axis} {before : Bool}
    (hids : working.ids.Nodup) (htarget : targetNode ∈ working.nodes) (hid : targetNode.id = target)
    (h : wrapTarget working sourceLeaf target targetNode parent axis before baseRevision = some p) :
    ∃ newId, Grafted working p.tree newId sourceLeaf := by
  unfold wrapTarget at h
  dsimp only at h
  split at h
  · rename_i hroot
    cases h
    obtain rfl := Node.eq_of_id_eq hids (Node.self_mem_nodes working) htarget (hroot.trans hid.symm)
    exact ⟨_, @grafted_fill [] working _ sourceLeaf axis before⟩
  · simp only [Option.bind_eq_bind, Option.bind_eq_some_iff] at h
    obtain ⟨parentId, -, ⟨children, shares, gid, paxis⟩, hgroup, index, hindex, share, hshare,
      updated, hupdated, h⟩ := h
    cases h
    have hmem := findGroupFull_mem hgroup
    obtain ⟨hlt, hchild, -⟩ := List.findIdx?_eq_some_iff_getElem.mp hindex
    have hchildId : children[index].id = target := by simpa [isNamed] using hchild
    -- the slot holds the target, and the group written to is the parent
    have hslot : children[index] = targetNode := by
      refine Node.eq_of_id_eq hids (Node.nodes_subset hmem ?_) htarget (hchildId.trans hid.symm)
      rw [Node.nodes_group]
      exact List.mem_cons_of_mem _ (List.mem_flatMap.mpr
        ⟨_, List.getElem_mem hlt, Node.self_mem_nodes _⟩)
    obtain ⟨ctx, m, m', rfl, rfl, hhit, hm⟩ := updateAt_eq_some hupdated
    have hgroupId : m.id = parentId := by
      simp only [isGroupNamed, Bool.and_eq_true, beq_iff_eq] at hhit
      exact hhit.1
    obtain rfl := Node.eq_of_id_eq hids (Node.mem_nodes_iff.mpr ⟨ctx, rfl⟩) hmem hgroupId
    dsimp only at hm
    rw [if_neg (Nat.not_le.mpr hlt)] at hm
    cases hm
    have hshares : shares.set index share = shares := by
      obtain ⟨hlt', rfl⟩ := List.getElem?_eq_some_iff.mp hshare
      exact List.set_getElem_self hlt'
    have hchildren : children = children.take index ++ targetNode :: children.drop (index + 1) := by
      rw [← hslot, List.getElem_cons_drop, List.take_append_drop]
    have hset : ∀ n : Node, children.set index n =
        children.take index ++ n :: children.drop (index + 1) := by
      intro n
      rw [List.set_eq_take_append_cons_drop, if_pos hlt]
    have hgrafted := @grafted_fill (ctx ++ [⟨parentId, paxis, children.take index,
      children.drop (index + 1), shares⟩]) targetNode
      (generateDragGroupId sourceLeaf baseRevision
        (.ofList (ctx.fill (.group parentId paxis children shares)).ids)) sourceLeaf axis before
    rw [Context.fill_concat, Context.fill_concat, Frame.fill, Frame.fill, ← hset, ← hset, ← hslot,
      List.set_getElem_self hlt, hslot] at hgrafted
    rw [hshares]
    exact ⟨_, hgrafted⟩

theorem liftSource_leaves (hok : TreeOk tree) (hleaf : sourceLeaf ∈ tree.leaves)
    (h : liftSource tree sourceLeaf = some working) :
    working.leaves = tree.leaves.filter (· ≠ sourceLeaf) := by
  simp only [liftSource, removeLeafFromTree, Option.bind_some, Option.bind_eq_bind,
    Option.bind_eq_some_iff] at h
  obtain ⟨n, hremove, _, -, h⟩ := h
  cases h
  exact (removeNode_removed hok.wellFormed hok.nodup hleaf hremove).leaves

/-- The source back among the other leaves. -/
theorem mem_leaves_of_lifted (hleaf : sourceLeaf ∈ tree.leaves)
    (hlifted : working.leaves = tree.leaves.filter (· ≠ sourceLeaf))
    (hperm : tree'.leaves.Perm (sourceLeaf :: working.leaves)) {y : NodeId} :
    y ∈ tree'.leaves ↔ y ∈ tree.leaves := by
  rw [hperm.mem_iff, hlifted, List.mem_cons, List.mem_filter]
  by_cases hy : y = sourceLeaf
  · subst hy
    exact iff_of_true (.inl rfl) hleaf
  · simp [hy]

theorem applyDragPlacement_leaves (hok : TreeOk tree) (hleaf : sourceLeaf ∈ tree.leaves)
    (h : applyDragPlacement tree sourceLeaf target side baseRevision = some p) {y : NodeId} :
    y ∈ p.tree.leaves ↔ y ∈ tree.leaves := by
  simp only [applyDragPlacement, Option.bind_eq_bind, Option.bind_eq_some_iff, require_eq_some] at h
  obtain ⟨_, -, axis, -, before, -, working, hworking, _, htarget, h⟩ := h
  have hlift := liftSource_lifted hok hleaf hworking
  have hmem : target ∈ working.leaves := List.contains_iff_mem.mp htarget
  refine mem_leaves_of_lifted hleaf (liftSource_leaves hok hleaf hworking) ?_
  split at h
  · obtain ⟨_, hgrafted⟩ := wrapTarget_grafted hlift.ids.nodup (Node.mem_leaves_iff.mp hmem) rfl h
    exact hgrafted.leaves
  · simp only [Option.bind_eq_some_iff] at h
    obtain ⟨⟨children, paxis, gid⟩, -, h⟩ := h
    dsimp only at h
    split at h
    · simp only [Option.bind_eq_some_iff] at h
      obtain ⟨index, -, _, -, updated, hinsert, h⟩ := h
      cases h
      exact insertLeafIntoGroup_perm hinsert
    · obtain ⟨_, hgrafted⟩ := wrapTarget_grafted hlift.ids.nodup (Node.mem_leaves_iff.mp hmem) rfl h
      exact hgrafted.leaves

theorem applyGroupEdgePlacement_leaves (hok : TreeOk tree) (hleaf : sourceLeaf ∈ tree.leaves)
    (h : applyGroupEdgePlacement tree sourceLeaf group side baseRevision = some p) {y : NodeId} :
    y ∈ p.tree.leaves ↔ y ∈ tree.leaves := by
  simp only [applyGroupEdgePlacement, Option.bind_eq_bind, Option.bind_eq_some_iff,
    require_eq_some] at h
  obtain ⟨axis, -, before, -, _, -, working, hworking, ⟨children, shares, gid, gaxis⟩, -, _, -, h⟩ := h
  have hlift := liftSource_lifted hok hleaf hworking
  refine mem_leaves_of_lifted hleaf (liftSource_leaves hok hleaf hworking) ?_
  split at h
  · simp only [Option.bind_eq_some_iff] at h
    obtain ⟨updated, hinsert, h⟩ := h
    cases h
    exact insertLeafIntoGroup_perm hinsert
  · simp only [Option.bind_eq_some_iff] at h
    obtain ⟨node, hnode, h⟩ := h
    have hid : node.id = group := by simpa [isNamed] using List.find?_some hnode
    obtain ⟨_, hgrafted⟩ := wrapTarget_grafted hlift.ids.nodup (List.mem_of_find?_eq_some hnode) hid h
    exact hgrafted.leaves

theorem applyGroupInteriorPlacement_leaves {predecessor : Nat} (hok : TreeOk tree)
    (hleaf : sourceLeaf ∈ tree.leaves)
    (h : applyGroupInteriorPlacement tree sourceLeaf group predecessor = some p) {y : NodeId} :
    y ∈ p.tree.leaves ↔ y ∈ tree.leaves := by
  simp only [applyGroupInteriorPlacement, Option.bind_eq_bind, Option.bind_eq_some_iff,
    require_eq_some] at h
  obtain ⟨_, -, working, hworking, ⟨children, shares, gid, gaxis⟩, -, updated, hinsert, h⟩ := h
  cases h
  exact mem_leaves_of_lifted hleaf (liftSource_leaves hok hleaf hworking)
    (insertLeafIntoGroup_perm hinsert)

end

section
variable {tree : Node} {windows : Links} {exceptions : Exceptions} {capture : DragState}
  {resolved : SharedDragResolved} {x y : Int}

/-- What a point resolves to places the source among the same leaves. -/
theorem resolveDragShared_leaves {domain : OutputDomain} (hok : TreeOk tree)
    (hsource : capture.sourceLeaf ∈ tree.leaves)
    (h : resolveDragShared tree domain windows exceptions capture x y = .ok resolved) {i : NodeId} :
    i ∈ resolved.placement.tree.leaves ↔ i ∈ tree.leaves := by
  simp only [resolveDragShared, bind_eq_ok] at h
  obtain ⟨_, -, projected, -, h⟩ := h
  split at h
  · simp only [bind_eq_ok, resolveGroup] at h
    obtain ⟨layout, -, rep, -, _, -, h⟩ := h
    split at h
    · simp only [bind_eq_ok, okOr_eq_ok, pure_eq_ok] at h
      obtain ⟨_, -, _, -, placement, hplacement, rfl⟩ := h
      exact applyGroupEdgePlacement_leaves hok hsource hplacement
    · simp only [bind_eq_ok, okOr_eq_ok, pure_eq_ok] at h
      obtain ⟨placement, hplacement, _, -, _, -, rfl⟩ := h
      exact applyGroupInteriorPlacement_leaves hok hsource hplacement
  · simp only [resolveLeaf, bind_eq_ok, okOr_eq_ok, pure_eq_ok] at h
    obtain ⟨_, -, rect, -, _, -, _, -, targetWindow, -, _, -, _, -, _, -, placement, hplacement,
      rfl⟩ := h
    exact applyDragPlacement_leaves hok hsource hplacement

end

/-! ## Projected geometry -/

theorem forall₂_of_mapM_ok {ε α β : Type} {f : α → Except ε β} {l : List α} {r : List β}
    (h : l.mapM f = .ok r) : List.Forall₂ (fun a b => f a = .ok b) l r := by
  induction l generalizing r with
  | nil =>
    rw [List.mapM_nil, pure_eq_ok] at h
    exact h ▸ .nil
  | cons a l ih =>
    simp only [List.mapM_cons, bind_eq_ok, pure_eq_ok] at h
    obtain ⟨b, hb, rest, hrest, rfl⟩ := h
    exact .cons hb (ih hrest)

/-- The geometry of one domain: a positive rectangle for every leaf, under
the window linked there. -/
structure Covers (windows : Links) (key : DomainKey) (tree : Node)
    (geometry : List DesiredGeometry) : Prop where
  leaves : (geometry.map DesiredGeometry.leaf).Perm tree.leaves
  keyed : ∀ g ∈ geometry, g.key = key
  positive : ∀ g ∈ geometry, 0 < g.rect.w ∧ 0 < g.rect.h
  linked : ∀ g ∈ geometry, ∃ link, windows[g.window]? = some link ∧ link.leaf = g.leaf ∧
    link.key = key

section
variable {domains : List OutputDomain} {trees : Trees} {windows : Links} {exceptions : Exceptions}
  {focusedDomain : Option DomainKey} {focusedLeaf : Option NodeId} {key : DomainKey}
  {domain : OutputDomain} {tree : Node} {hints : BTreeMap WindowId WindowSizeHints}
  {geometry : List DesiredGeometry}

theorem leafToWindow_linked (hkeyed : Keyed windows) {leaf : NodeId} {window : WindowId}
    (h : (leafToWindow windows key)[leaf]? = some window) :
    ∃ link, windows[window]? = some link ∧ link.leaf = leaf ∧ link.key = key := by
  obtain ⟨link, hlink, rfl, rfl⟩ := mem_of_lookup_foldl_insert h
  obtain ⟨hvalue, hhome⟩ := List.mem_filter.mp hlink
  obtain ⟨w, hw⟩ := mem_values.mp hvalue
  simp only [Bool.and_eq_true, beq_iff_eq] at hhome
  obtain rfl := hkeyed hw
  exact ⟨link, hw, rfl, DomainKey.ext hhome.1 hhome.2⟩

theorem projectOutputGeometry_covers (hkeyed : Keyed windows)
    (h : projectOutputGeometry (some domain) (some tree) windows key hints = .ok geometry) :
    TreeOk tree ∧ Covers windows key tree geometry := by
  simp only [projectOutputGeometry, bind_eq_ok, mapError_eq_ok] at h
  obtain ⟨hinted, hproject, hentries⟩ := h
  have hproject' := hproject
  simp only [projectWithHints, bind_eq_ok, mapError_eq_ok, pure_eq_ok] at hproject'
  obtain ⟨plain, hplain, leaves, hleaves, rfl⟩ := hproject'
  have hok := treeOk_of_project hplain
  have htiled := layoutWith_tiled exhausts_splitHinted hok.wellFormed hleaves
  have hall := forall₂_of_mapM_ok hentries
  simp only [bind_eq_ok, okOr_eq_ok, ensure_eq_ok, pure_eq_ok, Bool.and_eq_true,
    decide_eq_true_eq] at hall
  have hread : ∀ g ∈ geometry, ∃ p ∈ leaves, g.leaf = p.leaf ∧ g.key = key ∧
      (0 < g.rect.w ∧ 0 < g.rect.h) ∧ (leafToWindow windows key)[g.leaf]? = some g.window := by
    intro g hg
    obtain ⟨i, hi, rfl⟩ := List.getElem_of_mem hg
    have hlength := hall.length_eq
    have hat := hall.get (by omega) hi
    obtain ⟨window, hwindow, _, hpositive, heq⟩ := hat
    refine ⟨leaves[i], List.getElem_mem _, ?_⟩
    simp only [List.get_eq_getElem] at heq hwindow hpositive
    rw [← heq]
    exact ⟨rfl, rfl, hpositive, hwindow⟩
  have hnames : geometry.map DesiredGeometry.leaf = leaves.map ProjectedLeaf.leaf := by
    have hsame : List.Forall₂ (fun (p : ProjectedLeaf) (g : DesiredGeometry) => p.leaf = g.leaf)
        leaves geometry := by
      refine hall.imp fun p g hg => ?_
      obtain ⟨window, -, _, -, rfl⟩ := hg
      rfl
    have hmapped := List.forall₂_map_left_iff.mpr (List.forall₂_map_right_iff.mpr hsame)
    exact (List.forall₂_eq_eq_eq ▸ hmapped).symm
  refine ⟨hok, ⟨?_, fun g hg => ?_, fun g hg => ?_, fun g hg => ?_⟩⟩
  · rw [hnames, htiled.leaves]
  · obtain ⟨p, -, -, hkey, -⟩ := hread g hg
    exact hkey
  · obtain ⟨p, -, -, -, hpositive, -⟩ := hread g hg
    exact hpositive
  · obtain ⟨p, -, -, -, -, hwindow⟩ := hread g hg
    exact leafToWindow_linked hkeyed hwindow

theorem projectAffectedGeometry_covers (hkeyed : Keyed windows)
    (htree : treeAt trees key = some tree)
    (h : projectAffectedGeometry domains trees windows [key] hints = .ok geometry) :
    TreeOk tree ∧ Covers windows key tree geometry := by
  simp only [projectAffectedGeometry, List.mapM_cons, List.mapM_nil, bind_eq_ok, okOr_eq_ok,
    pure_eq_ok] at h
  obtain ⟨parts, ⟨part, ⟨domain, -, hpart⟩, _, rfl, rfl⟩, rfl⟩ := h
  rw [htree] at hpart
  obtain ⟨hok, hcovers⟩ := projectOutputGeometry_covers hkeyed hpart
  have hsorted : ([part].flatten.insertionSort (geometryLe · ·)).Perm part := by
    have hperm := List.perm_insertionSort (geometryLe · ·) [part].flatten
    simpa using hperm
  refine ⟨hok, ⟨(hsorted.map _).trans hcovers.leaves, fun g hg => ?_, fun g hg => ?_,
    fun g hg => ?_⟩⟩
  · exact hcovers.keyed g (hsorted.mem_iff.mp hg)
  · exact hcovers.positive g (hsorted.mem_iff.mp hg)
  · exact hcovers.linked g (hsorted.mem_iff.mp hg)

/-- Over a valid world a domain's geometry covers exactly its links: a leaf is
linked there exactly when the tree has it. -/
theorem Covers.coversAffected (h : Covers windows key tree geometry) (hkeyed : Keyed windows)
    (hworld : WorldOk domains trees windows exceptions focusedDomain focusedLeaf)
    (htree : treeAt trees key = some tree) :
    geometryCoversAffected geometry windows [key] = true := by
  have hown : geometry.filter (fun g => g.key == key) = geometry :=
    List.filter_eq_self.mpr fun g hg => beq_iff_eq.mpr (h.keyed g hg)
  simp only [geometryCoversAffected, List.all_cons, List.all_nil, Bool.and_true, Bool.and_eq_true,
    hown, decide_eq_true_eq, List.all_eq_true, List.any_cons, List.any_nil, Bool.or_false,
    beq_iff_eq]
  refine ⟨⟨?_, fun g hg => ?_⟩, fun g hg => (h.keyed g hg).symm⟩
  · -- a leaf is linked here exactly when the tree has it
    ext leaf
    rw [Std.ExtTreeSet.mem_ofList, Std.ExtTreeSet.mem_ofList, List.contains_iff_mem,
      List.contains_iff_mem, h.leaves.mem_iff]
    simp only [List.mem_map, List.mem_filter, beq_iff_eq, mem_values]
    constructor
    · rintro ⟨link, ⟨⟨w, hlink⟩, rfl⟩, rfl⟩
      have hvalid := hworld.link_valid hlink
      simp only [validLink, Bool.and_eq_true] at hvalid
      obtain ⟨t, ht, hleaf⟩ := hasLeaf_iff.mp hvalid.2
      obtain rfl := Option.some.inj (ht.symm.trans htree)
      exact hleaf
    · intro hleaf
      obtain ⟨w, link, hlink, hat, hhome⟩ := hworld.leaf_linked htree hleaf
      exact ⟨link, ⟨⟨w, hlink⟩, hhome⟩, hat⟩
  · obtain ⟨link, hlink, hleaf, hhome⟩ := h.linked g hg
    have hvalid := hworld.link_valid hlink
    simp only [validLink, Bool.and_eq_true, Bool.not_eq_true'] at hvalid
    obtain ⟨⟨⟨⟨⟨hwindow, hnamed⟩, -⟩, -⟩, -⟩, -⟩ := hvalid
    rw [hkeyed hlink] at hwindow
    have hkey := h.keyed g hg
    rw [← hhome] at hkey
    obtain ⟨houtput, hworkspace⟩ := DomainKey.ext_iff.mp hkey
    simp only [DesiredGeometry.key, WindowLink.key] at houtput hworkspace
    simp [hwindow, ← hleaf, hnamed, h.positive g hg, hlink, houtput, hworkspace]

end

/-! ## A drag excludes a plan -/

namespace Session

section
variable {s s' : Session}

/-- A plan is pending only if it was, or nothing is dragged. -/
theorem Step.pending_cases (h : Step s s') (hpending : s'.hasPending = true) :
    s.hasPending = true ∨ s'.drag = none := by
  cases h with
  | same | withDrag _ | settings | gaps _ _ | relocated _ _ _ _ _ | synced _ _ _ _ _
    | refocused _ _ _ => exact .inl hpending
  | converged hsettled _ _ => exact .inl hpending
  | cleared _ | halted _ | staged _ _ _ _ => exact .inr rfl
  | acked _ hsome =>
    refine .inl ?_
    rw [hasPending, hsome]
    rfl
  | cancelled _ | bare _ _ _ | committed _ _ _ _ => cases hpending

/-- While a window is dragged no plan is pending. Every call that takes a
capture looks at the pending plan first, and every proposal looks at the
capture. -/
def DragAlone (s : Session) : Prop := s.drag ≠ none → s.hasPending = false

theorem DragAlone.next (h : s.DragAlone) (op : SessionOp) : (s.next op).DragAlone := by
  intro hdrag
  obtain ⟨capture, hcapture⟩ := Option.ne_none_iff_exists'.mp hdrag
  have hidle : s.hasPending = false := by
    rcases next_capture hcapture with ⟨before, hbefore, -⟩ | ⟨_, _, hbegin⟩
    · exact h (hbefore ▸ Option.some_ne_none before)
    · obtain ⟨_, hidle, -⟩ := bind_eq_ok.mp hbegin
      exact (checkIdle_ok hidle).2.1
  rw [← Bool.not_eq_true]
  intro hpending
  rcases (next_step op).pending_cases hpending with hbefore | hnone
  · rw [hidle] at hbefore
    cases hbefore
  · exact hdrag hnone

theorem dragAlone_invariant : machine.Invariant DragAlone where
  initial _ hs hdrag := absurd hs.blank.drag hdrag
  preserved _ op h := h.next op

theorem reachable_dragAlone (h : Reachable s) : s.DragAlone := dragAlone_invariant.reachable h

end

/-! ## The preview and the drop -/

section
variable {s s' : Session} {x y : Int} {observed : SessionObservation}
  {capabilities : DragCapabilities} {correlationId : CorrelationId} {capture : DragState}
  {current : Node} {domain : OutputDomain} {resolved : SharedDragResolved} {preview : DragPreview}

/-- What a drop asks of an observation and of the adapter, over what a preview
asks: the full binding of a plan, a complete observation, and the capability
to place a tile. -/
structure Droppable (s : Session) (observed : SessionObservation)
    (capabilities : DragCapabilities) : Prop where
  owner : observed.observation.owner = s.owner
  generation : observed.observation.generation = s.generation
  revision : observed.observation.revision = s.acceptedRevision
  shapes : validObservedShapes observed.windows = true
  homed : s.observedHomed observed.windows = true
  complete : observedIds observed.windows = s.knownWindows
  matching : s.observedKnownMatch observed.windows none = true
  supported : capabilities.supports .placeTiled = true

/-- What a successful preview has resolved on its way: a live session with a
capture whose tree and domain are still there, the placement at the point, and
the record of it in the session. -/
structure Previewed (s s' : Session) (x y : Int) (observed : List ObservedWindow)
    (preview : DragPreview) (capture : DragState) (current : Node) (domain : OutputDomain)
    (resolved : SharedDragResolved) : Prop where
  live : s.divergence = none
  dragged : s.drag = some capture
  context : s.dragContext capture = .ok (current, domain)
  resolves : resolveDragShared current domain s.windows s.exceptions capture x y = .ok resolved
  next : s' = s.hovering resolved.nextPrior
  shown : s.previewOf capture current resolved observed = .ok preview

theorem previewDrag_previewed {l : List ObservedWindow}
    (h : s.previewDrag x y l = (s', .ok preview)) :
    ∃ capture current domain resolved, Previewed s s' x y l preview capture current domain resolved := by
  unfold previewDrag at h
  split at h
  · cases h
  · rename_i hlive
    split at h
    · cases h
    · split at h
      · cases h
      · rename_i capture hdrag
        split at h
        · cases h
        · rename_i current domain hcontext
          split at h
          · cases h
          · rename_i resolved hresolved
            obtain ⟨rfl, hshown⟩ := Prod.mk.inj h
            exact ⟨capture, current, domain, resolved, hlive, hdrag, hcontext, hresolved, rfl,
              mapError_eq_ok.mp hshown⟩

/-- The plan of a drop carries out a preview: the same placement, and for the
dragged window the rectangle proposed. -/
structure CarriesOut (operation : DragOperation) (geometry : List DesiredGeometry)
    (preview : DragPreview) : Prop where
  targetLeaf : operation.targetLeaf = preview.targetLeaf
  targetWindow : operation.targetWindow = preview.targetWindow
  side : operation.side = preview.side
  axis : operation.axis = preview.axis
  before : operation.before = preview.before
  wrap : operation.wrap = preview.wrap
  targetGroup : operation.targetGroup = preview.targetGroup
  insertionIndex : operation.insertionIndex = preview.insertionIndex
  placed : ∃ g ∈ geometry, g.window = preview.sourceWindow
  rect : ∀ g ∈ geometry, g.window = preview.sourceWindow → g.rect = preview.proposedRect

theorem hovering_planDrop {prior : Option PriorGroupEdge} :
    (s.hovering prior).planDrop capture x y observed capabilities =
      s.planDrop capture x y observed capabilities :=
  rfl

/-- The drop plans what the preview resolved: its guards ask nothing more of
the world, and the placement it computes is the preview's, since the hover
recorded only deepens the zone the point lies in. -/
theorem Previewed.planDrop (hs : s.Valid) (hkeyed : Keyed s.windows) (hnamed : s.DragNamed)
    (hobserved : s.Droppable observed capabilities)
    (h : Previewed s s' x y observed.windows preview capture current domain resolved) :
    ∃ staging, s.planDrop { capture with prior := resolved.nextPrior } x y observed capabilities =
        .ok (staging, resolved.nextPrior) ∧
      CarriesOut staging.plan.operation staging.geometry preview := by
  have hcontext := h.context
  simp only [dragContext, bind_eq_ok, ensure_eq_ok, okOr_eq_ok, pure_eq_ok, Bool.not_eq_true',
    Prod.mk.injEq] at hcontext
  obtain ⟨_, hstale, _, htree, _, hdomain, rfl, rfl⟩ := hcontext
  have hcapture := hnamed capture h.dragged
  have hsrc := resolvable hs hkeyed hcapture hstale htree
  have hshown := h.shown
  simp only [previewOf, bind_eq_ok, ensure_eq_ok, mapError_eq_ok, okOr_eq_ok, pure_eq_ok,
    decide_eq_true_eq] at hshown
  obtain ⟨_, hmoved, geometry, hgeometry, proposed, hproposed, rfl⟩ := hshown
  -- the desired world is valid and its geometry covers it
  have hplaced : treeAt (s.trees.insert capture.domain (some resolved.placement.tree))
      capture.domain = some resolved.placement.tree := by
    rw [treeAt_insert, if_pos rfl]
  obtain ⟨hok, hcovers⟩ := projectAffectedGeometry_covers hkeyed hplaced hgeometry
  have hworld := WorldOk.retreed hs htree hok
    (fun i => resolveDragShared_leaves hsrc.ok hsrc.source h.resolves) hsrc.source
  have hcomplete := hcovers.coversAffected hkeyed hworld hplaced
  -- the entry of the source is the entry of its window
  have hproposedMem := List.mem_of_find?_eq_some hproposed
  have hproposedLeaf : proposed.leaf = capture.sourceLeaf := by
    simpa using List.find?_some hproposed
  obtain ⟨source, hsource, hsourceLeaf⟩ := hsrc.captured
  have hdistinct : (geometry.map DesiredGeometry.leaf).Nodup :=
    hcovers.leaves.nodup_iff.mpr (hok.nodup.sublist (Node.leaves_sublist_ids _))
  let operation : DragOperation :=
    { domainOutput := capture.domain.output, domainWorkspace := capture.domain.workspace
      sourceLeaf := capture.sourceLeaf, sourceWindow := capture.sourceWindow
      targetLeaf := resolved.targetLeaf, targetWindow := resolved.targetWindow
      side := resolved.side, axis := resolved.axis, before := resolved.before
      targetGroup := resolved.placement.targetGroup
      insertionIndex := resolved.placement.insertionIndex
      wrap := resolved.placement.wrap, newGroup := resolved.placement.newGroup }
  refine ⟨⟨.forOperation ⟨operation.domainOutput, operation.domainWorkspace, operation.sourceLeaf,
    operation.sourceWindow, operation.targetLeaf, operation.targetWindow, operation.side⟩ operation,
    { s.accepted with
      trees := s.trees.insert capture.domain (some resolved.placement.tree)
      focusedDomain := some capture.domain, focusedLeaf := some capture.sourceLeaf }, geometry⟩,
    ?_, ?_⟩
  · simp only [Session.planDrop, bind_eq_ok, snapUnless, ensure_eq_ok, mapError_eq_ok, pure_eq_ok,
      Prod.mk.injEq]
    refine ⟨(), validateTopology_iff.mpr hs, (), ?_, (), decide_eq_true hobserved.complete, (),
      hobserved.matching, _, h.context, resolved, resolveDragShared_remembered h.resolves, (),
      hobserved.supported, (), decide_eq_true hmoved, (), validateTopology_iff.mpr hworld,
      geometry, hgeometry, (), hcomplete, rfl, rfl⟩
    rw [hobserved.shapes, hobserved.homed]
    rfl
  · refine ⟨rfl, rfl, rfl, rfl, rfl, rfl, rfl, rfl, ⟨proposed, hproposedMem, ?_⟩,
      fun g hg hwindow => ?_⟩
    · obtain ⟨link, hlink, hleaf, -⟩ := hcovers.linked proposed hproposedMem
      exact hs.leaf_inj hlink hsource (hleaf.trans (hproposedLeaf.trans hsourceLeaf.symm))
    · obtain ⟨link, hlink, hleaf, -⟩ := hcovers.linked g hg
      dsimp only at hwindow
      rw [hwindow, hsource] at hlink
      obtain rfl := Option.some.inj hlink
      have heq : g = proposed := List.inj_on_of_nodup_map hdistinct hg hproposedMem
        (hleaf.symm.trans (hsourceLeaf.trans hproposedLeaf.symm))
      rw [heq]

/-- An idle reconciler that does not diverge takes the plan. -/
theorem proposeDrag_taken {r : Reconciler} {plan : DragPlan} {observation : Observation}
    (hidle : r.pending = none)
    (h : Reconciler.Undiverged (r.proposeDrag plan observation correlationId capabilities).2) :
    ∃ dispatch, (r.proposeDrag plan observation correlationId capabilities).2 = .ok dispatch := by
  cases hanswer : (r.proposeDrag plan observation correlationId capabilities).2 with
  | ok dispatch => exact ⟨dispatch, rfl⟩
  | error e =>
    cases e with
    | diverged reason => exact absurd hanswer (h reason)
    | pendingExists =>
      have hoffered := @Reconciler.proposeDrag_verdict r observation correlationId plan capabilities
      rw [hanswer] at hoffered
      generalize (r.proposeDrag plan observation correlationId capabilities).1 = r' at hoffered
      cases hoffered with
      | busy hpending => simp [hidle] at hpending

/-- A plan the reconciler takes is reported. -/
theorem proposeStaged_taken {P D R : Type} {staging : Staging P} {report : D → Staging P → R}
    {verdict : P → Reconciler × Except Reconciler.ProposeError D} {dispatch : D}
    (h : (verdict staging.plan).2 = .ok dispatch) :
    (s.proposeStaged (.ok staging) verdict report).2 = .ok (report dispatch staging) := by
  simp only [proposeStaged, attempt]
  generalize verdict staging.plan = answer at h ⊢
  obtain ⟨reconciler, result⟩ := answer
  obtain rfl : result = _ := h
  rfl

/-- A drop on the point of a preview plans what the preview showed: the same
placement of the same leaf, at the rectangle that was proposed for the dragged
window. -/
theorem dropDrag_carriesOut (hs : Reachable s) (hroom : s.acceptedRevision < maxRevision)
    (hobserved : s.Droppable observed capabilities)
    (hpreview : s.previewDrag x y observed.windows = (s', .ok preview)) :
    ∃ plan : SessionDragPlan,
      (s'.dropDrag x y observed correlationId capabilities).2 = .ok (.planned plan) ∧
        CarriesOut plan.dragPlan.operation plan.desiredGeometry preview := by
  obtain ⟨capture, current, domain, resolved, h⟩ := previewDrag_previewed hpreview
  have hvalid : s.Valid := (reachable_worldsOk hs).1.2
  have hkeyed := reachable_keyed hs
  have hnamed := reachable_dragNamed hs
  have hidle : s.hasPending = false := reachable_dragAlone hs (by simp [h.dragged])
  have hown := ownReconciler_invariant.reachable hs
  have hbound : s.reconciler.Bound observed.observation :=
    ⟨hobserved.owner.trans hown.1.symm, hobserved.generation.trans hown.2.symm, hobserved.revision,
      hroom⟩
  obtain ⟨staging, hplan, hcarries⟩ := h.planDrop hvalid hkeyed hnamed hobserved
  -- the hover the preview left is what the drop resolves with
  have hcapture : s'.drag = some { capture with prior := resolved.nextPrior } := by
    rw [h.next, hovering, h.dragged]
    rfl
  have hstored : s'.DragNamed := h.next ▸ hover_named hnamed
  have hs' : s'.planDrop { capture with prior := resolved.nextPrior } x y observed capabilities =
      .ok (staging, resolved.nextPrior) := by
    rw [h.next, hovering_planDrop]
    exact hplan
  obtain ⟨hsupported, intent, operation, hstaging, hintent, hoperation⟩ :=
    planDrop_valid (s := s') (h.next ▸ hvalid) (h.next ▸ hkeyed) (hstored _ hcapture) hs'
  have hpending : s'.reconciler.pending = none := by
    rw [h.next]
    exact Option.not_isSome_iff_eq_none.mp (Bool.not_eq_true _ ▸ hidle)
  have hverdict : Reconciler.Undiverged (s'.reconciler.proposeDrag staging.plan
      observed.observation correlationId capabilities).2 := by
    rw [hstaging, h.next]
    exact Reconciler.proposeDrag_undiverged h.live hbound hsupported hintent hoperation
  obtain ⟨dispatch, hdispatch⟩ := proposeDrag_taken hpending hverdict
  have hlive : s'.divergence = none := by
    rw [h.next]
    exact h.live
  have hfree : s'.hasPending = false := by
    rw [h.next]
    exact hidle
  have hanswer : ((s'.hovering resolved.nextPrior).proposeStaged (.ok staging)
      (fun plan => s'.reconciler.proposeDrag plan observed.observation correlationId capabilities)
      fun dispatch staging =>
        ({ s'.planOf dispatch staging.desired staging.geometry with
          dragPlan := staging.plan } : SessionDragPlan)).2 =
        .ok { s'.planOf dispatch staging.desired staging.geometry with dragPlan := staging.plan } :=
    proposeStaged_taken hdispatch
  refine ⟨{ s'.planOf dispatch staging.desired staging.geometry with dragPlan := staging.plan },
    ?_, hcarries⟩
  unfold dropDrag
  rw [hlive, hcapture]
  dsimp only
  rw [hfree, hs', if_neg (by decide)]
  dsimp only
  generalize (s'.hovering resolved.nextPrior).proposeStaged (.ok staging) _ _ = answer at hanswer ⊢
  obtain ⟨_, result⟩ := answer
  obtain rfl : result = _ := hanswer
  rfl

end

end Session

/-! ## Dragging across -/

namespace Sample

/-- Two tiles side by side at this revision, the left one dragged. -/
def dragged (s : Session) (revision : Nat) : Session :=
  Session.machine.run s
    [.convergeObservation (observation revision [window "v", window "w"]) (some ⟨"v"⟩),
      .beginDrag ⟨"v"⟩ (observation (revision + 1) [window "v", window "w"])]

/-- A fresh session with one revision left. -/
def worn : Session :=
  (Session.new owner generation 999999 0 [domain "A" "1"]).toOption.get (by decide +kernel)

theorem worn_reachable : Session.Reachable (dragged worn 999999) := by
  have hnew : Session.IsNew worn := by
    refine ⟨owner, generation, 999999, 0, [domain "A" "1"], ?_⟩
    cases hresult : Session.new owner generation 999999 0 [domain "A" "1"] with
    | ok s => simp [worn, hresult, Except.toOption]
    | error e =>
      have hsome : (Session.new owner generation 999999 0 [domain "A" "1"]).toOption.isSome = true := by
        decide +kernel
      rw [hresult] at hsome
      cases hsome
  exact Machine.Reachable.run (.initial hnew) _

end Sample

namespace Session

/-- Dropping the left tile on the right half of the right one. -/
theorem dropDrag_carriesOut_across : ∃ preview plan,
    ((Sample.dragged Sample.empty 0).previewDrag 900 400 [Sample.window "v", Sample.window "w"]).2 =
        .ok preview ∧
      (((Sample.dragged Sample.empty 0).previewDrag 900 400
          [Sample.window "v", Sample.window "w"]).1.dropDrag 900 400
        (Sample.observation 1 [Sample.window "v", Sample.window "w"]) Sample.correlationId
        ⟨true⟩).2 = .ok (.planned plan) ∧
      CarriesOut plan.dragPlan.operation plan.desiredGeometry preview := by
  have hsome : ((Sample.dragged Sample.empty 0).previewDrag 900 400
      [Sample.window "v", Sample.window "w"]).2.toOption.isSome = true := by decide +kernel
  cases hpreview : (Sample.dragged Sample.empty 0).previewDrag 900 400
      [Sample.window "v", Sample.window "w"] with
  | mk s' result =>
    cases result with
    | error e =>
      rw [hpreview] at hsome
      cases hsome
    | ok preview =>
      obtain ⟨plan, hplan, hcarries⟩ := @dropDrag_carriesOut _ s' 900 400
        (Sample.observation 1 [Sample.window "v", Sample.window "w"]) ⟨true⟩ Sample.correlationId
        preview (Sample.session_reachable _ _) (by decide +kernel)
        ⟨by decide +kernel, by decide +kernel, by decide +kernel, by decide +kernel,
          by decide +kernel, by decide +kernel, by decide +kernel, by decide +kernel⟩ hpreview
      exact ⟨preview, plan, rfl, hplan, hcarries⟩

/-- At the last revision the preview still shows, and the drop cannot plan. -/
theorem dropDrag_exhausted :
    Reachable (Sample.dragged Sample.worn 999999) ∧
      (Sample.dragged Sample.worn 999999).Droppable
        (Sample.observation 1000000 [Sample.window "v", Sample.window "w"]) ⟨true⟩ ∧
      ((Sample.dragged Sample.worn 999999).previewDrag 900 400
        [Sample.window "v", Sample.window "w"]).2.toOption.isSome = true ∧
      (((Sample.dragged Sample.worn 999999).previewDrag 900 400
          [Sample.window "v", Sample.window "w"]).1.dropDrag 900 400
        (Sample.observation 1000000 [Sample.window "v", Sample.window "w"]) Sample.correlationId
        ⟨true⟩).2.toOption.isNone = true :=
  ⟨Sample.worn_reachable, ⟨by decide +kernel, by decide +kernel, by decide +kernel,
    by decide +kernel, by decide +kernel, by decide +kernel, by decide +kernel, by decide +kernel⟩,
    by decide +kernel, by decide +kernel⟩

end Session

end PlasmaTiler
