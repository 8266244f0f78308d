import PlasmaTiler.Drag
import PlasmaTiler.PlainProjection

/-!
# What the resolver sees of a group

The resolver knows a group only through the rectangles of its leaves: the
union is taken for the group's rectangle, the least start for a child's. The
projector knows what it handed each group and each child. The two agree,
since a tiled layout touches every side of what it was handed (`Touches`):
some leaf starts where the rectangle does, and some leaf ends there.

With `Handed` the agreement is carried to every group of a projected tree at
once: the group is found in the index by its id, the layout found is its own,
and its child starts are the starts of the segments (`childStart`).
-/

namespace PlasmaTiler

/-! ## Indexing a list -/

section
variable {κ V ι : Type} [Ord κ] [Std.TransOrd κ] [Std.LawfulEqOrd κ] [DecidableEq κ] {key : ι → κ}
  {val : ι → V} {l : List ι} {a : ι} {k : κ}

theorem lookup_foldl_insert_of_not_mem {m : BTreeMap κ V} (h : k ∉ l.map key) :
    (l.foldl (fun m a => m.insert (key a) (val a)) m)[k]? = m[k]? := by
  induction l generalizing m with
  | nil => rfl
  | cons b l ih =>
    rw [List.map_cons, List.mem_cons, not_or] at h
    rw [List.foldl_cons, ih h.2, lookup_insert, if_neg (Ne.symm h.1)]

/-- An index of entries with distinct keys finds each of them. -/
theorem lookup_foldl_insert {m : BTreeMap κ V} (hnodup : (l.map key).Nodup) (ha : a ∈ l) :
    (l.foldl (fun m a => m.insert (key a) (val a)) m)[key a]? = some (val a) := by
  induction l generalizing m with
  | nil => exact absurd ha List.not_mem_nil
  | cons b l ih =>
    rw [List.map_cons, List.nodup_cons] at hnodup
    rw [List.foldl_cons]
    rcases List.mem_cons.mp ha with rfl | ha
    · rw [lookup_foldl_insert_of_not_mem hnodup.1, lookup_insert, if_pos rfl]
    · exact ih hnodup.2 ha

/-- What an index finds is one of its entries, under its own key. -/
theorem mem_of_lookup_foldl_insert {v : V}
    (h : (l.foldl (fun m a => m.insert (key a) (val a)) (∅ : BTreeMap κ V))[k]? = some v) :
    ∃ a ∈ l, key a = k ∧ val a = v := by
  have hgeneral : ∀ m : BTreeMap κ V,
      (l.foldl (fun m a => m.insert (key a) (val a)) m)[k]? = some v →
        m[k]? = some v ∨ ∃ a ∈ l, key a = k ∧ val a = v := by
    clear h
    induction l with
    | nil => exact fun m h => .inl h
    | cons b l ih =>
      intro m h
      rw [List.foldl_cons] at h
      rcases ih _ h with h | ⟨a, ha, hk, hv⟩
      · rw [lookup_insert] at h
        split at h
        · exact .inr ⟨b, List.mem_cons_self, ‹_›, Option.some.inj h⟩
        · exact .inl h
      · exact .inr ⟨a, List.mem_cons_of_mem _ ha, hk, hv⟩
  rcases hgeneral ∅ h with h | h
  · simp at h
  · exact h

end

/-! ## A layout touches every side -/

section
variable {gap : Int} {n m tree : Node} {rect r bounds : Rect} {axis : Axis} {out : List ProjectedLeaf}

/-- Some leaf starts where the rectangle does, and some leaf ends there, along
either axis. The bounding box of the leaves is then the rectangle. -/
def Touches (rect : Rect) (out : List ProjectedLeaf) : Prop :=
  ∀ axis, (∃ p ∈ out, p.rect.start axis = rect.start axis) ∧
    ∃ p ∈ out, p.rect.start axis + p.rect.extent axis = rect.start axis + rect.extent axis

theorem Touches.append {cursor size next : Int} {here rest : List ProjectedLeaf}
    (hhere : Touches (rect.segment axis cursor size) here)
    (hrest : Touches (rect.strip axis next) rest) :
    Touches (rect.strip axis cursor) (here ++ rest) := by
  intro side
  obtain ⟨⟨p, hp, hstart⟩, q, hq, hend⟩ := hhere side
  obtain ⟨-, k, hk, hlast⟩ := hrest side
  refine ⟨⟨p, List.mem_append_left _ hp, ?_⟩, ?_⟩
  · rw [hstart]
    cases axis <;> cases side <;> rfl
  · by_cases hside : side = axis
    · refine ⟨k, List.mem_append_right _ hk, ?_⟩
      rw [hlast, hside, Rect.strip, Rect.strip]
      simp only [Rect.segment_start, Rect.segment_extent]
      omega
    · refine ⟨q, List.mem_append_left _ hq, ?_⟩
      rw [hend]
      cases axis <;> cases side <;> first | exact absurd rfl hside | rfl

theorem Tiled.touches (hwf : n.WellFormed) (h : Tiled gap n rect out) : Touches rect out := by
  induction n generalizing rect out with
  | leaf id =>
    rw [Tiled] at h
    subst h
    exact fun side => ⟨⟨_, List.mem_singleton_self _, rfl⟩, _, List.mem_singleton_self _, rfl⟩
  | group id axis children shares ih =>
    obtain ⟨⟨hlen, -⟩, hcs⟩ := Node.wellFormed_group.mp hwf
    have hne : children ≠ [] := List.ne_nil_of_length_pos (by omega)
    clear hlen hwf
    rw [Tiled] at h
    rw [← Rect.strip_start rect axis]
    generalize rect.start axis = cursor at h
    induction children generalizing cursor out with
    | nil => exact absurd rfl hne
    | cons child children ihc =>
      obtain ⟨hchild, hcs⟩ := List.forall_mem_cons.mp hcs
      cases children with
      | nil =>
        rw [TiledFrom] at h
        exact ih child List.mem_cons_self hchild h
      | cons next children =>
        rw [TiledFrom] at h
        obtain ⟨size, here, rest, rfl, hhere, hrest⟩ := h
        exact Touches.append (ih child List.mem_cons_self hchild hhere)
          (ihc (fun c hc => ih c (List.mem_cons_of_mem _ hc)) hcs (by simp) _ hrest)

theorem start_eq_along : r.start axis = (r.along axis).1 := by cases axis <;> rfl

theorem extent_eq_along : r.extent axis = (r.along axis).2 := by cases axis <;> rfl

/-- The least start and the greatest end over a layout. -/
theorem Touches.min_start (h : Touches rect out) (hin : ∀ p ∈ out, p.rect.Within rect) (axis : Axis) :
    (out.map fun p => p.rect.start axis).min? = some (rect.start axis) := by
  obtain ⟨⟨p, hp, hstart⟩, -⟩ := h axis
  refine List.min?_eq_some_iff.mpr ⟨List.mem_map.mpr ⟨p, hp, hstart⟩, fun b hb => ?_⟩
  obtain ⟨q, hq, rfl⟩ := List.mem_map.mp hb
  exact (hin q hq axis).1

theorem Touches.max_end (h : Touches rect out) (hin : ∀ p ∈ out, p.rect.Within rect) (axis : Axis) :
    (out.map fun p => p.rect.start axis + p.rect.extent axis).max? =
      some (rect.start axis + rect.extent axis) := by
  obtain ⟨-, p, hp, hend⟩ := h axis
  refine List.max?_eq_some_iff.mpr ⟨List.mem_map.mpr ⟨p, hp, hend⟩, fun b hb => ?_⟩
  obtain ⟨q, hq, rfl⟩ := List.mem_map.mp hb
  exact (hin q hq axis).2

/-! ## The leaves of a subtree that was handed a rectangle -/

/-- The layout of a subtree inside a projection: a part of what is listed,
well formed in the rectangle the subtree was handed, and touching all its
sides. -/
structure LaidOut (gap : Int) (m : Node) (r : Rect) (out here : List ProjectedLeaf) : Prop where
  subset : here ⊆ out
  layout : ProjectionWellFormed m r gap here
  touches : Touches r here
  fits : r.Fits

theorem Handed.layout (h : Handed gap tree bounds m r) (hout : project tree bounds gap = .ok out) :
    ∃ here, LaidOut gap m r out here := by
  obtain ⟨hrect, hgap, ⟨hwf, -⟩, hlaid⟩ := project_eq_ok.mp hout
  obtain ⟨hwfm, hfits⟩ := h.fits hwf hgap (fits_of_validRect hrect)
  obtain ⟨here, hsub, hhere⟩ := h.laidOut hlaid
  have htiled := layoutWith_tiled exhausts_splitProportional hwfm hhere
  have hpos := layoutWith_positive generous_splitProportional hwfm (fun axis => (hfits axis).1) hhere
  exact ⟨here, hsub, projectionWellFormed_of_tiled hwfm hgap htiled hpos, htiled.touches hwfm, hfits⟩

/-! ## Leaf rectangles by id -/

theorem leafRectsOf_get {p : ProjectedLeaf} (hnodup : (out.map ProjectedLeaf.leaf).Nodup)
    (hp : p ∈ out) : (leafRectsOf out)[p.leaf]? = some p.rect :=
  lookup_foldl_insert hnodup hp

theorem treeOk_of_project (h : project tree bounds gap = .ok out) : TreeOk tree := by
  obtain ⟨-, -, ⟨hwf, hfresh⟩, -⟩ := project_eq_ok.mp h
  have hids : tree.ids.Nodup ∧ ∀ i ∈ tree.ids, i.isEmpty = false := by
    simpa [FreshIds, and_comm] using hfresh
  exact ⟨hwf, hids.1, hids.2⟩

theorem nodup_projected (hnodup : tree.ids.Nodup) (hout : project tree bounds gap = .ok out) :
    (out.map ProjectedLeaf.leaf).Nodup := by
  rw [(project_wellFormed hout).leaves]
  exact hnodup.sublist (Node.leaves_sublist_ids tree)

theorem LaidOut.rects {here : List ProjectedLeaf} (h : LaidOut gap m r out here)
    (hnodup : (out.map ProjectedLeaf.leaf).Nodup) :
    (m.leaves.filterMap fun leaf => (leafRectsOf out)[leaf]?) = here.map ProjectedLeaf.rect := by
  rw [← h.layout.leaves, List.filterMap_map, ← List.filterMap_eq_map]
  exact List.filterMap_congr fun p hp => leafRectsOf_get hnodup (h.subset hp)

/-! ## Group rectangles and child starts -/

/-- Where a child of a group starts. -/
def childStart (gap : Int) (axis : Axis) (children : List Node) (shares : List Nat) (rect : Rect)
    (i : Nat) : Int :=
  rect.start axis + ((groupSizes gap children shares (rect.extent axis)).take i).sum + gap * i

theorem IntRange.getD_check {range : IntRange} {n fallback : Int} (hlo : range.lo ≤ n)
    (hhi : n ≤ range.hi) : (range.check n).getD fallback = n := by
  rw [IntRange.check, if_pos ⟨hlo, hhi⟩]
  rfl

/-- A group is known by what the projector handed it: its rectangle and the
starts of its children. -/
theorem groupLayout_handed {id : NodeId} {children : List Node} {shares : List Nat}
    (hnodup : tree.ids.Nodup) (hout : project tree bounds gap = .ok out)
    (h : Handed gap tree bounds (.group id axis children shares) r) :
    ∃ starts, groupLayout (leafRectsOf out) (.group id axis children shares) =
        some ⟨id, axis, r, starts⟩ ∧
      starts.length = children.length ∧
      ∀ i < children.length, starts[i]? = some (childStart gap axis children shares r i) := by
  have hleaves := nodup_projected hnodup hout
  obtain ⟨here, hhere⟩ := h.layout hout
  have hrects := hhere.rects hleaves
  have hmin := hhere.touches.min_start hhere.layout.contained
  have hmax := hhere.touches.max_end hhere.layout.contained
  have hx : ((here.map ProjectedLeaf.rect).map Rect.x).min? = some r.x := by
    rw [List.map_map]
    exact hmin .horizontal
  have hy : ((here.map ProjectedLeaf.rect).map Rect.y).min? = some r.y := by
    rw [List.map_map]
    exact hmin .vertical
  have hx' : ((here.map ProjectedLeaf.rect).map fun r => r.x + r.w).max? = some (r.x + r.w) := by
    rw [List.map_map]
    exact hmax .horizontal
  have hy' : ((here.map ProjectedLeaf.rect).map fun r => r.y + r.h).max? = some (r.y + r.h) := by
    rw [List.map_map]
    exact hmax .vertical
  have hw := hhere.fits .horizontal
  have hh := hhere.fits .vertical
  simp only [Rect.start, Rect.extent, IntRange.i32] at hw hh
  have hrect : Rect.mk ((IntRange.i32.check r.x).getD IntRange.i32.lo)
      ((IntRange.i32.check r.y).getD IntRange.i32.lo) ((IntRange.i32.check (r.x + r.w - r.x)).getD 0)
      ((IntRange.i32.check (r.y + r.h - r.y)).getD 0) = r := by
    have hdx : r.x + r.w - r.x = r.w := by omega
    have hdy : r.y + r.h - r.y = r.h := by omega
    rw [hdx, hdy, IntRange.getD_check, IntRange.getD_check, IntRange.getD_check,
      IntRange.getD_check] <;> simp only [IntRange.i32] <;> omega
  refine ⟨children.map fun child => ((child.leaves.filterMap fun leaf =>
    (leafRectsOf out)[leaf]?).map fun r => (r.along axis).1).min?.getD 0, ?_, List.length_map ..,
    fun i hi => ?_⟩
  · rw [groupLayout]
    simp only [hrects, hx, hy, hx', hy', Option.bind_eq_bind, Option.bind_some, hrect]
    rfl
  · have hfilled := h.filled hout
    have hchild := List.getElem?_eq_getElem hi
    have hsize := List.getElem?_eq_getElem (hfilled.count ▸ hi)
    obtain ⟨inner, hinner⟩ := (Handed.child h (h.room (project_eq_ok.mp hout).2.2.2) hchild hsize).layout hout
    have hstart := hinner.touches.min_start hinner.layout.contained axis
    rw [List.getElem?_map, hchild, Option.map_some, hinner.rects hleaves, List.map_map]
    rw [Rect.segment_start] at hstart
    rw [← show (fun p : ProjectedLeaf => p.rect.start axis) =
      (fun r => (r.along axis).1) ∘ ProjectedLeaf.rect from funext fun p => start_eq_along, hstart]
    rfl

/-! ## Groups by id -/

/-- Every subtree of a projected tree was handed a rectangle. -/
theorem Handed.of_mem (hwf : n.WellFormed) (hgap : 0 ≤ gap) (hfits : rect.Fits)
    (hlaid : layoutInto gap n rect = .ok out) (hm : m ∈ n.nodes) : ∃ r, Handed gap n rect m r := by
  have hroom : ∀ {id axis children shares r},
      Handed gap n rect (.group id axis children shares) r →
        neededExtent gap children ≤ r.extent axis := fun h => h.room hlaid
  clear hlaid
  induction n generalizing rect with
  | leaf id =>
    rw [Node.nodes_leaf, List.mem_singleton] at hm
    exact ⟨rect, hm ▸ .root⟩
  | group id axis children shares ih =>
    rw [Node.nodes_group] at hm
    rcases List.mem_cons.mp hm with rfl | hm
    · exact ⟨rect, .root⟩
    · obtain ⟨c, hc, hm⟩ := List.mem_flatMap.mp hm
      obtain ⟨i, hi, rfl⟩ := List.mem_iff_getElem.mp hc
      obtain ⟨hgroup, hcs⟩ := Node.wellFormed_group.mp hwf
      have hhere := hroom .root
      obtain ⟨hcount, -, -⟩ := groupSizes_spec hgroup hgap hfits hhere
      have hsize := List.getElem?_eq_getElem (hcount ▸ hi)
      have hchild := Handed.child (@Handed.root gap (.group id axis children shares) rect) hhere
        (List.getElem?_eq_getElem hi) hsize
      obtain ⟨r, hr⟩ := ih _ hc (hcs _ hc) (handed_segment_fits hgroup hgap hfits hhere hsize) hm
        fun h => hroom (hchild.trans h)
      exact ⟨r, hchild.trans hr⟩

theorem groupLayout_id {leafRects : BTreeMap NodeId Rect} {layout : GroupLayout}
    (h : groupLayout leafRects n = some layout) : layout.id = n.id := by
  cases n with
  | leaf id => cases h
  | group id axis children shares =>
    simp only [groupLayout, Option.bind_eq_bind, Option.bind_eq_some_iff] at h
    obtain ⟨_, -, _, -, _, -, _, -, h⟩ := h
    obtain rfl := Option.some.inj h
    rfl

theorem nodup_dragGroupLayouts {leafRects : BTreeMap NodeId Rect} (hnodup : tree.ids.Nodup) :
    ((dragGroupLayouts tree leafRects).map GroupLayout.id).Nodup := by
  rw [← Node.map_id_nodes] at hnodup
  refine hnodup.sublist ?_
  unfold dragGroupLayouts
  induction tree.nodes with
  | nil => simp
  | cons k nodes ih =>
    cases hk : groupLayout leafRects k with
    | none =>
      rw [List.filterMap_cons_none hk, List.map_cons]
      exact ih.cons _
    | some layout =>
      rw [List.filterMap_cons_some hk, List.map_cons, List.map_cons, groupLayout_id hk]
      exact ih.cons_cons _

theorem layoutsOf_get {leafRects : BTreeMap NodeId Rect} {layout : GroupLayout}
    (hnodup : tree.ids.Nodup) (hm : m ∈ tree.nodes) (h : groupLayout leafRects m = some layout) :
    (layoutsOf tree leafRects)[m.id]? = some layout := by
  rw [← groupLayout_id h]
  unfold layoutsOf
  exact lookup_foldl_insert (nodup_dragGroupLayouts hnodup) (List.mem_filterMap.mpr ⟨m, hm, h⟩)

theorem layoutsOf_id {leafRects : BTreeMap NodeId Rect} {layout : GroupLayout} {id : NodeId}
    (h : (layoutsOf tree leafRects)[id]? = some layout) : layout.id = id := by
  unfold layoutsOf at h
  obtain ⟨found, -, hid, rfl⟩ := mem_of_lookup_foldl_insert h
  exact hid

theorem Handed.mem (h : Handed gap tree bounds m r) : m ∈ tree.nodes := by
  induction h with
  | root => exact Node.self_mem_nodes _
  | child _ _ hchild _ ih =>
    refine Node.nodes_subset ih ?_
    rw [Node.nodes_group]
    exact List.mem_cons_of_mem _
      (List.mem_flatMap.mpr ⟨_, List.mem_of_getElem? hchild, Node.self_mem_nodes _⟩)

end

end PlasmaTiler
