import Mathlib.Data.List.Lattice
import Mathlib.Data.List.Pairwise
import Mathlib.Data.List.Perm.Subperm
import PlasmaTiler.Move

/-!
# Rearranging a tree

Forward evaluation of the tree edits. In a tree with distinct ids every
lookup has one answer: a node has one parent, a child one slot, an id one
subtree. So what an edit finds is known from the context it works in, and the
lemmas here compute it, for a list cut at an index or around an entry.

`Rearranged` is what all edits of a move guarantee of the subtree they
rewrite: the mover stays, the other leaves keep their order, and at most one
id is new. It is closed under contexts, so an edit deep in a tree is a
rearrangement of the whole, and a rearranged valid tree is valid when the new
id was free.
-/

namespace PlasmaTiler

/-! ## Lookups with one answer -/

section
variable {α : Type} {l : List α} {p : α → Bool} {a : α}

theorem find?_eq_of_unique (ha : a ∈ l) (hp : p a = true)
    (hunique : ∀ b ∈ l, p b = true → b = a) : l.find? p = some a := by
  cases hfind : l.find? p with
  | none => exact absurd hp (by simpa using List.find?_eq_none.mp hfind a ha)
  | some b =>
    have hb := hunique b (List.mem_of_find?_eq_some hfind) (List.find?_some hfind)
    rw [hb]

theorem findIdx?_append_of_forall {pre post : List α} (hpre : ∀ b ∈ pre, p b = false)
    (hp : p a = true) : (pre ++ a :: post).findIdx? p = some pre.length := by
  induction pre with
  | nil => simp [List.findIdx?_cons, hp]
  | cons b pre ih =>
    obtain ⟨hb, hpre⟩ := List.forall_mem_cons.mp hpre
    rw [List.cons_append, List.findIdx?_cons, hb, if_neg (by decide), ih hpre]
    rfl

variable {pre post : List α} {b : α}

theorem getElem?_middle : (pre ++ a :: post)[pre.length]? = some a := by simp

theorem getElem?_second : (pre ++ a :: b :: post)[pre.length + 1]? = some b := by
  rw [List.getElem?_append_right (by omega)]
  simp

theorem eraseIdx_middle : (pre ++ a :: post).eraseIdx pre.length = pre ++ post := by
  rw [List.eraseIdx_append_of_length_le (Nat.le_refl _)]
  simp

theorem insertIdx_middle : (pre ++ post).insertIdx pre.length a = pre ++ a :: post := by
  induction pre with
  | nil => simp
  | cons c pre ih => simp [ih]

theorem set_middle : (pre ++ a :: post).set pre.length b = pre ++ b :: post := by simp

/-- The adjacent entries are exchanged, whichever comes first. -/
theorem swapAt_middle : swapAt (pre ++ a :: b :: post) pre.length (pre.length + 1) =
      pre ++ b :: a :: post ∧
    swapAt (pre ++ a :: b :: post) (pre.length + 1) pre.length = pre ++ b :: a :: post := by
  have hset : ∀ c d : α, (pre ++ c :: d :: post).set (pre.length + 1) c = pre ++ c :: c :: post := by
    intro c d
    rw [List.set_append_right _ _ (by omega)]
    simp
  constructor
  · rw [swapAt, getElem?_middle, getElem?_second]
    dsimp only
    rw [set_middle, List.set_append_right _ _ (by omega)]
    simp
  · rw [swapAt, getElem?_middle, getElem?_second]
    dsimp only
    rw [hset, set_middle]

/-- Two adjacent entries replaced by one. -/
theorem join_middle {c : α} :
    (((pre ++ a :: b :: post).eraseIdx (pre.length + 1)).eraseIdx pre.length).insertIdx pre.length c =
      pre ++ c :: post := by
  have hsecond : (pre ++ a :: b :: post).eraseIdx (pre.length + 1) = pre ++ a :: post := by
    rw [List.eraseIdx_append_of_length_le (by omega)]
    simp
  rw [hsecond, eraseIdx_middle, insertIdx_middle]

/-- A list cut at an index. -/
theorem exists_cut {l : List α} {k : Nat} (h : k ≤ l.length) :
    ∃ pre post, l = pre ++ post ∧ pre.length = k :=
  ⟨l.take k, l.drop k, (List.take_append_drop k l).symm, by simp [h]⟩

/-- A list cut around an entry. -/
theorem exists_cut_around {l : List α} {k : Nat} (h : l[k]? = some a) :
    ∃ pre post, l = pre ++ a :: post ∧ pre.length = k := by
  obtain ⟨hlt, rfl⟩ := List.getElem?_eq_some_iff.mp h
  exact ⟨l.take k, l.drop (k + 1), by simp, by simp; omega⟩

end

namespace Node

variable {n m c : Node} {x : NodeId}

/-- Every node but the root is a child once. -/
theorem perm_childIds (n : Node) :
    (n.id :: n.nodes.flatMap fun k => k.children.map Node.id).Perm n.ids := by
  induction n with
  | leaf i => simp [Node.children]
  | group i axis cs shares ih =>
    have hchildren : ∀ l : List Node, l ⊆ cs →
        (l.map Node.id ++ l.flatMap fun c => c.nodes.flatMap fun k => k.children.map Node.id).Perm
          (l.flatMap Node.ids) := by
      intro l
      induction l with
      | nil => exact fun _ => .refl _
      | cons c l ihl =>
        intro hsub
        obtain ⟨hc, hsub⟩ := List.cons_subset.mp hsub
        have hhead := ih c hc
        have htail := ihl hsub
        have hmove : (c.id :: (l.map Node.id ++
            ((c.nodes.flatMap fun k => k.children.map Node.id) ++
              l.flatMap fun c => c.nodes.flatMap fun k => k.children.map Node.id))).Perm
            ((c.id :: c.nodes.flatMap fun k => k.children.map Node.id) ++
              (l.map Node.id ++ l.flatMap fun c => c.nodes.flatMap fun k => k.children.map Node.id)) := by
          rw [List.cons_append]
          refine List.Perm.cons _ ?_
          rw [← List.append_assoc, ← List.append_assoc]
          exact List.perm_append_comm.append_right _
        simpa using hmove.trans (hhead.append htail)
    have hall := hchildren cs (List.Subset.refl _)
    rw [nodes_group, ids_group, List.flatMap_cons, id_group, List.flatMap_assoc]
    exact hall.cons i

/-- With distinct ids a node has one parent. -/
theorem parent_unique (hnodup : n.ids.Nodup) {k k' c c' : Node} (hk : k ∈ n.nodes)
    (hk' : k' ∈ n.nodes) (hc : c ∈ k.children) (hc' : c' ∈ k'.children) (hid : c.id = c'.id) :
    k = k' := by
  have hchildIds := (List.nodup_cons.mp ((perm_childIds n).nodup_iff.mpr hnodup)).2
  obtain ⟨-, hpairwise⟩ := List.nodup_flatMap.mp hchildIds
  refine Classical.byContradiction fun hne => ?_
  have hsymm : Std.Symm (Function.onFun List.Disjoint fun k : Node => k.children.map Node.id) :=
    ⟨fun _ _ h => List.Disjoint.symm h⟩
  have hdisjoint := hpairwise.forall hk hk' hne
  refine hdisjoint (List.mem_map_of_mem hc) ?_
  rw [hid]
  exact List.mem_map_of_mem hc'

theorem findGroupFull_eq (hnodup : n.ids.Nodup) {i : NodeId} {axis : Axis} {cs : List Node}
    {shares : List Nat} (hm : Node.group i axis cs shares ∈ n.nodes) :
    findGroupFull n i = some (cs, shares, i, axis) := by
  have hfind : n.nodes.find? (isGroupNamed i) = some (.group i axis cs shares) := by
    refine find?_eq_of_unique hm (by simp [isGroupNamed, Node.isLeaf]) fun k hk hnamed => ?_
    simp only [isGroupNamed, Bool.and_eq_true, beq_iff_eq] at hnamed
    exact eq_of_id_eq hnodup hk hm hnamed.1
  rw [findGroupFull, hfind]
  rfl

theorem findGroup_eq (hnodup : n.ids.Nodup) {i : NodeId} {axis : Axis} {cs : List Node}
    {shares : List Nat} (hm : Node.group i axis cs shares ∈ n.nodes) :
    findGroup n i = some (cs, axis, i) := by
  rw [findGroup, findGroupFull_eq hnodup hm]
  rfl

theorem findSubtree_eq (hnodup : n.ids.Nodup) (hm : m ∈ n.nodes) :
    findSubtree n m.id = some m := by
  refine find?_eq_of_unique hm (by simp [isNamed]) fun k hk hnamed => ?_
  exact eq_of_id_eq hnodup hk hm (by simpa [isNamed] using hnamed)

theorem directParentOfLeaf_eq (hnodup : n.ids.Nodup) (hm : m ∈ n.nodes)
    (hx : Node.leaf x ∈ m.children) : directParentOfLeaf n x = some m.id := by
  have hfind : (n.nodes.find? fun k => k.children.any (isLeafNamed x)) = some m := by
    refine find?_eq_of_unique hm (List.any_eq_true.mpr ⟨_, hx, isLeafNamed_iff.mpr rfl⟩)
      fun k hk hchild => ?_
    obtain ⟨c, hc, hnamed⟩ := List.any_eq_true.mp hchild
    obtain rfl := isLeafNamed_iff.mp hnamed
    exact parent_unique hnodup hk hm hc hx rfl
  rw [directParentOfLeaf, hfind]
  rfl

theorem parentOfGroup_eq (hnodup : n.ids.Nodup) (hm : m ∈ n.nodes) (hc : c ∈ m.children) :
    parentOfGroup n c.id = some m.id := by
  have hfind : (n.nodes.find? fun k => k.children.any (isNamed c.id)) = some m := by
    refine find?_eq_of_unique hm (List.any_eq_true.mpr ⟨c, hc, by simp [isNamed]⟩)
      fun k hk hchild => ?_
    obtain ⟨d, hd, hnamed⟩ := List.any_eq_true.mp hchild
    exact parent_unique hnodup hk hm hd hc (by simpa [isNamed] using hnamed)
  rw [parentOfGroup, hfind]
  rfl

/-- The slot of a child. -/
theorem findIdx?_child (hnodup : n.ids.Nodup) {pre post : List Node} (hm : m ∈ n.nodes)
    (hchildren : m.children = pre ++ c :: post) :
    m.children.findIdx? (isNamed c.id) = some pre.length := by
  rw [hchildren]
  refine findIdx?_append_of_forall (fun b hb => ?_) (by simp [isNamed])
  have hchildIds := (List.nodup_cons.mp ((perm_childIds n).nodup_iff.mpr hnodup)).2
  have hslots := (List.nodup_flatMap.mp hchildIds).1 m hm
  rw [hchildren, List.map_append, List.map_cons, List.nodup_append] at hslots
  have hne := hslots.2.2 b.id (List.mem_map_of_mem hb) c.id List.mem_cons_self
  simpa [isNamed] using hne

end Node

theorem Context.mem_nodes_fill {ctx : Context} {m : Node} : m ∈ (ctx.fill m).nodes :=
  Node.mem_nodes_iff.mpr ⟨ctx, rfl⟩

theorem treeOk_of_removed {n n' : Node} {leaf : NodeId} (hok : TreeOk n) (h : Removed n n' leaf) :
    TreeOk n' where
  wellFormed := h.wellFormed
  nodup := hok.nodup.sublist h.ids
  nonempty i hi := hok.nonempty i (h.ids.subset hi)

/-! ## What a move does to a subtree -/

/-- The mover stays, the other leaves keep their order, and at most one id is
new. -/
structure Rearranged (n n' : Node) (x fresh : NodeId) : Prop where
  ids : n'.ids.Subperm (fresh :: n.ids)
  leaves : n'.leaves.filter (· ≠ x) = n.leaves.filter (· ≠ x)
  mem : x ∈ n'.leaves
  wellFormed : n'.WellFormed

section
variable {ctx : Context} {n n' m m' : Node} {x fresh : NodeId}

theorem Rearranged.fill (h : Rearranged m m' x fresh) (hctx : ctx.Ok) :
    Rearranged (ctx.fill m) (ctx.fill m') x fresh where
  ids := by
    rw [Context.ids_fill, Context.ids_fill]
    have hinner : (ctx.idsBefore ++ m'.ids ++ ctx.idsAfter).Subperm
        (ctx.idsBefore ++ (fresh :: m.ids) ++ ctx.idsAfter) := by
      rw [List.append_assoc, List.append_assoc]
      exact (List.subperm_append_left _).mpr ((List.subperm_append_right _).mpr h.ids)
    refine hinner.trans (List.Perm.subperm ?_)
    rw [List.append_assoc, List.cons_append, List.append_assoc]
    exact List.perm_middle
  leaves := by
    rw [Context.leaves_fill, Context.leaves_fill]
    simp only [List.filter_append, h.leaves]
  mem := by
    rw [Context.leaves_fill]
    exact List.mem_append_left _ (List.mem_append_right _ h.mem)
  wellFormed := Context.wellFormed_fill.mpr ⟨hctx, h.wellFormed⟩

/-- A rearranged valid tree is valid when the new id is. -/
theorem Rearranged.treeOk (h : Rearranged n n' x fresh) (hok : TreeOk n) (hfresh : fresh ∉ n.ids)
    (hnamed : fresh.isEmpty = false) : TreeOk n' where
  wellFormed := h.wellFormed
  nodup := by
    obtain ⟨l, hperm, hsub⟩ := h.ids
    exact hperm.nodup_iff.mp ((List.nodup_cons.mpr ⟨hfresh, hok.nodup⟩).sublist hsub)
  nonempty i hi := by
    rcases List.mem_cons.mp (h.ids.subset hi) with rfl | hmem
    · exact hnamed
    · exact hok.nonempty i hmem

theorem Rearranged.mem_leaves (h : Rearranged n n' x fresh) (hx : x ∈ n.leaves) {y : NodeId} :
    y ∈ n'.leaves ↔ y ∈ n.leaves := by
  by_cases hy : y = x
  · rw [hy]
    exact iff_of_true h.mem hx
  · have hfilter : ∀ l : List NodeId, y ∈ l.filter (· ≠ x) ↔ y ∈ l := fun l => by
      simp [List.mem_filter, hy]
    rw [← hfilter, h.leaves, hfilter]

end

/-! ## The mover's place -/

namespace Context

/-- The levels of the path to the hole, outermost first. -/
def levels : Context → Node → List PathLevel
  | [], _ => []
  | f :: ctx, n => ⟨f.id, f.axis, f.before.length, f.before ++ fill ctx n :: f.after⟩ :: levels ctx n

variable {ctx : Context} {f : Frame} {n : Node}

theorem levels_concat : levels (ctx ++ [f]) n =
    levels ctx (f.fill n) ++ [⟨f.id, f.axis, f.before.length, f.before ++ n :: f.after⟩] := by
  induction ctx with
  | nil => rfl
  | cons g ctx ih =>
    rw [List.cons_append, levels, ih, fill_concat]
    rfl

end Context

/-- A path found leads through a context to the leaf. -/
theorem pathTo_context {n : Node} {x : NodeId} {path : List PathLevel}
    (h : pathTo x n = some path) :
    ∃ ctx : Context, n = ctx.fill (.leaf x) ∧ path = ctx.levels (.leaf x) := by
  induction n generalizing path with
  | leaf i =>
    rw [pathTo] at h
    split at h
    · rename_i heq
      cases h
      exact ⟨[], by rw [heq]; rfl, rfl⟩
    · cases h
  | group i axis cs shares ih =>
    have hfrom : ∀ (before rest : List Node) (path : List PathLevel), cs = before ++ rest →
        pathToFrom x i axis cs before.length rest = some path →
        ∃ ctx : Context, Node.group i axis cs shares = ctx.fill (.leaf x) ∧
          path = ctx.levels (.leaf x) := by
      intro before rest
      induction rest generalizing before with
      | nil => intro path _ h; cases h
      | cons c rest ihr =>
        intro path hcs h
        rw [pathToFrom] at h
        split at h
        · rename_i inner hinner
          cases h
          have hc : c ∈ cs := hcs ▸ List.mem_append_right _ List.mem_cons_self
          obtain ⟨ctx, rfl, rfl⟩ := ih c hc hinner
          exact ⟨⟨i, axis, before, rest, shares⟩ :: ctx, by rw [hcs]; rfl, by rw [hcs]; rfl⟩
        · exact ihr (before ++ [c]) path (by simp [hcs]) (by simpa using h)
    rw [pathTo] at h
    exact hfrom [] cs path rfl h

section
variable {ctx : Context} {f : Frame} {x : NodeId} {n : Node}

theorem Frame.children_fill : (f.fill n).children = f.before ++ n :: f.after := rfl

theorem Frame.mem_nodes_fill : f.fill n ∈ (ctx.fill (f.fill n)).nodes := Context.mem_nodes_fill

/-- The mover among the children of its parent. -/
theorem moverIn_fill (hnodup : (ctx.fill (f.fill (.leaf x))).ids.Nodup) :
    moverIn (ctx.fill (f.fill (.leaf x))) f.id x =
      some ⟨f.before ++ .leaf x :: f.after, f.shares, f.id, f.axis, f.before.length⟩ := by
  have hfull : findGroupFull (ctx.fill (f.fill (.leaf x))) f.id =
      some (f.before ++ .leaf x :: f.after, f.shares, f.id, f.axis) :=
    Node.findGroupFull_eq hnodup Frame.mem_nodes_fill
  have hchild : Node.leaf x ∈ (f.fill (.leaf x)).children := by
    rw [Frame.children_fill]
    simp
  have hparent : directParentOfLeaf (ctx.fill (f.fill (.leaf x))) x = some f.id :=
    Node.directParentOfLeaf_eq hnodup Frame.mem_nodes_fill hchild
  have hslot : (f.before ++ .leaf x :: f.after).findIdx? (isNamed x) = some f.before.length :=
    Node.findIdx?_child hnodup (Frame.mem_nodes_fill (n := .leaf x)) rfl
  simp [moverIn, hfull, hparent, hslot]

/-- Lifting the mover closes its parent. -/
theorem remove_fill (hok : TreeOk (ctx.fill (f.fill (.leaf x)))) :
    ∃ s, f.close = some s ∧ Removed (f.fill (.leaf x)) s x ∧
      removeLeafFromTree (some (ctx.fill (f.fill (.leaf x)))) x = some (ctx.fill s) ∧
      TreeOk (ctx.fill s) := by
  obtain ⟨hctx, hframe⟩ := Context.wellFormed_fill.mp hok.wellFormed
  obtain ⟨hf, -⟩ := Frame.wellFormed_fill.mp hframe
  have hfresh := not_mem_around_leaf (hok.nodup.sublist (Node.leaves_sublist_ids _))
  simp only [List.mem_append, List.mem_flatMap, not_or, not_exists, not_and] at hfresh
  obtain ⟨s, hs, -⟩ := Frame.close_spec hf
  have hinner : removeNode x (f.fill (.leaf x)) = some s := by
    rw [removeNode_frame hf hfresh.1.2 hfresh.2.1, hs]
  have houter : removeNode x (ctx.fill (f.fill (.leaf x))) = some (ctx.fill s) :=
    removeNode_fill hfresh.1.1 hfresh.2.2 hinner
  have hids : (ctx.fill (f.fill (.leaf x))).ids = _ := Context.ids_fill
  have hnodup : (f.fill (.leaf x)).ids.Nodup := by
    have hall := hok.nodup
    rw [hids] at hall
    exact ((List.nodup_append.mp hall).1 |> List.nodup_append.mp).2.1
  have hmem : ∀ c : Context, x ∈ (c.fill (f.fill (.leaf x))).leaves := by
    intro c
    rw [Context.leaves_fill, Frame.fill, Node.leaves_group]
    simp
  refine ⟨s, hs, removeNode_removed hframe hnodup (hmem []) hinner, houter, ?_⟩
  exact treeOk_of_removed hok (removeNode_removed hok.wellFormed hok.nodup (hmem ctx) houter)

end

end PlasmaTiler
