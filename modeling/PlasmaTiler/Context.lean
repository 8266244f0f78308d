import Mathlib.Data.List.Nodup
import PlasmaTiler.Topology

/-!
# One-hole contexts

Every tree edit of the session rewrites one subtree and leaves the rest of
the tree where it is. A `Context` is that rest: the groups from the root down
to the hole, each with the siblings left and right of it. Filling the hole
gives the tree, and ids, leaves and well-formedness of a filled context are
those of the context and those of what fills it.

`updateAt` is the descent all the edits share, and the two lemmas about it
say that an edit which succeeds is a replacement inside a context, and that
an edit of a context's hole is found again when the ids are distinct. With
these an edit is described once, on the subtree alone.
-/

namespace PlasmaTiler

/-- One group around the hole. -/
structure Frame where
  id : NodeId
  axis : Axis
  before : List Node
  after : List Node
  shares : List Nat

/-- The group with its hole filled. -/
def Frame.fill (f : Frame) (n : Node) : Node :=
  .group f.id f.axis (f.before ++ n :: f.after) f.shares

/-- The group rules of a frame, with the siblings it carries. -/
def Frame.Ok (f : Frame) : Prop :=
  (1 ≤ f.before.length + f.after.length ∧
    f.shares.length = f.before.length + 1 + f.after.length ∧
    (∀ s ∈ f.shares, 0 < s) ∧ f.shares.sum < u64Size) ∧
  ∀ c ∈ f.before ++ f.after, c.WellFormed

theorem Frame.wellFormed_fill {f : Frame} {n : Node} :
    (f.fill n).WellFormed ↔ f.Ok ∧ n.WellFormed := by
  rw [fill, Node.wellFormed_group]
  simp only [Ok, List.forall_mem_append, List.forall_mem_cons, List.length_append,
    List.length_cons]
  constructor
  · rintro ⟨⟨hlen, hshares, hpos, hsum⟩, hbefore, hn, hafter⟩
    exact ⟨⟨⟨by omega, by omega, hpos, hsum⟩, hbefore, hafter⟩, hn⟩
  · rintro ⟨⟨⟨hlen, hshares, hpos, hsum⟩, hbefore, hafter⟩, hn⟩
    exact ⟨⟨by omega, by omega, hpos, hsum⟩, hbefore, hn, hafter⟩

/-- The groups around the hole, outermost first. -/
abbrev Context := List Frame

/-- The tree with its hole filled. -/
def Context.fill (ctx : Context) (n : Node) : Node := ctx.foldr Frame.fill n

namespace Context

variable {ctx : Context} {f : Frame} {n m m' : Node}

@[simp] theorem fill_nil : fill [] n = n := rfl

@[simp] theorem fill_cons : fill (f :: ctx) n = f.fill (fill ctx n) := rfl

theorem fill_append {ctx' : Context} : fill (ctx ++ ctx') n = fill ctx (fill ctx' n) := by
  simp [fill]

theorem fill_concat : fill (ctx ++ [f]) n = fill ctx (f.fill n) := fill_append

/-! ## Identities, leaves and rules of a filled context -/

/-- Ids met before the hole, in preorder. -/
def idsBefore : Context → List NodeId
  | [] => []
  | f :: ctx => f.id :: f.before.flatMap Node.ids ++ idsBefore ctx

/-- Ids met after the hole, in preorder. -/
def idsAfter : Context → List NodeId
  | [] => []
  | f :: ctx => idsAfter ctx ++ f.after.flatMap Node.ids

/-- Leaves left of the hole. -/
def leavesBefore : Context → List NodeId
  | [] => []
  | f :: ctx => f.before.flatMap Node.leaves ++ leavesBefore ctx

/-- Leaves right of the hole. -/
def leavesAfter : Context → List NodeId
  | [] => []
  | f :: ctx => leavesAfter ctx ++ f.after.flatMap Node.leaves

/-- Every group of the context obeys the group rules, whatever fills the
hole, and so does everything beside the path. -/
def Ok (ctx : Context) : Prop := ∀ f ∈ ctx, f.Ok

theorem ids_fill : (ctx.fill n).ids = idsBefore ctx ++ n.ids ++ idsAfter ctx := by
  induction ctx with
  | nil => simp [idsBefore, idsAfter]
  | cons f ctx ih => simp [Frame.fill, ih, idsBefore, idsAfter]

theorem leaves_fill : (ctx.fill n).leaves = leavesBefore ctx ++ n.leaves ++ leavesAfter ctx := by
  induction ctx with
  | nil => simp [leavesBefore, leavesAfter]
  | cons f ctx ih => simp [Frame.fill, ih, leavesBefore, leavesAfter]

theorem wellFormed_fill : (ctx.fill n).WellFormed ↔ ctx.Ok ∧ n.WellFormed := by
  induction ctx with
  | nil => simp [Ok]
  | cons f ctx ih =>
    rw [fill_cons, Frame.wellFormed_fill, ih]
    simp only [Ok, List.forall_mem_cons, and_assoc]

end Context

namespace Node

variable {n m m' : Node}

/-! ## Subtrees and contexts -/

theorem map_id_nodes (n : Node) : n.nodes.map Node.id = n.ids := by
  induction n with
  | leaf i => simp
  | group i axis cs shares ih =>
    simp only [nodes_group, ids_group, List.map_cons, id_group, List.map_flatMap, List.cons.injEq,
      true_and]
    induction cs with
    | nil => simp
    | cons c cs ihc =>
      rw [List.flatMap_cons, List.flatMap_cons, ih c List.mem_cons_self,
        ihc fun d hd => ih d (List.mem_cons_of_mem _ hd)]

/-- A subtree is what fills some context. -/
theorem mem_nodes_iff : m ∈ n.nodes ↔ ∃ ctx : Context, n = ctx.fill m := by
  constructor
  · induction n with
    | leaf i =>
      intro h
      obtain rfl : m = .leaf i := by simpa using h
      exact ⟨[], rfl⟩
    | group i axis cs shares ih =>
      intro h
      rcases List.mem_cons.mp (nodes_group i axis cs shares ▸ h) with rfl | h
      · exact ⟨[], rfl⟩
      · obtain ⟨c, hc, hm⟩ := List.mem_flatMap.mp h
        obtain ⟨ctx, rfl⟩ := ih c hc hm
        obtain ⟨before, after, rfl⟩ := List.append_of_mem hc
        exact ⟨⟨i, axis, before, after, shares⟩ :: ctx, rfl⟩
  · rintro ⟨ctx, rfl⟩
    induction ctx with
    | nil => exact m.self_mem_nodes
    | cons f ctx ih =>
      rw [Context.fill_cons, Frame.fill, nodes_group]
      exact List.mem_cons_of_mem _ (List.mem_flatMap.mpr ⟨_, by simp, ih⟩)

/-- With distinct ids a subtree is known by its id. -/
theorem eq_of_id_eq (hnodup : n.ids.Nodup) (hm : m ∈ n.nodes) (hm' : m' ∈ n.nodes)
    (h : m.id = m'.id) : m = m' := by
  rw [← map_id_nodes] at hnodup
  exact List.inj_on_of_nodup_map hnodup hm hm' h

theorem nodes_subset (h : m ∈ n.nodes) : m.nodes ⊆ n.nodes := by
  intro k hk
  obtain ⟨ctx, rfl⟩ := mem_nodes_iff.mp h
  obtain ⟨ctx', rfl⟩ := mem_nodes_iff.mp hk
  exact mem_nodes_iff.mpr ⟨ctx ++ ctx', Context.fill_append.symm⟩

theorem WellFormed.of_mem (hwf : n.WellFormed) (h : m ∈ n.nodes) : m.WellFormed :=
  fun k hk => hwf k (nodes_subset h hk)

/-- The leaves are the ids of the leaf subtrees. -/
theorem mem_leaves_iff {i : NodeId} : i ∈ n.leaves ↔ Node.leaf i ∈ n.nodes := by
  induction n with
  | leaf j => simp
  | group j axis cs shares ih =>
    simp only [leaves_group, nodes_group, List.mem_flatMap, List.mem_cons, reduceCtorEq, false_or]
    exact exists_congr fun c => and_congr_right fun hc => ih c hc

end Node

/-! ## The shared descent -/

/-- Whether some node of the subtree has the id. -/
def subtreeContainsId (node : Node) (id : NodeId) : Bool := node.nodes.any (·.id == id)

theorem subtreeContainsId_iff {node : Node} {id : NodeId} :
    subtreeContainsId node id = true ↔ id ∈ node.ids := by
  simp only [subtreeContainsId, List.any_eq_true, beq_iff_eq, ← Node.map_id_nodes, List.mem_map]

/-- A node of either kind with this id. -/
def isNamed (id : NodeId) (node : Node) : Bool := node.id == id

/-- A group with this id. -/
def isGroupNamed (id : NodeId) (node : Node) : Bool := node.id == id && !node.isLeaf

/-- A leaf with this id. -/
def isLeafNamed (id : NodeId) (node : Node) : Bool := node.id == id && node.isLeaf

mutual

/-- Rewrite the first node that is hit, descending at each group into the
first child that contains `target`; `none` when the descent ends elsewhere
or the rewrite fails. -/
def updateAt (target : NodeId) (hit : Node → Bool) (rewrite : Node → Option Node) :
    Node → Option Node
  | .leaf id => if hit (.leaf id) then rewrite (.leaf id) else none
  | .group id axis children shares =>
      if hit (.group id axis children shares) then rewrite (.group id axis children shares)
      else (updateFirst target hit rewrite children).map fun children =>
        .group id axis children shares

def updateFirst (target : NodeId) (hit : Node → Bool) (rewrite : Node → Option Node) :
    List Node → Option (List Node)
  | [] => none
  | child :: children =>
      if subtreeContainsId child target then
        (updateAt target hit rewrite child).map (· :: children)
      else (updateFirst target hit rewrite children).map (child :: ·)

end

section
variable {target : NodeId} {hit : Node → Bool} {rewrite : Node → Option Node} {n n' m : Node}
  {children children' : List Node}

theorem updateFirst_eq_some (h : updateFirst target hit rewrite children = some children') :
    ∃ before child child' after, children = before ++ child :: after ∧
      children' = before ++ child' :: after ∧ updateAt target hit rewrite child = some child' := by
  induction children generalizing children' with
  | nil => simp [updateFirst] at h
  | cons child children ih =>
    rw [updateFirst] at h
    split at h
    · obtain ⟨child', hchild, rfl⟩ := Option.map_eq_some_iff.mp h
      exact ⟨[], child, child', children, rfl, rfl, hchild⟩
    · obtain ⟨children', hchildren, rfl⟩ := Option.map_eq_some_iff.mp h
      obtain ⟨before, c, c', after, rfl, rfl, hc⟩ := ih hchildren
      exact ⟨child :: before, c, c', after, rfl, rfl, hc⟩

/-- A successful update replaces one subtree and keeps its context. -/
theorem updateAt_eq_some (h : updateAt target hit rewrite n = some n') :
    ∃ (ctx : Context) (m m' : Node), n = ctx.fill m ∧ n' = ctx.fill m' ∧ hit m = true ∧
      rewrite m = some m' := by
  induction n generalizing n' with
  | leaf i =>
    rw [updateAt] at h
    split at h
    · rename_i hhit
      exact ⟨[], .leaf i, n', rfl, rfl, hhit, h⟩
    · cases h
  | group i axis cs shares ih =>
    rw [updateAt] at h
    split at h
    · rename_i hhit
      exact ⟨[], .group i axis cs shares, n', rfl, rfl, hhit, h⟩
    · obtain ⟨cs', hcs, rfl⟩ := Option.map_eq_some_iff.mp h
      obtain ⟨before, c, c', after, rfl, rfl, hc⟩ := updateFirst_eq_some hcs
      obtain ⟨ctx, m, m', rfl, rfl, hhit, hm⟩ := ih c (by simp) hc
      exact ⟨⟨i, axis, before, after, shares⟩ :: ctx, m, m', rfl, rfl, hhit, hm⟩

theorem updateFirst_append (h : ∀ c ∈ children, target ∉ c.ids) (hm : target ∈ m.ids) :
    updateFirst target hit rewrite (children ++ m :: children') =
      (updateAt target hit rewrite m).map fun m' => children ++ m' :: children' := by
  induction children with
  | nil =>
    rw [List.nil_append, updateFirst, if_pos (subtreeContainsId_iff.mpr hm)]
    rfl
  | cons c cs ih =>
    obtain ⟨hc, hcs⟩ := List.forall_mem_cons.mp h
    rw [List.cons_append, updateFirst, if_neg (mt subtreeContainsId_iff.mp hc), ih hcs,
      Option.map_map]
    rfl

/-- In a tree with distinct ids the descent reaches the named node. -/
theorem updateAt_fill {ctx : Context} (hnodup : (ctx.fill m).ids.Nodup)
    (hhit : ∀ k, hit k = true → k.id = target) (hm : hit m = true) :
    updateAt target hit rewrite (ctx.fill m) = (rewrite m).map (Context.fill ctx) := by
  obtain rfl := hhit m hm
  induction ctx with
  | nil =>
    rw [Context.fill_nil]
    cases m <;> rw [updateAt, if_pos hm] <;> cases rewrite _ <;> rfl
  | cons f ctx ih =>
    rw [Context.fill_cons, Frame.fill, Node.ids_group, List.flatMap_append, List.flatMap_cons,
      List.nodup_cons, List.nodup_append] at hnodup
    obtain ⟨hid, -, hrest, hdisj⟩ := hnodup
    have hmem : m.id ∈ (Context.fill ctx m).ids := by
      rw [Context.ids_fill]
      simp [m.id_mem_ids]
    have hfresh : m.id ≠ f.id := by
      rintro heq
      exact hid (heq ▸ List.mem_append_right _ (List.mem_append_left _ hmem))
    have hbefore : ∀ c ∈ f.before, m.id ∉ c.ids := fun c hc hin =>
      hdisj _ (List.mem_flatMap.mpr ⟨c, hc, hin⟩) _ (List.mem_append_left _ hmem) rfl
    have hmiss : ¬ hit (f.fill (Context.fill ctx m)) = true := fun h => hfresh (hhit _ h).symm
    rw [Frame.fill] at hmiss
    rw [Context.fill_cons, Frame.fill, updateAt, if_neg hmiss, updateFirst_append hbefore hmem, ih (List.nodup_append.mp hrest).1, Option.map_map,
      Option.map_map]
    rfl

end

end PlasmaTiler
