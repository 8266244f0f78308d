import Mathlib.Data.List.Perm.Basic
import PlasmaTiler.Context
import PlasmaTiler.CosmicV1
import PlasmaTiler.FreshId

/-!
# Tree surgery

The helpers that rewrite a session's trees. The lookups are preorder
searches; the edits are `updateAt` at a named node with their own rewrite;
removal is a recursion of its own, because it collapses a group that is left
with one child.

Each edit that puts a window into a tree wraps some subtree and the new leaf
in a binary group. `Grafted` is what all of them guarantee: one leaf more in
one group more, the others in their order, and nothing said about where.
Removal is the inverse (`Removed`): one leaf fewer, and one group fewer when
it was left with a single child. The later modules use these two, and only
the proofs here look at the recursion.
-/

namespace PlasmaTiler

/-! ## Lookups -/

def Node.children : Node → List Node
  | .leaf _ => []
  | .group _ _ children _ => children

/-- The first group with this id: children, shares, id and axis. -/
def findGroupFull (tree : Node) (id : NodeId) :
    Option (List Node × List Nat × NodeId × Axis) :=
  (tree.nodes.find? (isGroupNamed id)).bind fun
    | .leaf _ => none
    | .group gid axis children shares => some (children, shares, gid, axis)

def findGroup (tree : Node) (id : NodeId) : Option (List Node × Axis × NodeId) :=
  (findGroupFull tree id).map fun (children, _, gid, axis) => (children, axis, gid)

def findGroupShares (tree : Node) (id : NodeId) : Option (List Nat) :=
  (findGroupFull tree id).map fun (_, shares, _, _) => shares

def groupChildrenLen (tree : Node) (id : NodeId) : Option Nat :=
  (findGroupFull tree id).map fun (children, _, _, _) => children.length

def findGroupId (tree : Node) (id : NodeId) : Bool := tree.nodes.any (isGroupNamed id)

def findSubtree (tree : Node) (id : NodeId) : Option Node := tree.nodes.find? (isNamed id)

def findNodeById (tree : Node) (id : NodeId) : Option Node := findSubtree tree id

/-- Group with the leaf among its direct children. -/
def directParentOfLeaf (tree : Node) (leaf : NodeId) : Option NodeId :=
  (tree.nodes.find? fun n => n.children.any (isLeafNamed leaf)).map Node.id

/-- Group with the node among its direct children. -/
def parentOfGroup (tree : Node) (group : NodeId) : Option NodeId :=
  (tree.nodes.find? fun n => n.children.any (isNamed group)).map Node.id

/-! ## Edits at a named node -/

def insertLeafIntoGroup (tree : Node) (groupId : NodeId) (index : Nat) (leaf : Node) :
    Option Node :=
  tree |> updateAt groupId (isGroupNamed groupId) fun
    | .leaf _ => none
    | .group id axis children shares =>
      if children.length < index then none
      else (proportionalInsertionShares shares index).map fun shares =>
        .group id axis (children.insertIdx index leaf) shares

def replaceGroupChildren (tree : Node) (groupId : NodeId) (children : List Node)
    (shares : List Nat) : Option Node :=
  tree |> updateAt groupId (isGroupNamed groupId) fun
    | .leaf _ => none
    | .group id axis _ _ =>
      if children.length < 2 ∨ shares.length ≠ children.length then none
      else some (.group id axis children shares)

def replaceChildAt (tree : Node) (groupId : NodeId) (index : Nat) (replacement : Node)
    (replacementShare : Nat) : Option Node :=
  tree |> updateAt groupId (isGroupNamed groupId) fun
    | .leaf _ => none
    | .group id axis children shares =>
      if children.length ≤ index then none
      else some (.group id axis (children.set index replacement)
        (shares.set index replacementShare))

def replaceNodeById (tree : Node) (target : NodeId) (replacement : Node) : Option Node :=
  tree |> updateAt target (isNamed target) fun _ => some replacement

/-- Exchange two entries. -/
def swapAt {α : Type} (l : List α) (i j : Nat) : List α :=
  match l[i]?, l[j]? with
  | some x, some y => (l.set i y).set j x
  | _, _ => l

def swapDirectChildren (tree : Node) (container a b : NodeId) : Option Node :=
  tree |> updateAt container (isGroupNamed container) fun
    | .leaf _ => none
    | .group id axis children shares => do
      let ia ← children.findIdx? (isNamed a)
      let ib ← children.findIdx? (isNamed b)
      -- both must be direct leaf children
      if (children[ia]?).all Node.isLeaf && (children[ib]?).all Node.isLeaf then
        some (.group id axis (swapAt children ia ib) (swapAt shares ia ib))
      else none

/-- A binary group of the subtree and a new leaf. -/
def graft (groupId : NodeId) (axis : Axis) (moverFirst : Bool) (n newLeaf : Node) : Node :=
  .group groupId axis (if moverFirst then [newLeaf, n] else [n, newLeaf]) newGroupShares

def nestFocusedOrdered (node : Node) (focused : NodeId) (newLeaf : Node) (groupId : NodeId)
    (axis : Axis) (moverFirst : Bool) : Option Node :=
  node |> updateAt focused (isLeafNamed focused) fun n =>
    some (graft groupId axis moverFirst n newLeaf)

def nestFocusedWithNew (node : Node) (focused : NodeId) (newLeaf : Node) (groupId : NodeId)
    (axis : Axis) : Option Node :=
  nestFocusedOrdered node focused newLeaf groupId axis false

/-! ## Insertion and removal -/

def generateGroupId (window : WindowId) (baseRevision : Nat) (existing : BTreeSet NodeId) :
    NodeId :=
  freshId ("grp-" ++ window.raw ++ "-r" ++ toString baseRevision) existing

/-- Admit a leaf: a lone root in an empty domain, beside the whole tree when
no focus is eligible, else beside the focused leaf. The ids in use grow by
the new group's. -/
def insertTiled (tree : Option Node) (focused : Option NodeId) (newLeafId : NodeId)
    (orientation : Axis) (existingIds : BTreeSet NodeId) (window : WindowId)
    (baseRevision : Nat) : Option (Node × BTreeSet NodeId) :=
  match tree with
  | none => some (.leaf newLeafId, existingIds)
  | some tree =>
    let groupId := generateGroupId window baseRevision existingIds
    match focused with
    | none =>
      some (graft groupId orientation false tree (.leaf newLeafId), existingIds.insert groupId)
    | some focused =>
      (nestFocusedWithNew tree focused (.leaf newLeafId) groupId orientation).map fun tree =>
        (tree, existingIds.insert groupId)

mutual

/-- Remove a leaf; a group left with one child is replaced by it, a subtree
left empty vanishes. -/
def removeNode (leaf : NodeId) : Node → Option Node
  | .leaf id => if id = leaf then none else some (.leaf id)
  | .group id axis children shares =>
    match removeChildren leaf children 0 none with
    | none => none
    | some (newChildren, none) =>
      if newChildren.length ≠ children.length then none
      else some (.group id axis newChildren shares)
    | some (newChildren, some removed) =>
      match newChildren with
      | [] => none
      | [child] => some child
      | _ =>
        (proportionalRemovalShares shares removed).bind fun newShares =>
          if newShares.length ≠ newChildren.length then none
          else some (.group id axis newChildren newShares)

/-- The surviving children and the one slot that vanished; `none` when a
second one does. -/
def removeChildren (leaf : NodeId) :
    List Node → Nat → Option Nat → Option (List Node × Option Nat)
  | [], _, removedIndex => some ([], removedIndex)
  | child :: children, index, removedIndex =>
    if removedIndex.isNone && isLeafNamed leaf child then
      removeChildren leaf children (index + 1) (some index)
    else
      match removeNode leaf child with
      | some updated =>
        (removeChildren leaf children (index + 1) removedIndex).map fun (rest, removed) =>
          (updated :: rest, removed)
      | none =>
        if removedIndex.isNone then removeChildren leaf children (index + 1) (some index)
        else none

end

def removeLeafFromTree (tree : Option Node) (leaf : NodeId) : Option Node :=
  tree.bind (removeNode leaf)

/-! ## What an insertion guarantees -/

/-- The tree `n'` is `n` with one leaf more, in one group more: the old leaves
keep their order, and a well-formed tree stays one. -/
structure Grafted (n n' : Node) (groupId leaf : NodeId) : Prop where
  ids : n'.ids.Perm (groupId :: leaf :: n.ids)
  leaves : n'.leaves.Perm (leaf :: n.leaves)
  order : n.leaves.Sublist n'.leaves
  wellFormed : n.WellFormed → n'.WellFormed

section
variable {ctx : Context} {n n' m : Node} {groupId leaf focused x : NodeId} {axis : Axis}
  {moverFirst : Bool}

theorem isLeafNamed_iff : isLeafNamed x n = true ↔ n = .leaf x := by
  cases n <;> simp [isLeafNamed, Node.isLeaf]

theorem graft_wellFormed (h : m.WellFormed) :
    (graft groupId axis moverFirst m (.leaf leaf)).WellFormed := by
  rw [graft, Node.wellFormed_group]
  cases moverFirst <;> simp [newGroupShares, u64Size, h]

/-- Grafting beside any subtree. -/
theorem grafted_fill : Grafted (ctx.fill m)
    (ctx.fill (graft groupId axis moverFirst m (.leaf leaf))) groupId leaf where
  ids := by
    have hgraft : (graft groupId axis moverFirst m (.leaf leaf)).ids.Perm
        (groupId :: leaf :: m.ids) := by
      cases moverFirst <;> simp [graft]
    rw [Context.ids_fill, Context.ids_fill]
    refine ((hgraft.append_left _).append_right _).trans ?_
    have hmove : (ctx.idsBefore ++ groupId :: leaf :: m.ids).Perm
        (groupId :: leaf :: (ctx.idsBefore ++ m.ids)) :=
      List.perm_middle.trans (List.perm_middle.cons _)
    simpa using hmove.append_right ctx.idsAfter
  leaves := by
    have hgraft : (graft groupId axis moverFirst m (.leaf leaf)).leaves.Perm
        (leaf :: m.leaves) := by
      cases moverFirst <;> simp [graft]
    rw [Context.leaves_fill, Context.leaves_fill]
    refine ((hgraft.append_left _).append_right _).trans ?_
    simp
  order := by
    have hgraft : m.leaves.Sublist (graft groupId axis moverFirst m (.leaf leaf)).leaves := by
      cases moverFirst <;> simp [graft]
    rw [Context.leaves_fill, Context.leaves_fill]
    exact (hgraft.append_left _).append_right _
  wellFormed h := by
    obtain ⟨hctx, hm⟩ := Context.wellFormed_fill.mp h
    exact Context.wellFormed_fill.mpr ⟨hctx, graft_wellFormed hm⟩

theorem nestFocusedOrdered_grafted
    (h : nestFocusedOrdered n focused (.leaf leaf) groupId axis moverFirst = some n') :
    Grafted n n' groupId leaf := by
  obtain ⟨ctx, m, m', rfl, rfl, -, hm⟩ := updateAt_eq_some h
  obtain rfl := Option.some.inj hm
  exact grafted_fill

/-- In a tree with distinct ids a leaf can always be nested. -/
theorem nestFocusedOrdered_isSome (hnodup : n.ids.Nodup) (hfocused : focused ∈ n.leaves)
    (newLeaf : Node) :
    ∃ n', nestFocusedOrdered n focused newLeaf groupId axis moverFirst = some n' := by
  obtain ⟨ctx, rfl⟩ := Node.mem_nodes_iff.mp (Node.mem_leaves_iff.mp hfocused)
  refine ⟨_, updateAt_fill hnodup (fun k hk => ?_) (isLeafNamed_iff.mpr rfl)⟩
  rw [isLeafNamed_iff.mp hk, Node.id_leaf]

/-- Admission puts the leaf beside the tree or inside it, in a group whose
id was free. -/
theorem insertTiled_grafted {existing existing' : BTreeSet NodeId} {window : WindowId}
    {baseRevision : Nat} {focused : Option NodeId}
    (h : insertTiled (some n) focused leaf axis existing window baseRevision =
      some (n', existing')) :
    Grafted n n' (generateGroupId window baseRevision existing) leaf ∧
      existing' = existing.insert (generateGroupId window baseRevision existing) := by
  cases focused with
  | none =>
    simp only [insertTiled, Option.some.injEq, Prod.mk.injEq] at h
    obtain ⟨rfl, rfl⟩ := h
    exact ⟨@grafted_fill [] n _ leaf axis false, rfl⟩
  | some focused =>
    obtain ⟨t, ht, heq⟩ := Option.map_eq_some_iff.mp h
    simp only [Prod.mk.injEq] at heq
    obtain ⟨rfl, rfl⟩ := heq
    exact ⟨nestFocusedOrdered_grafted ht, rfl⟩

/-! ## What a removal guarantees -/

theorem isLeafNamed_of_not_mem (h : x ∉ n.leaves) : isLeafNamed x n = false := by
  rw [Bool.eq_false_iff, ne_eq, isLeafNamed_iff]
  rintro rfl
  exact h (by simp)

theorem removeNode_of_not_mem (h : x ∉ n.leaves) : removeNode x n = some n := by
  induction n with
  | leaf i =>
    rw [removeNode, if_neg]
    rintro rfl
    exact h (by simp)
  | group i axis cs shares ih =>
    have hcs : ∀ (l : List Node), l ⊆ cs → ∀ index removed,
        removeChildren x l index removed = some (l, removed) := by
      intro l
      induction l with
      | nil => intro _ index removed; rw [removeChildren]
      | cons c l ihl =>
        intro hsub index removed
        obtain ⟨hc, hsub⟩ := List.cons_subset.mp hsub
        have hmem : x ∉ c.leaves := fun hin =>
          h (Node.leaves_group i axis cs shares ▸ List.mem_flatMap.mpr ⟨c, hc, hin⟩)
        rw [removeChildren, isLeafNamed_of_not_mem hmem, Bool.and_false, if_neg (by simp), ih c hc hmem]
        simp only [ihl hsub, Option.map_some]
    rw [removeNode, hcs cs (List.Subset.refl _)]
    simp

/-- Children without the leaf are passed over. -/
theorem removeChildren_append {before rest : List Node} {index : Nat} {removed : Option Nat}
    (h : ∀ c ∈ before, x ∉ c.leaves) :
    removeChildren x (before ++ rest) index removed =
      (removeChildren x rest (index + before.length) removed).map fun (kept, r) =>
        (before ++ kept, r) := by
  induction before generalizing index with
  | nil => simp
  | cons c before ih =>
    obtain ⟨hc, hbefore⟩ := List.forall_mem_cons.mp h
    rw [List.cons_append, removeChildren, isLeafNamed_of_not_mem hc, Bool.and_false, if_neg (by simp),
      removeNode_of_not_mem hc]
    simp only [ih hbefore, Option.map_map, List.length_cons]
    rw [Nat.add_right_comm, Nat.add_assoc]
    rfl

/-- What a group becomes when its hole is dropped: the other child when there
is one, else the group of the others with reduced shares. -/
def Frame.close (f : Frame) : Option Node :=
  match f.before ++ f.after with
  | [child] => some child
  | siblings => (proportionalRemovalShares f.shares f.before.length).map fun shares =>
      .group f.id f.axis siblings shares

theorem Frame.close_spec {f : Frame} (hok : f.Ok) :
    ∃ n, f.close = some n ∧ n.WellFormed ∧
      n.ids.Sublist (f.id :: (f.before ++ f.after).flatMap Node.ids) ∧
      n.leaves = (f.before ++ f.after).flatMap Node.leaves := by
  obtain ⟨⟨hsiblings, hshares, hpos, hsum⟩, hwf⟩ := hok
  rw [← List.length_append] at hsiblings
  rw [Nat.add_assoc, Nat.add_comm 1, ← Nat.add_assoc, ← List.length_append] at hshares
  have hindex : f.before.length < f.shares.length := by
    rw [hshares, List.length_append]
    omega
  unfold close
  split
  · rename_i child heq
    rw [heq] at hwf
    rw [heq]
    exact ⟨child, rfl, hwf child (by simp), by simp, by simp⟩
  · rename_i siblings hmany
    obtain ⟨out, hout, hlen, hposOut, hle⟩ :=
      proportionalRemovalShares_of_pos (by omega) hindex hpos
    refine ⟨.group f.id f.axis (f.before ++ f.after) out, by rw [hout]; rfl, ?_, by simp, by simp⟩
    have htwo : (f.before ++ f.after).length ≠ 1 := by
      intro h1
      obtain ⟨c, hc⟩ := List.length_eq_one_iff.mp h1
      exact hmany c hc
    exact Node.wellFormed_group.mpr ⟨⟨by omega, by omega, hposOut, by omega⟩, hwf⟩

/-- Removing a direct child closes its group. -/
theorem removeNode_frame {f : Frame} (hok : f.Ok) (hbefore : ∀ c ∈ f.before, x ∉ c.leaves)
    (hafter : ∀ c ∈ f.after, x ∉ c.leaves) : removeNode x (f.fill (.leaf x)) = f.close := by
  obtain ⟨⟨hsiblings, hshares, hpos, hsum⟩, -⟩ := hok
  have hrest : removeChildren x f.after (f.before.length + 1) (some f.before.length) =
      some (f.after, some f.before.length) := by
    have := @removeChildren_append x f.after [] (f.before.length + 1) (some f.before.length) hafter
    simpa [removeChildren] using this
  have hchildren : removeChildren x (f.before ++ .leaf x :: f.after) 0 none =
      some (f.before ++ f.after, some f.before.length) := by
    rw [removeChildren_append hbefore, Nat.zero_add, removeChildren,
      isLeafNamed_iff.mpr rfl, Option.isNone_none, Bool.and_self, if_pos rfl, hrest]
    rfl
  rw [Frame.fill, removeNode, hchildren, Frame.close]
  have hlenAll : (f.before ++ f.after).length = f.before.length + f.after.length :=
    List.length_append
  cases hcs : f.before ++ f.after with
  | nil =>
    rw [hcs, List.length_nil] at hlenAll
    omega
  | cons c cs =>
    cases cs with
    | nil => rfl
    | cons d cs =>
      obtain ⟨out, hout, hlen, -⟩ := @proportionalRemovalShares_of_pos f.shares
        f.before.length (by omega) (by omega) hpos
      have hcount : out.length = (c :: d :: cs).length := by
        rw [← hcs]
        omega
      simp only [hout, Option.bind_some, Option.map_some, hcount, ne_eq, not_true, if_false]

/-- Removing inside a context rewrites what fills it. -/
theorem removeNode_fill {m' : Node} (hbefore : x ∉ ctx.leavesBefore)
    (hafter : x ∉ ctx.leavesAfter) (h : removeNode x m = some m') :
    removeNode x (ctx.fill m) = some (ctx.fill m') := by
  induction ctx with
  | nil => exact h
  | cons f ctx ih =>
    simp only [Context.leavesBefore, Context.leavesAfter, List.mem_append, List.mem_flatMap,
      not_or, not_exists, not_and] at hbefore hafter
    have hinner := ih hbefore.2 hafter.1
    have hnamed : isLeafNamed x (Context.fill ctx m) = false := by
      rw [Bool.eq_false_iff, ne_eq, isLeafNamed_iff]
      intro heq
      rw [heq, removeNode, if_pos rfl] at hinner
      cases hinner
    have hrest : removeChildren x f.after (0 + f.before.length + 1) none = some (f.after, none) := by
      have := @removeChildren_append x f.after [] (0 + f.before.length + 1) none hafter.2
      simpa [removeChildren] using this
    have hchildren : removeChildren x (f.before ++ Context.fill ctx m :: f.after) 0 none =
        some (f.before ++ Context.fill ctx m' :: f.after, none) := by
      rw [removeChildren_append hbefore.1, removeChildren, hnamed, Bool.and_false,
        if_neg (by simp), hinner]
      simp only [hrest, Option.map_some]
    rw [Context.fill_cons, Frame.fill, removeNode, hchildren]
    simp [Frame.fill]

/-- The leaves around a direct child. -/
theorem leaves_around_leaf (f : Frame) : (ctx.fill (f.fill (.leaf x))).leaves =
    (ctx.leavesBefore ++ f.before.flatMap Node.leaves) ++
      x :: (f.after.flatMap Node.leaves ++ ctx.leavesAfter) := by
  rw [Context.leaves_fill, Frame.fill, Node.leaves_group]
  simp

theorem not_mem_around_leaf {f : Frame} (h : (ctx.fill (f.fill (.leaf x))).leaves.Nodup) :
    x ∉ (ctx.leavesBefore ++ f.before.flatMap Node.leaves) ++
      (f.after.flatMap Node.leaves ++ ctx.leavesAfter) := by
  rw [leaves_around_leaf, List.nodup_middle] at h
  exact (List.nodup_cons.mp h).1

/-- Removing a leaf of a valid tree empties a lone root, and otherwise closes
the group around the leaf. -/
theorem removeNode_of_mem (hwf : n.WellFormed) (hnodup : n.ids.Nodup) (hx : x ∈ n.leaves) :
    n = .leaf x ∨ ∃ (ctx : Context) (f : Frame) (s : Node), n = ctx.fill (f.fill (.leaf x)) ∧
      f.close = some s ∧ removeNode x n = some (ctx.fill s) := by
  obtain ⟨ctx, rfl⟩ := Node.mem_nodes_iff.mp (Node.mem_leaves_iff.mp hx)
  rcases List.eq_nil_or_concat ctx with rfl | ⟨ctx, f, rfl⟩
  · exact .inl rfl
  · refine .inr ⟨ctx, f, ?_⟩
    rw [List.concat_eq_append, Context.fill_concat] at hwf hnodup hx ⊢
    obtain ⟨-, hframe⟩ := Context.wellFormed_fill.mp hwf
    obtain ⟨hok, -⟩ := Frame.wellFormed_fill.mp hframe
    have hfresh := not_mem_around_leaf (hnodup.sublist (Node.leaves_sublist_ids _))
    simp only [List.mem_append, List.mem_flatMap, not_or, not_exists, not_and] at hfresh
    obtain ⟨s, hs, -⟩ := Frame.close_spec hok
    exact ⟨s, rfl, hs, removeNode_fill hfresh.1.1 hfresh.2.2
      (by rw [removeNode_frame hok hfresh.1.2 hfresh.2.1, hs])⟩

/-- The tree `n'` is `n` without the leaf, and without its group when that
was left with one child. -/
structure Removed (n n' : Node) (leaf : NodeId) : Prop where
  ids : n'.ids.Sublist n.ids
  leaf_not_mem : leaf ∉ n'.ids
  leaves : n'.leaves = n.leaves.filter (· ≠ leaf)
  wellFormed : n'.WellFormed

theorem removeNode_removed (hwf : n.WellFormed) (hnodup : n.ids.Nodup) (hx : x ∈ n.leaves)
    (h : removeNode x n = some n') : Removed n n' x := by
  rcases removeNode_of_mem hwf hnodup hx with rfl | ⟨ctx, f, s, rfl, hs, hremove⟩
  · rw [removeNode, if_pos rfl] at h
    cases h
  · obtain rfl : Context.fill ctx s = n' := Option.some.inj (hremove.symm.trans h)
    obtain ⟨hctx, hframe⟩ := Context.wellFormed_fill.mp hwf
    obtain ⟨hok, -⟩ := Frame.wellFormed_fill.mp hframe
    obtain ⟨s', hs', hwfs, hids, hleaves⟩ := Frame.close_spec hok
    obtain rfl : s' = s := Option.some.inj (hs'.symm.trans hs)
    have hidsAll : (Context.fill ctx (f.fill (.leaf x))).ids =
        (ctx.idsBefore ++ f.id :: f.before.flatMap Node.ids) ++
          x :: (f.after.flatMap Node.ids ++ ctx.idsAfter) := by
      rw [Context.ids_fill, Frame.fill, Node.ids_group]
      simp
    have hclosed : (Context.fill ctx s').ids.Sublist
        ((ctx.idsBefore ++ f.id :: f.before.flatMap Node.ids) ++
          (f.after.flatMap Node.ids ++ ctx.idsAfter)) := by
      rw [Context.ids_fill]
      simpa using (hids.append_left ctx.idsBefore).append_right ctx.idsAfter
    have hfresh := not_mem_around_leaf (hnodup.sublist (Node.leaves_sublist_ids _))
    refine ⟨?_, ?_, ?_, Context.wellFormed_fill.mpr ⟨hctx, hwfs⟩⟩
    · rw [hidsAll]
      exact hclosed.trans ((List.sublist_cons_self x _).append_left _)
    · rw [hidsAll, List.nodup_middle] at hnodup
      exact fun hmem => (List.nodup_cons.mp hnodup).1 (hclosed.subset hmem)
    · have hkeep : ∀ l : List NodeId, x ∉ l → l.filter (· ≠ x) = l := fun l hl =>
        List.filter_eq_self.mpr fun y hy => by simpa using fun heq : y = x => hl (heq ▸ hy)
      rw [List.mem_append, not_or] at hfresh
      rw [leaves_around_leaf, List.filter_append, List.filter_cons_of_neg (by simp),
        hkeep _ hfresh.1, hkeep _ hfresh.2, Context.leaves_fill, hleaves]
      simp

end

end PlasmaTiler
