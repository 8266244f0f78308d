import PlasmaTiler.Rearrange
import PlasmaTiler.ShareHistory

/-!
# Removal undoes admission

What removing a leaf leaves of a tree, group by group. A group survives with
the slots other than the leaf's: each of its children is what the removal
leaves of the old child, and its shares are the old ones divided by a common
factor (`Survives`). At most one group does not survive, the one that is left
with a single child (`Thinned`).

The wrapper that an admission put around the focused leaf is such a group, so
that admitting a fresh leaf and removing it gives the tree back
(`insertTiled_removed`). That the shares come back as they were is part of
it: the wrapper has shares of its own and the groups around it are not
touched.

`admission_removal` has the two halves for every valid tree and the empty
domain.
-/

namespace PlasmaTiler

section
variable {x : NodeId} {n n' m m' : Node} {f : Frame} {ctx : Context} {shares : List Nat}

/-! ## A group and what survives of it -/

/-- The slots of a group that are not the leaf itself. -/
def otherSlots (x : NodeId) (children : List Node) (shares : List Nat) : List (Node × Nat) :=
  (children.zip shares).filter fun slot => !isLeafNamed x slot.1

/-- The second group is what a removal of the leaf makes of the first: the
other children, each without the leaf, with shares in the same ratios, divided
by a common factor. -/
inductive Survives (x : NodeId) : Node → Node → Prop
  | group {id : NodeId} {axis : Axis} {children children' : List Node} {shares shares' : List Nat}
      {k : Nat} (hk : 0 < k)
      (hchildren : children'.map some =
        (otherSlots x children shares).map fun slot => removeNode x slot.1)
      (hshares : shares'.map (k * ·) = (otherSlots x children shares).map Prod.snd) :
      Survives x (.group id axis children shares) (.group id axis children' shares')

theorem otherSlots_of_not_mem {children : List Node} (h : ∀ c ∈ children, x ∉ c.leaves) :
    otherSlots x children shares = children.zip shares := by
  refine List.filter_eq_self.mpr ?_
  rintro ⟨c, s⟩ hslot
  simp [isLeafNamed_of_not_mem (h c (List.of_mem_zip hslot).1)]

theorem map_fst_zip_of_length {children : List Node} (h : shares.length = children.length)
    {g : Node → Option Node} : ((children.zip shares).map fun slot => g slot.1) = children.map g := by
  show (children.zip shares).map (g ∘ Prod.fst) = children.map g
  rw [← List.map_map, List.map_fst_zip (by omega)]

/-- A group without the leaf survives as it is. -/
theorem Survives.refl {id : NodeId} {axis : Axis} {children : List Node}
    (hlen : shares.length = children.length) (h : ∀ c ∈ children, x ∉ c.leaves) :
    Survives x (.group id axis children shares) (.group id axis children shares) := by
  refine .group Nat.one_pos ?_ ?_
  · rw [otherSlots_of_not_mem h, map_fst_zip_of_length hlen]
    exact List.map_congr_left fun c hc => (removeNode_of_not_mem (h c hc)).symm
  · rw [otherSlots_of_not_mem h, List.map_snd_zip (by omega)]
    simp

/-! ## What survives of a tree -/

/-- Every group of the second tree is what survives of a group of the first,
and every group of the first with two slots other than the leaf survives. -/
structure Thinned (x : NodeId) (n n' : Node) : Prop where
  source : ∀ m' ∈ n'.nodes, m'.isLeaf = false → ∃ m ∈ n.nodes, Survives x m m'
  survivor : ∀ {id axis children shares}, .group id axis children shares ∈ n.nodes →
    2 ≤ (otherSlots x children shares).length →
    ∃ m' ∈ n'.nodes, Survives x (.group id axis children shares) m'

theorem Node.leaves_subset (h : m ∈ n.nodes) : m.leaves ⊆ n.leaves := by
  intro i hi
  exact mem_leaves_iff.mpr (nodes_subset h (mem_leaves_iff.mp hi))

/-- In a tree without the leaf every group survives as it is. -/
theorem survives_of_not_mem (hwf : n.WellFormed) (hx : x ∉ n.leaves) (hm : m ∈ n.nodes)
    (hgroup : m.isLeaf = false) : Survives x m m := by
  cases m with
  | leaf i => cases hgroup
  | group i axis cs shares =>
    obtain ⟨⟨-, hlen, -⟩, -⟩ := Node.wellFormed_group.mp (hwf.of_mem hm)
    refine Survives.refl hlen fun c hc hin => hx (Node.leaves_subset hm ?_)
    rw [Node.leaves_group]
    exact List.mem_flatMap.mpr ⟨c, hc, hin⟩

theorem Thinned.refl (hwf : n.WellFormed) (hx : x ∉ n.leaves) : Thinned x n n where
  source m' hm' hgroup := ⟨m', hm', survives_of_not_mem hwf hx hm' hgroup⟩
  survivor hm _ := ⟨_, hm, survives_of_not_mem hwf hx hm rfl⟩

theorem Frame.mem_nodes_fill_iff : m ∈ (f.fill n).nodes ↔
    m = f.fill n ∨ m ∈ n.nodes ∨ ∃ c ∈ f.before ++ f.after, m ∈ c.nodes := by
  rw [Frame.fill, Node.nodes_group]
  simp only [List.mem_cons, List.mem_flatMap, List.mem_append]
  grind

theorem isLeafNamed_of_removeNode (h : removeNode x n = some n') : isLeafNamed x n = false := by
  rw [Bool.eq_false_iff, ne_eq, isLeafNamed_iff]
  rintro rfl
  rw [removeNode, if_pos rfl] at h
  cases h

/-- A group around a subtree that survives: the other slots are untouched. -/
theorem survives_fill (hok : f.Ok) (hsiblings : ∀ c ∈ f.before ++ f.after, x ∉ c.leaves)
    (hremove : removeNode x m = some m') : Survives x (f.fill m) (f.fill m') := by
  obtain ⟨⟨-, hlen, -⟩, -⟩ := hok
  rw [List.forall_mem_append] at hsiblings
  have hnamed : ∀ c ∈ f.before ++ m :: f.after, isLeafNamed x c = false := by
    rw [List.forall_mem_append, List.forall_mem_cons]
    exact ⟨fun c hc => isLeafNamed_of_not_mem (hsiblings.1 c hc), isLeafNamed_of_removeNode hremove,
      fun c hc => isLeafNamed_of_not_mem (hsiblings.2 c hc)⟩
  have hslots : otherSlots x (f.before ++ m :: f.after) f.shares =
      (f.before ++ m :: f.after).zip f.shares := by
    refine List.filter_eq_self.mpr ?_
    rintro ⟨c, s⟩ hslot
    simp [hnamed c (List.of_mem_zip hslot).1]
  have hcount : f.shares.length = (f.before ++ m :: f.after).length := by
    rw [List.length_append, List.length_cons]
    omega
  refine .group Nat.one_pos ?_ ?_
  · have hkeep : ∀ l : List Node, (∀ c ∈ l, x ∉ c.leaves) → l.map some = l.map (removeNode x) :=
      fun l hl => List.map_congr_left fun c hc => (removeNode_of_not_mem (hl c hc)).symm
    rw [hslots, map_fst_zip_of_length hcount, List.map_append, List.map_append, List.map_cons,
      List.map_cons, hremove, hkeep _ hsiblings.1, hkeep _ hsiblings.2]
  · rw [hslots, List.map_snd_zip (by omega)]
    simp

/-- Thinning inside a group thins the group. -/
theorem Thinned.fill (hok : f.Ok) (hsiblings : ∀ c ∈ f.before ++ f.after, x ∉ c.leaves)
    (hremove : removeNode x m = some m') (h : Thinned x m m') :
    Thinned x (f.fill m) (f.fill m') where
  source k' hk' hgroup := by
    rcases Frame.mem_nodes_fill_iff.mp hk' with rfl | hk' | ⟨c, hc, hk'⟩
    · exact ⟨f.fill m, Node.self_mem_nodes _, survives_fill hok hsiblings hremove⟩
    · obtain ⟨k, hk, hsurvives⟩ := h.source k' hk' hgroup
      exact ⟨k, Frame.mem_nodes_fill_iff.mpr (.inr (.inl hk)), hsurvives⟩
    · exact ⟨k', Frame.mem_nodes_fill_iff.mpr (.inr (.inr ⟨c, hc, hk'⟩)),
        survives_of_not_mem (hok.2 c hc) (hsiblings c hc) hk' hgroup⟩
  survivor {id axis children shares} hk hlen := by
    rcases Frame.mem_nodes_fill_iff.mp hk with heq | hk | ⟨c, hc, hk⟩
    · exact ⟨f.fill m', Node.self_mem_nodes _, heq ▸ survives_fill hok hsiblings hremove⟩
    · obtain ⟨k', hk', hsurvives⟩ := h.survivor hk hlen
      exact ⟨k', Frame.mem_nodes_fill_iff.mpr (.inr (.inl hk')), hsurvives⟩
    · exact ⟨_, Frame.mem_nodes_fill_iff.mpr (.inr (.inr ⟨c, hc, hk⟩)),
        survives_of_not_mem (hok.2 c hc) (hsiblings c hc) hk rfl⟩

/-- The slots beside a leaf, with the leaf's share left out. -/
theorem otherSlots_around_leaf (hok : f.Ok) (hsiblings : ∀ c ∈ f.before ++ f.after, x ∉ c.leaves) :
    otherSlots x (f.before ++ .leaf x :: f.after) f.shares =
      (f.before ++ f.after).zip (f.shares.eraseIdx f.before.length) := by
  obtain ⟨⟨-, hlen, -⟩, -⟩ := hok
  obtain ⟨t, ht⟩ : ∃ t, f.shares[f.before.length]? = some t :=
    ⟨_, List.getElem?_eq_getElem (by omega)⟩
  obtain ⟨pre, post, hshares, hpre⟩ := exists_cut_around ht
  rw [List.forall_mem_append] at hsiblings
  have hbefore := @otherSlots_of_not_mem x pre _ hsiblings.1
  have hafter := @otherSlots_of_not_mem x post _ hsiblings.2
  have hnamed : isLeafNamed x (.leaf x) = true := isLeafNamed_iff.mpr rfl
  rw [hshares, ← hpre, eraseIdx_middle, List.zip_append hpre.symm]
  unfold otherSlots at hbefore hafter ⊢
  rw [List.zip_append hpre.symm, List.zip_cons_cons, List.filter_append,
    List.filter_cons_of_neg (by simp [hnamed]), hbefore, hafter]

/-- Closing the group around a leaf thins it: a group of two gives way to the
other child, a larger one keeps the others in the ratios they had. -/
theorem thinned_close {s : Node} (hok : f.Ok)
    (hsiblings : ∀ c ∈ f.before ++ f.after, x ∉ c.leaves) (hclose : f.close = some s) :
    Thinned x (f.fill (.leaf x)) s := by
  have hslots := otherSlots_around_leaf hok hsiblings
  have hkept : ∀ {m c : Node}, c ∈ f.before ++ f.after → m ∈ c.nodes → m.isLeaf = false →
      m ∈ (f.fill (.leaf x)).nodes ∧ Survives x m m := fun hc hm hgroup =>
    ⟨Frame.mem_nodes_fill_iff.mpr (.inr (.inr ⟨_, hc, hm⟩)),
      survives_of_not_mem (hok.2 _ hc) (hsiblings _ hc) hm hgroup⟩
  have hlen : (f.shares.eraseIdx f.before.length).length = (f.before ++ f.after).length := by
    obtain ⟨⟨-, hlen, -⟩, -⟩ := hok
    rw [List.length_eraseIdx_of_lt (by omega), List.length_append]
    omega
  unfold Frame.close at hclose
  split at hclose
  · rename_i child heq
    obtain rfl := Option.some.inj hclose
    rw [heq] at hkept hslots
    refine ⟨fun m' hm' hgroup => ⟨m', hkept (by simp) hm' hgroup⟩, fun hm htwo => ?_⟩
    rcases Frame.mem_nodes_fill_iff.mp hm with hself | hleaf | ⟨c, hc, hm⟩
    · simp only [Frame.fill, Node.group.injEq] at hself
      obtain ⟨rfl, rfl, rfl, rfl⟩ := hself
      rw [hslots, List.length_zip, List.length_singleton] at htwo
      omega
    · simp at hleaf
    · rw [heq] at hc
      obtain rfl := List.mem_singleton.mp hc
      exact ⟨_, hm, (hkept (by simp) hm rfl).2⟩
  · obtain ⟨out, hout, rfl⟩ := Option.map_eq_some_iff.mp hclose
    obtain ⟨k, hk, hscale⟩ := exists_scale_reduceShares (f.shares.eraseIdx f.before.length)
    obtain rfl := proportionalRemovalShares_eq_some hout
    have hself : Survives x (f.fill (.leaf x)) (.group f.id f.axis (f.before ++ f.after)
        (reduceShares (f.shares.eraseIdx f.before.length))) := by
      refine .group hk ?_ ?_
      · rw [hslots, map_fst_zip_of_length hlen]
        exact List.map_congr_left fun c hc => (removeNode_of_not_mem (hsiblings c hc)).symm
      · rw [hslots, List.map_snd_zip (by omega), hscale]
    refine ⟨fun m' hm' hgroup => ?_, fun hm htwo => ?_⟩
    · rw [Node.nodes_group] at hm'
      rcases List.mem_cons.mp hm' with rfl | hm'
      · exact ⟨_, Node.self_mem_nodes _, hself⟩
      · obtain ⟨c, hc, hm'⟩ := List.mem_flatMap.mp hm'
        exact ⟨m', hkept hc hm' hgroup⟩
    · rcases Frame.mem_nodes_fill_iff.mp hm with heq | hleaf | ⟨c, hc, hm⟩
      · exact ⟨_, Node.self_mem_nodes _, heq ▸ hself⟩
      · simp at hleaf
      · refine ⟨_, ?_, (hkept hc hm rfl).2⟩
        rw [Node.nodes_group]
        exact List.mem_cons_of_mem _ (List.mem_flatMap.mpr ⟨c, hc, hm⟩)

theorem Thinned.context (hctx : ctx.Ok) (hbefore : x ∉ ctx.leavesBefore)
    (hafter : x ∉ ctx.leavesAfter) (hremove : removeNode x m = some m') (h : Thinned x m m') :
    Thinned x (ctx.fill m) (ctx.fill m') := by
  induction ctx with
  | nil => exact h
  | cons f ctx ih =>
    obtain ⟨hf, hctx⟩ := List.forall_mem_cons.mp hctx
    simp only [Context.leavesBefore, Context.leavesAfter, List.mem_append, List.mem_flatMap,
      not_or, not_exists, not_and] at hbefore hafter
    refine Thinned.fill hf ?_ (removeNode_fill hbefore.2 hafter.1 hremove)
      (ih hctx hbefore.2 hafter.1)
    exact List.forall_mem_append.mpr ⟨hbefore.1, hafter.2⟩

/-- Removing a leaf thins every group it does not collapse. -/
theorem removeNode_thinned (hok : TreeOk n) (hremove : removeNode x n = some n') :
    Thinned x n n' := by
  by_cases hx : x ∈ n.leaves
  · rcases removeNode_of_mem hok.wellFormed hok.nodup hx with rfl | ⟨ctx, f, s, rfl, hclose, hs⟩
    · rw [removeNode, if_pos rfl] at hremove
      cases hremove
    · obtain rfl := Option.some.inj (hs.symm.trans hremove)
      obtain ⟨hctx, hframe⟩ := Context.wellFormed_fill.mp hok.wellFormed
      obtain ⟨hf, -⟩ := Frame.wellFormed_fill.mp hframe
      have hfresh := not_mem_around_leaf (hok.nodup.sublist (Node.leaves_sublist_ids _))
      simp only [List.mem_append, List.mem_flatMap, not_or, not_exists, not_and] at hfresh
      have hsiblings : ∀ c ∈ f.before ++ f.after, x ∉ c.leaves :=
        List.forall_mem_append.mpr ⟨hfresh.1.2, hfresh.2.1⟩
      have hinner : removeNode x (f.fill (.leaf x)) = some s :=
        (removeNode_frame hf hfresh.1.2 hfresh.2.1).trans hclose
      exact (thinned_close hf hsiblings hclose).context hctx hfresh.1.1 hfresh.2.2 hinner
  · obtain rfl := Option.some.inj ((removeNode_of_not_mem hx).symm.trans hremove)
    exact Thinned.refl hok.wellFormed hx

/-- Only the lone root vanishes. -/
theorem removeNode_eq_none (hok : TreeOk n) : removeNode x n = none ↔ n = .leaf x := by
  constructor
  · intro hnone
    by_cases hx : x ∈ n.leaves
    · rcases removeNode_of_mem hok.wellFormed hok.nodup hx with rfl | ⟨ctx, f, s, rfl, -, hs⟩
      · rfl
      · rw [hs] at hnone
        cases hnone
    · rw [removeNode_of_not_mem hx] at hnone
      cases hnone
  · rintro rfl
    rw [removeNode, if_pos rfl]

theorem removeNode_treeOk (hok : TreeOk n) (hremove : removeNode x n = some n') :
    TreeOk n' ∧ n'.leaves = n.leaves.filter (· ≠ x) := by
  by_cases hx : x ∈ n.leaves
  · have hremoved := removeNode_removed hok.wellFormed hok.nodup hx hremove
    exact ⟨treeOk_of_removed hok hremoved, hremoved.leaves⟩
  · obtain rfl := Option.some.inj ((removeNode_of_not_mem hx).symm.trans hremove)
    refine ⟨hok, (List.filter_eq_self.mpr fun y hy => ?_).symm⟩
    simpa using fun heq : y = x => hx (heq ▸ hy)

/-! ## Admission and back -/

/-- Removing the new leaf of a wrapper leaves what was wrapped. -/
theorem removeNode_graft {groupId leaf : NodeId} {axis : Axis} (hleaf : leaf ∉ m.leaves) :
    removeNode leaf (graft groupId axis false m (.leaf leaf)) = some m := by
  have hchildren : removeChildren leaf [m, .leaf leaf] 0 none = some ([m], some 1) := by
    rw [removeChildren, isLeafNamed_of_not_mem hleaf, Bool.and_false, if_neg (by simp),
      removeNode_of_not_mem hleaf]
    simp [removeChildren, isLeafNamed_iff.mpr]
  simp only [graft, Bool.false_eq_true, if_false, removeNode, hchildren]

/-- Admitting a fresh leaf beside an eligible focus, or beside the whole tree,
and removing it again gives the tree back. -/
theorem insertTiled_removed {groupId leaf focused : NodeId} {axis : Axis} (hnodup : n.ids.Nodup)
    (hleaf : leaf ∉ n.leaves) (hfocused : focused ∈ n.leaves) :
    ∃ n', nestFocusedWithNew n focused (.leaf leaf) groupId axis = some n' ∧
      removeNode leaf n' = some n := by
  obtain ⟨n', hn'⟩ : ∃ n', nestFocusedOrdered n focused (.leaf leaf) groupId axis false = some n' :=
    nestFocusedOrdered_isSome hnodup hfocused (.leaf leaf)
  refine ⟨n', hn', ?_⟩
  obtain ⟨ctx, m, m', rfl, rfl, -, hm⟩ := updateAt_eq_some hn'
  obtain rfl := Option.some.inj hm
  rw [Context.leaves_fill, List.mem_append, List.mem_append, not_or, not_or] at hleaf
  exact removeNode_fill hleaf.1.1 hleaf.2 (removeNode_graft hleaf.1.2)

end

/-- Admission and removal are inverse on valid trees and the empty domain,
whatever the axis; removal keeps a tree valid, drops only the leaf, and
leaves the share ratios of the groups that survive. -/
theorem admission_removal :
    (∀ {tree : Option Node} {focused : Option NodeId} {leaf : NodeId} (axis : Axis)
        (existing : BTreeSet NodeId) (window : WindowId) (baseRevision : Nat),
      (∀ n, tree = some n → TreeOk n ∧ leaf ∉ n.ids ∧ ∀ f, focused = some f → f ∈ n.leaves) →
        ∃ n' existing', insertTiled tree focused leaf axis existing window baseRevision =
            some (n', existing') ∧
          removeLeafFromTree (some n') leaf = tree) ∧
      ∀ {n : Node} (leaf : NodeId), TreeOk n →
        (removeLeafFromTree (some n) leaf = none ↔ n = .leaf leaf) ∧
          ∀ {n' : Node}, removeLeafFromTree (some n) leaf = some n' →
            TreeOk n' ∧ n'.leaves = n.leaves.filter (· ≠ leaf) ∧ Thinned leaf n n' := by
  refine ⟨fun {tree focused leaf} axis existing window baseRevision htree => ?_,
    fun {n} leaf hok => ⟨removeNode_eq_none hok, fun {n'} hremove => ?_⟩⟩
  · cases tree with
    | none => exact ⟨.leaf leaf, existing, rfl, by simp [removeLeafFromTree, removeNode]⟩
    | some n =>
      obtain ⟨hok, hfresh, hfocused⟩ := htree n rfl
      have hleaf : leaf ∉ n.leaves := fun hin => hfresh (Node.mem_ids_of_mem_leaves hin)
      cases focused with
      | none => exact ⟨_, _, rfl, removeNode_graft hleaf⟩
      | some f =>
        obtain ⟨n', hn', hback⟩ := insertTiled_removed hok.nodup hleaf (hfocused f rfl)
        exact ⟨n', _, by rw [insertTiled, hn']; rfl, hback⟩
  · obtain ⟨hok', hleaves⟩ := removeNode_treeOk hok hremove
    exact ⟨hok', hleaves, removeNode_thinned hok hremove⟩

/-! A column of three uneven shares beside a leaf: removing one of the three
leaves the other two in their ratio. -/

def unevenTree : Node :=
  .group ⟨"root"⟩ .horizontal
    [.leaf ⟨"a"⟩, .group ⟨"column"⟩ .vertical [.leaf ⟨"b"⟩, .leaf ⟨"c"⟩, .leaf ⟨"d"⟩] [4, 2, 6]]
    [3, 1]

/-- A column of three in uneven shares: admitting a window beside the middle
one and removing it is nothing, and removing the first leaves 1 to 3. -/
theorem admission_removal_uneven :
    (∃ n' existing', insertTiled (some unevenTree) (some ⟨"c"⟩) ⟨"e"⟩ .horizontal ∅ ⟨"w"⟩ 7 =
        some (n', existing') ∧
      removeLeafFromTree (some n') ⟨"e"⟩ = some unevenTree) ∧
      Thinned ⟨"b"⟩ unevenTree (.group ⟨"root"⟩ .horizontal
        [.leaf ⟨"a"⟩, .group ⟨"column"⟩ .vertical [.leaf ⟨"c"⟩, .leaf ⟨"d"⟩] [1, 3]] [3, 1]) := by
  have hok : TreeOk unevenTree :=
    ⟨by simp [unevenTree, u64Size], by decide, by decide⟩
  refine ⟨admission_removal.1 .horizontal ∅ ⟨"w"⟩ 7 ?_, ?_⟩
  · rintro n ⟨⟩
    refine ⟨hok, by decide, ?_⟩
    rintro f ⟨⟩
    decide
  · exact ((admission_removal.2 ⟨"b"⟩ hok).2 (by decide)).2.2

end PlasmaTiler
