import PlasmaTiler.Boundary
import PlasmaTiler.Keyed
import PlasmaTiler.Rearrange

/-!
# Planner and applier agree

The planner works on the path to the focused leaf: it sees the contexts of
the leaf from the inside out and derives an operation from them. The applier
gets the operation alone. It looks its nodes up by id in the tree and checks
the plan against what it finds there, and refuses what does not fit.

In a valid world both speak of the same contexts. The tree is a context
filled with the focused leaf, an id names one node of it, and so the lookups
of the applier come back with what the planner has seen; each operation the
planner derives passes the applier's checks, and rearranges the tree of its
domain or carries the mover into the next one. There is a lemma for each kind
of edit, on a subtree with its context (`Rearranges`, `rearranges_fill`): two
neighbours exchanged, the mover grouped beside a neighbour, put among the
children of what is left, or beside one child of it.

Shares are scaled in 64 bits on insertion, and the one way in which an edit
can fail is that the scaled shares do not fit (`insertionOverflows`). It is a
predicate of the shares before the edit.
-/

namespace PlasmaTiler

theorem TreeOk.of_mem {tree m : Node} (h : TreeOk tree) (hm : m ∈ tree.nodes) : TreeOk m := by
  have hids := h.idsOk.of_mem hm
  exact ⟨h.wellFormed.of_mem hm, hids.nodup, hids.nonempty⟩

/-! ## Subtrees with the mover put back -/

section
variable {m s : Node} {x fresh : NodeId} {direction : Direction} {axis : Axis}

/-- What is left of a subtree has room for the mover. -/
theorem Removed.subperm (h : Removed m s x) (hnodup : m.ids.Nodup) (hx : x ∈ m.ids) :
    (x :: s.ids).Subperm m.ids := by
  refine List.subperm_of_subset (List.nodup_cons.mpr ⟨h.leaf_not_mem, hnodup.sublist h.ids⟩) ?_
  intro i hi
  rcases List.mem_cons.mp hi with rfl | hi
  · exact hx
  · exact h.ids.subset hi

/-- The rest of a subtree: it leaves room for the mover and has the other
leaves in their order. -/
structure Rest (m s : Node) (x : NodeId) : Prop where
  ids : (x :: s.ids).Subperm m.ids
  leaves : s.leaves = m.leaves.filter (· ≠ x)
  wellFormed : s.WellFormed

theorem Removed.rest (h : Removed m s x) (hnodup : m.ids.Nodup) (hx : x ∈ m.ids) : Rest m s x :=
  ⟨h.subperm hnodup hx, h.leaves, h.wellFormed⟩

theorem Rest.filter_leaves (h : Rest m s x) :
    s.leaves.filter (· ≠ x) = m.leaves.filter (· ≠ x) := by
  rw [h.leaves, List.filter_filter]
  simp

/-- The mover and the rest under a new group. -/
theorem Rest.split (h : Rest m s x) :
    Rearranged m (splitToward direction fresh axis (.leaf x) s) x fresh where
  ids := by
    have hperm : (splitToward direction fresh axis (.leaf x) s).ids.Perm (fresh :: x :: s.ids) := by
      unfold splitToward
      split
      · simp
      · simp
    exact hperm.subperm.trans ((List.subperm_cons fresh).mpr h.ids)
  leaves := by
    rw [← h.filter_leaves]
    unfold splitToward
    split <;> simp
  mem := by
    unfold splitToward
    split <;> simp
  wellFormed := by
    unfold splitToward
    rw [Node.wellFormed_group]
    split <;> simp [newGroupShares, u64Size, h.wellFormed]

/-- The mover among the children of what is left. -/
theorem Rest.insert {i : NodeId} {pre post : List Node} {shares out : List Nat}
    (h : Rest m (.group i axis (pre ++ post) shares) x)
    (hlength : out.length = (pre ++ post).length + 1) (hpos : ∀ share ∈ out, 0 < share)
    (hsum : out.sum < u64Size) :
    Rearranged m (.group i axis (pre ++ .leaf x :: post) out) x fresh where
  ids := by
    have hperm : (Node.group i axis (pre ++ .leaf x :: post) out).ids.Perm
        (x :: (Node.group i axis (pre ++ post) shares).ids) := by
      simp only [Node.ids_group, List.flatMap_append, List.flatMap_cons, Node.ids_leaf,
        List.singleton_append]
      exact (List.perm_middle.cons i).trans (List.Perm.swap _ _ _)
    exact (hperm.subperm.trans h.ids).trans (List.sublist_cons_self fresh _).subperm
  leaves := by
    rw [← h.filter_leaves]
    simp
  mem := by simp
  wellFormed := by
    have hwf := Node.wellFormed_group.mp h.wellFormed
    refine Node.wellFormed_group.mpr ⟨⟨?_, ?_, hpos, hsum⟩, ?_⟩
    · have hcount := hwf.1.1
      simp only [List.length_append, List.length_cons] at hcount ⊢
      omega
    · rw [hlength]
      simp only [List.length_append, List.length_cons]
      omega
    · intro c hc
      rw [List.mem_append, List.mem_cons] at hc
      rcases hc with hc | rfl | hc
      · exact hwf.2 c (List.mem_append_left _ hc)
      · exact Node.wellFormed_leaf x
      · exact hwf.2 c (List.mem_append_right _ hc)

/-- The mover beside one child of what is left, in a new group: the only new
id is the group's, and the order of the other leaves is that of the rest. -/
theorem Rest.splitChild {i : NodeId} {gaxis : Axis} {pre post : List Node} {victim : Node}
    {shares : List Nat} {pair : List Node} (h : Rest m (.group i gaxis (pre ++ victim :: post) shares) x)
    (hpair : pair = [.leaf x, victim] ∨ pair = [victim, .leaf x]) :
    Rearranged m (.group i gaxis (pre ++ .group fresh axis pair newGroupShares :: post) shares) x
      fresh where
  ids := by
    have hsplit : (Node.group fresh axis pair newGroupShares).ids.Perm
        (fresh :: x :: victim.ids) := by
      rcases hpair with rfl | rfl
      · simp
      · simp
    have hperm : (Node.group i gaxis
        (pre ++ .group fresh axis pair newGroupShares :: post) shares).ids.Perm
        (fresh :: x :: (Node.group i gaxis (pre ++ victim :: post) shares).ids) := by
      simp only [Node.ids_group i, List.flatMap_append, List.flatMap_cons]
      refine ((((hsplit.append_right _).append_left _).cons i).trans ?_)
      have hmove : ∀ (a : NodeId) (l r : List NodeId), (i :: (l ++ a :: r)).Perm (a :: i :: (l ++ r)) :=
        fun a l r => (List.perm_middle.cons i).trans (List.Perm.swap _ _ _)
      simp only [List.cons_append]
      exact (hmove fresh _ _).trans ((hmove x _ _).cons fresh)
    exact hperm.subperm.trans ((List.subperm_cons fresh).mpr h.ids)
  leaves := by
    rw [← h.filter_leaves]
    rcases hpair with rfl | rfl
    · simp
    · simp
  mem := by
    rcases hpair with rfl | rfl
    · simp
    · simp
  wellFormed := by
    have hwf := Node.wellFormed_group.mp h.wellFormed
    have hvictim : victim.WellFormed := hwf.2 victim (by simp)
    have hsplit : (Node.group fresh axis pair newGroupShares).WellFormed := by
      rw [Node.wellFormed_group]
      rcases hpair with rfl | rfl
      · simp [newGroupShares, u64Size, hvictim]
      · simp [newGroupShares, u64Size, hvictim]
    refine Node.wellFormed_group.mpr ⟨by simpa using hwf.1, fun c hc => ?_⟩
    rw [List.mem_append, List.mem_cons] at hc
    rcases hc with hc | rfl | hc
    · exact hwf.2 c (List.mem_append_left _ hc)
    · exact hsplit
    · exact hwf.2 c (List.mem_append_right _ (List.mem_cons_of_mem _ hc))

/-! ## Neighbors -/

/-- Two adjacent children, the mover and a leaf, exchanged with their shares:
ids and totals are the same, and only the mover has changed its place in the
order. -/
theorem swapped_rearranged {i : NodeId} {pre post : List Node} {a b : Node} {ps qs : List Nat}
    {u v : Nat} (hpair : (a = .leaf x ∧ b.isLeaf = true) ∨ (b = .leaf x ∧ a.isLeaf = true))
    (hwf : (Node.group i axis (pre ++ a :: b :: post) (ps ++ u :: v :: qs)).WellFormed) :
    Rearranged (.group i axis (pre ++ a :: b :: post) (ps ++ u :: v :: qs))
      (.group i axis (pre ++ b :: a :: post) (ps ++ v :: u :: qs)) x fresh where
  ids := by
    have hchildren : (pre ++ b :: a :: post).Perm (pre ++ a :: b :: post) :=
      (List.Perm.swap a b post).append_left pre
    have hperm : (Node.group i axis (pre ++ b :: a :: post) (ps ++ v :: u :: qs)).ids.Perm
        (Node.group i axis (pre ++ a :: b :: post) (ps ++ u :: v :: qs)).ids := by
      rw [Node.ids_group, Node.ids_group]
      exact (hchildren.flatMap_right _).cons i
    exact hperm.subperm.trans (List.sublist_cons_self fresh _).subperm
  leaves := by
    have hleaf : ∀ n : Node, n.isLeaf = true → ∃ y, n = .leaf y := by
      intro n hn
      cases n with
      | leaf y => exact ⟨y, rfl⟩
      | group _ _ _ _ => cases hn
    rcases hpair with ⟨rfl, hb⟩ | ⟨rfl, ha⟩
    · obtain ⟨y, rfl⟩ := hleaf b hb
      by_cases hy : y = x <;> simp [hy]
    · obtain ⟨y, rfl⟩ := hleaf a ha
      by_cases hy : y = x <;> simp [hy]
  mem := by
    rcases hpair with ⟨rfl, -⟩ | ⟨rfl, -⟩ <;> simp
  wellFormed := by
    obtain ⟨⟨hcount, hlength, hpos, hsum⟩, hwfs⟩ := Node.wellFormed_group.mp hwf
    have hshares : (ps ++ v :: u :: qs).Perm (ps ++ u :: v :: qs) :=
      (List.Perm.swap u v qs).append_left ps
    refine Node.wellFormed_group.mpr ⟨⟨?_, ?_, ?_, ?_⟩, ?_⟩
    · simpa using hcount
    · simpa using hlength
    · exact fun s hs => hpos s (hshares.mem_iff.mp hs)
    · rw [hshares.sum_nat]
      exact hsum
    · intro c hc
      refine hwfs c ?_
      simp only [List.mem_append, List.mem_cons] at hc ⊢
      rcases hc with hc | rfl | rfl | hc
      · exact .inl hc
      · exact .inr (.inr (.inl rfl))
      · exact .inr (.inl rfl)
      · exact .inr (.inr (.inr hc))

/-- Two adjacent children, the mover among them, as one child with the sum of
their shares. -/
theorem paired_rearranged {i : NodeId} {paxis : Axis} {pre post : List Node} {a b : Node}
    {ps qs : List Nat} {u v : Nat} (hx : x ∈ a.leaves ∨ x ∈ b.leaves)
    (hothers : 1 ≤ (pre ++ post).length)
    (hwf : (Node.group i axis (pre ++ a :: b :: post) (ps ++ u :: v :: qs)).WellFormed) :
    Rearranged (.group i axis (pre ++ a :: b :: post) (ps ++ u :: v :: qs))
      (.group i axis (pre ++ .group fresh paxis [a, b] newGroupShares :: post) (ps ++ (u + v) :: qs))
      x fresh where
  ids := by
    have hperm : (Node.group i axis (pre ++ .group fresh paxis [a, b] newGroupShares :: post)
        (ps ++ (u + v) :: qs)).ids.Perm
        (fresh :: (Node.group i axis (pre ++ a :: b :: post) (ps ++ u :: v :: qs)).ids) := by
      have hmove : ∀ (l r : List NodeId), (i :: (l ++ fresh :: r)).Perm (fresh :: i :: (l ++ r)) :=
        fun l r => (List.perm_middle.cons i).trans (List.Perm.swap _ _ _)
      simpa using hmove (pre.flatMap Node.ids) (a.ids ++ (b.ids ++ post.flatMap Node.ids))
    exact hperm.subperm
  leaves := by simp
  mem := by
    rcases hx with hx | hx
    · simp [hx]
    · simp [hx]
  wellFormed := by
    obtain ⟨⟨hcount, hlength, hpos, hsum⟩, hwfs⟩ := Node.wellFormed_group.mp hwf
    have ha : a.WellFormed := hwfs a (by simp)
    have hb : b.WellFormed := hwfs b (by simp)
    have hpair : (Node.group fresh paxis [a, b] newGroupShares).WellFormed := by
      rw [Node.wellFormed_group]
      simp [newGroupShares, u64Size, ha, hb]
    have hu : 0 < u := hpos u (by simp)
    refine Node.wellFormed_group.mpr ⟨⟨?_, ?_, ?_, ?_⟩, ?_⟩
    · simp only [List.length_append, List.length_cons] at hothers ⊢
      omega
    · simp only [List.length_append, List.length_cons] at hlength ⊢
      omega
    · intro s hs
      rw [List.mem_append, List.mem_cons] at hs
      rcases hs with hs | rfl | hs
      · exact hpos s (List.mem_append_left _ hs)
      · omega
      · exact hpos s (by simp [hs])
    · simp only [List.sum_append, List.sum_cons] at hsum ⊢
      omega
    · intro c hc
      rw [List.mem_append, List.mem_cons] at hc
      rcases hc with hc | rfl | hc
      · exact hwfs c (List.mem_append_left _ hc)
      · exact hpair
      · exact hwfs c (by simp [hc])

end

/-! ## Applying in the source tree -/

/-- The edit succeeds and rearranges the tree around the leaf `x`. If it opens
a group, the id of the group was free among the given ones. -/
def Rearranges (tree : Node) (x : NodeId) (nodeIds : BTreeSet NodeId) (result : Option Node) :
    Prop :=
  ∃ n' fresh, result = some n' ∧ fresh ∉ nodeIds ∧ fresh.isEmpty = false ∧
    Rearranged tree n' x fresh

theorem generateMoveGroupId_named {leaf : NodeId} {baseRevision : Nat} {rule : String}
    {existing : BTreeSet NodeId} :
    (generateMoveGroupId leaf baseRevision rule existing).isEmpty = false := by
  refine freshId_isEmpty fun heq => ?_
  have hlength := congrArg String.length heq
  simp only [String.length_append] at hlength
  have hprefix : "grp-".length = 4 := by decide
  have hempty : "".length = 0 := by decide
  omega

section
variable {ctx : Context} {f : Frame} {m r s : Node} {x : NodeId} {direction : Direction}
  {nodeIds : BTreeSet NodeId} {baseRevision : Nat}

/-- An edit inside a context, with a minted id. -/
theorem rearranges_fill {rule : String} (hctx : ctx.Ok)
    (h : Rearranged m s x (generateMoveGroupId x baseRevision rule nodeIds)) :
    Rearranges (ctx.fill m) x nodeIds (some (ctx.fill s)) :=
  ⟨_, _, rfl, freshId_not_mem, generateMoveGroupId_named, h.fill hctx⟩

/-- An edit inside a context that mints no id. -/
theorem rearranges_fill_old (hctx : ctx.Ok) (h : ∀ fresh, Rearranged m s x fresh) :
    Rearranges (ctx.fill m) x nodeIds (some (ctx.fill s)) :=
  ⟨_, _, rfl, freshId_not_mem, generateMoveGroupId_named, (h (generateMoveGroupId x 0 "r1" nodeIds)).fill hctx⟩

theorem replaceNodeById_fill (hnodup : (ctx.fill m).ids.Nodup) :
    replaceNodeById (ctx.fill m) m.id r = some (ctx.fill r) :=
  updateAt_fill hnodup (fun k hk => by simpa [isNamed] using hk) (by simp [isNamed])

/-- The parent of the mover without it, its shares not rescaled. -/
def remainder (f : Frame) : Node :=
  match f.before ++ f.after with
  | [child] => child
  | siblings => .group f.id f.axis siblings (f.shares.eraseIdx f.before.length)

theorem ids_around_leaf : (f.fill (.leaf x)).ids.Perm
    (x :: f.id :: (f.before ++ f.after).flatMap Node.ids) := by
  rw [Frame.fill, Node.ids_group, List.flatMap_append, List.flatMap_append, List.flatMap_cons,
    Node.ids_leaf, List.singleton_append]
  exact (List.perm_middle.cons _).trans (List.Perm.swap _ _ _)

theorem rest_remainder (hf : f.Ok) (hx : x ∉ (f.before ++ f.after).flatMap Node.leaves) :
    Rest (f.fill (.leaf x)) (remainder f) x := by
  have hkeep : (f.fill (.leaf x)).leaves.filter (· ≠ x) =
      (f.before ++ f.after).flatMap Node.leaves := by
    have hself : ((f.before ++ f.after).flatMap Node.leaves).filter (· ≠ x) =
        (f.before ++ f.after).flatMap Node.leaves :=
      List.filter_eq_self.mpr fun y hy => by simpa using fun heq : y = x => hx (heq ▸ hy)
    rw [← hself, Frame.fill, Node.leaves_group]
    simp
  obtain ⟨⟨hsiblings, hshares, hpos, hsum⟩, hwf⟩ := hf
  unfold remainder
  split
  · rename_i child heq
    rw [heq] at hwf hkeep
    refine ⟨?_, by simpa using hkeep.symm, hwf child (by simp)⟩
    refine List.Subperm.trans (List.Sublist.subperm ?_) ids_around_leaf.symm.subperm
    rw [heq]
    simp
  · rename_i siblings hmany
    have htwo : (f.before ++ f.after).length ≠ 1 := by
      intro hone
      obtain ⟨c, hc⟩ := List.length_eq_one_iff.mp hone
      exact hmany c hc
    have hindex : f.before.length < f.shares.length := by omega
    have hlength := List.length_eraseIdx_of_lt hindex
    have hsub := List.eraseIdx_sublist f.shares f.before.length
    refine ⟨?_, hkeep.symm ▸ Node.leaves_group _ _ _ _, ?_⟩
    · rw [Node.ids_group]
      exact ids_around_leaf.symm.subperm
    · rw [List.length_append] at htwo
      refine Node.wellFormed_group.mpr ⟨⟨?_, ?_, ?_, ?_⟩, hwf⟩
      · rw [List.length_append]
        omega
      · rw [List.length_append]
        omega
      · exact fun s hs => hpos s (hsub.subset hs)
      · exact Nat.lt_of_le_of_lt (sum_le_of_sublist hsub) hsum

theorem applyWrapPerpendicular_fill (hok : TreeOk (ctx.fill (f.fill (.leaf x))))
    (haxis : f.axis ≠ Axis.forDirection direction) :
    Rearranges (ctx.fill (f.fill (.leaf x))) x nodeIds
      (applyWrapPerpendicular (ctx.fill (f.fill (.leaf x))) x direction baseRevision nodeIds f.id
        (Axis.forDirection direction)) := by
  obtain ⟨hctx, hframe⟩ := Context.wellFormed_fill.mp hok.wellFormed
  obtain ⟨hf, -⟩ := Frame.wellFormed_fill.mp hframe
  have hfresh := not_mem_around_leaf (hok.nodup.sublist (Node.leaves_sublist_ids _))
  have hx : x ∉ (f.before ++ f.after).flatMap Node.leaves := by
    rw [List.flatMap_append]
    simp only [List.mem_append, not_or] at hfresh ⊢
    exact ⟨hfresh.1.2, hfresh.2.1⟩
  have hwrapped : applyWrapPerpendicular (ctx.fill (f.fill (.leaf x))) x direction baseRevision
      nodeIds f.id (Axis.forDirection direction) =
      some (ctx.fill (splitToward direction (generateMoveGroupId x baseRevision "r1" nodeIds)
        (Axis.forDirection direction) (.leaf x) (remainder f))) := by
    have hreplace : ∀ r, replaceNodeById (ctx.fill (f.fill (.leaf x))) f.id r = some (ctx.fill r) :=
      fun r => replaceNodeById_fill (m := f.fill (.leaf x)) hok.nodup
    simp only [applyWrapPerpendicular, moverIn_fill hok.nodup, beq_self_eq_true, require_true,
      Option.bind_eq_bind, Option.bind_some, bne_iff_ne.mpr haxis, getElem?_middle, Option.any_some,
      Node.isLeaf, eraseIdx_middle, hreplace]
    unfold remainder
    have hsiblings := hf.1.1
    rw [← List.length_append] at hsiblings
    generalize f.before ++ f.after = siblings at hsiblings ⊢
    cases siblings with
    | nil => exact absurd hsiblings (by decide)
    | cons c rest =>
      cases rest with
      | nil => rfl
      | cons d rest => rfl
  rw [hwrapped]
  exact rearranges_fill hctx (rest_remainder hf hx).split

/-! ### Neighbors -/

/-- The neighbor beside the mover, and the two of them among the children: the
list is cut around the pair, in the order they stand in. -/
theorem neighborOf_cut {nb : Node} {ni : Nat} {c : Node}
    (h : neighborOf ⟨f.id, f.axis, f.before.length, f.before ++ c :: f.after⟩ (stepFor direction) =
      some (ni, nb)) :
    stepIndex f.before.length (stepFor direction) = some ni ∧
      (f.before ++ c :: f.after)[ni]? = some nb ∧
      ∃ pre post, (f.before ++ c :: f.after = pre ++ c :: nb :: post ∧
          f.before.length = pre.length ∧ ni = pre.length + 1 ∧ stepFor direction = 1) ∨
        (f.before ++ c :: f.after = pre ++ nb :: c :: post ∧
          f.before.length = pre.length + 1 ∧ ni = pre.length ∧ stepFor direction = -1) := by
  unfold neighborOf at h
  dsimp only at h
  split at h
  · rename_i hindex
    obtain ⟨n, hn, heq⟩ := Option.map_eq_some_iff.mp h
    cases heq
    refine ⟨if_pos hindex, hn, ?_⟩
    have hstep : stepFor direction = 1 ∨ stepFor direction = -1 := by
      cases direction <;> simp [stepFor]
    rcases hstep with hstep | hstep
    · rw [hstep] at hn ⊢
      have hnext : ((f.before.length : Int) + 1).toNat = f.before.length + 1 := by omega
      rw [hnext, List.getElem?_append_right (by omega)] at hn
      have hhead : f.after[0]? = some nb := by simpa using hn
      obtain ⟨pre, post, hafter, hpre⟩ := exists_cut_around hhead
      obtain rfl : pre = [] := List.length_eq_zero_iff.mp hpre
      exact ⟨f.before, post, .inl ⟨by rw [hafter]; rfl, rfl, hnext, rfl⟩⟩
    · rw [hstep] at hn hindex ⊢
      have hprev : ((f.before.length : Int) + -1).toNat = f.before.length - 1 := by omega
      have hlt : f.before.length - 1 < f.before.length := by omega
      rw [hprev, List.getElem?_append_left hlt] at hn
      obtain ⟨pre, post, hbefore, hpre⟩ := exists_cut_around hn
      have hpost : post = [] := by
        have hlength := congrArg List.length hbefore
        simp only [List.length_append, List.length_cons] at hlength
        exact List.length_eq_zero_iff.mp (by omega)
      subst hpost
      exact ⟨pre, f.after, .inr ⟨by rw [hbefore]; simp, by rw [hbefore]; simp, by omega, rfl⟩⟩
  · cases h

/-- The shares of the mover and its neighbor among the shares. -/
theorem shares_cut {pre post : List Node} {a b : Node} {shares : List Nat}
    (h : shares.length = (pre ++ a :: b :: post).length) :
    ∃ ps u v qs, shares = ps ++ u :: v :: qs ∧ ps.length = pre.length := by
  simp only [List.length_append, List.length_cons] at h
  obtain ⟨u, hu⟩ : ∃ u, shares[pre.length]? = some u :=
    ⟨_, List.getElem?_eq_getElem (by omega)⟩
  obtain ⟨ps, rest, hshares, hps⟩ := exists_cut_around hu
  have hrest : 1 ≤ rest.length := by
    have hlength := congrArg List.length hshares
    simp only [List.length_append, List.length_cons] at hlength
    omega
  obtain ⟨v, qs, rfl⟩ := List.exists_cons_of_length_pos hrest
  exact ⟨ps, _, v, qs, hshares, hps⟩

theorem findIdx?_of_getElem? {n : Node} (hnodup : n.ids.Nodup) (hm : m ∈ n.nodes) {c : Node}
    {i : Nat} (h : m.children[i]? = some c) : m.children.findIdx? (isNamed c.id) = some i := by
  obtain ⟨pre, post, hchildren, rfl⟩ := exists_cut_around h
  exact Node.findIdx?_child hnodup hm hchildren

theorem applySwap_fill {nb : NodeId} {ni : Nat} {count : Nat → Bool}
    (hok : TreeOk (ctx.fill (f.fill (.leaf x)))) (haxis : f.axis = Axis.forDirection direction)
    (hneighbor : neighborOf ⟨f.id, f.axis, f.before.length, f.before ++ .leaf x :: f.after⟩
      (stepFor direction) = some (ni, .leaf nb))
    (hcount : count (f.before ++ .leaf x :: f.after).length = true) :
    Rearranges (ctx.fill (f.fill (.leaf x))) x nodeIds
      (applySwap (ctx.fill (f.fill (.leaf x))) x direction f.id nb count) := by
  obtain ⟨hctx, hframe⟩ := Context.wellFormed_fill.mp hok.wellFormed
  obtain ⟨hstep, hat, pre, post, hcut⟩ := neighborOf_cut hneighbor
  have hslot : (f.before ++ .leaf x :: f.after).findIdx? (isNamed x) = some f.before.length :=
    Node.findIdx?_child hok.nodup (Frame.mem_nodes_fill (n := .leaf x)) rfl
  have hslotNb : (f.before ++ .leaf x :: f.after).findIdx? (isNamed nb) = some ni :=
    findIdx?_of_getElem? hok.nodup (Frame.mem_nodes_fill (n := .leaf x)) hat
  have hlength : f.shares.length = (f.before ++ .leaf x :: f.after).length :=
    (Node.wellFormed_group.mp hframe).1.2.1
  have hswap : applySwap (ctx.fill (f.fill (.leaf x))) x direction f.id nb count =
      some (ctx.fill (.group f.id f.axis
        (swapAt (f.before ++ .leaf x :: f.after) f.before.length ni)
        (swapAt f.shares f.before.length ni))) := by
    have hedit : swapDirectChildren (ctx.fill (f.fill (.leaf x))) f.id x nb =
        some (ctx.fill (.group f.id f.axis
          (swapAt (f.before ++ .leaf x :: f.after) f.before.length ni)
          (swapAt f.shares f.before.length ni))) := by
      have hhit : isGroupNamed f.id (f.fill (.leaf x)) = true := by
        simp [isGroupNamed, Frame.fill, Node.isLeaf]
      rw [swapDirectChildren, updateAt_fill hok.nodup (fun k hk => by
        simp only [isGroupNamed, Bool.and_eq_true, beq_iff_eq] at hk
        exact hk.1) hhit]
      simp [Frame.fill, hslot, hslotNb, hat, Node.isLeaf]
    simp only [applySwap, moverIn_fill hok.nodup, Option.bind_eq_bind, Option.bind_some, hcount,
      require_true, haxis, beq_self_eq_true, hslotNb, hstep, getElem?_middle, hat, Option.any_some,
      Node.isLeaf, Bool.and_self, hlength, hedit]
  rw [hswap]
  have hrearranged : ∀ fresh, Rearranged (f.fill (.leaf x)) (.group f.id f.axis
      (swapAt (f.before ++ .leaf x :: f.after) f.before.length ni)
      (swapAt f.shares f.before.length ni)) x fresh := by
    intro fresh
    rw [Frame.fill] at hframe ⊢
    rcases hcut with ⟨hchildren, hindex, rfl, -⟩ | ⟨hchildren, hindex, rfl, -⟩
    · rw [hchildren] at hframe hlength ⊢
      obtain ⟨ps, u, v, qs, hshares, hps⟩ := shares_cut hlength
      rw [hindex, swapAt_middle.1, ← hps]
      rw [hshares] at hframe ⊢
      rw [swapAt_middle.1]
      exact swapped_rearranged (.inl ⟨rfl, rfl⟩) hframe
    · rw [hchildren] at hframe hlength ⊢
      obtain ⟨ps, u, v, qs, hshares, hps⟩ := shares_cut hlength
      rw [hindex, swapAt_middle.2, ← hps]
      rw [hshares] at hframe ⊢
      rw [swapAt_middle.2]
      exact swapped_rearranged (.inr ⟨rfl, rfl⟩) hframe
  exact rearranges_fill_old hctx hrearranged

theorem applyWrapNeighbor_fill {plan : MovePlan} {nb : Node} {ni : Nat}
    (hok : TreeOk (ctx.fill (f.fill (.leaf x)))) (haxis : f.axis = Axis.forDirection direction)
    (hneighbor : neighborOf ⟨f.id, f.axis, f.before.length, f.before ++ .leaf x :: f.after⟩
      (stepFor direction) = some (ni, nb))
    (hcount : 3 ≤ (f.before ++ .leaf x :: f.after).length)
    (hmode : (plan.intent.sameAxisMove == .swapWithNeighbor && nb.isLeaf) = false) :
    Rearranges (ctx.fill (f.fill (.leaf x))) x nodeIds
      (applyWrapNeighbor (ctx.fill (f.fill (.leaf x))) x direction plan baseRevision nodeIds f.id
        nb.id (decide (f.before.length < ni)) f.axis) := by
  obtain ⟨hctx, hframe⟩ := Context.wellFormed_fill.mp hok.wellFormed
  obtain ⟨hstep, hat, pre, post, hcut⟩ := neighborOf_cut hneighbor
  have hslot : (f.before ++ .leaf x :: f.after).findIdx? (isNamed nb.id) = some ni :=
    findIdx?_of_getElem? hok.nodup (Frame.mem_nodes_fill (n := .leaf x)) hat
  obtain ⟨⟨-, hlength, -, hsum⟩, -⟩ := Node.wellFormed_group.mp hframe
  have hreplace : ∀ (children : List Node) (shares : List Nat), 2 ≤ children.length →
      shares.length = children.length →
      replaceGroupChildren (ctx.fill (f.fill (.leaf x))) f.id children shares =
        some (ctx.fill (.group f.id f.axis children shares)) := by
    intro children shares htwo heq
    have hhit : isGroupNamed f.id (f.fill (.leaf x)) = true := by
      simp [isGroupNamed, Frame.fill, Node.isLeaf]
    rw [replaceGroupChildren, updateAt_fill hok.nodup (fun k hk => by
      simp only [isGroupNamed, Bool.and_eq_true, beq_iff_eq] at hk
      exact hk.1) hhit, Frame.fill]
    dsimp only
    rw [if_neg (by omega), Option.map_some]
  have hallow : (!(plan.intent.sameAxisMove == .swapWithNeighbor && Option.any Node.isLeaf (some nb))) =
      true := by
    rw [Option.any_some, hmode]
    rfl
  simp only [applyWrapNeighbor, moverIn_fill hok.nodup, Option.bind_eq_bind, Option.bind_some, haxis,
    beq_self_eq_true, require_true, hslot, hstep, hat, hallow, Bool.and_self, decide_eq_true hcount]
  -- the joined children and shares, whichever of the two is the mover
  have hjoin : ∀ {pre post : List Node} {a b : Node} {ps qs : List Nat} {u v : Nat},
      ps.length = pre.length → 3 ≤ (pre ++ a :: b :: post).length →
      (x ∈ a.leaves ∨ x ∈ b.leaves) →
      f.fill (.leaf x) = .group f.id f.axis (pre ++ a :: b :: post) (ps ++ u :: v :: qs) →
      Rearranges (ctx.fill (f.fill (.leaf x))) x nodeIds
        (replaceGroupChildren (ctx.fill (f.fill (.leaf x))) f.id
          (pre ++ .group (generateMoveGroupId x baseRevision "r2c" nodeIds)
            (Axis.forDirection direction) [a, b] newGroupShares :: post) (ps ++ (u + v) :: qs)) := by
    intro pre post a b ps qs u v hps hcount hx hfill
    have hwf := hframe
    rw [hfill] at hwf
    have hlengths := (Node.wellFormed_group.mp hwf).1.2.1
    simp only [List.length_append, List.length_cons] at hlengths hcount
    rw [hreplace _ _ (by simp only [List.length_append, List.length_cons]; omega)
      (by simp only [List.length_append, List.length_cons]; omega)]
    have hpaired : Rearranged (f.fill (.leaf x)) (.group f.id f.axis
        (pre ++ .group (generateMoveGroupId x baseRevision "r2c" nodeIds)
          (Axis.forDirection direction) [a, b] newGroupShares :: post) (ps ++ (u + v) :: qs)) x
        (generateMoveGroupId x baseRevision "r2c" nodeIds) := by
      rw [hfill]
      exact paired_rearranged hx (by rw [List.length_append]; omega) hwf
    exact rearranges_fill hctx hpaired
  rcases hcut with ⟨hchildren, hindex, rfl, -⟩ | ⟨hchildren, hindex, rfl, -⟩
  · rw [hchildren] at hlength hcount
    obtain ⟨ps, u, v, qs, hshares, hps⟩ := shares_cut hlength
    have hpair : checkU64 (u + v) = some (u + v) := by
      rw [hshares] at hsum
      simp only [List.sum_append, List.sum_cons] at hsum
      exact checkU64_eq_some.mpr ⟨rfl, by omega⟩
    have hjoined := hjoin hps hcount (.inl (by simp)) (by rw [Frame.fill, hchildren, hshares])
    have hmax : max pre.length (pre.length + 1) = pre.length + 1 := by omega
    have hmin : min pre.length (pre.length + 1) = pre.length := by omega
    have hbefore : decide (pre.length < pre.length + 1) = true := by simp
    rw [hchildren, hshares, hindex, hmax, hmin, hbefore]
    simp only [getElem?_middle, Option.bind_some, if_pos, join_middle]
    simp only [← hps, getElem?_middle, getElem?_second, Option.bind_some, hpair, join_middle]
    exact hjoined
  · rw [hchildren] at hlength hcount
    obtain ⟨ps, u, v, qs, hshares, hps⟩ := shares_cut hlength
    have hpair : checkU64 (v + u) = some (u + v) := by
      rw [hshares] at hsum
      simp only [List.sum_append, List.sum_cons] at hsum
      exact checkU64_eq_some.mpr ⟨Nat.add_comm u v, by omega⟩
    have hjoined := hjoin hps hcount (.inr (by simp)) (by rw [Frame.fill, hchildren, hshares])
    have hmax : max (pre.length + 1) pre.length = pre.length + 1 := by omega
    have hmin : min (pre.length + 1) pre.length = pre.length := by omega
    have hafter : decide (pre.length + 1 < pre.length) = false := by simp
    rw [hchildren, hshares, hindex, hmax, hmin, hafter]
    simp only [getElem?_second, Option.bind_some, Bool.false_eq_true, if_false, join_middle]
    simp only [← hps, getElem?_middle, getElem?_second, Option.bind_some, hpair, join_middle]
    exact hjoined

/-! ### A group beside the mover -/

/-- An insertion whose scaled shares, or whose new total, leave `u64`. It is a
condition on the shares before the insertion. -/
def insertionOverflows (shares : List Nat) (index : Nat) : Prop :=
  (∃ share ∈ shares, u64Size ≤ share * shares.length) ∨
    ∃ out, proportionalInsertionShares shares index = some out ∧ u64Size ≤ out.sum

theorem mem_nodes_of_child {n c : Node} (hm : m ∈ n.nodes) (hc : c ∈ m.children) :
    c ∈ n.nodes := by
  refine Node.nodes_subset hm ?_
  cases m with
  | leaf i => cases hc
  | group i axis cs shares =>
    rw [Node.nodes_group]
    exact List.mem_cons_of_mem _ (List.mem_flatMap.mpr ⟨c, hc, Node.self_mem_nodes c⟩)

theorem insertLeafIntoGroup_fill {i : NodeId} {axis : Axis} {cs : List Node} {shares : List Nat}
    {k : Nat} (hnodup : (ctx.fill (.group i axis cs shares)).ids.Nodup) (hk : k ≤ cs.length) :
    insertLeafIntoGroup (ctx.fill (.group i axis cs shares)) i k r =
      (proportionalInsertionShares shares k).map fun out =>
        ctx.fill (.group i axis (cs.insertIdx k r) out) := by
  have hhit : isGroupNamed i (.group i axis cs shares) = true := by
    simp [isGroupNamed, Node.isLeaf]
  rw [insertLeafIntoGroup, updateAt_fill hnodup (fun k hk => by
    simp only [isGroupNamed, Bool.and_eq_true, beq_iff_eq] at hk
    exact hk.1) hhit]
  dsimp only
  rw [if_neg (by omega), Option.map_map]
  rfl

theorem replaceChildAt_fill {i : NodeId} {axis : Axis} {pre post : List Node} {c : Node}
    {shares : List Nat} {share : Nat}
    (hnodup : (ctx.fill (.group i axis (pre ++ c :: post) shares)).ids.Nodup)
    (hshare : shares[pre.length]? = some share) :
    replaceChildAt (ctx.fill (.group i axis (pre ++ c :: post) shares)) i pre.length r share =
      some (ctx.fill (.group i axis (pre ++ r :: post) shares)) := by
  have hhit : isGroupNamed i (.group i axis (pre ++ c :: post) shares) = true := by
    simp [isGroupNamed, Node.isLeaf]
  have hsame : shares.set pre.length share = shares := by
    obtain ⟨hlt, rfl⟩ := List.getElem?_eq_some_iff.mp hshare
    exact List.set_getElem_self hlt
  rw [replaceChildAt, updateAt_fill hnodup (fun k hk => by
    simp only [isGroupNamed, Bool.and_eq_true, beq_iff_eq] at hk
    exact hk.1) hhit]
  dsimp only
  rw [if_neg (by simp), set_middle, hsame]
  rfl

/-- The insertion succeeds unless it overflows, and then it has one share
more, all positive, with a total in range. -/
theorem proportionalInsertionShares_fits {axis : Axis} {i : NodeId} {cs : List Node}
    {shares : List Nat} {k : Nat} (hwf : (Node.group i axis cs shares).WellFormed)
    (hk : k ≤ cs.length) (hfits : ¬insertionOverflows shares k) :
    ∃ out, proportionalInsertionShares shares k = some out ∧ out.length = cs.length + 1 ∧
      (∀ share ∈ out, 0 < share) ∧ out.sum < u64Size := by
  obtain ⟨⟨hcount, hlength, hpos, hsum⟩, -⟩ := Node.wellFormed_group.mp hwf
  simp only [insertionOverflows, not_or, not_exists, not_and, not_le] at hfits
  have hne : shares ≠ [] := by
    rintro rfl
    simp only [List.length_nil] at hlength
    omega
  have hnozero : shares.contains 0 = false := by
    rw [← Bool.not_eq_true, List.contains_iff_mem]
    exact fun h => Nat.lt_irrefl 0 (hpos 0 h)
  have htotal : checkedTotal shares = some shares.sum := checkedTotal_eq_some.mpr ⟨rfl, hsum⟩
  have hscaled : shares.mapM (fun s => checkU64 (s * shares.length)) =
      some (shares.map (· * shares.length)) := by
    have hall : ∀ l : List Nat, l ⊆ shares → l.mapM (fun s => checkU64 (s * shares.length)) =
        some (l.map (· * shares.length)) := by
      intro l
      induction l with
      | nil => exact fun _ => rfl
      | cons s l ih =>
        intro hsub
        obtain ⟨hs, hsub⟩ := List.cons_subset.mp hsub
        rw [List.mapM_cons, checkU64_eq_some.mpr ⟨rfl, hfits.1 s hs⟩, ih hsub]
        rfl
    exact hall shares (List.Subset.refl _)
  have hsumPos : 0 < shares.sum := by
    obtain ⟨s, rest, rfl⟩ := List.exists_cons_of_ne_nil hne
    have hs := hpos s List.mem_cons_self
    rw [List.sum_cons]
    omega
  obtain ⟨out, hout⟩ : ∃ out, proportionalInsertionShares shares k = some out := by
    unfold proportionalInsertionShares
    have hroom : ¬(shares.isEmpty = true ∨ shares.length < k) := by
      rw [List.isEmpty_iff, not_or]
      exact ⟨hne, by omega⟩
    rw [if_neg hroom, hnozero, if_neg Bool.false_ne_true]
    simp only [htotal, hscaled, Option.bind_eq_bind, Option.bind_some]
    rw [if_neg (by omega), if_neg]
    · exact ⟨_, rfl⟩
    · rintro (hlen | hzero)
      · simp only [List.length_append, List.length_take, List.length_cons, List.length_drop,
          List.length_map] at hlen
        omega
      · rw [List.contains_iff_mem, List.mem_append, List.mem_cons] at hzero
        have hmapped : ∀ s ∈ shares.map (· * shares.length), 0 < s := by
          intro s hs
          obtain ⟨t, ht, rfl⟩ := List.mem_map.mp hs
          exact Nat.mul_pos (hpos t ht) (List.length_pos_iff.mpr hne)
        rcases hzero with hzero | hzero | hzero
        · exact Nat.lt_irrefl 0 (hmapped 0 (List.mem_of_mem_take hzero))
        · omega
        · exact Nat.lt_irrefl 0 (hmapped 0 (List.mem_of_mem_drop hzero))
  obtain ⟨houtLength, houtPos⟩ := proportionalInsertionShares_eq_some hout
  exact ⟨out, hout, by omega, houtPos, hfits.2 out hout⟩

/-- The mover beside a group in a binary parent: what the applier finds, and
what is left when the mover is lifted. -/
theorem groupBeside_fill {gid : NodeId} {gaxis : Axis} {gs : List Node} {gshares : List Nat}
    {ni : Nat} (hok : TreeOk (ctx.fill (f.fill (.leaf x))))
    (haxis : f.axis = Axis.forDirection direction)
    (hneighbor : neighborOf ⟨f.id, f.axis, f.before.length, f.before ++ .leaf x :: f.after⟩
      (stepFor direction) = some (ni, .group gid gaxis gs gshares))
    (hcount : (f.before ++ .leaf x :: f.after).length = 2) :
    groupBeside (ctx.fill (f.fill (.leaf x))) f.id x gid direction =
        some (⟨f.before ++ .leaf x :: f.after, f.shares, f.id, f.axis, f.before.length⟩, ni, gs,
          gaxis) ∧
      Rest (f.fill (.leaf x)) (.group gid gaxis gs gshares) x ∧
      removeLeafFromTree (some (ctx.fill (f.fill (.leaf x)))) x =
        some (ctx.fill (.group gid gaxis gs gshares)) ∧
      TreeOk (ctx.fill (.group gid gaxis gs gshares)) := by
  obtain ⟨hstep, hat, pre, post, hcut⟩ := neighborOf_cut hneighbor
  have hsiblings : f.before ++ f.after = [.group gid gaxis gs gshares] := by
    rw [List.length_append, List.length_cons] at hcount
    rcases hcut with ⟨hchildren, hindex, -, -⟩ | ⟨hchildren, hindex, -, -⟩
    · obtain ⟨hbefore, hafter⟩ := List.append_inj hchildren hindex
      rw [List.cons.injEq] at hafter
      have hlengths := congrArg List.length hafter.2
      rw [List.length_cons] at hlengths
      have hpre : pre = [] := List.length_eq_zero_iff.mp (by omega)
      have hpost : post = [] := List.length_eq_zero_iff.mp (by omega)
      rw [hbefore, hafter.2, hpre, hpost]
      rfl
    · have hlengths := congrArg List.length hchildren
      simp only [List.length_append, List.length_cons] at hlengths
      have hpre : pre = [] := List.length_eq_zero_iff.mp (by omega)
      have hpost : post = [] := List.length_eq_zero_iff.mp (by omega)
      have hafter : f.after = [] := List.length_eq_zero_iff.mp (by omega)
      rw [hpre, hpost, hafter] at hchildren
      have hbefore : f.before = [.group gid gaxis gs gshares] := by
        have hdrop := congrArg List.dropLast hchildren
        simpa using hdrop
      rw [hbefore, hafter]
      rfl
  obtain ⟨s, hclose, hremoved, hremove, hworking⟩ := remove_fill hok
  obtain rfl : .group gid gaxis gs gshares = s := by
    rw [Frame.close, hsiblings] at hclose
    exact Option.some.inj hclose
  have hgroup : findGroup (ctx.fill (f.fill (.leaf x))) gid = some (gs, gaxis, gid) := by
    have hchild : Node.group gid gaxis gs gshares ∈ (f.fill (.leaf x)).children := by
      rw [Frame.children_fill]
      exact List.mem_of_getElem? hat
    exact Node.findGroup_eq hok.nodup (mem_nodes_of_child (Frame.mem_nodes_fill (n := .leaf x)) hchild)
  have hnodup := (hok.of_mem (Frame.mem_nodes_fill (n := .leaf x))).nodup
  have hxmem : x ∈ (f.fill (.leaf x)).ids := by
    rw [Frame.fill, Node.ids_group]
    simp
  refine ⟨?_, hremoved.rest hnodup hxmem, hremove, hworking⟩
  simp only [groupBeside, moverIn_fill hok.nodup, Option.bind_eq_bind, Option.bind_some, hcount,
    haxis, beq_self_eq_true, require_true, hstep, hat, hgroup, Node.id_group]
  rfl

theorem applyInsertIntoGroup_fill {gid : NodeId} {gaxis : Axis} {gs : List Node}
    {gshares : List Nat} {ni k : Nat} {insertion : Insertion}
    (hok : TreeOk (ctx.fill (f.fill (.leaf x)))) (haxis : f.axis = Axis.forDirection direction)
    (hneighbor : neighborOf ⟨f.id, f.axis, f.before.length, f.before ++ .leaf x :: f.after⟩
      (stepFor direction) = some (ni, .group gid gaxis gs gshares))
    (hcount : (f.before ++ .leaf x :: f.after).length = 2)
    (hplaced : (gaxis = f.axis ∧ insertion = .nearEdge ∧
        k = if f.before.length < ni then 0 else gs.length) ∨
      (gaxis ≠ f.axis ∧ gs.length % 2 = 0 ∧ insertion = .midpoint ∧ k = gs.length / 2))
    (hfits : ¬insertionOverflows gshares k) :
    Rearranges (ctx.fill (f.fill (.leaf x))) x nodeIds
      (applyInsertIntoGroup (ctx.fill (f.fill (.leaf x))) x direction f.id gid k insertion) := by
  obtain ⟨hctx, -⟩ := Context.wellFormed_fill.mp hok.wellFormed
  obtain ⟨hbeside, hrest, hremove, hworking⟩ := groupBeside_fill hok haxis hneighbor hcount
  obtain ⟨-, hat, -⟩ := neighborOf_cut hneighbor
  have htwo := (Node.wellFormed_group.mp hrest.wellFormed).1.1
  have hk : k ≤ gs.length := by
    rcases hplaced with ⟨-, -, rfl⟩ | ⟨-, -, -, rfl⟩
    · split <;> omega
    · omega
  have hgroup : findGroup (ctx.fill (.group gid gaxis gs gshares)) gid = some (gs, gaxis, gid) :=
    Node.findGroup_eq hworking.nodup Context.mem_nodes_fill
  obtain ⟨out, hout, houtLength, houtPos, houtSum⟩ :=
    proportionalInsertionShares_fits hrest.wellFormed hk hfits
  have hinsert : applyInsertIntoGroup (ctx.fill (f.fill (.leaf x))) x direction f.id gid k insertion =
      some (ctx.fill (.group gid gaxis (gs.insertIdx k (.leaf x)) out)) := by
    simp only [applyInsertIntoGroup, hbeside, Option.bind_eq_bind, Option.bind_some, hat,
      Option.any_some, Node.isLeaf, Bool.not_false, require_true, decide_eq_true htwo, hremove, hgroup,
      beq_self_eq_true, decide_eq_true hk, insertLeafIntoGroup_fill hworking.nodup hk, hout,
      Option.map_some]
    rcases hplaced with ⟨heq, rfl, rfl⟩ | ⟨hne, heven, rfl, rfl⟩
    · simp [heq]
    · simp [hne, heven]
  rw [hinsert]
  obtain ⟨pre, post, rfl, rfl⟩ := exists_cut hk
  rw [insertIdx_middle]
  exact rearranges_fill_old hctx fun fresh => hrest.insert houtLength houtPos houtSum

theorem applySplitGroupChild_fill {gid : NodeId} {gaxis : Axis} {gs : List Node}
    {gshares : List Nat} {ni : Nat} {victim : Node}
    (hok : TreeOk (ctx.fill (f.fill (.leaf x)))) (haxis : f.axis = Axis.forDirection direction)
    (hneighbor : neighborOf ⟨f.id, f.axis, f.before.length, f.before ++ .leaf x :: f.after⟩
      (stepFor direction) = some (ni, .group gid gaxis gs gshares))
    (hcount : (f.before ++ .leaf x :: f.after).length = 2) (hgaxis : gaxis ≠ f.axis)
    (hodd : gs.length % 2 ≠ 0) (hvictim : gs[gs.length / 2]? = some victim) :
    Rearranges (ctx.fill (f.fill (.leaf x))) x nodeIds
      (applySplitGroupChild (ctx.fill (f.fill (.leaf x))) x direction baseRevision nodeIds f.id gid
        victim.id (gs.length / 2) (if stepFor direction = -1 then .first else .second)
        (Axis.forDirection direction)) := by
  obtain ⟨hctx, -⟩ := Context.wellFormed_fill.mp hok.wellFormed
  obtain ⟨hbeside, hrest, hremove, hworking⟩ := groupBeside_fill hok haxis hneighbor hcount
  obtain ⟨⟨htwo, hlength, -, -⟩, -⟩ := Node.wellFormed_group.mp hrest.wellFormed
  have hthree : 3 ≤ gs.length := by omega
  have hgroup : findGroupFull (ctx.fill (.group gid gaxis gs gshares)) gid =
      some (gs, gshares, gid, gaxis) :=
    Node.findGroupFull_eq hworking.nodup Context.mem_nodes_fill
  obtain ⟨share, hshare⟩ : ∃ share, gshares[gs.length / 2]? = some share :=
    ⟨_, List.getElem?_eq_getElem (by omega)⟩
  obtain ⟨pre, post, hgs, hpre⟩ := exists_cut_around hvictim
  have hsplit : ∃ pair, (pair = [.leaf x, victim] ∨ pair = [victim, .leaf x]) ∧
      applySplitGroupChild (ctx.fill (f.fill (.leaf x))) x direction baseRevision nodeIds f.id gid
        victim.id (gs.length / 2) (if stepFor direction = -1 then .first else .second)
        (Axis.forDirection direction) =
      some (ctx.fill (.group gid gaxis (pre ++ .group
        (generateMoveGroupId x baseRevision "r2b" nodeIds) (Axis.forDirection direction) pair
        newGroupShares :: post) gshares)) := by
    have hreplace : ∀ r, replaceChildAt (ctx.fill (.group gid gaxis gs gshares)) gid (gs.length / 2) r
        share = some (ctx.fill (.group gid gaxis (pre ++ r :: post) gshares)) := by
      intro r
      have hnodup := hworking.nodup
      rw [hgs] at hnodup
      rw [← hpre] at hshare
      have hreplaced := @replaceChildAt_fill ctx r gid gaxis pre post victim gshares share hnodup hshare
      rw [hpre, ← hgs] at hreplaced
      exact hreplaced
    have hne : (gaxis != f.axis) = true := bne_iff_ne.mpr hgaxis
    have hoddCheck : (gs.length % 2 != 0) = true := bne_iff_ne.mpr hodd
    simp only [applySplitGroupChild, beq_self_eq_true, require_true, Option.bind_eq_bind,
      Option.bind_some, hbeside, hne, hoddCheck, decide_eq_true hthree, Bool.and_self, hvictim,
      Option.any_some, isNamed, hremove, hgroup, hshare, hreplace]
    by_cases hstep : stepFor direction = -1
    · simp only [hstep, if_true]
      exact ⟨_, .inl rfl, rfl⟩
    · simp only [hstep, if_false]
      exact ⟨_, .inr rfl, rfl⟩
  obtain ⟨pair, hpair, hsplit⟩ := hsplit
  rw [hsplit]
  rw [hgs] at hrest
  exact rearranges_fill hctx (hrest.splitChild hpair)

/-! ### Escaping -/

/-- No neighbor in the direction. -/
theorem neighborOf_none {c : Node}
    (h : neighborOf ⟨f.id, f.axis, f.before.length, f.before ++ c :: f.after⟩ (stepFor direction) =
      none) :
    ((stepIndex f.before.length (stepFor direction)).any fun i =>
      i < (f.before ++ c :: f.after).length) = false := by
  unfold neighborOf at h
  dsimp only at h
  unfold stepIndex
  split at h
  · rename_i hindex
    rw [if_pos hindex]
    have hnone := Option.map_eq_none_iff.mp h
    rw [Option.any_some, decide_eq_false_iff_not, Nat.not_lt]
    exact List.getElem?_eq_none_iff.mp hnone
  · rename_i hindex
    rw [if_neg hindex]
    rfl

theorem applyEscapeParent_fill {p : Frame}
    (hok : TreeOk (ctx.fill (p.fill (f.fill (.leaf x))))) (haxis : f.axis = Axis.forDirection direction)
    (hneighbor : neighborOf ⟨f.id, f.axis, f.before.length, f.before ++ .leaf x :: f.after⟩
      (stepFor direction) = none)
    (hfits : p.axis = f.axis →
      ¬insertionOverflows p.shares (p.before.length + if stepFor direction = 1 then 1 else 0)) :
    Rearranges (ctx.fill (p.fill (f.fill (.leaf x)))) x nodeIds
      (applyEscapeParent (ctx.fill (p.fill (f.fill (.leaf x)))) x direction baseRevision nodeIds f.id
        p.id p.before.length
        (if decide (p.axis = f.axis) then
          some (p.before.length + if stepFor direction = 1 then 1 else 0) else none)
        (if decide (p.axis = f.axis) then .none else .r1)) := by
  obtain ⟨hctx, -⟩ := Context.wellFormed_fill.mp hok.wellFormed
  have hparentNode : p.fill (f.fill (.leaf x)) ∈ (ctx.fill (p.fill (f.fill (.leaf x)))).nodes :=
    Context.mem_nodes_fill
  have hinner : TreeOk (Context.fill [p] (f.fill (.leaf x))) := hok.of_mem hparentNode
  obtain ⟨s, hclose, -, hremoveInner, -⟩ := remove_fill hinner
  have houter : TreeOk (Context.fill (ctx ++ [p]) (f.fill (.leaf x))) := by
    rw [Context.fill_concat]
    exact hok
  obtain ⟨s', hclose', -, hremove, hworking⟩ := remove_fill houter
  obtain rfl := Option.some.inj (hclose.symm.trans hclose')
  rw [Context.fill_concat, Context.fill_concat] at hremove
  rw [Context.fill_concat] at hworking
  have hxmem : x ∈ (p.fill (f.fill (.leaf x))).leaves := by
    simp [Frame.fill]
  have hrest : Rest (p.fill (f.fill (.leaf x))) (p.fill s) x := by
    have hremoved := removeNode_removed hinner.wellFormed hinner.nodup hxmem hremoveInner
    exact hremoved.rest hinner.nodup (Node.mem_ids_of_mem_leaves hxmem)
  have hmover : moverIn (ctx.fill (p.fill (f.fill (.leaf x)))) f.id x =
      some ⟨f.before ++ .leaf x :: f.after, f.shares, f.id, f.axis, f.before.length⟩ := by
    have hmoverIn := moverIn_fill houter.nodup
    rwa [Context.fill_concat] at hmoverIn
  have hgroup : findGroup (ctx.fill (p.fill (f.fill (.leaf x)))) p.id =
      some (p.before ++ f.fill (.leaf x) :: p.after, p.axis, p.id) :=
    Node.findGroup_eq hok.nodup hparentNode
  have hslot : (p.before ++ f.fill (.leaf x) :: p.after).findIdx? (isNamed f.id) =
      some p.before.length :=
    Node.findIdx?_child (c := f.fill (.leaf x)) hok.nodup hparentNode rfl
  have hparent : parentOfGroup (ctx.fill (p.fill (f.fill (.leaf x)))) f.id = some p.id := by
    have hchild : f.fill (.leaf x) ∈ (p.fill (f.fill (.leaf x))).children := by
      rw [Frame.children_fill]
      simp
    exact Node.parentOfGroup_eq hok.nodup hparentNode hchild
  have hedge := neighborOf_none hneighbor
  have hafterNode : p.fill s ∈ (ctx.fill (p.fill s)).nodes := Context.mem_nodes_fill
  simp only [applyEscapeParent, hmover, Option.bind_eq_bind, Option.bind_some, haxis,
    beq_self_eq_true, require_true, hedge, Bool.not_false, hgroup, hslot, hparent, hremove]
  by_cases hsame : p.axis = f.axis
  · have hsameAxis : p.axis = Axis.forDirection direction := hsame.trans haxis
    have hk : (p.before.length + if stepFor direction = 1 then 1 else 0) ≤
        (p.before ++ s :: p.after).length := by
      rw [List.length_append, List.length_cons]
      split <;> omega
    obtain ⟨out, hout, houtLength, houtPos, houtSum⟩ :=
      proportionalInsertionShares_fits hrest.wellFormed hk (hfits hsame)
    have hfull : findGroupFull (ctx.fill (p.fill s)) p.id =
        some (p.before ++ s :: p.after, p.shares, p.id, p.axis) :=
      Node.findGroupFull_eq hworking.nodup hafterNode
    have hfound : findGroupId (ctx.fill (p.fill s)) p.id = true :=
      List.any_eq_true.mpr ⟨_, hafterNode, by simp [isGroupNamed, Frame.fill, Node.isLeaf]⟩
    have hlen : groupChildrenLen (ctx.fill (p.fill s)) p.id =
        some (p.before ++ s :: p.after).length := by
      rw [groupChildrenLen, hfull]
      rfl
    have hinsert := @insertLeafIntoGroup_fill ctx (.leaf x) p.id p.axis (p.before ++ s :: p.after)
      p.shares _ hworking.nodup hk
    rw [hout, Option.map_some] at hinsert
    simp only [hsameAxis, decide_true, if_true, beq_self_eq_true, require_true, Option.bind_some,
      hfound, hlen, decide_eq_true hk]
    have hlhs : insertLeafIntoGroup (ctx.fill (p.fill s)) p.id
        (p.before.length + if stepFor direction = 1 then 1 else 0) (.leaf x) = _ := hinsert
    rw [hlhs]
    obtain ⟨pre, post, hcut, hpre⟩ := exists_cut hk
    rw [hcut, ← hpre, insertIdx_middle]
    have hrestCut : Rest (p.fill (f.fill (.leaf x)))
        (.group p.id p.axis (pre ++ post) p.shares) x := by
      rw [← hcut]
      exact hrest
    refine rearranges_fill_old hctx fun _ => hrestCut.insert ?_ houtPos houtSum
    rw [← hcut]
    exact houtLength
  · have hcross : p.axis ≠ Axis.forDirection direction := by
      rw [← haxis]
      exact hsame
    have hbne : (p.axis != Axis.forDirection direction) = true := bne_iff_ne.mpr hcross
    have hsub : findSubtree (ctx.fill (p.fill s)) p.id = some (p.fill s) :=
      Node.findSubtree_eq (m := p.fill s) hworking.nodup hafterNode
    have hreplace : ∀ r, replaceNodeById (ctx.fill (p.fill s)) p.id r = some (ctx.fill r) :=
      fun r => replaceNodeById_fill (m := p.fill s) hworking.nodup
    simp only [hcross, decide_false, if_false, Bool.false_eq_true, beq_self_eq_true, require_true,
      Option.bind_some, Option.isNone_none, hbne, hsub, hreplace]
    exact rearranges_fill hctx hrest.split

end

end PlasmaTiler
