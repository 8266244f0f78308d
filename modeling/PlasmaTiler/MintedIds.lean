import PlasmaTiler.Drops
import PlasmaTiler.Events

/-!
# Where the ids of a tree come from

No edit invents an id but the one it mints: whatever holds of the ids an edit
is given holds of the ids it leaves. `Node.Over P` is that all ids of a tree
are `P`; there is one lemma for each edit, and each goes along the recursion
of the edit once.

Minted ids are spelled with the letters of an opaque id when what they are
minted from is, so no sequence of edits leaves that alphabet. Nothing keeps
their length: a group is named after a leaf, a leaf after a window, and each
name is longer than what it is made of. So an id in the alphabet passes as
opaque exactly when it is short enough (`Spelled.opaque_iff`), and that is as
much as can be said of all of them.
-/

namespace PlasmaTiler

/-! ## The alphabet -/

/-- Only characters an opaque id may have. The empty text is one, and a text
of any length may be. -/
def Lettered (text : String) : Prop := ∀ c ∈ text.toList, isTokenChar c = true

instance (text : String) : Decidable (Lettered text) :=
  decidable_of_bool (text.toList.all isTokenChar) List.all_eq_true

section
variable {a b : String}

theorem Lettered.append (ha : Lettered a) (hb : Lettered b) : Lettered (a ++ b) := by
  intro c hc
  rw [String.toList_append] at hc
  rcases List.mem_append.mp hc with hc | hc
  · exact ha c hc
  · exact hb c hc

theorem lettered_toString (n : Nat) : Lettered (toString n) := by
  intro c hc
  have hdigit : c.isDigit = true := by
    have hrepr : toString n = String.ofList (Nat.toDigits 10 n) := rfl
    rw [hrepr, String.toList_ofList] at hc
    exact Nat.isDigit_of_mem_toDigits (by decide) (by decide) hc
  simp [isTokenChar, Char.isAlphanum, hdigit]

/-- An opaque id is named, bounded and spelled with its letters. -/
theorem isOpaqueId_iff : isOpaqueId a = true ↔
    a.isEmpty = false ∧ a.utf8ByteSize ≤ maxOpaqueIdLen ∧ Lettered a := by
  simp only [isOpaqueId, isToken, Bool.and_eq_true, Bool.not_eq_true', decide_eq_true_eq,
    List.all_eq_true, Lettered, and_assoc]

end

namespace Id

variable {σ : IdSort}

/-- An id spelled with the letters of an opaque id. -/
def Spelled (i : Id σ) : Prop := Lettered i.raw

/-- An id that passes as opaque. -/
def Opaque (i : Id σ) : Prop := isOpaqueId i.raw = true

theorem Opaque.spelled {i : Id σ} (h : i.Opaque) : i.Spelled := (isOpaqueId_iff.mp h).2.2

/-- Of a named id in the alphabet only the length is in question. -/
theorem Spelled.opaque_iff {i : Id σ} (h : i.Spelled) (hnamed : i.isEmpty = false) :
    i.Opaque ↔ i.raw.utf8ByteSize ≤ maxOpaqueIdLen :=
  ⟨fun hopaque => (isOpaqueId_iff.mp hopaque).2.1, fun hlen => isOpaqueId_iff.mpr ⟨hnamed, hlen, h⟩⟩

end Id

/-! ## Minting -/

section
variable {base : String} {existing : BTreeSet NodeId} {leaf : NodeId} {window : WindowId}
  {baseRevision : Nat} {rule : String}

theorem freshId_spelled (h : Lettered base) : (freshId base existing).Spelled := by
  obtain ⟨rest, hraw, hrest⟩ := freshId_raw base existing
  rw [Id.Spelled, hraw]
  rcases hrest with rfl | ⟨n, rfl⟩
  · exact h.append (by decide)
  · exact h.append (Lettered.append (by decide) (lettered_toString _))

theorem generateLeafId_spelled (h : window.Spelled) : (generateLeafId window existing).Spelled :=
  freshId_spelled (Lettered.append (by decide) h)

theorem generateGroupId_spelled (h : window.Spelled) :
    (generateGroupId window baseRevision existing).Spelled :=
  freshId_spelled
    (((Lettered.append (by decide) h).append (by decide)).append (lettered_toString _))

theorem generateMoveGroupId_spelled (h : leaf.Spelled) (hrule : Lettered rule) :
    (generateMoveGroupId leaf baseRevision rule existing).Spelled :=
  freshId_spelled
    (((((Lettered.append (by decide) h).append (by decide)).append
      (lettered_toString _)).append (by decide)).append hrule)

theorem generateDragGroupId_spelled (h : leaf.Spelled) :
    (generateDragGroupId leaf baseRevision existing).Spelled :=
  freshId_spelled
    ((((Lettered.append (by decide) h).append (by decide)).append
      (lettered_toString _)).append (by decide))

end

/-! ## Trees over a set of ids -/

/-- All ids of the tree satisfy `P`, leaves and groups alike. -/
def Node.Over (P : NodeId → Prop) (n : Node) : Prop := ∀ i ∈ n.ids, P i

section
variable {P : NodeId → Prop} {n n' m m' : Node} {ctx : Context} {i : NodeId} {axis : Axis}
  {children : List Node} {shares : List Nat}

@[simp] theorem over_leaf : (Node.leaf i).Over P ↔ P i := by
  simp [Node.Over]

@[simp] theorem over_group : (Node.group i axis children shares).Over P ↔
    P i ∧ ∀ c ∈ children, c.Over P := by
  simp only [Node.Over, Node.ids_group, List.forall_mem_cons, List.mem_flatMap,
    forall_exists_index, and_imp]
  exact and_congr_right fun _ => ⟨fun h c hc j hj => h j c hc hj, fun h j c hc hj => h c hc j hj⟩

theorem Node.Over.fill (h : (ctx.fill m).Over P) (hm : m'.Over P) : (ctx.fill m').Over P := by
  intro j hj
  rw [Context.ids_fill] at hj
  simp only [List.mem_append] at hj
  rcases hj with (hj | hj) | hj
  · refine h j ?_
    rw [Context.ids_fill]
    simp [hj]
  · exact hm j hj
  · refine h j ?_
    rw [Context.ids_fill]
    simp [hj]

theorem Node.Over.of_fill (h : (ctx.fill m).Over P) : m.Over P := by
  intro j hj
  refine h j ?_
  rw [Context.ids_fill]
  simp [hj]

theorem Node.Over.of_mem (h : n.Over P) (hm : m ∈ n.nodes) : m.Over P := by
  obtain ⟨ctx, rfl⟩ := Node.mem_nodes_iff.mp hm
  exact h.of_fill

/-! ## Lookups -/

theorem findGroupFull_over {gid : NodeId} (hn : n.Over P)
    (h : findGroupFull n i = some (children, shares, gid, axis)) :
    P gid ∧ ∀ c ∈ children, c.Over P := by
  obtain ⟨k, hfind, hk⟩ := Option.bind_eq_some_iff.mp h
  cases k with
  | leaf id => cases hk
  | group id axis children shares =>
    cases hk
    exact over_group.mp (hn.of_mem (List.mem_of_find?_eq_some hfind))

theorem findSubtree_over (hn : n.Over P) (h : findSubtree n i = some m) : m.Over P :=
  hn.of_mem (List.mem_of_find?_eq_some h)

/-! ## Edits -/

theorem updateAt_over {target : NodeId} {hit : Node → Bool} {rewrite : Node → Option Node}
    (hn : n.Over P) (hrewrite : ∀ m m', m.Over P → rewrite m = some m' → m'.Over P)
    (h : updateAt target hit rewrite n = some n') : n'.Over P := by
  obtain ⟨ctx, m, m', rfl, rfl, -, hm⟩ := updateAt_eq_some h
  exact hn.fill (hrewrite m m' hn.of_fill hm)

theorem forall_mem_insertIdx {α : Type} {Q : α → Prop} {l : List α} {k : Nat} {a : α}
    (hl : ∀ b ∈ l, Q b) (ha : Q a) : ∀ b ∈ l.insertIdx k a, Q b := by
  intro b hb
  rcases List.eq_or_mem_of_mem_insertIdx hb with rfl | hb
  · exact ha
  · exact hl b hb

theorem forall_mem_set {α : Type} {Q : α → Prop} {l : List α} {k : Nat} {a : α}
    (hl : ∀ b ∈ l, Q b) (ha : Q a) : ∀ b ∈ l.set k a, Q b := by
  intro b hb
  rcases List.mem_or_eq_of_mem_set hb with hb | rfl
  · exact hl b hb
  · exact ha

theorem forall_mem_swapAt {α : Type} {Q : α → Prop} {l : List α} {k j : Nat}
    (hl : ∀ b ∈ l, Q b) : ∀ b ∈ swapAt l k j, Q b := by
  unfold swapAt
  split
  · rename_i x y hx hy
    exact forall_mem_set (forall_mem_set hl (hl y (List.mem_of_getElem? hy)))
      (hl x (List.mem_of_getElem? hx))
  · exact hl

theorem insertLeafIntoGroup_over {group : NodeId} {index : Nat} (hn : n.Over P) (hm : m.Over P)
    (h : insertLeafIntoGroup n group index m = some n') : n'.Over P := by
  refine updateAt_over hn (fun k k' hk hrewrite => ?_) h
  cases k with
  | leaf id => cases hrewrite
  | group id axis children shares =>
    dsimp only at hrewrite
    split at hrewrite
    · cases hrewrite
    · obtain ⟨_, -, rfl⟩ := Option.map_eq_some_iff.mp hrewrite
      obtain ⟨hid, hchildren⟩ := over_group.mp hk
      exact over_group.mpr ⟨hid, forall_mem_insertIdx hchildren hm⟩

theorem replaceGroupChildren_over {group : NodeId} (hn : n.Over P) (hc : ∀ c ∈ children, c.Over P)
    (h : replaceGroupChildren n group children shares = some n') : n'.Over P := by
  refine updateAt_over hn (fun k k' hk hrewrite => ?_) h
  cases k with
  | leaf id => cases hrewrite
  | group id axis old oldShares =>
    dsimp only at hrewrite
    split at hrewrite
    · cases hrewrite
    · cases hrewrite
      exact over_group.mpr ⟨(over_group.mp hk).1, hc⟩

theorem replaceChildAt_over {group : NodeId} {index share : Nat} (hn : n.Over P) (hm : m.Over P)
    (h : replaceChildAt n group index m share = some n') : n'.Over P := by
  refine updateAt_over hn (fun k k' hk hrewrite => ?_) h
  cases k with
  | leaf id => cases hrewrite
  | group id axis children shares =>
    dsimp only at hrewrite
    split at hrewrite
    · cases hrewrite
    · cases hrewrite
      obtain ⟨hid, hchildren⟩ := over_group.mp hk
      exact over_group.mpr ⟨hid, forall_mem_set hchildren hm⟩

theorem replaceNodeById_over {target : NodeId} (hn : n.Over P) (hm : m.Over P)
    (h : replaceNodeById n target m = some n') : n'.Over P := by
  refine updateAt_over hn (fun k k' hk hrewrite => ?_) h
  cases hrewrite
  exact hm

theorem swapDirectChildren_over {container a b : NodeId} (hn : n.Over P)
    (h : swapDirectChildren n container a b = some n') : n'.Over P := by
  refine updateAt_over hn (fun k k' hk hrewrite => ?_) h
  cases k with
  | leaf id => cases hrewrite
  | group id axis children shares =>
    simp only [Option.bind_eq_bind, Option.bind_eq_some_iff] at hrewrite
    obtain ⟨ia, -, ib, -, hrewrite⟩ := hrewrite
    split at hrewrite
    · cases hrewrite
      obtain ⟨hid, hchildren⟩ := over_group.mp hk
      exact over_group.mpr ⟨hid, forall_mem_swapAt hchildren⟩
    · cases hrewrite

theorem graft_over {group : NodeId} {moverFirst : Bool} (hg : P group) (hn : n.Over P)
    (hm : m.Over P) : (graft group axis moverFirst n m).Over P := by
  rw [graft, over_group]
  cases moverFirst <;> simp [hg, hn, hm]

theorem splitToward_over {direction : Direction} {group : NodeId} (hg : P group) (hn : n.Over P)
    (hm : m.Over P) : (splitToward direction group axis m n).Over P := by
  rw [splitToward, over_group]
  split <;> simp [hg, hn, hm]

theorem nestFocusedOrdered_over {focused group : NodeId} {moverFirst : Bool} (hn : n.Over P)
    (hm : m.Over P) (hg : P group)
    (h : nestFocusedOrdered n focused m group axis moverFirst = some n') : n'.Over P := by
  refine updateAt_over hn (fun k k' hk hrewrite => ?_) h
  cases hrewrite
  exact graft_over hg hk hm

theorem insertTiled_over {tree? : Option Node} {focused : Option NodeId} {leaf : NodeId}
    {existing existing' : BTreeSet NodeId} {window : WindowId} {baseRevision : Nat}
    (htree : ∀ t, tree? = some t → t.Over P) (hleaf : P leaf)
    (hg : P (generateGroupId window baseRevision existing))
    (h : insertTiled tree? focused leaf axis existing window baseRevision = some (n', existing')) :
    n'.Over P := by
  cases tree? with
  | none =>
    cases h
    exact over_leaf.mpr hleaf
  | some tree =>
    have hover := htree tree rfl
    cases focused with
    | none =>
      cases h
      exact graft_over hg hover (over_leaf.mpr hleaf)
    | some focused =>
      obtain ⟨_, hnest, heq⟩ := Option.map_eq_some_iff.mp h
      cases heq
      exact nestFocusedOrdered_over hover (over_leaf.mpr hleaf) hg hnest

/-- Removal keeps what it leaves, wherever the leaf is: a group is over its
own id and what survives of its children. -/
theorem removeNode_over {x : NodeId} (hn : n.Over P) (h : removeNode x n = some n') : n'.Over P := by
  induction n generalizing n' with
  | leaf id =>
    rw [removeNode] at h
    split at h
    · cases h
    · cases h
      exact hn
  | group id axis children shares ih =>
    obtain ⟨hid, hchildren⟩ := over_group.mp hn
    -- the surviving children are over the same ids
    have hsurvive : ∀ (l out : List Node) (index : Nat) (removed removed' : Option Nat),
        l ⊆ children → removeChildren x l index removed = some (out, removed') →
        ∀ c ∈ out, c.Over P := by
      intro l
      induction l with
      | nil =>
        intro out index removed removed' _ h
        rw [removeChildren] at h
        cases h
        simp
      | cons c l ihl =>
        intro out index removed removed' hsub h
        obtain ⟨hc, hsub⟩ := List.cons_subset.mp hsub
        rw [removeChildren] at h
        split at h
        · exact ihl _ _ _ _ hsub h
        · split at h
          · rename_i updated hupdated
            obtain ⟨⟨rest, removed''⟩, hrest, heq⟩ := Option.map_eq_some_iff.mp h
            cases heq
            exact List.forall_mem_cons.mpr
              ⟨ih c hc (hchildren c hc) hupdated, ihl _ _ _ _ hsub hrest⟩
          · split at h
            · exact ihl _ _ _ _ hsub h
            · cases h
    rw [removeNode] at h
    split at h
    · cases h
    · rename_i out hout
      split at h
      · cases h
      · cases h
        exact over_group.mpr ⟨hid, hsurvive _ _ _ _ _ (List.Subset.refl _) hout⟩
    · rename_i out removed hout
      have hover := hsurvive _ _ _ _ _ (List.Subset.refl _) hout
      split at h
      · cases h
      · cases h
        exact hover _ (by simp)
      · obtain ⟨newShares, -, h⟩ := Option.bind_eq_some_iff.mp h
        split at h
        · cases h
        · cases h
          exact over_group.mpr ⟨hid, hover⟩

theorem removeLeafFromTree_over {tree? : Option Node} {x : NodeId}
    (htree : ∀ t, tree? = some t → t.Over P) (h : removeLeafFromTree tree? x = some n') :
    n'.Over P := by
  obtain ⟨t, ht, hremove⟩ := Option.bind_eq_some_iff.mp h
  exact removeNode_over (htree t ht) hremove

theorem flipGroupAxis_over {group : NodeId} (hn : n.Over P) (h : flipGroupAxis group n = some n') :
    n'.Over P := by
  induction n generalizing n' with
  | leaf id => cases h
  | group id axis children shares ih =>
    obtain ⟨hid, hchildren⟩ := over_group.mp hn
    have hflip : ∀ l out : List Node, l ⊆ children → flipChildren group l = some out →
        ∀ c ∈ out, c.Over P := by
      intro l
      induction l with
      | nil => intro out _ h; cases h
      | cons c l ihl =>
        intro out hsub h
        obtain ⟨hc, hsub⟩ := List.cons_subset.mp hsub
        have hrest : ∀ d ∈ l, d.Over P := fun d hd => hchildren d (hsub hd)
        simp only [flipChildren] at h
        split at h
        · rename_i flipped hflipped
          cases h
          exact List.forall_mem_cons.mpr ⟨ih c hc (hchildren c hc) hflipped, hrest⟩
        · obtain ⟨out', hout, rfl⟩ := Option.map_eq_some_iff.mp h
          exact List.forall_mem_cons.mpr ⟨hchildren c hc, ihl out' hsub hout⟩
    simp only [flipGroupAxis] at h
    split at h
    · cases h
      exact over_group.mpr ⟨hid, hchildren⟩
    · obtain ⟨out, hout, rfl⟩ := Option.map_eq_some_iff.mp h
      exact over_group.mpr ⟨hid, hflip _ _ (List.Subset.refl _) hout⟩

end

/-! ## Moves -/

section
variable {P : NodeId → Prop} {tree n' : Node} {leaf : NodeId} {direction : Direction}
  {baseRevision : Nat} {nodeIds : BTreeSet NodeId}

theorem moverIn_over {container : NodeId} {place : MoverPlace} (htree : tree.Over P)
    (h : moverIn tree container leaf = some place) :
    P place.groupId ∧ ∀ c ∈ place.children, c.Over P := by
  simp only [moverIn, Option.bind_eq_bind, Option.bind_eq_some_iff] at h
  obtain ⟨⟨children, shares, gid, axis⟩, hgroup, _, -, _, -, _, -, h⟩ := h
  cases h
  exact findGroupFull_over htree hgroup

theorem applyWrapPerpendicular_over {container : NodeId} {axis : Axis} (htree : tree.Over P)
    (hleaf : P leaf) (hmint : ∀ rule, Lettered rule → P (generateMoveGroupId leaf baseRevision rule nodeIds))
    (h : applyWrapPerpendicular tree leaf direction baseRevision nodeIds container axis = some n') :
    n'.Over P := by
  simp only [applyWrapPerpendicular, Option.bind_eq_bind, Option.bind_eq_some_iff] at h
  obtain ⟨_, -, place, hplace, _, -, _, -, h⟩ := h
  obtain ⟨hgroup, hchildren⟩ := moverIn_over htree hplace
  have hrest : ∀ c ∈ place.children.eraseIdx place.index, c.Over P := fun c hc =>
    hchildren c (List.mem_of_mem_eraseIdx hc)
  have hg := hmint "r1" (by decide)
  split at h
  · cases h
  · rename_i child heq
    rw [Option.bind_some] at h
    exact replaceNodeById_over htree (splitToward_over hg (hrest child (by rw [heq]; simp))
      (over_leaf.mpr hleaf)) h
  · rw [Option.bind_some] at h
    exact replaceNodeById_over htree (splitToward_over hg (over_group.mpr ⟨hgroup, hrest⟩)
      (over_leaf.mpr hleaf)) h

theorem applySwap_over {container neighbor : NodeId} {count : Nat → Bool} (htree : tree.Over P)
    (h : applySwap tree leaf direction container neighbor count = some n') : n'.Over P := by
  simp only [applySwap, Option.bind_eq_bind, Option.bind_eq_some_iff] at h
  obtain ⟨_, -, _, -, _, -, _, -, _, -, _, -, _, -, h⟩ := h
  exact swapDirectChildren_over htree h

theorem applyWrapNeighbor_over {plan : MovePlan} {container neighbor : NodeId} {before : Bool}
    {axis : Axis} (htree : tree.Over P)
    (hmint : ∀ rule, Lettered rule → P (generateMoveGroupId leaf baseRevision rule nodeIds))
    (h : applyWrapNeighbor tree leaf direction plan baseRevision nodeIds container neighbor before
      axis = some n') : n'.Over P := by
  simp only [applyWrapNeighbor, Option.bind_eq_bind, Option.bind_eq_some_iff] at h
  obtain ⟨_, -, place, hplace, _, -, _, -, _, -, _, -, _, -, _, -, _, -, _, -, _, -, mover, hmover,
    sibling, hsibling, h⟩ := h
  obtain ⟨-, hchildren⟩ := moverIn_over htree hplace
  have hm := hchildren mover (List.mem_of_getElem? hmover)
  have hs := hchildren sibling (List.mem_of_getElem? hsibling)
  have hg := hmint "r2c" (by decide)
  refine replaceGroupChildren_over htree (forall_mem_insertIdx (fun c hc => hchildren c
    (List.mem_of_mem_eraseIdx (List.mem_of_mem_eraseIdx hc))) ?_) h
  rw [over_group]
  split <;> simp [hg, hm, hs]

theorem applyInsertIntoGroup_over {container target : NodeId} {index : Nat} {insertion : Insertion}
    (htree : tree.Over P) (hleaf : P leaf)
    (h : applyInsertIntoGroup tree leaf direction container target index insertion = some n') :
    n'.Over P := by
  simp only [applyInsertIntoGroup, Option.bind_eq_bind, Option.bind_eq_some_iff] at h
  obtain ⟨_, -, _, -, _, -, h⟩ := h
  have hinsert : ∃ working, removeLeafFromTree (some tree) leaf = some working ∧
      insertLeafIntoGroup working target index (.leaf leaf) = some n' := by
    split at h <;> simp only [Option.bind_eq_some_iff] at h
    · obtain ⟨_, -, _, -, working, hworking, _, -, _, -, _, -, h⟩ := h
      exact ⟨working, hworking, h⟩
    · obtain ⟨_, -, _, -, _, -, working, hworking, _, -, _, -, _, -, h⟩ := h
      exact ⟨working, hworking, h⟩
  obtain ⟨working, hworking, h⟩ := hinsert
  exact insertLeafIntoGroup_over
    (removeLeafFromTree_over (fun t ht => Option.some.inj ht ▸ htree) hworking)
    (over_leaf.mpr hleaf) h

theorem applySplitGroupChild_over {container target child : NodeId} {index : Nat}
    {side : FocusedSide} {axis : Axis} (htree : tree.Over P) (hleaf : P leaf)
    (hmint : ∀ rule, Lettered rule → P (generateMoveGroupId leaf baseRevision rule nodeIds))
    (h : applySplitGroupChild tree leaf direction baseRevision nodeIds container target child index
      side axis = some n') : n'.Over P := by
  simp only [applySplitGroupChild, Option.bind_eq_bind, Option.bind_eq_some_iff] at h
  obtain ⟨_, -, _, -, _, -, _, -, _, -, _, -, _, -, working, hworking, ⟨children, shares, gid, gaxis⟩,
    hgroup, victim, hvictim, _, -, _, -, h⟩ := h
  have hover := removeLeafFromTree_over (fun t ht => Option.some.inj ht ▸ htree) hworking
  have hv := (findGroupFull_over hover hgroup).2 victim (List.mem_of_getElem? hvictim)
  have hg := hmint "r2b" (by decide)
  refine replaceChildAt_over hover ?_ h
  rw [over_group]
  cases side <;> simp [hg, hv, hleaf]

theorem applyEscapeParent_over {container parent : NodeId} {index : Nat} {insertion : Option Nat}
    {continuation : EscapeContinuation} (htree : tree.Over P) (hleaf : P leaf)
    (hmint : ∀ rule, Lettered rule → P (generateMoveGroupId leaf baseRevision rule nodeIds))
    (h : applyEscapeParent tree leaf direction baseRevision nodeIds container parent index insertion
      continuation = some n') : n'.Over P := by
  simp only [applyEscapeParent, Option.bind_eq_bind, Option.bind_eq_some_iff] at h
  obtain ⟨_, -, _, -, _, -, _, -, _, -, _, -, _, -, _, -, h⟩ := h
  have hedit : ∃ working, removeLeafFromTree (some tree) leaf = some working ∧
      ((∃ k, insertLeafIntoGroup working parent k (.leaf leaf) = some n') ∨
        ∃ subtree, findSubtree working parent = some subtree ∧
          replaceNodeById working parent (splitToward direction
            (generateMoveGroupId leaf baseRevision "r3r1" nodeIds) (Axis.forDirection direction)
            (.leaf leaf) subtree) = some n') := by
    split at h <;> simp only [Option.bind_eq_some_iff] at h
    · obtain ⟨_, -, _, -, working, hworking, h⟩ := h
      refine ⟨working, hworking, ?_⟩
      split at h <;> simp only [Option.bind_eq_some_iff] at h
      · obtain ⟨_, -, _, -, _, -, _, -, h⟩ := h
        exact .inl ⟨_, h⟩
      · obtain ⟨subtree, hsubtree, h⟩ := h
        exact .inr ⟨subtree, hsubtree, h⟩
    · obtain ⟨_, -, _, -, _, -, working, hworking, h⟩ := h
      refine ⟨working, hworking, ?_⟩
      split at h <;> simp only [Option.bind_eq_some_iff] at h
      · obtain ⟨_, -, _, -, _, -, _, -, h⟩ := h
        exact .inl ⟨_, h⟩
      · obtain ⟨subtree, hsubtree, h⟩ := h
        exact .inr ⟨subtree, hsubtree, h⟩
  obtain ⟨working, hworking, hedit⟩ := hedit
  have hover := removeLeafFromTree_over (fun t ht => Option.some.inj ht ▸ htree) hworking
  rcases hedit with ⟨k, h⟩ | ⟨subtree, hsubtree, h⟩
  · exact insertLeafIntoGroup_over hover (over_leaf.mpr hleaf) h
  · exact replaceNodeById_over hover (splitToward_over (hmint "r3r1" (by decide))
      (findSubtree_over hover hsubtree) (over_leaf.mpr hleaf)) h

theorem applyInSource_over {plan : MovePlan} (htree : tree.Over P) (hleaf : P leaf)
    (hmint : ∀ rule, Lettered rule → P (generateMoveGroupId leaf baseRevision rule nodeIds))
    (h : applyInSource tree leaf direction plan baseRevision nodeIds = some n') : n'.Over P := by
  unfold applyInSource at h
  split at h
  · exact applyWrapPerpendicular_over htree hleaf hmint h
  · unfold applySwapNeighbor at h
    split at h
    · exact applySwap_over htree h
    · split at h
      · cases h
      · exact applySwap_over htree h
  · exact applyWrapNeighbor_over htree hmint h
  · exact applyInsertIntoGroup_over htree hleaf h
  · exact applySplitGroupChild_over htree hleaf hmint h
  · exact applyEscapeParent_over htree hleaf hmint h
  · cases h

theorem crossInto_over {tree? : Option Node} {windows : Links} {key : DomainKey}
    {target : CrossOutputTarget} {focus : Option NodeId} (htree : ∀ t, tree? = some t → t.Over P)
    (hleaf : P leaf) (hmint : ∀ rule, Lettered rule → P (generateMoveGroupId leaf baseRevision rule nodeIds))
    (h : crossInto tree? windows key leaf direction baseRevision nodeIds target focus = some n') :
    n'.Over P := by
  unfold crossInto at h
  split at h
  · cases h
    exact over_leaf.mpr hleaf
  · cases h
  · cases h
  · rename_i existing
    have hover := htree existing rfl
    dsimp only at h
    split at h
    · exact nestFocusedOrdered_over hover (over_leaf.mpr hleaf) (hmint "r4" (by decide)) h
    · cases h
      exact graft_over (hmint "r4" (by decide)) hover (over_leaf.mpr hleaf)

end

/-! ## Drops -/

section
variable {P : NodeId → Prop} {tree working : Node} {sourceLeaf target : NodeId} {side : DragSide}
  {baseRevision : Nat} {p : DragPlacement}

theorem liftSource_over (htree : tree.Over P) (h : liftSource tree sourceLeaf = some working) :
    working.Over P := by
  simp only [liftSource, Option.bind_eq_bind, Option.bind_eq_some_iff] at h
  obtain ⟨n, hremove, _, -, h⟩ := h
  cases h
  exact removeLeafFromTree_over (fun t ht => Option.some.inj ht ▸ htree) hremove

theorem wrapTarget_over {targetNode : Node} {parent : Option NodeId} {axis : Axis} {before : Bool}
    (hworking : working.Over P) (htarget : targetNode.Over P) (hsource : P sourceLeaf)
    (hmint : ∀ existing, P (generateDragGroupId sourceLeaf baseRevision existing))
    (h : wrapTarget working sourceLeaf target targetNode parent axis before baseRevision = some p) :
    p.tree.Over P := by
  have hwrap : ∀ group : NodeId, P group →
      (graft group axis before targetNode (.leaf sourceLeaf)).Over P := fun group hgroup =>
    graft_over hgroup htarget (over_leaf.mpr hsource)
  have hwrap := hwrap _ (hmint (.ofList working.ids))
  unfold wrapTarget at h
  dsimp only at h
  split at h
  · cases h
    exact hwrap
  · simp only [Option.bind_eq_bind, Option.bind_eq_some_iff] at h
    obtain ⟨_, -, _, -, _, -, _, -, updated, hupdated, h⟩ := h
    cases h
    exact replaceChildAt_over hworking hwrap hupdated

variable (htree : tree.Over P) (hsource : P sourceLeaf)
  (hmint : ∀ existing, P (generateDragGroupId sourceLeaf baseRevision existing))

include htree hsource hmint

theorem applyDragPlacement_over
    (h : applyDragPlacement tree sourceLeaf target side baseRevision = some p) : p.tree.Over P := by
  simp only [applyDragPlacement, Option.bind_eq_bind, Option.bind_eq_some_iff, require_eq_some] at h
  obtain ⟨_, -, axis, -, before, -, working, hworking, _, htarget, h⟩ := h
  have hover := liftSource_over htree hworking
  have hleaf : (Node.leaf target).Over P :=
    hover.of_mem (Node.mem_leaves_iff.mp (List.contains_iff_mem.mp htarget))
  split at h
  · exact wrapTarget_over hover hleaf hsource hmint h
  · simp only [Option.bind_eq_some_iff] at h
    obtain ⟨⟨children, paxis, gid⟩, -, h⟩ := h
    dsimp only at h
    split at h
    · simp only [Option.bind_eq_some_iff] at h
      obtain ⟨index, -, _, -, updated, hinsert, h⟩ := h
      cases h
      exact insertLeafIntoGroup_over hover (over_leaf.mpr hsource) hinsert
    · exact wrapTarget_over hover hleaf hsource hmint h

theorem applyGroupEdgePlacement_over
    (h : applyGroupEdgePlacement tree sourceLeaf target side baseRevision = some p) :
    p.tree.Over P := by
  simp only [applyGroupEdgePlacement, Option.bind_eq_bind, Option.bind_eq_some_iff,
    require_eq_some] at h
  obtain ⟨axis, -, before, -, _, -, working, hworking, _, -, _, -, h⟩ := h
  have hover := liftSource_over htree hworking
  split at h
  · simp only [Option.bind_eq_some_iff] at h
    obtain ⟨updated, hinsert, h⟩ := h
    cases h
    exact insertLeafIntoGroup_over hover (over_leaf.mpr hsource) hinsert
  · simp only [Option.bind_eq_some_iff] at h
    obtain ⟨node, hnode, h⟩ := h
    exact wrapTarget_over hover (findSubtree_over hover hnode) hsource hmint h

omit hmint in
theorem applyGroupInteriorPlacement_over {predecessor : Nat}
    (h : applyGroupInteriorPlacement tree sourceLeaf target predecessor = some p) :
    p.tree.Over P := by
  simp only [applyGroupInteriorPlacement, Option.bind_eq_bind, Option.bind_eq_some_iff,
    require_eq_some] at h
  obtain ⟨_, -, working, hworking, _, -, updated, hinsert, h⟩ := h
  cases h
  exact insertLeafIntoGroup_over (liftSource_over htree hworking) (over_leaf.mpr hsource) hinsert

end

section
variable {P : NodeId → Prop} {tree : Node} {windows : Links} {exceptions : Exceptions}
  {capture : DragState} {resolved : SharedDragResolved} {x y : Int}

/-- What a point resolves to is over the ids of the tree and the minted one. -/
theorem resolveDragShared_over {domain : OutputDomain} (htree : tree.Over P)
    (hsource : P capture.sourceLeaf)
    (hmint : ∀ existing, P (generateDragGroupId capture.sourceLeaf capture.revision existing))
    (h : resolveDragShared tree domain windows exceptions capture x y = .ok resolved) :
    resolved.placement.tree.Over P := by
  simp only [resolveDragShared, bind_eq_ok] at h
  obtain ⟨_, -, projected, -, h⟩ := h
  split at h
  · simp only [bind_eq_ok, resolveGroup] at h
    obtain ⟨layout, -, rep, -, _, -, h⟩ := h
    split at h
    · simp only [bind_eq_ok, okOr_eq_ok, pure_eq_ok] at h
      obtain ⟨_, -, _, -, placement, hplacement, rfl⟩ := h
      exact applyGroupEdgePlacement_over htree hsource hmint hplacement
    · simp only [bind_eq_ok, okOr_eq_ok, pure_eq_ok] at h
      obtain ⟨placement, hplacement, _, -, _, -, rfl⟩ := h
      exact applyGroupInteriorPlacement_over htree hsource hplacement
  · simp only [resolveLeaf, bind_eq_ok, okOr_eq_ok, pure_eq_ok] at h
    obtain ⟨_, -, rect, -, _, -, _, -, targetWindow, -, _, -, _, -, _, -, placement, hplacement,
      rfl⟩ := h
    exact applyDragPlacement_over htree hsource hmint hplacement

end

end PlasmaTiler
