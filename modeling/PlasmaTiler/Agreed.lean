import PlasmaTiler.Acceptance
import PlasmaTiler.Drops

/-!
# Moves a session plans are moves it applies

The planner is given a snapshot, a part of the session in its own data types,
and answers with an operation. The applier gets the operation and edits the
session. Between the two lies a change of vocabulary: outputs for domains,
positions in a list for keys, and a snapshot window for a link.

The move snapshot shows the planner the session's own domains. What the
planner accepted of it and what the world check says together put the plan
back into the session: the output it starts from is the focused domain, the
output it crosses to is one other domain (slots and domains match in number,
so no key names two of them), and the result is a valid world where only the
mover has moved.

A local operation keeps the leaves of its tree and rearranges them
(`WorldOk.rearranged`); a crossing takes the mover out of one tree and puts
it into another (`WorldOk.crossed`). `applyMoveOperation_planned` has both,
and `MovedOnly` is what it says about everything else: no other link, no
exception, no tree of another domain, and the order of the leaves.
-/

namespace PlasmaTiler

/-! ## Domains by key -/

section
variable {domains : List OutputDomain} {trees : Trees} {windows : Links} {exceptions : Exceptions}
  {focusedDomain : Option DomainKey} {focusedLeaf : Option NodeId} {key : DomainKey}
  {tree n' : Node} {x fresh : NodeId}

/-- Slots and domains match in number, so no key names two domains. -/
theorem WorldOk.keys_nodup (h : WorldOk domains trees windows exceptions focusedDomain focusedLeaf) :
    (domains.map OutputDomain.key).Nodup := by
  have hslots : trees.keys.Nodup := by
    refine Std.ExtTreeMap.distinct_keys.imp fun {a b} hne heq => ?_
    rw [heq] at hne
    exact hne Std.ReflCmp.compare_self
  have hsub : trees.keys ⊆ domains.map OutputDomain.key := by
    intro k hk
    obtain ⟨d, hd, hkey⟩ := h.domain_of_slot k (Std.ExtTreeMap.mem_keys.mp hk)
    exact hkey ▸ List.mem_map_of_mem hd
  have hlength : (domains.map OutputDomain.key).length ≤ trees.keys.length := by
    rw [List.length_map, Std.ExtTreeMap.length_keys, h.slot_count]
  have hperm := (List.subperm_of_subset hslots hsub).perm_of_length_le hlength
  exact hperm.nodup_iff.mp hslots

theorem WorldOk.find_key (h : WorldOk domains trees windows exceptions focusedDomain focusedLeaf)
    {d : OutputDomain} (hd : d ∈ domains) : domains.find? (·.key == d.key) = some d := by
  refine find?_eq_of_unique hd (beq_self_eq_true _) fun d' hd' hkey => ?_
  exact List.inj_on_of_nodup_map h.keys_nodup hd' hd (beq_iff_eq.mp hkey)

/-! ## Edited worlds -/

theorem size_insert_of_mem {value : Option Node} (hkey : key ∈ trees) :
    (trees.insert key value).size = trees.size := by
  rw [Std.ExtTreeMap.size_insert, if_pos (Std.ExtTreeMap.contains_iff_mem.mpr hkey)]

theorem mem_insert_of_mem {value : Option Node} {k : DomainKey} (hkey : key ∈ trees) :
    k ∈ trees.insert key value ↔ k ∈ trees := by
  rw [Std.ExtTreeMap.mem_insert, Std.LawfulEqOrd.compare_eq_iff_eq]
  exact ⟨fun h => h.elim (fun heq => heq ▸ hkey) id, .inr⟩

theorem mem_of_treeAt (h : treeAt trees key = some tree) : key ∈ trees :=
  mem_iff_lookup.mpr ⟨_, treeAt_eq_some.mp h⟩

/-- A valid tree with the same leaves in place of the old one, focused on a
leaf of it. -/
theorem WorldOk.retreed
    (h : WorldOk domains trees windows exceptions focusedDomain focusedLeaf)
    (htree : treeAt trees key = some tree) (hok : TreeOk n')
    (hleaves : ∀ y, y ∈ n'.leaves ↔ y ∈ tree.leaves) (hx : x ∈ tree.leaves) :
    WorldOk domains (trees.insert key (some n')) windows exceptions (some key) (some x) := by
  have hkey := mem_of_treeAt htree
  have hleaf : ∀ {k y}, hasLeaf (trees.insert key (some n')) k y = true ↔ hasLeaf trees k y = true := by
    intro k y
    rw [hasLeaf_iff, hasLeaf_iff]
    by_cases hk : key = k
    · subst hk
      simp [treeAt_insert, htree, hleaves]
    · simp [treeAt_insert, hk]
  exact { h with
    slot_count := by rw [size_insert_of_mem hkey, h.slot_count]
    slot_of_domain := fun d hd => (mem_insert_of_mem hkey).mpr (h.slot_of_domain d hd)
    domain_of_slot := fun k hk => h.domain_of_slot k ((mem_insert_of_mem hkey).mp hk)
    tree_ok := fun {k t} ht => by
      rw [treeAt_insert] at ht
      split at ht
      · obtain rfl := Option.some.inj ht
        exact hok
      · exact h.tree_ok ht
    link_valid := fun {w l} hl => by
      have hvalid := h.link_valid hl
      simp only [validLink, Bool.and_eq_true] at hvalid ⊢
      exact ⟨hvalid.1, hleaf.mpr hvalid.2⟩
    leaf_linked := fun {k t y} ht hy => by
      have hold := hleaf.mp (hasLeaf_iff.mpr ⟨t, ht, hy⟩)
      obtain ⟨t', ht', hy'⟩ := hasLeaf_iff.mp hold
      exact h.leaf_linked ht' hy'
    focus := by
      rw [validFocus, Bool.and_eq_true]
      obtain ⟨w, l, hl, hat, hhome⟩ := h.leaf_linked htree hx
      exact ⟨hleaf.mpr (hasLeaf_iff.mpr ⟨tree, htree, hx⟩), linkedAt_iff.mpr ⟨w, l, hl, hat, hhome⟩⟩ }

/-- A rearranged tree in the world it comes from, focused on its mover. -/
theorem WorldOk.rearranged
    (h : WorldOk domains trees windows exceptions focusedDomain focusedLeaf)
    (htree : treeAt trees key = some tree) (hr : Rearranged tree n' x fresh) (hx : x ∈ tree.leaves)
    (hfresh : fresh ∉ tree.ids) (hnamed : fresh.isEmpty = false) :
    WorldOk domains (trees.insert key (some n')) windows exceptions (some key) (some x) :=
  h.retreed htree (hr.treeOk (h.tree_ok htree) hfresh hnamed) (fun _ => hr.mem_leaves hx) hx

/-! ## Crossing -/

/-- What the source keeps of its tree. -/
theorem leaves_of_remainder {rest : Option Node}
    (hrest : ∀ y, y ∈ (rest.map Node.leaves).getD [] ↔ y ∈ tree.leaves ∧ y ≠ x) {y : NodeId} :
    (∃ t, rest = some t ∧ y ∈ t.leaves) ↔ y ∈ tree.leaves ∧ y ≠ x := by
  rw [← hrest y]
  cases rest <;> simp

/-- The mover taken out of one tree and put into another. All links but its
own keep their leaves, and those of the two trees differ by the mover's alone.
-/
theorem WorldOk.crossed {target : OutputDomain} {rest : Option Node} {mover : WindowId}
    {link : WindowLink}
    (h : WorldOk domains trees windows exceptions focusedDomain focusedLeaf)
    (htree : treeAt trees key = some tree) (hlink : windows[mover]? = some link)
    (hwindow : link.window = mover) (hleaf : link.leaf = x) (hhome : link.key = key)
    (htarget : target ∈ domains)
    (hne : target.key ≠ key)
    (hrest : ∀ y, y ∈ (rest.map Node.leaves).getD [] ↔ y ∈ tree.leaves ∧ y ≠ x)
    (hrestOk : ∀ t, rest = some t → TreeOk t) (hnew : TreeOk n')
    (hleaves : ∀ y, y ∈ n'.leaves ↔ y = x ∨
      ∃ t, treeAt trees target.key = some t ∧ y ∈ t.leaves) :
    WorldOk domains ((trees.insert key rest).insert target.key (some n'))
      (windows.insert mover ⟨mover, x, target.id, target.workspace⟩) exceptions (some target.key)
      (some x) := by
  have hkey := mem_of_treeAt htree
  have hslot : target.key ∈ trees.insert key rest :=
    (mem_insert_of_mem hkey).mpr (h.slot_of_domain target htarget)
  have hat : ∀ k, treeAt ((trees.insert key rest).insert target.key (some n')) k =
      if target.key = k then some n' else if key = k then rest else treeAt trees k := by
    intro k
    rw [treeAt_insert, treeAt_insert]
  have hafter : ∀ {k y}, hasLeaf ((trees.insert key rest).insert target.key (some n')) k y = true ↔
      (k = target.key ∧ y = x) ∨ (hasLeaf trees k y = true ∧ (k = key → y ≠ x)) := by
    intro k y
    rw [hasLeaf_iff, hasLeaf_iff, hat]
    by_cases hk : target.key = k
    · subst hk
      simp [hleaves, hne]
    · rw [if_neg hk]
      by_cases hk' : key = k
      · subst hk'
        rw [if_pos rfl, leaves_of_remainder hrest]
        simp [htree, hne.symm]
      · simp [hk', Ne.symm hk, Ne.symm hk']
  have hmoverLink := h.link_valid hlink
  have hdomain := h.domain_valid target htarget
  have hold : ∀ {w l}, windows[w]? = some l → w ≠ mover → l.leaf ≠ x := by
    intro w l hl hw heq
    exact hw (h.leaf_inj hl hlink (heq.trans hleaf.symm))
  exact { h with
    slot_count := by
      rw [size_insert_of_mem hslot, size_insert_of_mem hkey, h.slot_count]
    slot_of_domain := fun d hd =>
      (mem_insert_of_mem hslot).mpr ((mem_insert_of_mem hkey).mpr (h.slot_of_domain d hd))
    domain_of_slot := fun k hk =>
      h.domain_of_slot k ((mem_insert_of_mem hkey).mp ((mem_insert_of_mem hslot).mp hk))
    tree_ok := fun {k t} ht => by
      rw [hat] at ht
      split at ht
      · obtain rfl := Option.some.inj ht
        exact hnew
      · split at ht
        · exact hrestOk t ht
        · exact h.tree_ok ht
    disjoint := fun {w} hw => by
      rw [Std.ExtTreeMap.mem_insert, Std.LawfulEqOrd.compare_eq_iff_eq] at hw
      rcases hw with rfl | hw
      · exact h.disjoint (mem_iff_lookup.mpr ⟨_, hlink⟩)
      · exact h.disjoint hw
    link_valid := fun {w l} hl => by
      rw [lookup_insert] at hl
      split at hl
      · rename_i heq
        obtain rfl := Option.some.inj hl
        simp only [validLink, Bool.and_eq_true, hwindow, hleaf] at hmoverLink
        simp only [OutputDomain.validate, Bool.and_eq_true] at hdomain
        obtain ⟨⟨⟨⟨⟨hw, hx⟩, -⟩, -⟩, -⟩, -⟩ := hmoverLink
        obtain ⟨⟨⟨⟨⟨⟨⟨⟨hid, hworkspace⟩, -⟩, -⟩, -⟩, -⟩, -⟩, -⟩, -⟩ := hdomain
        have hknown : domains.any (fun d => d.key == target.key) = true :=
          List.any_eq_true.mpr ⟨target, htarget, beq_self_eq_true _⟩
        have hput : hasLeaf ((trees.insert key rest).insert target.key (some n')) target.key x = true :=
          hafter.mpr (.inl ⟨rfl, rfl⟩)
        simp only [validLink, Bool.and_eq_true]
        exact ⟨⟨⟨⟨⟨hw, hx⟩, hid⟩, hworkspace⟩, hknown⟩, hput⟩
      · rename_i hw
        have hvalid := h.link_valid hl
        simp only [validLink, Bool.and_eq_true] at hvalid ⊢
        exact ⟨hvalid.1, hafter.mpr (.inr ⟨hvalid.2, fun _ => hold hl (Ne.symm hw)⟩)⟩
    leaf_inj := fun {w w' l l'} hl hl' heq => by
      rw [lookup_insert] at hl hl'
      split at hl <;> split at hl'
      · rename_i hw hw'
        exact hw.symm.trans hw'
      · rename_i hw hw'
        obtain rfl := Option.some.inj hl
        exact absurd heq.symm (hold hl' (Ne.symm hw'))
      · rename_i hw hw'
        obtain rfl := Option.some.inj hl'
        exact absurd heq (hold hl (Ne.symm hw))
      · exact h.leaf_inj hl hl' heq
    leaf_linked := fun {k t y} ht hy => by
      rcases hafter.mp (hasLeaf_iff.mpr ⟨t, ht, hy⟩) with ⟨rfl, rfl⟩ | ⟨hbefore, haway⟩
      · exact ⟨mover, _, by rw [lookup_insert, if_pos rfl], rfl, rfl⟩
      · obtain ⟨t', ht', hy'⟩ := hasLeaf_iff.mp hbefore
        obtain ⟨w, l, hl, hly, hlk⟩ := h.leaf_linked ht' hy'
        have hw : mover ≠ w := by
          rintro rfl
          obtain rfl := Option.some.inj (hl.symm.trans hlink)
          exact haway (hlk.symm.trans hhome) (hly.symm.trans hleaf)
        exact ⟨w, l, by rw [lookup_insert, if_neg hw, hl], hly, hlk⟩
    focus := by
      rw [validFocus, Bool.and_eq_true]
      refine ⟨hafter.mpr (.inl ⟨rfl, rfl⟩), linkedAt_iff.mpr
        ⟨mover, ⟨mover, x, target.id, target.workspace⟩, ?_, rfl, rfl⟩⟩
      rw [lookup_insert, if_pos rfl] }

end

/-- Grafting a new leaf leaves the order of the others. -/
theorem Grafted.filter_leaves {n : Node} {groupId : NodeId} (h : Grafted n n' groupId x) :
    n'.leaves.filter (· ≠ x) = n.leaves.filter (· ≠ x) := by
  have hsub : (n.leaves.filter (· ≠ x)).Sublist (n'.leaves.filter (· ≠ x)) := h.order.filter _
  have hlength : (n.leaves.filter (· ≠ x)).length = (n'.leaves.filter (· ≠ x)).length := by
    have hperm := h.leaves.filter (· ≠ x)
    rw [hperm.length_eq, List.filter_cons]
    simp
  exact (hsub.eq_of_length hlength).symm

/-- The target of a crossing takes the mover in. -/
theorem crossInto_spec {existing? : Option Node} {direction : Direction} {baseRevision : Nat}
    {nodeIds : BTreeSet NodeId} {targetFocus : Option NodeId}
    (hok : ∀ t, existing? = some t → TreeOk t) (hx : ∀ t, existing? = some t → x ∉ t.ids)
    (hnamed : x.isEmpty = false) (hids : ∀ t, existing? = some t → ∀ i ∈ t.ids, i ∈ nodeIds)
    (hmem : x ∈ nodeIds) :
    ∃ n', crossInto existing? windows key x direction baseRevision nodeIds
        (if existing?.isNone then .empty else .occupied) targetFocus = some n' ∧ TreeOk n' ∧
      (∀ y, y ∈ n'.leaves ↔ y = x ∨ ∃ t, existing? = some t ∧ y ∈ t.leaves) ∧
      n'.leaves.filter (· ≠ x) = ((existing?.map Node.leaves).getD []).filter (· ≠ x) := by
  cases existing? with
  | none =>
    refine ⟨.leaf x, rfl, ?_, by simp, by simp⟩
    exact { wellFormed := by simp, nodup := by simp, nonempty := by simpa using hnamed }
  | some t =>
    have hgraft : ∃ n', crossInto (some t) windows key x direction baseRevision nodeIds .occupied
        targetFocus = some n' ∧
        Grafted t n' (generateMoveGroupId x baseRevision "r4" nodeIds) x := by
      unfold crossInto
      dsimp only
      split
      · rename_i focus hfocus
        obtain ⟨-, hvalid⟩ := Option.filter_eq_some_iff.mp hfocus
        rw [Bool.and_eq_true, List.contains_iff_mem] at hvalid
        obtain ⟨n', hn'⟩ := @nestFocusedOrdered_isSome t
          (generateMoveGroupId x baseRevision "r4" nodeIds) focus (Axis.forDirection direction)
          (stepFor direction == 1) (hok t rfl).nodup hvalid.1 (.leaf x)
        exact ⟨n', hn', nestFocusedOrdered_grafted hn'⟩
      · exact ⟨_, rfl, @grafted_fill [] t _ x _ _⟩
    obtain ⟨n', happly, hgrafted⟩ := hgraft
    have hfresh : generateMoveGroupId x baseRevision "r4" nodeIds ∉ nodeIds := freshId_not_mem
    refine ⟨n', happly, ?_, ?_, ?_⟩
    · refine ⟨hgrafted.wellFormed (hok t rfl).wellFormed, ?_, ?_⟩
      · rw [hgrafted.ids.nodup_iff, List.nodup_cons, List.nodup_cons, List.mem_cons, not_or]
        refine ⟨⟨fun heq => by rw [heq] at hfresh; exact hfresh hmem, fun hin => hfresh (hids t rfl _ hin)⟩, hx t rfl, ?_⟩
        exact (hok t rfl).nodup
      · intro i hi
        rcases List.mem_cons.mp (hgrafted.ids.mem_iff.mp hi) with rfl | hi
        · exact generateMoveGroupId_named
        · rcases List.mem_cons.mp hi with rfl | hi
          · exact hnamed
          · exact (hok t rfl).nonempty i hi
    · intro y
      rw [hgrafted.leaves.mem_iff]
      simp
    · exact hgrafted.filter_leaves

/-! ## The snapshot of a session -/

namespace Session

variable {s : Session} {source : OutputDomain} {domain : DomainKey} {snapshot : Snapshot}

theorem mem_addAdjacent {outputs : List Output} {target : OutputId} {o : Output}
    (h : o ∈ s.addAdjacent outputs target) : o ∈ outputs ∨ ∃ d ∈ s.domains, o = s.outputOf d := by
  unfold addAdjacent at h
  split at h
  · exact .inl h
  · split at h
    · rename_i d hfilter
      rcases List.mem_append.mp h with h | h
      · exact .inl h
      · have hd : d ∈ s.domains.filter (·.id == target) := by
          rw [hfilter]
          exact List.mem_singleton_self d
        exact .inr ⟨d, List.mem_of_mem_filter hd, List.mem_singleton.mp h⟩
    · exact .inl h

theorem subset_addAdjacent {outputs : List Output} {target : OutputId} :
    outputs ⊆ s.addAdjacent outputs target := by
  intro o ho
  unfold addAdjacent
  split
  · exact ho
  · split
    · exact List.mem_append_left _ ho
    · exact ho

/-- The outputs shown are the session's domains, and its workspace's are among
them. -/
theorem moveOutputs_spec :
    (∀ o ∈ s.moveOutputs source, ∃ d ∈ s.domains, o = s.outputOf d) ∧
      ∀ d ∈ s.domains, d.workspace = source.workspace → s.outputOf d ∈ s.moveOutputs source := by
  have hfold : ∀ (targets : List OutputId) (outputs : List Output),
      (∀ o ∈ outputs, ∃ d ∈ s.domains, o = s.outputOf d) →
      (∀ o ∈ targets.foldl s.addAdjacent outputs, ∃ d ∈ s.domains, o = s.outputOf d) ∧
        outputs ⊆ targets.foldl s.addAdjacent outputs := by
    intro targets
    induction targets with
    | nil => exact fun outputs h => ⟨h, List.Subset.refl _⟩
    | cons target targets ih =>
      intro outputs h
      have hstep : ∀ o ∈ s.addAdjacent outputs target, ∃ d ∈ s.domains, o = s.outputOf d :=
        fun o ho => (mem_addAdjacent ho).elim (h o) id
      obtain ⟨hall, hsub⟩ := ih _ hstep
      exact ⟨hall, fun o ho => hsub (subset_addAdjacent ho)⟩
  have hown : ∀ o ∈ (s.domains.filter fun d => d.workspace == source.workspace).map s.outputOf,
      ∃ d ∈ s.domains, o = s.outputOf d := by
    intro o ho
    obtain ⟨d, hd, rfl⟩ := List.mem_map.mp ho
    exact ⟨d, List.mem_of_mem_filter hd, rfl⟩
  obtain ⟨hall, hsub⟩ := hfold (values source.adjacent) _ hown
  refine ⟨hall, fun d hd hworkspace => hsub (List.mem_map_of_mem ?_)⟩
  exact List.mem_filter.mpr ⟨hd, beq_iff_eq.mpr hworkspace⟩

theorem moveSnapshot_spec (h : s.moveSnapshot domain = some snapshot) :
    ∃ source ∈ s.domains, source.key = domain ∧ s.outputOf source ∈ snapshot.outputs ∧
      ∀ o ∈ snapshot.outputs, ∃ d ∈ s.domains, o = s.outputOf d := by
  simp only [moveSnapshot, Option.bind_eq_bind, Option.bind_eq_some_iff, Option.pure_def,
    Option.some.injEq] at h
  obtain ⟨source, hsource, _, -, rfl⟩ := h
  obtain ⟨hall, hown⟩ := @moveOutputs_spec s source
  have hmem := List.mem_of_find?_eq_some hsource
  have hkey : (source.key == domain) = true :=
    List.find?_some (p := fun d : OutputDomain => d.key == domain) hsource
  exact ⟨source, hmem, beq_iff_eq.mp hkey, hown source hmem rfl, hall⟩

/-- The output a move starts from is the domain's own. -/
theorem snapshot_source {intent : MoveIntent} {o : Output}
    (h : s.moveSnapshot domain = some snapshot) (hok : SnapshotOk snapshot intent o)
    (hintent : intent.sourceOutput = domain.output) :
    ∃ source ∈ s.domains, source.key = domain ∧ o = s.outputOf source := by
  obtain ⟨source, hmem, hkey, hown, -⟩ := moveSnapshot_spec h
  have hid : source.id = domain.output := congrArg DomainKey.output hkey
  have hfound := List.find?_some hok.found
  refine ⟨source, hmem, hkey, ?_⟩
  refine List.inj_on_of_nodup_map hok.distinct (List.mem_of_find?_eq_some hok.found) hown ?_
  rw [beq_iff_eq.mp hfound, hintent, ← hid]
  rfl

end Session

namespace Sample

/-- What the planner sees of two tiles side by side. -/
def shown : Snapshot := (sideBySide.moveSnapshot ⟨⟨"A"⟩, ⟨"1"⟩⟩).getD ⟨[], []⟩

/-- Moving the left one to the right. -/
def rightward : MoveIntent := ⟨⟨"A"⟩, ⟨"leaf-v"⟩, ⟨"v"⟩, .right, .groupWithNeighbor⟩

def swapTiles : MovePlan :=
  .forOperation rightward (.swapNeighbor .r2a ⟨"grp-w-r0"⟩ ⟨"leaf-w"⟩)

end Sample

namespace Session

variable {s : Session} {source : OutputDomain} {domain : DomainKey} {snapshot : Snapshot}

/-! ## Agreement -/

theorem mem_nodeIdsOf {trees : Trees} {key : DomainKey} {tree : Node} {i : NodeId}
    (htree : treeAt trees key = some tree) (hi : i ∈ tree.ids) : i ∈ nodeIdsOf trees := by
  have hslot : some tree ∈ values trees := mem_values_of_lookup (treeAt_eq_some.mp htree)
  rw [nodeIdsOf, Std.ExtTreeSet.mem_ofList, List.contains_iff_mem, List.mem_flatMap]
  exact ⟨some tree, hslot, hi⟩

/-- What a move leaves as it was, and where its mover is afterwards. Trees of
other domains and links of other windows are the same, and in the trees that
changed the other leaves keep their order. -/
structure MovedOnly (s : Session) (domain : DomainKey) (operation : MoveOperation)
    (window : WindowId) (leaf : NodeId) (applied : AppliedMove) : Prop where
  /-- The mover keeps its leaf, is focused, and is at home in the new domain. -/
  focusDomain : applied.focusDomain = (crossTarget operation).getD domain
  focusLeaf : applied.focusLeaf = leaf
  mover : applied.windows[window]? =
    some ⟨window, leaf, applied.focusDomain.output, applied.focusDomain.workspace⟩
  /-- Other windows keep their leaf and domain. -/
  others : ∀ w, w ≠ window → applied.windows[w]? = s.windows[w]?
  /-- Only the source and the target of a crossing have a new tree. -/
  domains : ∀ key, key ≠ domain → crossTarget operation ≠ some key →
    applied.trees[key]? = s.trees[key]?
  crossed : ∀ target, crossTarget operation = some target →
    target ≠ domain ∧ leaf ∉ leavesAt applied.trees domain ∧ leaf ∉ leavesAt s.trees target ∧
      leaf ∈ leavesAt applied.trees target
  /-- The leaves that do not move keep their order. -/
  order : ∀ key, (leavesAt applied.trees key).filter (· ≠ leaf) =
    (leavesAt s.trees key).filter (· ≠ leaf)

section
variable {window : WindowId} {leaf : NodeId} {direction : Direction} {plan : MovePlan}
  {sameAxisMove : SameAxisMove} {capabilities : Capabilities} {baseRevision : Nat}
  {targetFocus : Option NodeId}

/-- A local plan is applied within one tree. What it makes of the tree is
`planLocal_applied`; that the world around it is kept follows from the leaves
being the same. -/
theorem applyMoveOperation_local {ctx : Context} {o : Output}
    (hs : s.Valid) (hkeyed : Keyed s.windows)
    (hwindow : windowAt s.windows domain leaf = some window)
    (htree : treeAt s.trees domain = some (ctx.fill (.leaf leaf)))
    (hplan : planLocal ⟨domain.output, leaf, window, direction, sameAxisMove⟩ o
      (ctx.levels (.leaf leaf)) = .planned plan)
    (hfits : ¬moveOverflows (ctx.fill (.leaf leaf)) plan.operation) :
    ∃ applied, applyMoveOperation s.trees s.windows s.domains domain leaf direction plan
        baseRevision targetFocus = some applied ∧
      WorldOk s.domains applied.trees applied.windows s.exceptions (some applied.focusDomain)
        (some applied.focusLeaf) ∧
      MovedOnly s domain plan.operation window leaf applied := by
  obtain ⟨n', fresh, hresult, hfresh, hnamed, hmoved⟩ :=
    @planLocal_applied ctx leaf _ o plan (nodeIdsOf s.trees) baseRevision
      (hs.tree_ok htree) hplan hfits
  have hleaf : leaf ∈ (ctx.fill (.leaf leaf)).leaves := by
    rw [Context.leaves_fill]
    simp
  have hnew : fresh ∉ (ctx.fill (.leaf leaf)).ids := fun hmem =>
    hfresh (mem_nodeIdsOf htree hmem)
  have hlocal : ∀ rule output workspace index target,
      plan.operation ≠ .crossOutput rule output workspace index target := by
    intro rule output workspace index target heq
    rw [applyInSource, heq] at hresult
    cases hresult
  obtain ⟨hbinds, hintent⟩ := planLocal_binds rfl hplan
  have happlied : applyMoveOperation s.trees s.windows s.domains domain leaf direction plan
      baseRevision targetFocus =
      some ⟨s.trees.insert domain (some n'), s.windows, domain, leaf⟩ := by
    unfold applyMoveOperation
    rw [hbinds, hwindow, hintent]
    simp only [require_true, Option.bind_eq_bind, Option.bind_some, beq_self_eq_true, htree, hresult]
    rfl
  have hstays : crossTarget plan.operation = none := by
    unfold crossTarget
    split
    · rename_i heq
      exact absurd heq (hlocal _ _ _ _ _)
    · rfl
  obtain ⟨link, hlink, hat, hhome⟩ := hkeyed.windowAt hwindow
  refine ⟨_, happlied, hs.rearranged htree hmoved hleaf hnew hnamed, ?_⟩
  exact {
    focusDomain := by rw [hstays]; rfl
    focusLeaf := rfl
    mover := by rw [hlink, ← hkeyed hlink, ← hat, ← hhome]; rfl
    others := fun w _ => rfl
    domains := fun key hkey _ => by rw [lookup_insert, if_neg (Ne.symm hkey)]
    crossed := fun target htarget => by
      rw [hstays] at htarget
      cases htarget
    order := fun key => by
      rw [leavesAt_insert]
      split
      · rename_i hkey
        rw [← hkey, leavesAt, htree]
        exact hmoved.leaves
      · rfl }

/-- A crossing is applied: the mover leaves the tree of its domain and enters
the target's, and the world that results is valid. Both trees are treated
apart, and joined by `WorldOk.crossed`. -/
theorem applyMoveOperation_crossed {ctx : Context} {o target : Output} {index : Nat}
    {intent : MoveIntent} (hs : s.Valid) (hkeyed : Keyed s.windows)
    (hwindow : windowAt s.windows domain leaf = some window)
    (hsnapshot : s.moveSnapshot domain = some snapshot)
    (hintent : intent = ⟨domain.output, leaf, window, direction, sameAxisMove⟩)
    (hok : SnapshotOk snapshot intent o) (htree : o.tree = some (ctx.fill (.leaf leaf)))
    (hedge : checkRootEdge (ctx.fill (.leaf leaf)) leaf direction index = true)
    (hcrosses : Crosses snapshot intent o target plan index) :
    ∃ applied, applyMoveOperation s.trees s.windows s.domains domain leaf direction plan
        baseRevision targetFocus = some applied ∧
      WorldOk s.domains applied.trees applied.windows s.exceptions (some applied.focusDomain)
        (some applied.focusLeaf) ∧
      MovedOnly s domain plan.operation window leaf applied := by
  obtain ⟨source, hsource, rfl, rfl⟩ := snapshot_source hsnapshot hok (by rw [hintent])
  obtain ⟨-, -, -, -, hdomains⟩ := moveSnapshot_spec hsnapshot
  obtain ⟨dest, hdest, rfl⟩ := hdomains target hcrosses.present
  obtain ⟨-, -, -, hown, -⟩ := moveSnapshot_spec hsnapshot
  have hdirection : intent.direction = direction := by rw [hintent]
  obtain ⟨htoward, hpresent, hback, hplan⟩ := hcrosses
  rw [hdirection] at htoward hback
  have hmem := List.mem_of_find?_eq_some hok.found
  have hids : dest.id ≠ source.id := hok.away _ hmem direction _ htoward
  have hkeys : dest.key ≠ source.key := fun heq => hids (congrArg DomainKey.output heq)
  have hat : treeAt s.trees source.key = some (ctx.fill (.leaf leaf)) := htree
  have hleaf : leaf ∈ (ctx.fill (.leaf leaf)).leaves := by
    rw [Context.leaves_fill]
    simp
  have hleafId := Node.mem_ids_of_mem_leaves hleaf
  have hvalid := hs.tree_ok hat
  -- the planner has checked that no id is in two trees
  have hapart : ∀ t, treeAt s.trees dest.key = some t → leaf ∉ t.ids := by
    intro t ht hin
    have hsymm : Std.Symm (Function.onFun List.Disjoint Output.nodeIds) :=
      ⟨fun _ _ h => List.Disjoint.symm h⟩
    have hdisjoint := (List.nodup_flatMap.mp hok.nodes).2.forall hmem hpresent
      fun heq => hids (congrArg Output.id heq).symm
    refine hdisjoint (a := leaf) ?_ ?_
    · rw [Output.nodeIds, htree]
      exact hleafId
    · have hdestTree : (s.outputOf dest).tree = some t := ht
      rw [Output.nodeIds, hdestTree]
      exact hin
  have hin : leaf ∈ nodeIdsOf s.trees := mem_nodeIdsOf hat hleafId
  obtain ⟨hrest, hrestOk⟩ := @removeLeafFromTree_leaves (some (ctx.fill (.leaf leaf))) leaf
    fun n hn => Option.some.inj hn ▸ hvalid
  obtain ⟨n', hinto, hnew, hleaves, horder⟩ :=
    @crossInto_spec leaf s.windows dest.key (treeAt s.trees dest.key) direction baseRevision
      (nodeIdsOf s.trees) targetFocus (fun t ht => hs.tree_ok ht) hapart
      (hvalid.nonempty leaf hleafId) (fun t ht i hi => mem_nodeIdsOf ht hi) hin
  have happlied : applyMoveOperation s.trees s.windows s.domains source.key leaf direction plan
      baseRevision targetFocus =
      some ⟨(s.trees.insert source.key (removeLeafFromTree (some (ctx.fill (.leaf leaf))) leaf)).insert
          dest.key (some n'),
        s.windows.insert window ⟨window, leaf, dest.id, dest.workspace⟩, dest.key, leaf⟩ := by
    have hbinds : movePlanBinds plan source.key leaf direction = true := by
      rw [hplan, hintent]
      simp [movePlanBinds, MovePlan.forOperation, MoveOperation.rule,
        MoveOperation.requiredCapability, MoveOperation.preconditions, maxPreconditions]
    have hfind : ∀ d ∈ s.domains, s.domains.find? (·.key == d.key) = some d :=
      fun d hd => hs.find_key hd
    have hdestKey : (⟨(s.outputOf dest).id, (s.outputOf dest).workspace⟩ : DomainKey) = dest.key := rfl
    have hoffKey : (dest.key != source.key) = true := bne_iff_ne.mpr hkeys
    have hgoes : source.adjacent[direction]? = some (s.outputOf dest).id := htoward
    have hreturns : dest.adjacent[oppositeDirection direction]? = some source.key.output := hback
    have hstill : treeAt (s.trees.insert source.key
        (removeLeafFromTree (some (ctx.fill (.leaf leaf))) leaf)) dest.key =
        treeAt s.trees dest.key := by
      rw [treeAt_insert, if_neg hkeys.symm]
    have hshown : (s.outputOf dest).tree = treeAt s.trees dest.key := rfl
    unfold applyMoveOperation
    rw [hbinds, hwindow, hplan, hintent]
    simp only [require_true, Option.bind_eq_bind, Option.bind_some, beq_self_eq_true,
      MovePlan.forOperation, applyCrossOutput, hdestKey, hfind source hsource, hfind dest hdest,
      hoffKey, hgoes, hreturns, hat, hedge, hstill, hshown, hinto]
    rfl
  obtain ⟨link, hlink, hlinkLeaf, hhome⟩ := hkeyed.windowAt hwindow
  have hcrossTarget : crossTarget plan.operation = some dest.key := by
    rw [hplan]
    rfl
  refine ⟨_, happlied, ?_, ?_⟩
  · refine hs.crossed hat hlink (hkeyed hlink) hlinkLeaf hhome hdest hkeys ?_ hrestOk hnew hleaves
    intro y
    rw [hrest]
    simp
  · have hafter : ∀ key, leavesAt ((s.trees.insert source.key
        (removeLeafFromTree (some (ctx.fill (.leaf leaf))) leaf)).insert dest.key (some n')) key =
        if dest.key = key then n'.leaves else
          if source.key = key then (ctx.fill (.leaf leaf)).leaves.filter (· ≠ leaf)
          else leavesAt s.trees key := by
      intro key
      rw [leavesAt_insert, leavesAt_insert, hrest]
      rfl
    exact {
      focusDomain := by rw [hcrossTarget]; rfl
      focusLeaf := rfl
      mover := by
        rw [lookup_insert, if_pos rfl]
        rfl
      others := fun w hw => by rw [lookup_insert, if_neg (Ne.symm hw)]
      domains := fun key hkey htarget => by
        rw [hcrossTarget] at htarget
        rw [lookup_insert, if_neg fun heq => htarget (congrArg some heq), lookup_insert,
          if_neg (Ne.symm hkey)]
      crossed := fun target htarget => by
        rw [hcrossTarget] at htarget
        obtain rfl := Option.some.inj htarget
        refine ⟨hkeys, ?_, ?_, ?_⟩
        · rw [hafter, if_neg hkeys, if_pos rfl]
          simp
        · intro hmem
          cases hdestTree : treeAt s.trees dest.key with
          | none =>
            rw [leavesAt, hdestTree] at hmem
            cases hmem
          | some t =>
            rw [leavesAt, hdestTree] at hmem
            exact hapart t hdestTree (Node.mem_ids_of_mem_leaves hmem)
        · rw [hafter, if_pos rfl]
          exact (hleaves leaf).mpr (.inl rfl)
      order := fun key => by
        rw [hafter]
        by_cases hdestKey : dest.key = key
        · rw [if_pos hdestKey, ← hdestKey]
          exact horder
        · rw [if_neg hdestKey]
          by_cases hsourceKey : source.key = key
          · rw [if_pos hsourceKey, ← hsourceKey, leavesAt, hat]
            simp
          · rw [if_neg hsourceKey] }

/-- Over a valid world every move the planner plans is applied: the result is
a valid world focused on the mover, where nothing but the mover has moved. The
only exception is an entered group whose new shares do not fit in 64 bits. -/
theorem applyMoveOperation_planned (hs : s.Valid) (hkeyed : Keyed s.windows)
    (hwindow : s.focusedWindowFor leaf domain = some window)
    (hsnapshot : s.moveSnapshot domain = some snapshot)
    (hplan : planMoveWithCapabilities snapshot
      ⟨domain.output, leaf, window, direction, sameAxisMove⟩ capabilities = .planned plan)
    (hfits : ∀ tree, treeAt s.trees domain = some tree → ¬moveOverflows tree plan.operation) :
    ∃ applied, applyMoveOperation s.trees s.windows s.domains domain leaf direction plan
        baseRevision targetFocus = some applied ∧
      validateTopology s.domains applied.trees applied.windows s.exceptions
        (some applied.focusDomain) (some applied.focusLeaf) = true ∧
      MovedOnly s domain plan.operation window leaf applied := by
  simp only [validateTopology_iff]
  obtain ⟨o, ctx, hok, htree, hlocal | ⟨target, index, hedge, hcrosses⟩⟩ := planMove_cases hplan
  · obtain ⟨source, -, hkey, rfl⟩ := snapshot_source hsnapshot hok rfl
    have hat : treeAt s.trees domain = some (ctx.fill (.leaf leaf)) := hkey ▸ htree
    exact applyMoveOperation_local hs hkeyed hwindow hat hlocal (hfits _ hat)
  · exact applyMoveOperation_crossed hs hkeyed hwindow hsnapshot rfl hok htree hedge hcrosses

/-- Two tiles exchange their places. -/
theorem applyMoveOperation_planned_swapTiles :
    ∃ applied, applyMoveOperation Sample.sideBySide.trees Sample.sideBySide.windows
        Sample.sideBySide.domains ⟨⟨"A"⟩, ⟨"1"⟩⟩ ⟨"leaf-v"⟩ .right Sample.swapTiles 0 none =
          some applied ∧
      validateTopology Sample.sideBySide.domains applied.trees applied.windows
        Sample.sideBySide.exceptions (some applied.focusDomain) (some applied.focusLeaf) = true ∧
      MovedOnly Sample.sideBySide ⟨⟨"A"⟩, ⟨"1"⟩⟩ Sample.swapTiles.operation ⟨"v"⟩ ⟨"leaf-v"⟩
        applied := by
  have hreachable : Reachable Sample.sideBySide := Sample.session_reachable _ _
  have hsnapshot : Sample.sideBySide.moveSnapshot ⟨⟨"A"⟩, ⟨"1"⟩⟩ = some Sample.shown := by
    decide +kernel
  have hplan : planMoveWithCapabilities Sample.shown Sample.rightward Capabilities.full =
      .planned Sample.swapTiles := by decide +kernel
  refine applyMoveOperation_planned (reachable_worldsOk hreachable).1.2 (reachable_keyed hreachable)
    (by decide +kernel) hsnapshot hplan ?_
  rintro tree - ⟨group, index, children, shares, axis, hentered, -⟩
  cases hentered

end

end Session

end PlasmaTiler
