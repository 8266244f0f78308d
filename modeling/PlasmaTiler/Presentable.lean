import PlasmaTiler.Agreed
import PlasmaTiler.Keyed

/-!
# Snapshots the planner takes

A move snapshot is a part of the session: the outputs of the source's
workspace and its direct neighbors. The planner checks the part as if it were
a whole, so it asks more of the shown outputs than the session asks of its
domains: every neighbor of a shown output must be shown, and no node id may
stand in two shown trees.

`Presentable` is what the planner asks beyond the session's own checks, read
off the domains and trees before the move; and `planMove_taken_iff` says that
it asks no more. One direction builds the index the planner builds and shows
that every check passes (`SnapshotFits`); the other reads each condition back
from a validation that has succeeded. Past the validation a snapshot can
still be blamed, for a neighbor across the root edge that does not name the
source back.

The sample is a swap on one output that is refused because another output of
the workspace has a neighbor of its own.
-/

namespace PlasmaTiler

/-! ## Accepting what fits -/

section
variable {outputs : List Output} {index : TreeIndex} {intent : MoveIntent}

theorem checkOutputs_accepts {seen : BTreeSet OutputId} (hids : (outputs.map Output.id).Nodup)
    (hfresh : ∀ o ∈ outputs, o.id ∉ seen)
    (hnamed : ∀ o ∈ outputs, o.id.isEmpty = false ∧ o.workspace.isEmpty = false) :
    checkOutputs outputs seen = .ok () := by
  induction outputs generalizing seen with
  | nil => rfl
  | cons o outputs ih =>
    rw [List.map_cons, List.nodup_cons] at hids
    obtain ⟨hid, hworkspace⟩ := hnamed o List.mem_cons_self
    have hnew : seen.contains o.id = false := by
      rw [← Bool.not_eq_true, Std.ExtTreeSet.contains_iff_mem]
      exact hfresh o List.mem_cons_self
    have hrest : ∀ o' ∈ outputs, o'.id ∉ seen.insert o.id := by
      intro o' ho' hseen
      rcases mem_set_insert.mp hseen with hsame | hseen
      · exact hids.1 (hsame ▸ List.mem_map_of_mem ho')
      · exact hfresh o' (List.mem_cons_of_mem _ ho') hseen
    simp only [checkOutputs, wellFormedOr, bind_eq_ok, ensure_eq_ok]
    refine ⟨(), by rw [hid, hnew]; rfl, (), by rw [hworkspace]; rfl, ?_⟩
    exact ih hids.2 hrest fun o' ho' => hnamed o' (List.mem_cons_of_mem _ ho')

/-- Every leaf recorded is recorded on the output. -/
theorem leafOutput_record {i : Nat} {l : List Node} {k : NodeId} :
    (l.foldl (TreeIndex.record i) index).leafOutput[k]? =
      if Node.leaf k ∈ l then some i else index.leafOutput[k]? := by
  induction l generalizing index with
  | nil => simp
  | cons n l ih =>
    rw [List.foldl_cons, ih]
    cases n with
    | leaf j =>
      by_cases hin : Node.leaf k ∈ l
      · rw [if_pos hin, if_pos (List.mem_cons_of_mem _ hin)]
      · rw [if_neg hin]
        show (index.leafOutput.insert j i)[k]? = _
        rw [lookup_insert]
        by_cases hj : j = k
        · simp [hj]
        · have hk : k ≠ j := fun h => hj h.symm
          simp [hin, hj, hk]
    | group j axis cs shares => simp [TreeIndex.record]

/-- Ids that are not among the nodes stay as they are. -/
theorem leafIsLeaf_record_of_notMem {i : Nat} {l : List Node} {k : NodeId}
    (hk : k ∉ l.map Node.id) :
    (l.foldl (TreeIndex.record i) index).leafIsLeaf[k]? = index.leafIsLeaf[k]? := by
  induction l generalizing index with
  | nil => rfl
  | cons n l ih =>
    rw [List.map_cons, List.mem_cons, not_or] at hk
    rw [List.foldl_cons, ih hk.2]
    cases n with
    | leaf j =>
      show (index.leafIsLeaf.insert j true)[k]? = _
      rw [lookup_insert, if_neg fun h => hk.1 h.symm]
    | group j axis cs shares =>
      show (index.leafIsLeaf.insert j false)[k]? = _
      rw [lookup_insert, if_neg fun h => hk.1 h.symm]

theorem leafIsLeaf_record {i : Nat} {l : List Node} {k : NodeId} (hnodup : (l.map Node.id).Nodup)
    (hk : Node.leaf k ∈ l) : (l.foldl (TreeIndex.record i) index).leafIsLeaf[k]? = some true := by
  induction l generalizing index with
  | nil => exact absurd hk List.not_mem_nil
  | cons n l ih =>
    rw [List.map_cons, List.nodup_cons] at hnodup
    rw [List.foldl_cons]
    rcases List.mem_cons.mp hk with rfl | hk
    · rw [leafIsLeaf_record_of_notMem (show k ∉ l.map Node.id from hnodup.1)]
      show (index.leafIsLeaf.insert k true)[k]? = _
      rw [lookup_insert, if_pos rfl]
    · exact ih hnodup.2 hk

theorem ids_record {i : Nat} {l : List Node} :
    (l.foldl (TreeIndex.record i) index).ids = index.ids := by
  induction l generalizing index with
  | nil => rfl
  | cons n l ih =>
    rw [List.foldl_cons, ih]
    cases n <;> rfl

/-- What the index has recorded of the trees gone through so far: each of
their leaves with the output it is on, the rest as before, and nothing that
came from elsewhere. -/
structure Indexed (outputs : List (Output × Nat)) (index index' : TreeIndex) : Prop where
  kept : ∀ k ∉ outputs.flatMap fun p => p.1.nodeIds,
    index'.leafOutput[k]? = index.leafOutput[k]? ∧ index'.leafIsLeaf[k]? = index.leafIsLeaf[k]?
  recorded : ∀ p ∈ outputs, ∀ tree, p.1.tree = some tree → ∀ k ∈ tree.leaves,
    index'.leafOutput[k]? = some p.2 ∧ index'.leafIsLeaf[k]? = some true
  origin : ∀ k ∈ index'.leafOutput, k ∈ index.leafOutput ∨
    ∃ p ∈ outputs, ∃ tree, p.1.tree = some tree ∧ k ∈ tree.leaves

theorem validateTrees_accepts {outputs : List (Output × Nat)}
    (hwf : ∀ p ∈ outputs, ∀ tree, p.1.tree = some tree → tree.WellFormed)
    (hfresh : FreshIds (outputs.flatMap fun p => p.1.nodeIds) index.ids) :
    ∃ index', validateTrees outputs index = .ok index' ∧ Indexed outputs index index' := by
  induction outputs generalizing index with
  | nil =>
    exact ⟨index, rfl, fun k _ => ⟨rfl, rfl⟩, fun p hp => absurd hp List.not_mem_nil,
      fun k hk => .inl hk⟩
  | cons p outputs ih =>
    obtain ⟨o, i⟩ := p
    have hwfRest : ∀ p ∈ outputs, ∀ tree, p.1.tree = some tree → tree.WellFormed :=
      fun p hp => hwf p (List.mem_cons_of_mem _ hp)
    rw [List.flatMap_cons] at hfresh
    cases htree : o.tree with
    | none =>
      have hown : o.nodeIds = [] := by rw [Output.nodeIds, htree]; rfl
      rw [hown, List.nil_append] at hfresh
      obtain ⟨index', haccept, hindexed⟩ := ih hwfRest hfresh
      refine ⟨index', by simp only [validateTrees, htree]; exact haccept, ?_, ?_, ?_⟩
      · intro k hk
        rw [List.flatMap_cons, hown, List.nil_append] at hk
        exact hindexed.kept k hk
      · intro p hp tree hptree
        rcases List.mem_cons.mp hp with rfl | hp
        · rw [htree] at hptree
          cases hptree
        · exact hindexed.recorded p hp tree hptree
      · intro k hk
        rcases hindexed.origin k hk with hold | ⟨p, hp, hleaf⟩
        · exact .inl hold
        · exact .inr ⟨p, List.mem_cons_of_mem _ hp, hleaf⟩
    | some tree =>
      have hown : o.nodeIds = tree.ids := by rw [Output.nodeIds, htree]; rfl
      rw [hown] at hfresh
      obtain ⟨hhere, hrest⟩ := FreshIds.append_iff.mp hfresh
      have hcheck : checkNode tree index.ids = .ok (index.ids.insertMany tree.ids) :=
        checkNode_eq_ok.mpr ⟨hwf (o, i) List.mem_cons_self tree htree, hhere, rfl⟩
      -- the index after this tree alone
      obtain ⟨mid, hmid⟩ : ∃ mid, mid = tree.nodes.foldl (TreeIndex.record i)
        { index with ids := index.ids.insertMany tree.ids } := ⟨_, rfl⟩
      have hvalidate : validateNode tree i index = .ok mid := by
        rw [validateNode, hcheck, hmid]
        rfl
      have hids : mid.ids = index.ids.insertMany tree.ids := by rw [hmid, ids_record]
      rw [← hids] at hrest
      obtain ⟨index', haccept, hindexed⟩ := ih hwfRest hrest
      have hapart : ∀ k ∈ tree.ids, k ∉ outputs.flatMap fun p => p.1.nodeIds :=
        fun k hk hlater => (List.nodup_append.mp hfresh.2.1).2.2 k hk k hlater rfl
      refine ⟨index', ?_, ?_, ?_, ?_⟩
      · simp only [validateTrees, htree, bind_eq_ok]
        exact ⟨mid, hvalidate, haccept⟩
      · intro k hk
        rw [List.flatMap_cons, hown, List.mem_append, not_or] at hk
        obtain ⟨houtput, hleaf⟩ := hindexed.kept k hk.2
        have hnode : Node.leaf k ∉ tree.nodes :=
          fun h => hk.1 (Node.mem_ids_of_mem_leaves (Node.mem_leaves_iff.mpr h))
        rw [houtput, hleaf, hmid, leafOutput_record, if_neg hnode,
          leafIsLeaf_record_of_notMem (by rw [Node.map_id_nodes]; exact hk.1)]
        exact ⟨rfl, rfl⟩
      · intro p hp ptree hptree k hk
        rcases List.mem_cons.mp hp with rfl | hp
        · obtain rfl : tree = ptree := Option.some.inj (htree.symm.trans hptree)
          obtain ⟨houtput, hleaf⟩ := hindexed.kept k (hapart k (Node.mem_ids_of_mem_leaves hk))
          have hnode : Node.leaf k ∈ tree.nodes := Node.mem_leaves_iff.mp hk
          rw [houtput, hleaf, hmid, leafOutput_record, if_pos hnode,
            leafIsLeaf_record (by rw [Node.map_id_nodes]; exact hhere.2.1) hnode]
          exact ⟨rfl, rfl⟩
        · exact hindexed.recorded p hp ptree hptree k hk
      · intro k hk
        rcases hindexed.origin k hk with hold | ⟨p, hp, hleaf⟩
        · obtain ⟨v, hv⟩ := mem_iff_lookup.mp hold
          rw [hmid, leafOutput_record] at hv
          split at hv
          · rename_i hnode
            exact .inr ⟨(o, i), List.mem_cons_self, tree, htree, Node.mem_leaves_iff.mpr hnode⟩
          · exact .inl (mem_iff_lookup.mpr ⟨v, hv⟩)
        · exact .inr ⟨p, List.mem_cons_of_mem _ hp, hleaf⟩

/-- The link is named in full and goes to a recorded leaf of the output it
gives, on the workspace which that output shows. -/
structure LinkFits (outputs : List Output) (index : TreeIndex) (link : WindowLink) : Prop where
  named : link.window.isEmpty = false ∧ link.leaf.isEmpty = false ∧ link.output.isEmpty = false ∧
    link.workspace.isEmpty = false
  home : ∃ i, (outputs.findIdx? fun output => output.id == link.output) = some i ∧
    index.leafOutput[link.leaf]? = some i ∧ index.leafIsLeaf[link.leaf]? = some true ∧
    outputs[i]?.map Output.workspace = some link.workspace

theorem checkLinks_accepts {links : List WindowLink} {seen : BTreeSet WindowId}
    {linked : BTreeSet NodeId} (hfits : ∀ link ∈ links, LinkFits outputs index link)
    (hwindows : (links.map WindowLink.window).Nodup) (hleaves : (links.map WindowLink.leaf).Nodup)
    (hseen : ∀ link ∈ links, link.window ∉ seen) (hlinked : ∀ link ∈ links, link.leaf ∉ linked) :
    ∃ linked', checkLinks outputs index links seen linked = .ok linked' ∧
      ∀ k, (k ∈ linked ∨ ∃ link ∈ links, link.leaf = k) → k ∈ linked' := by
  induction links generalizing seen linked with
  | nil =>
    refine ⟨linked, rfl, fun k hk => hk.elim id ?_⟩
    rintro ⟨link, hlink, -⟩
    exact absurd hlink List.not_mem_nil
  | cons link links ih =>
    rw [List.map_cons, List.nodup_cons] at hwindows hleaves
    have hwindow : seen.contains link.window = false := by
      rw [← Bool.not_eq_true, Std.ExtTreeSet.contains_iff_mem]
      exact hseen link List.mem_cons_self
    have hleaf : linked.contains link.leaf = false := by
      rw [← Bool.not_eq_true, Std.ExtTreeSet.contains_iff_mem]
      exact hlinked link List.mem_cons_self
    have hseenRest : ∀ l ∈ links, l.window ∉ seen.insert link.window := by
      intro l hl hin
      rcases mem_set_insert.mp hin with hsame | hin
      · exact hwindows.1 (hsame ▸ List.mem_map_of_mem hl)
      · exact hseen l (List.mem_cons_of_mem _ hl) hin
    have hlinkedRest : ∀ l ∈ links, l.leaf ∉ linked.insert link.leaf := by
      intro l hl hin
      rcases mem_set_insert.mp hin with hsame | hin
      · exact hleaves.1 (hsame ▸ List.mem_map_of_mem hl)
      · exact hlinked l (List.mem_cons_of_mem _ hl) hin
    obtain ⟨linked', haccept, hmem⟩ := ih (fun l hl => hfits l (List.mem_cons_of_mem _ hl))
      hwindows.2 hleaves.2 hseenRest hlinkedRest
    obtain ⟨⟨hw, hl, ho, hws⟩, i, hfind, houtput, hisLeaf, hworkspace⟩ :=
      hfits link List.mem_cons_self
    refine ⟨linked', ?_, fun k hk => hmem k ?_⟩
    · simp only [checkLinks, wellFormedOr, bind_eq_ok, ensure_eq_ok, hfind]
      refine ⟨(), by rw [hw, hl, ho]; rfl, (), by rw [hws]; rfl, (), by rw [hwindow]; rfl, (),
        by rw [hleaf]; rfl, (), by rw [houtput]; exact beq_self_eq_true _, (),
        by rw [hisLeaf]; rfl, (), by rw [hworkspace]; exact beq_self_eq_true _, haccept⟩
    · rcases hk with hk | ⟨l, hl, rfl⟩
      · exact .inl (mem_set_insert.mpr (.inr hk))
      · rcases List.mem_cons.mp hl with rfl | hl
        · exact .inl (mem_set_insert.mpr (.inl rfl))
        · exact .inr ⟨l, hl, rfl⟩

/-- A snapshot that stands on its own: every id in it is there to be found, no
two things share one, and the mover is a window at a leaf of the source. The
validation of the planner accepts such a snapshot. -/
structure SnapshotFits (snapshot : Snapshot) (intent : MoveIntent) (source : Output) : Prop where
  named : ∀ o ∈ snapshot.outputs, o.id.isEmpty = false ∧ o.workspace.isEmpty = false
  distinct : (snapshot.outputs.map Output.id).Nodup
  neighbors : ∀ o ∈ snapshot.outputs, ∀ (direction : Direction) (target : OutputId),
    o.adjacent[direction]? = some target →
      target.isEmpty = false ∧ target ≠ o.id ∧ ∃ o' ∈ snapshot.outputs, o'.id = target
  trees : ∀ o ∈ snapshot.outputs, ∀ tree, o.tree = some tree → TreeOk tree
  nodes : (snapshot.outputs.flatMap Output.nodeIds).Nodup
  links : ∀ link ∈ snapshot.windows, link.window.isEmpty = false ∧ link.leaf.isEmpty = false ∧
    ∃ o ∈ snapshot.outputs, o.id = link.output ∧ o.workspace = link.workspace ∧
      ∃ tree, o.tree = some tree ∧ link.leaf ∈ tree.leaves
  windows : (snapshot.windows.map WindowLink.window).Nodup
  leaves : (snapshot.windows.map WindowLink.leaf).Nodup
  linked : ∀ o ∈ snapshot.outputs, ∀ tree, o.tree = some tree → ∀ leaf ∈ tree.leaves,
    ∃ link ∈ snapshot.windows, link.leaf = leaf
  source : source ∈ snapshot.outputs ∧ source.id = intent.sourceOutput
  focused : ∃ link ∈ snapshot.windows, link.window = intent.focusedWindow ∧
    link.leaf = intent.focusedLeaf

variable {snapshot : Snapshot} {source : Output}

theorem Output.mem_nodeIds {o : Output} {tree : Node} (htree : o.tree = some tree) :
    o.nodeIds = tree.ids := by
  rw [Output.nodeIds, htree]
  rfl

theorem flatMap_zipIdx_nodeIds {outputs : List Output} :
    outputs.zipIdx.flatMap (fun p => p.1.nodeIds) = outputs.flatMap Output.nodeIds := by
  have hmap := List.flatMap_map (f := Prod.fst) (g := Output.nodeIds) (l := outputs.zipIdx)
  rw [List.zipIdx_map_fst] at hmap
  exact hmap.symm

/-- With distinct ids the output of an id is found, at its own index. -/
theorem SnapshotFits.index_of (h : SnapshotFits snapshot intent source) {o : Output}
    (ho : o ∈ snapshot.outputs) :
    ∃ i, snapshot.outputs[i]? = some o ∧ (o, i) ∈ snapshot.outputs.zipIdx ∧
      (snapshot.outputs.findIdx? fun output => output.id == o.id) = some i := by
  obtain ⟨i, hi⟩ := List.mem_iff_getElem?.mp ho
  refine ⟨i, hi, List.mem_zipIdx_iff_getElem?.mpr hi, ?_⟩
  obtain ⟨hlt, hget⟩ := List.getElem?_eq_some_iff.mp hi
  rw [List.findIdx?_eq_some_iff_getElem]
  refine ⟨hlt, by rw [hget]; exact beq_self_eq_true _, fun j hj => ?_⟩
  rw [Bool.not_eq_true, beq_eq_false_iff_ne]
  intro hsame
  have hids : ∀ n (hn : n < snapshot.outputs.length),
      (snapshot.outputs.map Output.id)[n]? = some snapshot.outputs[n].id := by
    intro n hn
    rw [List.getElem?_map, List.getElem?_eq_getElem hn]
    rfl
  have hjlt : j < snapshot.outputs.length := Nat.lt_trans hj hlt
  have heq : j = i := (List.nodup_iff_getElem?_ne_getElem?.mp h.distinct j i hj
    (by simpa using hlt) (by rw [hids j hjlt, hids i hlt, hsame, hget])).elim
  exact absurd heq (Nat.ne_of_lt hj)

theorem SnapshotFits.find_source (h : SnapshotFits snapshot intent source) :
    snapshot.outputs.find? (·.id == intent.sourceOutput) = some source := by
  refine find?_eq_of_unique h.source.1 (beq_iff_eq.mpr h.source.2) fun o ho hid => ?_
  exact List.inj_on_of_nodup_map h.distinct ho h.source.1 ((beq_iff_eq.mp hid).trans h.source.2.symm)

/-- The validation takes every snapshot that fits, check after check: the
trees are indexed first, and the links are then found in the index. -/
theorem validateSnapshot_accepts (h : SnapshotFits snapshot intent source) :
    validateSnapshot snapshot intent = .ok source := by
  obtain ⟨focus, hfocus, hfocusWindow, hfocusLeaf⟩ := h.focused
  have hwf : ∀ p ∈ snapshot.outputs.zipIdx, ∀ tree, p.1.tree = some tree → tree.WellFormed :=
    fun p hp tree htree => (h.trees p.1 (List.fst_mem_of_mem_zipIdx hp) tree htree).wellFormed
  have hfresh : FreshIds (snapshot.outputs.zipIdx.flatMap fun p => p.1.nodeIds) ({} : TreeIndex).ids := by
    rw [flatMap_zipIdx_nodeIds]
    refine ⟨fun i hi => ?_, h.nodes, fun i _ hempty => by simp at hempty⟩
    obtain ⟨o, ho, hi⟩ := List.mem_flatMap.mp hi
    cases htree : o.tree with
    | none => simp [Output.nodeIds, htree] at hi
    | some tree => exact (h.trees o ho tree htree).nonempty i (Output.mem_nodeIds htree ▸ hi)
  obtain ⟨index, htrees, hindexed⟩ := validateTrees_accepts hwf hfresh
  have hfits : ∀ link ∈ snapshot.windows, LinkFits snapshot.outputs index link := by
    intro link hlink
    obtain ⟨hwindow, hleaf, o, ho, hid, hworkspace, tree, htree, hmem⟩ := h.links link hlink
    obtain ⟨i, hat, hzip, hfind⟩ := h.index_of ho
    obtain ⟨houtputNe, hworkspaceNe⟩ := h.named o ho
    obtain ⟨houtput, hisLeaf⟩ := hindexed.recorded (o, i) hzip tree htree _ hmem
    refine ⟨⟨hwindow, hleaf, hid ▸ houtputNe, hworkspace ▸ hworkspaceNe⟩, i, hid ▸ hfind, houtput,
      hisLeaf, ?_⟩
    rw [hat, ← hworkspace]
    rfl
  have hunseen : ∀ link ∈ snapshot.windows, link.window ∉ (∅ : BTreeSet WindowId) :=
    fun _ _ => by simp
  have hunlinked : ∀ link ∈ snapshot.windows, link.leaf ∉ (∅ : BTreeSet NodeId) :=
    fun _ _ => by simp
  obtain ⟨linked, hlinks, hlinked⟩ :=
    checkLinks_accepts hfits h.windows h.leaves hunseen hunlinked
  have hall : ∀ leaf ∈ index.leafOutput, leaf ∈ linked := by
    intro leaf hleaf
    rcases hindexed.origin leaf hleaf with hold | ⟨p, hp, tree, htree, hmem⟩
    · simp at hold
    · obtain ⟨link, hlink, heq⟩ := h.linked p.1 (List.fst_mem_of_mem_zipIdx hp) tree htree leaf hmem
      exact hlinked leaf (.inr ⟨link, hlink, heq⟩)
  obtain ⟨hwindowNe, hleafNe, -⟩ := h.links focus hfocus
  have hsourceNe : intent.sourceOutput.isEmpty = false := h.source.2 ▸ (h.named source h.source.1).1
  simp only [validateSnapshot, wellFormedOr, bind_eq_ok, ensure_eq_ok]
  refine ⟨(), ?_, (), ?_, (), checkOutputs_accepts h.distinct (fun _ _ => by simp) h.named, (), ?_, ?_⟩
  · rw [Bool.not_eq_true', List.isEmpty_eq_false_iff]
    exact List.ne_nil_of_mem h.source.1
  · rw [hsourceNe, ← hfocusLeaf, ← hfocusWindow, hleafNe, hwindowNe]
    rfl
  · rw [List.all_eq_true]
    intro o ho
    rw [List.all_eq_true]
    rintro ⟨direction, target⟩ htarget
    obtain ⟨hne, haway, o', ho', hid⟩ :=
      h.neighbors o ho direction target (Std.ExtTreeMap.mem_toList_iff_getElem?_eq_some.mp htarget)
    have hshown : (snapshot.outputs.any (·.id == target)) = true :=
      List.any_eq_true.mpr ⟨o', ho', beq_iff_eq.mpr hid⟩
    simp [hne, haway, hshown]
  · simp only [h.find_source, bind_eq_ok, mapError_eq_ok, ensure_eq_ok]
    refine ⟨index, htrees, linked, hlinks, (), ?_, ?_⟩
    · rw [List.all_eq_true]
      intro leaf hleaf
      have hin := Std.ExtTreeSet.contains_iff_mem.mpr (hall leaf (Std.ExtTreeMap.mem_keys.mp hleaf))
      rw [hin]
      simp
    · rw [if_pos]
      exact List.any_eq_true.mpr ⟨focus, hfocus, by simp [hfocusWindow, hfocusLeaf]⟩

/-! ## What the planner makes of it -/

theorem pathTo_of_mem {n : Node} {x : NodeId} (h : x ∈ n.leaves) : ∃ path, pathTo x n = some path := by
  induction n with
  | leaf i =>
    rw [Node.leaves_leaf, List.mem_singleton] at h
    exact ⟨[], by rw [pathTo, if_pos h.symm]⟩
  | group i axis cs shares ih =>
    have hfrom : ∀ (rest : List Node) (index : Nat), (∀ c ∈ rest, c ∈ cs) →
        (∃ c ∈ rest, x ∈ c.leaves) → ∃ path, pathToFrom x i axis cs index rest = some path := by
      intro rest
      induction rest with
      | nil =>
        rintro index - ⟨c, hc, -⟩
        exact absurd hc List.not_mem_nil
      | cons c rest ihr =>
        rintro index hsub ⟨d, hd, hx⟩
        rw [pathToFrom]
        split
        · exact ⟨_, rfl⟩
        · rename_i hnone
          rcases List.mem_cons.mp hd with rfl | hd
          · obtain ⟨path, hpath⟩ := ih d (hsub d List.mem_cons_self) hx
            rw [hpath] at hnone
            cases hnone
          · exact ihr (index + 1) (fun e he => hsub e (List.mem_cons_of_mem _ he)) ⟨d, hd, hx⟩
    rw [Node.leaves_group, List.mem_flatMap] at h
    exact hfrom cs 0 (fun _ hc => hc) h

/-- The level goes the way of the move and has no child beyond the one the
path takes, so the move leaves this group. -/
def PathLevel.AtEdge (level : PathLevel) (direction : Direction) : Prop :=
  level.axis = Axis.forDirection direction ∧ neighborOf level (stepFor direction) = none

instance {level : PathLevel} {direction : Direction} : Decidable (level.AtEdge direction) :=
  inferInstanceAs (Decidable (_ ∧ _))

/-- The leaf sits alone, or at the edge of its root in the direction. -/
def atRootEdge (tree : Node) (leaf : NodeId) (direction : Direction) : Bool :=
  match pathTo leaf tree with
  | some [] => true
  | some [level] => level.AtEdge direction
  | _ => false

/-- A level plans, unless it is the root's and ends there. -/
theorem planAtLevel_cases {level : PathLevel} {parent? : Option PathLevel} :
    (∃ plan, planAtLevel intent source level parent? = .planned plan) ∨
      (parent? = none ∧ level.AtEdge intent.direction) := by
  unfold planAtLevel
  dsimp only
  by_cases haxis : level.axis ≠ Axis.forDirection intent.direction
  · rw [if_pos haxis]
    exact .inl ⟨_, rfl⟩
  · rw [if_neg haxis]
    cases hneighbor : neighborOf level (stepFor intent.direction) with
    | none =>
      cases parent? with
      | none => exact .inr ⟨rfl, Classical.not_not.mp haxis, hneighbor⟩
      | some parent => exact .inl ⟨_, rfl⟩
    | some found =>
      refine .inl ?_
      by_cases hcount : level.children.length = 2
      · simp only [if_pos hcount]
        cases found.2 with
        | leaf id => exact ⟨_, rfl⟩
        | group id axis children shares =>
          dsimp only
          by_cases hsame : axis = level.axis
          · rw [if_pos hsame]
            exact ⟨_, rfl⟩
          · rw [if_neg hsame]
            by_cases heven : children.length % 2 = 0
            · rw [if_pos heven]
              exact ⟨_, rfl⟩
            · rw [if_neg heven, List.getElem?_eq_getElem (by omega)]
              exact ⟨_, rfl⟩
      · simp only [if_neg hcount]
        split <;> exact ⟨_, rfl⟩

theorem planAtLevel_atEdge {level : PathLevel} (h : level.AtEdge intent.direction) :
    planAtLevel intent source level none =
      if source.adjacent.contains intent.direction then .noop .boundary
      else .noop .noAdjacentOutput := by
  unfold planAtLevel
  simp only [if_neg (show ¬level.axis ≠ Axis.forDirection intent.direction from fun hne => hne h.1),
    h.2]

theorem gate_full {plan : MovePlan} : gate (.planned plan) Capabilities.full = .planned plan := by
  have hsupported : Capabilities.full.supports plan.requiredCapability = true := by
    cases plan.requiredCapability <;> rfl
  rw [gate, if_pos hsupported]

theorem not_malformed_planned {plan : MovePlan} : ¬(MoveOutcome.planned plan).Malformed := by
  rintro ⟨reason, h, -⟩
  cases h

theorem not_malformed_noop {reason : NoopReason} : ¬(MoveOutcome.noop reason).Malformed := by
  rintro ⟨reason, h, -⟩
  cases h

/-- The neighbor in the direction of the move does not name the source back on
its opposite side, so a crossing to it could not be undone. -/
def Unreturned (snapshot : Snapshot) (source : Output) (direction : Direction) : Prop :=
  ∃ target ∈ snapshot.outputs, source.adjacent[direction]? = some target.id ∧
    target.adjacent[oppositeDirection direction]? ≠ some source.id

theorem planCross_malformed_iff (h : SnapshotFits snapshot intent source) {index : Nat} :
    (planCross snapshot intent source index Capabilities.full).Malformed ↔
      Unreturned snapshot source intent.direction := by
  unfold planCross
  cases htoward : source.adjacent[intent.direction]? with
  | none =>
    refine iff_of_false not_malformed_noop ?_
    rintro ⟨target, -, heq, -⟩
    rw [htoward] at heq
    cases heq
  | some targetId =>
    obtain ⟨-, -, target, htarget, rfl⟩ := h.neighbors source h.source.1 _ _ htoward
    have hfind : snapshot.outputs.find? (·.id == target.id) = some target := by
      refine find?_eq_of_unique htarget (beq_self_eq_true _) fun o ho hid => ?_
      exact List.inj_on_of_nodup_map h.distinct ho htarget (beq_iff_eq.mp hid)
    simp only [hfind]
    by_cases hback : target.adjacent[oppositeDirection intent.direction]? ≠ some source.id
    · rw [if_pos hback]
      exact iff_of_true malformed_rejected ⟨target, htarget, htoward, hback⟩
    · rw [if_neg hback, gate_full]
      refine iff_of_false not_malformed_planned ?_
      rintro ⟨target', htarget', heq, hback'⟩
      have hid : target.id = target'.id := Option.some.inj (htoward.symm.trans heq)
      rw [← List.inj_on_of_nodup_map h.distinct htarget htarget' hid] at hback'
      exact hback hback'

/-- A snapshot that fits is called malformed only for a neighbor across the
mover's root edge. -/
theorem planMove_malformed_iff (h : SnapshotFits snapshot intent source) {tree : Node}
    (htree : source.tree = some tree) (hleaf : intent.focusedLeaf ∈ tree.leaves) :
    (planMove snapshot intent).Malformed ↔
      atRootEdge tree intent.focusedLeaf intent.direction = true ∧
        Unreturned snapshot source intent.direction := by
  obtain ⟨path, hpath⟩ := pathTo_of_mem hleaf
  obtain ⟨ctx, hctx, hlevels⟩ := pathTo_context hpath
  unfold planMove planMoveWithCapabilities
  simp only [validateSnapshot_accepts h, htree, hpath]
  cases path with
  | nil =>
    have hnil : ctx = [] := by
      rw [← List.length_eq_zero_iff, ← Context.length_levels (n := .leaf intent.focusedLeaf), ← hlevels]
      rfl
    have htreeLeaf : tree.isLeaf = true := by
      rw [hctx, hnil]
      rfl
    have hedge : atRootEdge tree intent.focusedLeaf intent.direction = true := by
      rw [atRootEdge, hpath]
    rw [hedge]
    simp only [planLocal, List.reverse_nil, htreeLeaf, true_and]
    exact planCross_malformed_iff h
  | cons level above =>
    have htreeLeaf : tree.isLeaf = false := by
      cases ctx with
      | nil => cases hlevels
      | cons f ctx => rw [hctx]; rfl
    -- the deepest level, and whether another one is above it
    obtain ⟨deepest, rest, hreverse⟩ : ∃ deepest rest, (level :: above).reverse = deepest :: rest := by
      cases hreverse : (level :: above).reverse with
      | nil => exact absurd hreverse (by simp)
      | cons deepest rest => exact ⟨deepest, rest, rfl⟩
    have hlocal : planLocal intent source (level :: above) =
        planAtLevel intent source deepest rest.head? := by
      rw [planLocal, hreverse]
    have hroot : rest.head? = none → above = [] ∧ deepest = level := by
      intro hhead
      rw [List.head?_eq_none_iff.mp hhead, List.reverse_eq_iff] at hreverse
      simp only [List.reverse_singleton, List.cons.injEq] at hreverse
      exact ⟨hreverse.2, hreverse.1.symm⟩
    rw [hlocal]
    rcases @planAtLevel_cases intent source deepest rest.head? with
      ⟨plan, hplan⟩ | ⟨hhead, hedge⟩
    · rw [hplan]
      simp only [gate_full]
      refine iff_of_false not_malformed_planned ?_
      rintro ⟨hat, -⟩
      rw [atRootEdge, hpath] at hat
      cases above with
      | nil =>
        obtain ⟨rfl, rfl⟩ : deepest = level ∧ rest = [] := by simpa [eq_comm] using hreverse
        rw [List.head?_nil, planAtLevel_atEdge (of_decide_eq_true hat)] at hplan
        split at hplan <;> cases hplan
      | cons next above => cases hat
    · obtain ⟨rfl, rfl⟩ := hroot hhead
      have hat : atRootEdge tree intent.focusedLeaf intent.direction = true := by
        rw [atRootEdge, hpath]
        exact decide_eq_true hedge
      rw [hhead, planAtLevel_atEdge hedge, hat]
      cases hadjacent : source.adjacent.contains intent.direction with
      | true =>
        simp only [if_true, htreeLeaf, true_and]
        exact planCross_malformed_iff h
      | false =>
        have hnone : source.adjacent[intent.direction]? = none := by
          rw [Std.ExtTreeMap.getElem?_eq_none_of_contains_eq_false hadjacent]
        refine iff_of_false (by simpa [gate, htreeLeaf] using not_malformed_noop) ?_
        rintro ⟨-, target, -, heq, -⟩
        rw [hnone] at heq
        cases heq

/-- A snapshot that is not blamed has passed every check. -/
theorem validateSnapshot_of_taken (h : ¬(planMove snapshot intent).Malformed) :
    ∃ source, validateSnapshot snapshot intent = .ok source := by
  cases hvalidate : validateSnapshot snapshot intent with
  | ok source => exact ⟨source, rfl⟩
  | error outcome =>
    refine absurd ?_ h
    rw [planMove, planMoveWithCapabilities, hvalidate]
    exact blames_validateSnapshot outcome hvalidate

/-- Every neighbor of an output in a checked snapshot is in it. -/
theorem validateSnapshot_closed (h : validateSnapshot snapshot intent = .ok source) :
    ∀ o ∈ snapshot.outputs, ∀ (toward : Direction) (target : OutputId),
      o.adjacent[toward]? = some target → ∃ o' ∈ snapshot.outputs, o'.id = target := by
  simp only [validateSnapshot, wellFormedOr, bind_eq_ok, ensure_eq_ok] at h
  obtain ⟨_, -, _, -, _, -, _, hadjacent, -⟩ := h
  intro o ho toward target htarget
  have hchecked := List.all_eq_true.mp (List.all_eq_true.mp hadjacent o ho) (toward, target)
    (Std.ExtTreeMap.mem_toList_iff_getElem?_eq_some.mpr htarget)
  simp only [Bool.and_eq_true, List.any_eq_true, beq_iff_eq] at hchecked
  exact hchecked.2

end

/-! ## The session's snapshot -/

namespace Session

variable {s : Session} {key : DomainKey} {window : WindowId} {link : WindowLink}
  {leaf : NodeId} {direction : Direction} {sameAxisMove : SameAxisMove}

/-- The outputs a move from the domain is shown. -/
def shownTo (s : Session) (key : DomainKey) : List Output :=
  ((s.moveSnapshot key).map Snapshot.outputs).getD []

/-- What the planner asks of the shown outputs beyond the session's checks. -/
structure Presentable (s : Session) (key : DomainKey) (leaf : NodeId) (direction : Direction) :
    Prop where
  /-- Every neighbor of a shown output is shown. -/
  closed : ∀ o ∈ s.shownTo key, ∀ (toward : Direction) (target : OutputId),
    o.adjacent[toward]? = some target → ∃ o' ∈ s.shownTo key, o'.id = target
  /-- No two shown trees share a node id. -/
  apart : ((s.shownTo key).flatMap Output.nodeIds).Nodup
  /-- Across the root edge the neighbor names the source back. -/
  returned : ∀ tree, treeAt s.trees key = some tree → atRootEdge tree leaf direction = true →
    ∀ source ∈ s.shownTo key, source.id = key.output → ∀ target ∈ s.shownTo key,
      source.adjacent[direction]? = some target.id →
        target.adjacent[oppositeDirection direction]? = some key.output

theorem addAdjacent_nodup {outputs : List Output} {target : OutputId}
    (h : (outputs.map Output.id).Nodup) : ((s.addAdjacent outputs target).map Output.id).Nodup := by
  unfold addAdjacent
  split
  · exact h
  · rename_i hnew
    split
    · rename_i d hfilter
      have hd : d.id = target := by
        have hmem : d ∈ s.domains.filter (·.id == target) := by
          rw [hfilter]
          exact List.mem_singleton_self d
        exact beq_iff_eq.mp (List.mem_filter.mp hmem).2
      rw [List.map_append, List.nodup_append]
      refine ⟨h, List.nodup_singleton _, ?_⟩
      rintro a ha b hb rfl
      obtain ⟨o, ho, hid⟩ := List.mem_map.mp ha
      have hsame : a = d.id := List.mem_singleton.mp hb
      exact hnew (List.any_eq_true.mpr ⟨o, ho, beq_iff_eq.mpr (by rw [hid, hsame, hd])⟩)
    · exact h

/-- No output is shown twice. -/
theorem moveOutputs_nodup (hs : s.Valid) {source : OutputDomain} :
    ((s.moveOutputs source).map Output.id).Nodup := by
  have hbase : (((s.domains.filter fun d => d.workspace == source.workspace).map s.outputOf).map
      Output.id).Nodup := by
    rw [List.map_map]
    refine List.Nodup.map_on (fun d hd d' hd' hid => ?_) (hs.keys_nodup.of_map.filter _)
    obtain ⟨hmem, hworkspace⟩ := List.mem_filter.mp hd
    obtain ⟨hmem', hworkspace'⟩ := List.mem_filter.mp hd'
    have hkey : d.key = d'.key :=
      DomainKey.ext hid ((beq_iff_eq.mp hworkspace).trans (beq_iff_eq.mp hworkspace').symm)
    exact List.inj_on_of_nodup_map hs.keys_nodup hmem hmem' hkey
  have hfold : ∀ (targets : List OutputId) (outputs : List Output), (outputs.map Output.id).Nodup →
      ((targets.foldl s.addAdjacent outputs).map Output.id).Nodup := by
    intro targets
    induction targets with
    | nil => exact fun _ h => h
    | cons target targets ih => exact fun outputs h => ih _ (addAdjacent_nodup h)
  exact hfold _ _ hbase

/-- The snapshot of a domain of the session. -/
def presented (s : Session) (source : OutputDomain) : Snapshot :=
  ⟨s.moveOutputs source, (values s.windows).filter fun link =>
    (s.moveOutputs source).any fun o => o.id == link.output && o.workspace == link.workspace⟩

theorem moveSnapshot_of_mem (hs : s.Valid) {source : OutputDomain} (hsource : source ∈ s.domains) :
    s.moveSnapshot source.key = some (s.presented source) := by
  have hown := (@moveOutputs_spec s source).2 source hsource rfl
  have hany : ((s.moveOutputs source).any (·.id == source.key.output)) = true :=
    List.any_eq_true.mpr ⟨_, hown, beq_self_eq_true _⟩
  have hat : s.domainAt source.key = some source := hs.find_key hsource
  simp only [moveSnapshot, hat, Option.bind_eq_bind, Option.bind_some, hany, require]
  rfl

/-- Where the link of a tile leads. -/
theorem link_home (hs : s.Valid) (hlink : s.windows[window]? = some link) :
    link.window.isEmpty = false ∧ link.leaf.isEmpty = false ∧
      (∃ d ∈ s.domains, d.key = link.key) ∧
      ∃ tree, treeAt s.trees link.key = some tree ∧ link.leaf ∈ tree.leaves := by
  have hvalid := hs.link_valid hlink
  simp only [validLink, Bool.and_eq_true, Bool.not_eq_true', List.any_eq_true, beq_iff_eq,
    hasLeaf_iff] at hvalid
  obtain ⟨⟨⟨⟨⟨hwindow, hleaf⟩, -⟩, -⟩, hdomain⟩, htree⟩ := hvalid
  exact ⟨hwindow, hleaf, hdomain, htree⟩

/-- With every neighbor shown and no id shared, the snapshot stands on its
own. -/
theorem snapshot_fits (hs : s.Valid) (hkeyed : Keyed s.windows) {source : OutputDomain}
    (hsource : source ∈ s.domains) (hlink : s.windows[window]? = some link)
    (hkey : link.key = source.key)
    (hclosed : ∀ o ∈ s.moveOutputs source, ∀ (toward : Direction) (target : OutputId),
      o.adjacent[toward]? = some target → ∃ o' ∈ s.moveOutputs source, o'.id = target)
    (hapart : ((s.moveOutputs source).flatMap Output.nodeIds).Nodup) :
    SnapshotFits (s.presented source)
      ⟨link.output, link.leaf, window, direction, sameAxisMove⟩ (s.outputOf source) := by
  obtain ⟨hall, hown⟩ := @moveOutputs_spec s source
  have hfrom : ∀ o ∈ s.moveOutputs source, ∃ d ∈ s.domains, o = s.outputOf d := hall
  have hshown : ∀ l ∈ values s.windows, ∀ d, s.outputOf d ∈ s.moveOutputs source → l.key = d.key →
      l ∈ (s.presented source).windows := by
    intro l hl d hd hkey
    refine List.mem_filter.mpr ⟨hl, List.any_eq_true.mpr ⟨_, hd, ?_⟩⟩
    have houtput : l.output = d.id := congrArg DomainKey.output hkey
    have hworkspace : l.workspace = d.workspace := congrArg DomainKey.workspace hkey
    simp [outputOf, houtput, hworkspace]
  have hlinks : ∀ {l}, l ∈ (s.presented source).windows →
      (∃ w : WindowId, s.windows[w]? = some l) ∧ ∃ o ∈ s.moveOutputs source, o.id = l.output ∧
        o.workspace = l.workspace := by
    intro l hl
    obtain ⟨hvalue, hany⟩ := List.mem_filter.mp hl
    obtain ⟨o, ho, hmatch⟩ := List.any_eq_true.mp hany
    simp only [Bool.and_eq_true, beq_iff_eq] at hmatch
    exact ⟨mem_values.mp hvalue, o, ho, hmatch⟩
  have hshape : ∀ d ∈ s.domains, d.id.isEmpty = false ∧ d.workspace.isEmpty = false ∧
      ∀ target ∈ values d.adjacent, target.isEmpty = false ∧ target ≠ d.id := by
    intro d hd
    have hvalid := hs.domain_valid d hd
    simp only [OutputDomain.validate, Bool.and_eq_true, Bool.not_eq_true', List.all_eq_true,
      bne_iff_ne] at hvalid
    obtain ⟨⟨⟨⟨⟨⟨⟨⟨hid, hworkspace⟩, -⟩, -⟩, -⟩, -⟩, -⟩, -⟩, hadjacent⟩ := hvalid
    exact ⟨hid, hworkspace, hadjacent⟩
  refine
    { named := ?_, distinct := moveOutputs_nodup hs, neighbors := ?_, trees := ?_, nodes := hapart,
      links := ?_, windows := ?_, leaves := ?_, linked := ?_,
      source := ⟨hown source hsource rfl, ?_⟩, focused := ?_ }
  · intro o ho
    obtain ⟨d, hd, rfl⟩ := hfrom o ho
    exact ⟨(hshape d hd).1, (hshape d hd).2.1⟩
  · intro o ho toward target htarget
    obtain ⟨hne, haway⟩ : target.isEmpty = false ∧ target ≠ o.id := by
      obtain ⟨d, hd, rfl⟩ := hfrom o ho
      exact (hshape d hd).2.2 target (mem_values.mpr ⟨toward, htarget⟩)
    exact ⟨hne, haway, hclosed o ho toward target htarget⟩
  · intro o ho tree htree
    obtain ⟨d, -, rfl⟩ := hfrom o ho
    exact hs.tree_ok htree
  · intro l hl
    obtain ⟨⟨w, hw⟩, o, ho, hid, hworkspace⟩ := hlinks hl
    obtain ⟨hwindow, hleaf, -, tree, htree, hmem⟩ := link_home hs hw
    refine ⟨hwindow, hleaf, o, ho, hid, hworkspace, tree, ?_, hmem⟩
    obtain ⟨d, -, rfl⟩ := hfrom o ho
    have hsame : d.key = l.key := DomainKey.ext hid hworkspace
    rw [← htree, ← hsame]
    rfl
  · refine (List.filter_sublist.map _).nodup (nodup_map_values.mpr fun {k k' v v'} hv hv' heq => ?_)
    rw [← hkeyed hv, ← hkeyed hv', heq]
  · exact (List.filter_sublist.map _).nodup (nodup_map_values.mpr hs.leaf_inj)
  · intro o ho tree htree x hx
    obtain ⟨d, -, rfl⟩ := hfrom o ho
    obtain ⟨w, l, hl, hleaf, hkey⟩ := hs.leaf_linked htree hx
    exact ⟨l, hshown l (mem_values_of_lookup hl) d ho hkey, hleaf⟩
  · exact (congrArg DomainKey.output hkey).symm
  · exact ⟨link, hshown link (mem_values_of_lookup hlink) source (hown source hsource rfl) hkey,
      hkeyed hlink, rfl⟩

/-- A move of a tile is planned without blaming the session's snapshot exactly
when what is shown is presentable. -/
theorem planMove_taken_iff (hs : Reachable s) (hlink : s.windows[window]? = some link) :
    (∃ snapshot, s.moveSnapshot link.key = some snapshot ∧
      ¬(planMove snapshot ⟨link.output, link.leaf, window, direction, sameAxisMove⟩).Malformed) ↔
      s.Presentable link.key link.leaf direction := by
  have hvalid := (reachable_worldsOk hs).1.2
  obtain ⟨-, -, ⟨source, hsource, hkey⟩, tree, htree, hleaf⟩ := link_home hvalid hlink
  have hsnapshot := moveSnapshot_of_mem hvalid hsource
  have hid : source.id = link.key.output := congrArg DomainKey.output hkey
  have hshown : s.shownTo link.key = s.moveOutputs source := by
    rw [shownTo, ← hkey, hsnapshot]
    rfl
  have hsourceTree : (s.outputOf source).tree = some tree := by
    rw [← htree, ← hkey]
    rfl
  rw [← hkey, hsnapshot]
  simp only [Option.some.injEq, exists_eq_left']
  constructor
  · intro htaken
    obtain ⟨o, hvalidated⟩ := validateSnapshot_of_taken htaken
    have hclosed := validateSnapshot_closed hvalidated
    have hapart := (validateSnapshot_ok hvalidated).nodes
    have hfits := @snapshot_fits s window link direction sameAxisMove hvalid (reachable_keyed hs)
      source hsource hlink hkey.symm hclosed hapart
    rw [planMove_malformed_iff hfits hsourceTree hleaf] at htaken
    refine ⟨hkey ▸ hshown ▸ hclosed, hkey ▸ hshown ▸ hapart, ?_⟩
    intro tree' htree' hedge o ho hown target htarget htoward
    rw [hkey, hshown] at ho htarget
    rw [hkey, htree] at htree'
    obtain rfl := Option.some.inj htree'
    obtain rfl : o = s.outputOf source :=
      List.inj_on_of_nodup_map (moveOutputs_nodup hvalid) ho hfits.source.1 hown
    exact Classical.byContradiction fun hback => htaken ⟨hedge, target, htarget, htoward, hback⟩
  · rintro ⟨hclosed, hapart, hreturned⟩
    rw [hkey, hshown] at hclosed hapart
    have hfits := @snapshot_fits s window link direction sameAxisMove hvalid (reachable_keyed hs)
      source hsource hlink hkey.symm hclosed hapart
    rw [planMove_malformed_iff hfits hsourceTree hleaf]
    rintro ⟨hedge, target, htarget, htoward, hback⟩
    refine hback ?_
    rw [hkey, hshown] at hreturned
    rw [show (s.outputOf source).id = link.key.output from hid]
    exact hreturned tree htree hedge (s.outputOf source) hfits.source.1 hid target htarget htoward

/-- Two tiles side by side, the left one to be grouped with its neighbor. -/
theorem planMove_taken_iff_sideBySide :
    (∃ snapshot, Sample.sideBySide.moveSnapshot ⟨⟨"A"⟩, ⟨"1"⟩⟩ = some snapshot ∧
      ¬(planMove snapshot ⟨⟨"A"⟩, ⟨"leaf-v"⟩, ⟨"v"⟩, .right, .groupWithNeighbor⟩).Malformed) ↔
      Sample.sideBySide.Presentable ⟨⟨"A"⟩, ⟨"1"⟩⟩ ⟨"leaf-v"⟩ .right :=
  @planMove_taken_iff Sample.sideBySide ⟨"v"⟩ ⟨⟨"v"⟩, ⟨"leaf-v"⟩, ⟨"A"⟩, ⟨"1"⟩⟩ .right .groupWithNeighbor
    (Sample.session_reachable _ _) (by decide +kernel)

end Session

namespace Sample

/-- Outputs A and B on workspace 1, and C on workspace 2 to the right of B. -/
def threeOutputs : List OutputDomain :=
  [domain "A" "1",
    { domain "B" "1" with adjacent := (∅ : BTreeMap Direction OutputId).insert .right ⟨"C"⟩ },
    { domain "C" "2" with adjacent := (∅ : BTreeMap Direction OutputId).insert .left ⟨"B"⟩ }]

/-- Two tiles side by side on output A, which has no neighbor. -/
def besideOthers : Session :=
  Session.machine.run (session threeOutputs (by decide +kernel))
    [.convergeObservation (observation 0 [window "v", window "w"]) (some ⟨"v"⟩)]

end Sample

namespace Session

/-- A swap on output A is refused: B is shown, its neighbor C is not. -/
theorem planMove_blames_shown_neighbor :
    Reachable Sample.besideOthers ∧ Sample.besideOthers.focusedDomain = some ⟨⟨"A"⟩, ⟨"1"⟩⟩ ∧
      Sample.besideOthers.focusedLeaf = some ⟨"leaf-v"⟩ ∧
      Sample.besideOthers.windows[(⟨"v"⟩ : WindowId)]? =
        some ⟨⟨"v"⟩, ⟨"leaf-v"⟩, ⟨"A"⟩, ⟨"1"⟩⟩ ∧
      (Sample.besideOthers.moveSnapshot ⟨⟨"A"⟩, ⟨"1"⟩⟩).map (planMove · Sample.rightward) =
        some (.rejected ⟨.malformedTopology,
          "output adjacency references an unknown, empty, or self output"⟩) := by
  refine ⟨Sample.session_reachable _ _, ?_⟩
  decide +kernel

end Session

end PlasmaTiler
