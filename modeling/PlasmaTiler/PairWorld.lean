import PlasmaTiler.Renaming
import PlasmaTiler.Agreed

/-!
# The world of a pair

Two settled single-domain sessions with disjoint windows assemble into a
valid two-domain world: the source as it is, the target under fresh node ids.

The code assembles map by map, so the proof goes by lookups: what a window, a
key or a leaf gives in the assembled collections, in terms of the two
components. The lookups are all that assembly and splitting are proved from.
The renaming is injective and its names are used by neither component, which
is what keeps ids distinct over both domains.
-/

namespace PlasmaTiler

namespace Session

section
variable {κ ν ν' : Type} [Ord κ] [Std.TransOrd κ] [Std.LawfulEqOrd κ] [DecidableEq κ]

/-- Extending by the entries of another map, changed one by one. -/
theorem lookup_extendMap {m : BTreeMap κ ν} {t : BTreeMap κ ν'} {f : κ → ν' → ν} {k : κ} :
    (extendMap m (t.toList.map fun p => (p.1, f p.1 p.2)))[k]? = (t[k]?.map (f k)).or m[k]? := by
  have hlocal : Local (fun (m : BTreeMap κ ν) (p : κ × ν) m' => m.insert p.1 p.2 = m')
      (t.toList.map fun p => (p.1, f p.1 p.2)) (fun (m : BTreeMap κ ν) (k : κ) => m[k]?)
      Prod.fst fun p _ => some p.2 := by
    rintro p _ m₁ m₂ rfl
    exact ⟨lookup_insert.trans (if_pos rfl), fun k hk => lookup_insert.trans (if_neg hk)⟩
  have hpass := @folded_foldl (BTreeMap κ ν) (κ × ν) m (t.toList.map fun p => (p.1, f p.1 p.2))
    fun m p => m.insert p.1 p.2
  have hfold : extendMap m (t.toList.map fun p => (p.1, f p.1 p.2)) =
      (t.toList.map fun p => (p.1, f p.1 p.2)).foldl (fun m p => m.insert p.1 p.2) m := rfl
  rw [hfold]
  have hnodup : ((t.toList.map fun p => (p.1, f p.1 p.2)).map Prod.fst).Nodup := by
    rw [List.map_map]
    refine List.Nodup.map_on (fun p hp q hq heq => ?_) nodup_toList
    have hp := Std.ExtTreeMap.mem_toList_iff_getElem?_eq_some.mp hp
    have hq := Std.ExtTreeMap.mem_toList_iff_getElem?_eq_some.mp hq
    have hkey : p.1 = q.1 := heq
    rw [hkey, hq] at hp
    exact Prod.ext hkey (Option.some.inj hp).symm
  cases hk : t[k]? with
  | some v =>
    have hmem : (k, f k v) ∈ t.toList.map fun p => (p.1, f p.1 p.2) :=
      List.mem_map.mpr ⟨(k, v), Std.ExtTreeMap.mem_toList_iff_getElem?_eq_some.mpr hk, rfl⟩
    exact hpass.view_of_mem hlocal hnodup hmem
  | none =>
    refine hpass.view_of_not_mem hlocal fun p hp heq => ?_
    obtain ⟨q, hq, rfl⟩ := List.mem_map.mp hp
    have hq := Std.ExtTreeMap.mem_toList_iff_getElem?_eq_some.mp hq
    obtain rfl : q.1 = k := heq
    rw [hk] at hq
    cases hq

end

variable {s source target base : Session} {d : OutputDomain} {sourceDomain targetDomain : OutputDomain}

/-! ## Components -/

/-- A settled valid session over one domain without neighbors, at the key of a
pair domain. -/
structure Component (s : Session) (pairDomain : OutputDomain) : Prop where
  domains : ∃ d, s.domains = [d] ∧ d.adjacent.isEmpty = true ∧ d.key = pairDomain.key
  settled : s.settledWorld = true
  valid : s.Valid

theorem checkComponent_iff {u : Unit} : s.checkComponent d = .ok u ↔ Component s d := by
  unfold checkComponent
  constructor
  · intro h
    split at h
    · rename_i e hdomains
      split at h
      · cases h
      · split at h
        · cases h
        · split at h
          · cases h
          · rename_i husable hadjacent hkey
            simp only [canonicalComponentUsable, Bool.not_eq_true', Bool.not_eq_false,
              Bool.and_eq_true, validateCurrentTopology_iff] at husable hadjacent
            exact ⟨⟨e, hdomains, hadjacent, not_not.mp hkey⟩, husable.1, husable.2⟩
    · cases h
  · rintro ⟨⟨e, hdomains, hadjacent, hkey⟩, hsettled, hvalid⟩
    have husable : s.canonicalComponentUsable = true :=
      Bool.and_eq_true_iff.mpr ⟨hsettled, validateCurrentTopology_iff.mpr hvalid⟩
    simp [hdomains, husable, hadjacent, hkey]

namespace Component

variable {key : DomainKey} {w : WindowId}

theorem mem_domains (h : Component s d) {e : OutputDomain} (he : e ∈ s.domains) : e.key = d.key := by
  obtain ⟨d', hdomains, -, hkey⟩ := h.domains
  rw [hdomains, List.mem_singleton] at he
  exact he ▸ hkey

/-- Everything of a component is homed on its domain. -/
theorem tree_key (h : Component s d) {tree : Node} (ht : treeAt s.trees key = some tree) :
    key = d.key := by
  obtain ⟨e, he, rfl⟩ := h.valid.domain_of_slot key (mem_of_treeAt ht)
  exact h.mem_domains he

theorem link_key (h : Component s d) {link : WindowLink} (hl : s.windows[w]? = some link) :
    link.key = d.key := by
  obtain ⟨tree, ht, -⟩ := hasLeaf_iff.mp (hasLeaf_of_link h.valid hl)
  exact h.tree_key ht

theorem record_key (h : Component s d) {record : ExceptionRecord}
    (hr : s.exceptions[w]? = some record) : record.key = d.key := by
  have hvalid := h.valid.exception_valid hr
  simp only [validException, Bool.and_eq_true, List.any_eq_true, beq_iff_eq] at hvalid
  obtain ⟨-, e, he, houtput, hworkspace⟩ := hvalid
  rw [← h.mem_domains he, ExceptionRecord.key, OutputDomain.key, houtput, hworkspace]

theorem focus_key (h : Component s d) (hf : s.focusedDomain = some key) : key = d.key := by
  have hfocus := h.valid.focus
  rw [hf] at hfocus
  cases hleaf : s.focusedLeaf with
  | none => rw [hleaf] at hfocus; cases hfocus
  | some leaf =>
    rw [hleaf, validFocus, Bool.and_eq_true] at hfocus
    obtain ⟨tree, ht, -⟩ := hasLeaf_iff.mp hfocus.1
    exact h.tree_key ht

theorem leaf_mem (h : Component s d) {link : WindowLink} (hl : s.windows[w]? = some link) :
    ∃ tree, treeAt s.trees d.key = some tree ∧ link.leaf ∈ tree.leaves := by
  rw [← h.link_key hl]
  exact hasLeaf_iff.mp (hasLeaf_of_link h.valid hl)

end Component

/-! ## The source alone -/

/-- The pair before its target has joined is valid: the source's world, with
an empty slot for the target's domain. -/
theorem withSource_valid (hs : Component source sourceDomain)
    (hdomains : base.domains = [sourceDomain, targetDomain])
    (hvalid : sourceDomain.validate = true ∧ targetDomain.validate = true)
    (hkeys : sourceDomain.key ≠ targetDomain.key) :
    (base.withSource source sourceDomain.key targetDomain.key).Valid := by
  have hat : ∀ k, treeAt (base.withSource source sourceDomain.key targetDomain.key).trees k =
      if sourceDomain.key = k then treeAt source.trees sourceDomain.key else none := by
    intro k
    simp only [withSource, treeAt_insert]
    by_cases htarget : targetDomain.key = k
    · rw [if_pos htarget, if_neg (fun heq => hkeys (heq.trans htarget.symm))]
    · rw [if_neg htarget]
      split
      · rfl
      · simp [treeAt]
  have hmem : ∀ k, k ∈ (base.withSource source sourceDomain.key targetDomain.key).trees ↔
      targetDomain.key = k ∨ sourceDomain.key = k := by
    intro k
    simp only [withSource, Std.ExtTreeMap.mem_insert, Std.LawfulEqOrd.compare_eq_iff_eq,
      Std.ExtTreeMap.not_mem_empty, or_false]
  have htree : ∀ {tree : Node}, treeAt source.trees sourceDomain.key = some tree →
      treeAt (base.withSource source sourceDomain.key targetDomain.key).trees sourceDomain.key =
        some tree := fun ht => (hat _).trans ((if_pos rfl).trans ht)
  refine {
    domains_ne := by rw [withSource, hdomains]; simp
    slot_count := ?_
    domain_valid := ?_
    slot_of_domain := ?_
    domain_of_slot := ?_
    tree_ok := ?_
    disjoint := hs.valid.disjoint
    exception_valid := ?_
    link_valid := ?_
    leaf_inj := hs.valid.leaf_inj
    leaf_linked := ?_
    focus := ?_ }
  · have hone : ((∅ : Trees).insert sourceDomain.key
        (treeAt source.trees sourceDomain.key)).contains targetDomain.key = false := by
      rw [contains_eq_false, Std.ExtTreeMap.mem_insert, Std.LawfulEqOrd.compare_eq_iff_eq]
      simpa using hkeys
    rw [withSource, hdomains, Std.ExtTreeMap.size_insert, if_neg (by simpa using hone),
      Std.ExtTreeMap.size_insert, if_neg (by simp), Std.ExtTreeMap.size_empty]
    rfl
  · intro e he
    rw [withSource, hdomains, List.mem_cons, List.mem_singleton] at he
    rcases he with rfl | rfl
    · exact hvalid.1
    · exact hvalid.2
  · intro e he
    rw [withSource, hdomains, List.mem_cons, List.mem_singleton] at he
    rcases he with rfl | rfl
    · exact (hmem _).mpr (.inr rfl)
    · exact (hmem _).mpr (.inl rfl)
  · intro key hkey
    rw [withSource, hdomains]
    rcases (hmem key).mp hkey with rfl | rfl
    · exact ⟨targetDomain, by simp, rfl⟩
    · exact ⟨sourceDomain, by simp, rfl⟩
  · intro key tree ht
    rw [hat] at ht
    split at ht
    · exact hs.valid.tree_ok ht
    · cases ht
  · intro w record hr
    have hrecord := hs.valid.exception_valid hr
    have hkey := hs.record_key hr
    simp only [validException, Bool.and_eq_true, List.any_eq_true] at hrecord ⊢
    refine ⟨hrecord.1, sourceDomain, ?_, ?_⟩
    · rw [withSource, hdomains]
      simp
    · rw [ExceptionRecord.key, OutputDomain.key, DomainKey.mk.injEq] at hkey
      rw [hkey.1, hkey.2]
      simp
  · intro w link hl
    have hlink := hs.valid.link_valid hl
    have hkey := hs.link_key hl
    obtain ⟨tree, ht, hleaf⟩ := hs.leaf_mem hl
    simp only [validLink, Bool.and_eq_true, List.any_eq_true] at hlink ⊢
    refine ⟨⟨hlink.1.1, sourceDomain, ?_, by rw [hkey]; simp⟩, ?_⟩
    · rw [withSource, hdomains]
      simp
    · rw [hkey]
      exact hasLeaf_iff.mpr ⟨tree, htree ht, hleaf⟩
  · intro key tree leaf ht hleaf
    rw [hat] at ht
    split at ht
    · rename_i hkey
      subst hkey
      exact hs.valid.leaf_linked ht hleaf
    · cases ht
  · have hfocus := hs.valid.focus
    cases hdomain : source.focusedDomain with
    | none =>
      rw [hdomain] at hfocus
      cases hleaf : source.focusedLeaf with
      | none =>
        simp only [withSource, hdomain, hleaf]
        rfl
      | some leaf => rw [hleaf] at hfocus; cases hfocus
    | some key =>
      have hkey := hs.focus_key hdomain
      subst hkey
      cases hleaf : source.focusedLeaf with
      | none => rw [hdomain, hleaf] at hfocus; cases hfocus
      | some leaf =>
        rw [hdomain, hleaf, validFocus, Bool.and_eq_true] at hfocus
        obtain ⟨tree, ht, hmemLeaf⟩ := hasLeaf_iff.mp hfocus.1
        have hhere := hasLeaf_iff.mpr ⟨tree, htree ht, hmemLeaf⟩
        have hfocused : (base.withSource source sourceDomain.key targetDomain.key).focusedDomain =
            some sourceDomain.key ∧
            (base.withSource source sourceDomain.key targetDomain.key).focusedLeaf = some leaf :=
          ⟨hdomain, hleaf⟩
        rw [hfocused.1, hfocused.2, validFocus, Bool.and_eq_true]
        exact ⟨hhere, hfocus.2⟩

/-! ## The target joins -/

/-- The renaming of a target: its ids to names the source does not use. -/
theorem pairTargetNodeRemap_minted :
    Minted (pairTargetNodeRemap source target) target.allNodeIds.toList source.allNodeIds := by
  refine mintAll_minted (fun a b hab => ?_) (fun n => ?_) ?_
  · have hraw := congrArg Id.raw hab
    simp only [pairTargetName, String.append_right_inj] at hraw
    exact Nat.repr_inj.mp hraw
  · simp [pairTargetName, Id.isEmpty]
  · exact Std.ExtTreeSet.distinct_toList.imp fun hne heq =>
      hne (Std.LawfulEqOrd.compare_eq_iff_eq.mpr heq)

theorem mem_allNodeIds {key : DomainKey} {tree : Node} {i : NodeId}
    (ht : treeAt s.trees key = some tree) (hi : i ∈ tree.ids) : i ∈ s.allNodeIds :=
  mem_nodeIdsOf ht hi

section
variable {key : DomainKey} {w : WindowId}

/-- The mapping a target is renamed by. -/
theorem remap_target_inj {tree : Node} {i j : NodeId} (ht : treeAt target.trees key = some tree)
    (hi : i ∈ tree.ids) (hj : j ∈ tree.ids)
    (heq : remapNodeId (pairTargetNodeRemap source target) i =
      remapNodeId (pairTargetNodeRemap source target) j) : i = j :=
  pairTargetNodeRemap_minted.remap_inj (Std.ExtTreeSet.mem_toList.mpr (mem_allNodeIds ht hi))
    (Std.ExtTreeSet.mem_toList.mpr (mem_allNodeIds ht hj)) heq

theorem remap_target_free (source : Session) {tree : Node} {i : NodeId}
    (ht : treeAt target.trees key = some tree) (hi : i ∈ tree.ids) :
    remapNodeId (pairTargetNodeRemap source target) i ∉ source.allNodeIds ∧
      (remapNodeId (pairTargetNodeRemap source target) i).isEmpty = false :=
  pairTargetNodeRemap_minted.remap_free (Std.ExtTreeSet.mem_toList.mpr (mem_allNodeIds ht hi))

theorem withTarget_windows {mapping : BTreeMap NodeId NodeId} :
    (base.withTarget target key mapping).windows[w]? =
      (target.windows[w]?.map (remapLink mapping)).or base.windows[w]? :=
  lookup_extendMap (f := fun _ => remapLink mapping)

/-- A tile of a pair is a renamed one of the target or one of the source. -/
theorem withTarget_link {mapping : BTreeMap NodeId NodeId} {link : WindowLink} :
    (base.withTarget target key mapping).windows[w]? = some link ↔
      (∃ l, target.windows[w]? = some l ∧ remapLink mapping l = link) ∨
        target.windows[w]? = none ∧ base.windows[w]? = some link := by
  rw [withTarget_windows, Option.or_eq_some_iff, Option.map_eq_some_iff, Option.map_eq_none_iff]

theorem withTarget_exceptions {mapping : BTreeMap NodeId NodeId} :
    (base.withTarget target key mapping).exceptions[w]? =
      target.exceptions[w]?.or base.exceptions[w]? := by
  have hlookup := @lookup_extendMap _ _ _ _ _ _ _ base.exceptions target.exceptions (fun _ r => r) w
  rw [Option.map_id'] at hlookup
  simpa [withTarget] using hlookup

theorem withTarget_record {mapping : BTreeMap NodeId NodeId} {record : ExceptionRecord} :
    (base.withTarget target key mapping).exceptions[w]? = some record ↔
      target.exceptions[w]? = some record ∨
        target.exceptions[w]? = none ∧ base.exceptions[w]? = some record := by
  rw [withTarget_exceptions, Option.or_eq_some_iff]

theorem isKnown_iff : s.isKnown w = true ↔ w ∈ s.windows ∨ w ∈ s.exceptions := by
  rw [isKnown, Bool.or_eq_true, Std.ExtTreeMap.contains_iff_mem, Std.ExtTreeMap.contains_iff_mem]

end

/-- A source without the target, and the target renamed, make a valid pair.
The rules are checked one by one; what is not of one component is of the
other, and the renaming keeps the two apart. -/
theorem withTarget_valid (hs : Component source sourceDomain) (ht : Component target targetDomain)
    (hdomains : base.domains = [sourceDomain, targetDomain])
    (hvalid : sourceDomain.validate = true ∧ targetDomain.validate = true)
    (hkeys : sourceDomain.key ≠ targetDomain.key)
    (hdisjoint : ∀ w, target.isKnown w = true → source.isKnown w = false) :
    ((base.withSource source sourceDomain.key targetDomain.key).withTarget target targetDomain.key
      (pairTargetNodeRemap source target)).Valid := by
  have hsource := withSource_valid hs hdomains hvalid hkeys
  generalize hpair : base.withSource source sourceDomain.key targetDomain.key = pair at hsource ⊢
  have hpairDomains : pair.domains = [sourceDomain, targetDomain] := hpair ▸ hdomains
  have hpairWindows : pair.windows = source.windows := hpair ▸ rfl
  have hpairExceptions : pair.exceptions = source.exceptions := hpair ▸ rfl
  have hpairTree : treeAt pair.trees sourceDomain.key = treeAt source.trees sourceDomain.key := by
    rw [← hpair]
    simp only [withSource, treeAt_insert, if_neg hkeys.symm, if_pos]
  have hslot : targetDomain.key ∈ pair.trees := hsource.slot_of_domain _ (by simp [hpairDomains])
  have hat : ∀ k, treeAt (pair.withTarget target targetDomain.key
      (pairTargetNodeRemap source target)).trees k =
      if targetDomain.key = k then (treeAt target.trees targetDomain.key).map
        (remapTreeNodeIds (pairTargetNodeRemap source target)) else treeAt pair.trees k :=
    fun k => treeAt_insert
  have hin : targetDomain ∈ pair.domains := by simp [hpairDomains]
  have hother : ∀ {w : WindowId} {l : WindowLink}, source.windows[w]? = some l →
      target.windows[w]? = none := by
    intro w l hl
    refine Std.ExtTreeMap.getElem?_eq_none fun hw => ?_
    have hknown := hdisjoint w (isKnown_iff.mpr (.inl hw))
    rw [isKnown_iff.mpr (.inl (mem_iff_lookup.mpr ⟨l, hl⟩))] at hknown
    cases hknown
  -- the leaves of a target tile are in its tree, under fresh names in the pair
  have hleafOf : ∀ {w : WindowId} {l : WindowLink}, target.windows[w]? = some l →
      ∃ tree, treeAt target.trees targetDomain.key = some tree ∧ l.leaf ∈ tree.leaves ∧
        l.leaf ∈ tree.ids := by
    intro w l hl
    obtain ⟨tree, htree, hleaf⟩ := ht.leaf_mem hl
    exact ⟨tree, htree, hleaf, Node.mem_ids_of_mem_leaves hleaf⟩
  have hapart : ∀ {w w' : WindowId} {l l' : WindowLink}, target.windows[w]? = some l →
      source.windows[w']? = some l' →
      (remapLink (pairTargetNodeRemap source target) l).leaf ≠ l'.leaf := by
    intro w w' l l' hl hl' heq
    obtain ⟨tree, htree, -, hid⟩ := hleafOf hl
    obtain ⟨tree', htree', hleaf'⟩ := hs.leaf_mem hl'
    refine (remap_target_free source htree hid).1 ?_
    rw [show remapNodeId (pairTargetNodeRemap source target) l.leaf = l'.leaf from heq]
    exact mem_allNodeIds htree' (Node.mem_ids_of_mem_leaves hleaf')
  refine {
    domains_ne := hsource.domains_ne
    slot_count := (size_insert_of_mem hslot).trans hsource.slot_count
    domain_valid := hsource.domain_valid
    slot_of_domain := fun e he => (mem_insert_of_mem hslot).mpr (hsource.slot_of_domain e he)
    domain_of_slot := fun k hk => hsource.domain_of_slot k ((mem_insert_of_mem hslot).mp hk)
    tree_ok := ?_
    disjoint := ?_
    exception_valid := ?_
    link_valid := ?_
    leaf_inj := ?_
    leaf_linked := ?_
    focus := ?_ }
  · intro key tree htree
    rw [hat] at htree
    split at htree
    · obtain ⟨t, ht', rfl⟩ := Option.map_eq_some_iff.mp htree
      rw [remapTreeNodeIds_eq]
      exact (ht.valid.tree_ok ht').rename (fun i hi j hj => remap_target_inj ht' hi hj)
        fun i hi => (remap_target_free source ht' hi).2
    · exact hsource.tree_ok htree
  · intro w hw hrecord
    obtain ⟨link, hlink⟩ := mem_iff_lookup.mp hw
    obtain ⟨record, hrecord⟩ := mem_iff_lookup.mp hrecord
    rw [withTarget_link, hpairWindows] at hlink
    rw [withTarget_record, hpairExceptions] at hrecord
    have hknown : ∀ {t : Session} {l : WindowLink}, t.windows[w]? = some l → t.isKnown w = true :=
      fun hl => isKnown_iff.mpr (.inl (mem_iff_lookup.mpr ⟨_, hl⟩))
    have hexcepted : ∀ {t : Session} {r : ExceptionRecord}, t.exceptions[w]? = some r →
        t.isKnown w = true := fun hr => isKnown_iff.mpr (.inr (mem_iff_lookup.mpr ⟨_, hr⟩))
    rcases hlink with ⟨l, hl, -⟩ | ⟨-, hl⟩ <;> rcases hrecord with hr | ⟨-, hr⟩
    · exact ht.valid.disjoint (mem_iff_lookup.mpr ⟨_, hl⟩) (mem_iff_lookup.mpr ⟨_, hr⟩)
    · exact absurd (hdisjoint w (hknown hl)) (by rw [hexcepted hr]; simp)
    · exact absurd (hdisjoint w (hexcepted hr)) (by rw [hknown hl]; simp)
    · exact hs.valid.disjoint (mem_iff_lookup.mpr ⟨_, hl⟩) (mem_iff_lookup.mpr ⟨_, hr⟩)
  · intro w record hr
    rcases withTarget_record.mp hr with hr | ⟨-, hr⟩
    · have hrecord := ht.valid.exception_valid hr
      have hkey := ht.record_key hr
      simp only [validException, Bool.and_eq_true, List.any_eq_true] at hrecord ⊢
      refine ⟨hrecord.1, targetDomain, hin, ?_⟩
      rw [ExceptionRecord.key, OutputDomain.key, DomainKey.mk.injEq] at hkey
      rw [hkey.1, hkey.2]
      simp
    · exact hsource.exception_valid hr
  · intro w link hl
    rcases withTarget_link.mp hl with ⟨l, hl', rfl⟩ | ⟨-, hl⟩
    · have hlink := ht.valid.link_valid hl'
      have hkey := ht.link_key hl'
      obtain ⟨tree, htree, hleaf, hid⟩ := hleafOf hl'
      have hkey' : (remapLink (pairTargetNodeRemap source target) l).key = targetDomain.key := hkey
      have hfresh := (remap_target_free source htree hid).2
      simp only [validLink, Bool.and_eq_true, List.any_eq_true, Bool.not_eq_true'] at hlink ⊢
      refine ⟨⟨⟨⟨⟨hlink.1.1.1.1.1, hfresh⟩, hlink.1.1.1.2⟩, hlink.1.1.2⟩, targetDomain, hin, ?_⟩, ?_⟩
      · rw [hkey']
        simp
      · rw [hkey', hasLeaf_iff]
        refine ⟨_, by rw [hat, if_pos rfl, htree]; rfl, ?_⟩
        rw [remapTreeNodeIds_eq, Node.leaves_rename]
        exact List.mem_map_of_mem hleaf
    · have hlink := hsource.link_valid hl
      have hkey := hs.link_key (hpairWindows ▸ hl)
      simp only [validLink, Bool.and_eq_true] at hlink ⊢
      refine ⟨hlink.1, ?_⟩
      rw [hasLeaf_iff, hat, if_neg (by rw [hkey]; exact hkeys.symm)]
      exact hasLeaf_iff.mp hlink.2
  · intro w w' link link' hl hl' heq
    rw [withTarget_link, hpairWindows] at hl hl'
    rcases hl with ⟨l, hl, rfl⟩ | ⟨-, hl⟩ <;> rcases hl' with ⟨l', hl', rfl⟩ | ⟨-, hl'⟩
    · obtain ⟨tree, htree, -, hid⟩ := hleafOf hl
      obtain ⟨tree', htree', -, hid'⟩ := hleafOf hl'
      obtain rfl := Option.some.inj (htree.symm.trans htree')
      exact ht.valid.leaf_inj hl hl' (remap_target_inj htree hid hid' heq)
    · exact absurd heq (hapart hl hl')
    · exact absurd heq.symm (hapart hl' hl)
    · exact hs.valid.leaf_inj hl hl' heq
  · intro key tree leaf htree hleaf
    rw [hat] at htree
    split at htree
    · rename_i hkey
      obtain ⟨t, ht', rfl⟩ := Option.map_eq_some_iff.mp htree
      rw [remapTreeNodeIds_eq, Node.leaves_rename] at hleaf
      obtain ⟨i, hi, rfl⟩ := List.mem_map.mp hleaf
      obtain ⟨w, l, hl, rfl, hhome⟩ := ht.valid.leaf_linked ht' hi
      exact ⟨w, _, withTarget_link.mpr (.inl ⟨l, hl, rfl⟩), rfl, hhome.trans hkey⟩
    · obtain ⟨w, l, hl, hleaf, hkey⟩ := hsource.leaf_linked htree hleaf
      exact ⟨w, l, withTarget_link.mpr (.inr ⟨hother (hpairWindows ▸ hl), hl⟩), hleaf, hkey⟩
  · cases hdomain : pair.focusedDomain with
    | none =>
      -- the target's focus becomes the pair's
      have hnone : (pair.withTarget target targetDomain.key
            (pairTargetNodeRemap source target)).focusedDomain = target.focusedDomain ∧
          (pair.withTarget target targetDomain.key
            (pairTargetNodeRemap source target)).focusedLeaf =
              target.focusedLeaf.map (remapNodeId (pairTargetNodeRemap source target)) := by
        simp [withTarget, hdomain]
      rw [hnone.1, hnone.2]
      have hfocus := ht.valid.focus
      cases hfocused : target.focusedDomain with
      | none =>
        rw [hfocused] at hfocus
        cases hleaf : target.focusedLeaf with
        | none => rfl
        | some leaf => rw [hleaf] at hfocus; cases hfocus
      | some key =>
        obtain rfl := ht.focus_key hfocused
        rw [hfocused] at hfocus
        cases hleaf : target.focusedLeaf with
        | none => rw [hleaf] at hfocus; cases hfocus
        | some leaf =>
          rw [hleaf, validFocus, Bool.and_eq_true] at hfocus
          obtain ⟨tree, htree, hmem⟩ := hasLeaf_iff.mp hfocus.1
          obtain ⟨w, l, hl, rfl, hkey⟩ := linkedAt_iff.mp hfocus.2
          rw [Option.map_some, validFocus, Bool.and_eq_true]
          refine ⟨hasLeaf_iff.mpr ⟨_, by rw [hat, if_pos rfl, htree]; rfl, ?_⟩,
            linkedAt_iff.mpr ⟨w, _, withTarget_link.mpr (.inl ⟨l, hl, rfl⟩), rfl, hkey⟩⟩
          rw [remapTreeNodeIds_eq, Node.leaves_rename]
          exact List.mem_map_of_mem hmem
    | some key =>
      have hsome : (pair.withTarget target targetDomain.key
            (pairTargetNodeRemap source target)).focusedDomain = pair.focusedDomain ∧
          (pair.withTarget target targetDomain.key
            (pairTargetNodeRemap source target)).focusedLeaf = pair.focusedLeaf := by
        simp [withTarget, hdomain]
      rw [hsome.1, hsome.2, hdomain]
      have hfocus := hsource.focus
      rw [hdomain] at hfocus
      have hkey : key = sourceDomain.key := by
        refine hs.focus_key ?_
        rw [← hdomain, ← hpair]
        rfl
      cases hleaf : pair.focusedLeaf with
      | none => rw [hleaf] at hfocus; cases hfocus
      | some leaf =>
        rw [hleaf, validFocus, Bool.and_eq_true] at hfocus
        obtain ⟨w, l, hl, hlleaf, hlkey⟩ := linkedAt_iff.mp hfocus.2
        rw [validFocus, Bool.and_eq_true]
        refine ⟨?_, linkedAt_iff.mpr
          ⟨w, l, withTarget_link.mpr (.inr ⟨hother (hpairWindows ▸ hl), hl⟩), hlleaf, hlkey⟩⟩
        rw [hasLeaf_iff, hat, if_neg (by rw [hkey]; exact hkeys.symm)]
        exact hasLeaf_iff.mp hfocus.1

end Session

end PlasmaTiler
