import PlasmaTiler.Halves
import PlasmaTiler.Transfers

/-!
# A pair split as it was assembled

Assembly puts two sessions side by side, and without a commit in between the
split takes them apart again. This is what happens when a request over a pair
is refused after the convergence, and both sessions should be as they were.

Ids come back because the renaming is undone, windows because each is homed
in one of the two domains. The focus comes back although a pair has one only:
the other half takes the top of its stack, and that is where its focus was.

Three things do not come back. What no half can claim, a rectangle or a mark
of a window that neither has, stays with the source. A target that was
presented but not retained comes back only if it has something to hold. And a
last active leaf that is gone, and is named like an id the pair handed out,
comes back under another name. `splitCanonicalPair_paired` says what the two
halves are in all cases, and `splitCanonicalPair_not_back` has sessions for
each of these.
-/

namespace PlasmaTiler

namespace Session

variable {source target pair side : Session} {target? : Option Session}
  {sourceDomain targetDomain d : OutputDomain} {w : WindowId} {requireAdjacency : Bool}
  {f : NodeId → NodeId}

/-! ## The way back -/

theorem Component.trees_eq {s : Session} (h : Component s d) :
    s.trees = (∅ : Trees).insert d.key (PlasmaTiler.treeAt s.trees d.key) := by
  obtain ⟨e, hdomains, -, hkey⟩ := h.domains
  refine Std.ExtTreeMap.ext_getElem? fun k => ?_
  rw [lookup_insert, Std.ExtTreeMap.getElem?_empty]
  split
  · rename_i heq
    obtain ⟨slot, hslot⟩ := mem_iff_lookup.mp (h.valid.slot_of_domain e (by simp [hdomains]))
    rw [← heq, ← hkey, PlasmaTiler.treeAt, hslot]
    rfl
  · rename_i hne
    refine Std.ExtTreeMap.getElem?_eq_none fun hk => hne ?_
    obtain ⟨e', he', rfl⟩ := h.valid.domain_of_slot k hk
    exact (h.mem_domains he').symm

section
variable {i : NodeId}

theorem Assembled.rejoin_renamed (ha : Assembled source (some target) sourceDomain targetDomain pair)
    (hi : i ∈ target.allNodeIds) : pair.rejoin targetDomain.key
      (remapNodeId (pairTargetNodeRemap source target) i) = i :=
  rejoin_original pairTargetNodeRemap_minted ha.valid ha.restore (Std.ExtTreeSet.mem_toList.mpr hi)

/-- Nothing was carried into a pair that was just assembled. -/
theorem Assembled.not_carried (ha : Assembled source (some target) sourceDomain targetDomain pair) :
    i ∉ pair.carriedLeaves targetDomain.key := by
  intro hcarried
  obtain ⟨⟨w, link, hlink, hkey, rfl⟩, hnone, -⟩ :=
    (mem_carriedLeaves pairTargetNodeRemap_minted ha.restore).mp hcarried
  rw [ha.windows, Option.bind_some, Option.or_eq_some_iff] at hlink
  rcases hlink with htarget | ⟨-, hsource⟩
  · obtain ⟨l, hl, rfl⟩ := Option.map_eq_some_iff.mp htarget
    obtain ⟨n, hn, hleaf⟩ := (ha.targetOk rfl).leaf_mem hl
    have hin := Std.ExtTreeSet.mem_toList.mpr (mem_allNodeIds hn (Node.mem_ids_of_mem_leaves hleaf))
    have hminted := @pairTargetNodeRemap_minted source target
    obtain ⟨v, hv⟩ := hminted.domain.mp hin
    have hback := (inverseMap_lookup hminted.inj).mpr hv
    rw [← remapNodeId_of_lookup hv] at hback
    exact absurd (hnone.symm.trans hback) nofun
  · exact ha.keys ((ha.sourceOk.link_key hsource).symm.trans hkey)

/-- A stale id comes back unless it is one the pair handed out. -/
theorem Assembled.rejoin_stale (ha : Assembled source (some target) sourceDomain targetDomain pair)
    (hi : i ∉ target.allNodeIds) (hother : i ∉ values (pairTargetNodeRemap source target)) :
    pair.rejoin targetDomain.key
      (remapNodeId (pairTargetNodeRemap source target) i) = i := by
  have hnone : (pairTargetNodeRemap source target)[i]? = none :=
    pairTargetNodeRemap_minted.lookup_none fun hin => hi (Std.ExtTreeSet.mem_toList.mp hin)
  rw [remapNodeId_of_none hnone]
  refine rejoin_kept pairTargetNodeRemap_minted ha.valid ha.restore (.inr ?_) ha.not_carried
  rw [Option.eq_none_iff_forall_ne_some]
  intro j hj
  exact hother (mem_values.mpr ⟨j, (inverseMap_lookup pairTargetNodeRemap_minted.inj).mp hj⟩)

/-! ### The source's half -/

theorem Half.source_trees (ha : Assembled source (some target) sourceDomain targetDomain pair)
    (h : Half pair sourceDomain id side) : side.trees = source.trees := by
  rw [ha.sourceOk.trees_eq, h.trees, ha.sourceTree]
  cases PlasmaTiler.treeAt source.trees sourceDomain.key with
  | none => rfl
  | some n => exact congrArg _ (congrArg some Node.rename_self)

theorem Half.source_windows (ha : Assembled source (some target) sourceDomain targetDomain pair)
    (h : Half pair sourceDomain id side) : side.windows = source.windows := by
  refine Std.ExtTreeMap.ext_getElem? fun w => ?_
  cases hw : source.windows[w]? with
  | some l =>
    exact h.link.mpr ⟨l, ha.source_link hw, ha.sourceOk.link_key hw, rfl⟩
  | none =>
    rw [Option.eq_none_iff_forall_ne_some]
    intro l hl
    obtain ⟨link, hlink, hkey, -⟩ := h.link.mp hl
    rw [ha.windows, hw, Option.or_none, Option.bind_some] at hlink
    obtain ⟨own, hown, rfl⟩ := Option.map_eq_some_iff.mp hlink
    have hhome : own.key = targetDomain.key := (ha.targetOk rfl).link_key hown
    exact ha.keys (hkey.symm.trans hhome)

theorem Half.source_exceptions (ha : Assembled source (some target) sourceDomain targetDomain pair)
    (h : Half pair sourceDomain id side) : side.exceptions = source.exceptions := by
  refine Std.ExtTreeMap.ext_getElem? fun w => ?_
  rw [h.exceptions, ha.exceptions, Option.bind_some]
  cases hw : target.exceptions[w]? with
  | some r =>
    have hnone : source.exceptions[w]? = none := by
      refine Std.ExtTreeMap.getElem?_eq_none fun hin => ?_
      have hknown := ha.apart rfl w (isKnown_iff.mpr (.inr (mem_iff_lookup.mpr ⟨r, hw⟩)))
      rw [isKnown_iff.mpr (.inr hin)] at hknown
      cases hknown
    rw [hnone, Option.some_or, Option.filter_some, if_neg]
    rw [beq_iff_eq, (ha.targetOk rfl).record_key hw]
    exact ha.keys.symm
  | none =>
    rw [Option.none_or]
    cases hr : source.exceptions[w]? with
    | none => rfl
    | some r => exact Option.filter_some_pos (beq_iff_eq.mpr (ha.sourceOk.record_key hr))

/-! ### The target's half -/

theorem Half.target_trees (ha : Assembled source (some target) sourceDomain targetDomain pair)
    (h : Half pair targetDomain (rejoin pair targetDomain.key) side) : side.trees = target.trees := by
  rw [(ha.targetOk rfl).trees_eq, h.trees, ha.targetTree, Option.bind_some]
  cases htree : PlasmaTiler.treeAt target.trees targetDomain.key with
  | none => rfl
  | some n =>
    have hback : (n.rename (remapNodeId (pairTargetNodeRemap source target))).rename
        (pair.rejoin targetDomain.key) = n := by
      rw [Node.rename_rename]
      exact Node.rename_of_fixed fun i hi => ha.rejoin_renamed (mem_allNodeIds htree hi)
    exact congrArg _ (congrArg some hback)

theorem Half.target_windows (ha : Assembled source (some target) sourceDomain targetDomain pair)
    (h : Half pair targetDomain (rejoin pair targetDomain.key) side) :
    side.windows = target.windows := by
  refine Std.ExtTreeMap.ext_getElem? fun w => ?_
  cases hw : target.windows[w]? with
  | some l =>
    obtain ⟨n, hn, hleaf⟩ := (ha.targetOk rfl).leaf_mem hw
    have hback := ha.rejoin_renamed (mem_allNodeIds hn (Node.mem_ids_of_mem_leaves hleaf))
    have hhome : l.key = targetDomain.key := (ha.targetOk rfl).link_key hw
    refine h.link.mpr ⟨_, ha.target_link rfl hw, hhome, ?_⟩
    exact congrArg (fun leaf => { l with leaf }) hback
  | none =>
    rw [Option.eq_none_iff_forall_ne_some]
    intro l hl
    obtain ⟨link, hlink, hkey, -⟩ := h.link.mp hl
    rw [ha.windows, Option.bind_some, hw, Option.map_none, Option.none_or] at hlink
    exact ha.keys ((ha.sourceOk.link_key hlink).symm.trans hkey)

theorem Half.target_exceptions (ha : Assembled source (some target) sourceDomain targetDomain pair)
    (h : Half pair targetDomain (rejoin pair targetDomain.key) side) :
    side.exceptions = target.exceptions := by
  refine Std.ExtTreeMap.ext_getElem? fun w => ?_
  rw [h.exceptions, ha.exceptions, Option.bind_some]
  cases hw : target.exceptions[w]? with
  | some r =>
    exact Option.filter_some_pos (beq_iff_eq.mpr ((ha.targetOk rfl).record_key hw))
  | none =>
    rw [Option.none_or, Option.filter_eq_none_iff]
    intro r hr hkey
    exact ha.keys ((ha.sourceOk.record_key hr).symm.trans (beq_iff_eq.mp hkey))

/-! ### Focus and stacks -/

theorem Component.length_one {s : Session} (h : Component s d) : s.domains.length = 1 := by
  obtain ⟨e, hdomains, -⟩ := h.domains
  rw [hdomains]
  rfl

/-- The source has no stack in the target's domain. -/
theorem Joined.target_stack_eq (hj : Joined source (some target) pair)
    (ha : Assembled source (some target) sourceDomain targetDomain pair) (hs : source.Stacked) :
    pair.focusStack[targetDomain.key]? = target.focusStack[targetDomain.key]?.map
      (List.map (remapNodeId (pairTargetNodeRemap source target))) := by
  have hnone : source.focusStack[targetDomain.key]? = none := by
    rw [Option.eq_none_iff_forall_ne_some]
    intro leaves hstack
    exact ha.keys (hs.component_key ha.sourceOk hstack).symm
  rw [hj.focusStack, hnone, Option.or_none]
  rfl

theorem Half.source_focus (ha : Assembled source (some target) sourceDomain targetDomain pair)
    (hj : Joined source (some target) pair) (hs : source.Orderly) (ht : target.Orderly)
    (h : Half pair sourceDomain id side) :
    side.focusedDomain = source.focusedDomain ∧ side.focusedLeaf = source.focusedLeaf := by
  rw [h.focusedDomain, h.focusedLeaf]
  rcases validFocus_cases ha.sourceOk.valid.focus with ⟨hdomain, hleaf⟩ | ⟨k, leaf, hdomain, hleaf, -⟩
  · have hother : pair.focusedDomain ≠ some sourceDomain.key := by
      rw [hj.focusedDomain, hdomain]
      exact fun heq => ha.keys ((ha.targetOk rfl).focus_key heq)
    have hstack := hs.remembers.unfocused ha.sourceOk.length_one hdomain sourceDomain.key
    have hnone : pair.sideFocus sourceDomain.key = none := by
      rw [sideFocus, if_neg hother, hj.source_stack ha (fun t hsome => by cases hsome; exact ht.stacked),
        hstack]
      rfl
    rw [hnone, hdomain, hleaf]
    exact ⟨rfl, rfl⟩
  · obtain rfl := ha.sourceOk.focus_key hdomain
    have hsome : pair.sideFocus sourceDomain.key = some leaf := by
      rw [sideFocus, hj.focusedDomain, hj.focusedLeaf, hdomain, hleaf]
      exact if_pos rfl
    rw [hsome, hdomain, hleaf]
    exact ⟨rfl, rfl⟩

theorem Half.target_focus (ha : Assembled source (some target) sourceDomain targetDomain pair)
    (hj : Joined source (some target) pair) (hs : source.Orderly) (ht : target.Orderly)
    (h : Half pair targetDomain (rejoin pair targetDomain.key) side) :
    side.focusedDomain = target.focusedDomain ∧ side.focusedLeaf = target.focusedLeaf := by
  rw [h.focusedDomain, h.focusedLeaf]
  have hstack := hj.target_stack_eq ha hs.stacked
  -- a focused source keeps the pair's focus in its own domain
  have hother : source.focusedDomain ≠ none → pair.focusedDomain ≠ some targetDomain.key := by
    intro hfocused heq
    rw [hj.focusedDomain, if_neg (by simpa using hfocused)] at heq
    exact ha.keys (ha.sourceOk.focus_key heq).symm
  rcases validFocus_cases (ha.targetOk rfl).valid.focus with
    ⟨hdomain, hleaf⟩ | ⟨k, leaf, hdomain, hleaf, hvalid⟩
  · have haway : pair.focusedDomain ≠ some targetDomain.key := by
      by_cases hfocused : source.focusedDomain = none
      · rw [hj.focusedDomain, hfocused, Option.bind_some, hdomain]
        exact nofun
      · exact hother hfocused
    have hempty := ht.remembers.unfocused (ha.targetOk rfl).length_one hdomain targetDomain.key
    have hnone : pair.sideFocus targetDomain.key = none := by
      rw [sideFocus, if_neg haway, hstack, hempty]
      rfl
    rw [hnone, hdomain, hleaf]
    exact ⟨rfl, rfl⟩
  · obtain ⟨rfl, hin, -⟩ := ha.focus_target rfl hvalid
    have hsome : pair.sideFocus targetDomain.key =
        some (remapNodeId (pairTargetNodeRemap source target) leaf) := by
      by_cases hfocused : source.focusedDomain = none
      · rw [sideFocus, hj.focusedDomain, hj.focusedLeaf, hfocused, Option.bind_some, Option.bind_some,
          hdomain, hleaf]
        exact if_pos rfl
      · obtain ⟨rest, hrest⟩ := ht.stacked.top hdomain hleaf
        rw [hrest, Option.map_some, List.map_append] at hstack
        exact sideFocus_of_top (hj.stacked ha hs.stacked fun t hsome => by cases hsome; exact ht.stacked)
          (hother hfocused) hstack
    rw [hsome, hdomain, hleaf, Option.map_some, Option.map_some,
      ha.rejoin_renamed (Std.ExtTreeSet.mem_toList.mp hin)]
    exact ⟨rfl, rfl⟩

theorem Half.source_focusStack (ha : Assembled source (some target) sourceDomain targetDomain pair)
    (hj : Joined source (some target) pair) (hs : source.Orderly) (ht : target.Orderly)
    (h : Half pair sourceDomain id side) : side.focusStack = source.focusStack := by
  refine Std.ExtTreeMap.ext_getElem? fun key => ?_
  rw [h.focusStack]
  split
  · rename_i heq
    rw [← heq, hj.source_stack ha (fun t hsome => by cases hsome; exact ht.stacked), List.map_id_fun]
    exact Option.map_id'
  · rename_i hne
    cases hstack : source.focusStack[key]? with
    | none => rfl
    | some leaves => exact absurd (hs.stacked.component_key ha.sourceOk hstack).symm hne

theorem Half.target_focusStack (ha : Assembled source (some target) sourceDomain targetDomain pair)
    (hj : Joined source (some target) pair) (hs : source.Orderly) (ht : target.Orderly)
    (h : Half pair targetDomain (rejoin pair targetDomain.key) side) :
    side.focusStack = target.focusStack := by
  refine Std.ExtTreeMap.ext_getElem? fun key => ?_
  rw [h.focusStack]
  cases hstack : target.focusStack[key]? with
  | none =>
    split
    · rename_i heq
      rw [← heq, hj.target_stack_eq ha hs.stacked, heq, hstack]
      rfl
    · rfl
  | some leaves =>
    obtain rfl := ht.stacked.component_key (ha.targetOk rfl) hstack
    have hback : (leaves.map (remapNodeId (pairTargetNodeRemap source target))).map
        (pair.rejoin targetDomain.key) = leaves := by
      rw [List.map_map]
      refine (List.map_congr_left fun leaf hleaf => ?_).trans (List.map_id' leaves)
      obtain ⟨-, hin, -⟩ := ha.focus_target rfl ((ht.stacked.live hstack).2.2 leaf hleaf)
      exact ha.rejoin_renamed (Std.ExtTreeSet.mem_toList.mp hin)
    rw [if_pos rfl, hj.target_stack_eq ha hs.stacked, hstack, Option.map_some, Option.map_some, hback]

theorem Half.source_lastActive (ha : Assembled source (some target) sourceDomain targetDomain pair)
    (hj : Joined source (some target) pair) (hs : source.Orderly) (ht : target.Orderly)
    (h : Half pair sourceDomain id side) : side.lastActive = source.lastActive := by
  refine Std.ExtTreeMap.ext_getElem? fun key => ?_
  rw [h.lastActive, hj.lastActive, Option.bind_some]
  split
  · rename_i heq
    have hnone : target.lastActive[key]? = none := by
      rw [Option.eq_none_iff_forall_ne_some]
      intro leaf hleaf
      exact ha.keys (heq.trans (ht.remembers.active.component_key (ha.targetOk rfl) hleaf))
    rw [hnone, Option.map_none, Option.none_or]
    exact Option.map_id'
  · rename_i hne
    cases hleaf : source.lastActive[key]? with
    | none => rfl
    | some leaf => exact absurd (hs.remembers.active.component_key ha.sourceOk hleaf).symm hne

/-- The target's comes back where the id was not handed out meanwhile. -/
theorem Half.target_lastActive (ha : Assembled source (some target) sourceDomain targetDomain pair)
    (hj : Joined source (some target) pair) (hs : source.Orderly) (ht : target.Orderly)
    (h : Half pair targetDomain (rejoin pair targetDomain.key) side)
    (hids : ∀ leaf, target.lastActive[targetDomain.key]? = some leaf →
      leaf ∈ target.allNodeIds ∨ leaf ∉ values (pairTargetNodeRemap source target)) :
    side.lastActive = target.lastActive := by
  refine Std.ExtTreeMap.ext_getElem? fun key => ?_
  rw [h.lastActive, hj.lastActive, Option.bind_some]
  cases hleaf : target.lastActive[key]? with
  | none =>
    split
    · rename_i heq
      rw [Option.map_none, Option.none_or, Option.map_eq_none_iff, Option.eq_none_iff_forall_ne_some]
      intro leaf hleaf
      exact ha.keys ((hs.remembers.active.component_key ha.sourceOk hleaf).symm.trans heq.symm)
    · rfl
  | some leaf =>
    obtain rfl := ht.remembers.active.component_key (ha.targetOk rfl) hleaf
    have hback : pair.rejoin targetDomain.key
        (remapNodeId (pairTargetNodeRemap source target) leaf) = leaf := by
      by_cases hin : leaf ∈ target.allNodeIds
      · exact ha.rejoin_renamed hin
      · exact ha.rejoin_stale hin ((hids leaf hleaf).resolve_left hin)
    rw [if_pos rfl, Option.map_some, Option.some_or, Option.map_some]
    exact congrArg some hback

end

/-! ## The round trip -/

/-- The world and the settings of a session are back: trees, links,
exceptions, and the focus with its stacks. -/
structure Restored (s s' : Session) : Prop where
  trees : s'.trees = s.trees
  windows : s'.windows = s.windows
  exceptions : s'.exceptions = s.exceptions
  focusedDomain : s'.focusedDomain = s.focusedDomain
  focusedLeaf : s'.focusedLeaf = s.focusedLeaf
  focusStack : s'.focusStack = s.focusStack
  identity : s'.owner = s.owner ∧ s'.generation = s.generation
  settings : s'.fixedAdmission = s.fixedAdmission ∧ s'.fixedPredicate = s.fixedPredicate ∧
    s'.maximizedFocusFence = s.maximizedFocusFence

/-- Two sessions under the same settings: what is admitted at a fixed size, by
which predicate, and whether focus is fenced in. -/
def SameSettings (s t : Session) : Prop :=
  s.fixedAdmission = t.fixedAdmission ∧ s.fixedPredicate = t.fixedPredicate ∧
    s.maximizedFocusFence = t.maximizedFocusFence

instance {s t : Session} : Decidable (SameSettings s t) := inferInstanceAs (Decidable (_ ∧ _ ∧ _))

/-- Each half of a split has the revision of the newer of the two sessions
that were paired, and its fingerprint. -/
def Newest (source target side : Session) : Prop :=
  side.acceptedRevision = max source.acceptedRevision target.acceptedRevision ∧
    side.acceptedFingerprint = if source.acceptedRevision < target.acceptedRevision then
      target.acceptedFingerprint else source.acceptedFingerprint

section
variable {source' target' : Session}

theorem Half.newest (hj : Joined source (some target) pair) (h : Half pair d f side) :
    Newest source target side := by
  rw [Newest, h.revision, h.fingerprint, hj.revision, hj.fingerprint, newestOf]
  split
  · rename_i hlt
    exact ⟨(Nat.max_eq_right (Nat.le_of_lt hlt)).symm, rfl⟩
  · rename_i hle
    exact ⟨(Nat.max_eq_left (Nat.le_of_not_lt hle)).symm, rfl⟩

theorem revision_of_paired (h : pairedFromCanonicalImpl source target? sourceDomain targetDomain
    requireAdjacency = .ok pair) : isRevision pair.acceptedRevision = true := by
  have hnew : ∀ {revision fingerprint : Nat} {domains : List OutputDomain} {base : Session},
      Session.new source.owner source.generation revision fingerprint domains = .ok base →
        isRevision base.acceptedRevision = true := by
    intro revision fingerprint domains base hbase
    obtain ⟨-, -, -, hrevision, -⟩ := new_ok hbase
    rw [hrevision]
    simp only [Session.new, bind_eq_ok, ensure_eq_ok] at hbase
    obtain ⟨_, -, _, -, _, hok, -⟩ := hbase
    exact hok
  cases target? with
  | none =>
    simp only [pairedFromCanonicalImpl, bind_eq_ok, mapError_eq_ok, pure_eq_ok] at h
    obtain ⟨_, -, _, -, _, -, base, hbase, _, -, rfl⟩ := h
    have hok : isRevision base.acceptedRevision = true := hnew hbase
    exact hok
  | some target =>
    simp only [pairedFromCanonicalImpl, bind_eq_ok, mapError_eq_ok, pure_eq_ok] at h
    obtain ⟨_, -, _, -, _, -, _, -, _, -, _, -, base, hbase, _, -, rfl⟩ := h
    have hok : isRevision base.acceptedRevision = true := hnew hbase
    exact hok

/-- A pair that was just assembled splits. -/
theorem splitCanonicalPair_assembled
    (ha : Assembled source (some target) sourceDomain targetDomain pair)
    (hrevision : isRevision pair.acceptedRevision = true) :
    ∃ source' target?, pair.splitCanonicalPair = .ok (source', target?) := by
  obtain ⟨source', target', hsource, htarget, hsplit⟩ :=
    splitCanonicalPair_sides ha.settled ha.valid ha.domains hrevision
  have hsourceValid : source'.Valid := by
    refine hsource.valid ha.valid (by simp [ha.domains]) (fun _ _ _ _ _ _ heq => heq) ?_
    exact fun tree htree i hi => (ha.valid.tree_ok htree).nonempty i hi
  -- an id of the target's tree in the pair is a renamed one of the target
  have hids : ∀ tree, PlasmaTiler.treeAt pair.trees targetDomain.key = some tree → ∀ v ∈ tree.ids,
      ∃ n, PlasmaTiler.treeAt target.trees targetDomain.key = some n ∧
        ∃ i ∈ n.ids, remapNodeId (pairTargetNodeRemap source target) i = v := by
    intro tree htree v hv
    rw [ha.targetTree, Option.bind_some] at htree
    obtain ⟨n, hn, rfl⟩ := Option.map_eq_some_iff.mp htree
    rw [Node.ids_rename] at hv
    exact ⟨n, hn, List.mem_map.mp hv⟩
  have htargetValid : target'.Valid := by
    refine htarget.valid ha.valid (by simp [ha.domains]) (fun tree htree v hv v' hv' heq => ?_)
      fun tree htree v hv => ?_
    · obtain ⟨n, hn, i, hi, rfl⟩ := hids tree htree v hv
      obtain ⟨n', hn', j, hj, rfl⟩ := hids tree htree v' hv'
      rw [ha.rejoin_renamed (mem_allNodeIds hn hi), ha.rejoin_renamed (mem_allNodeIds hn' hj)] at heq
      rw [heq]
    · obtain ⟨n, hn, i, hi, rfl⟩ := hids tree htree v hv
      rw [ha.rejoin_renamed (mem_allNodeIds hn hi)]
      exact ((ha.targetOk rfl).valid.tree_ok hn).nonempty i hi
  rw [hsplit, validateCurrentTopology_iff.mpr hsourceValid, validateCurrentTopology_iff.mpr htargetValid]
  exact ⟨_, _, rfl⟩

theorem Half.source_restored (ha : Assembled source (some target) sourceDomain targetDomain pair)
    (hj : Joined source (some target) pair) (hs : source.Orderly) (ht : target.Orderly)
    (h : Half pair sourceDomain id side) : Restored source side where
  trees := h.source_trees ha
  windows := h.source_windows ha
  exceptions := h.source_exceptions ha
  focusedDomain := (h.source_focus ha hj hs ht).1
  focusedLeaf := (h.source_focus ha hj hs ht).2
  focusStack := h.source_focusStack ha hj hs ht
  identity := ⟨h.identity.1.trans hj.identity.1, h.identity.2.trans hj.identity.2⟩
  settings := ⟨h.settings.1.trans hj.settings.1, h.settings.2.1.trans hj.settings.2.1,
    h.settings.2.2.trans hj.settings.2.2⟩

theorem sameIdentity_of_paired (h : pairedFromCanonicalImpl source (some target) sourceDomain
    targetDomain requireAdjacency = .ok pair) :
    source.owner = target.owner ∧ source.generation = target.generation := by
  simp only [pairedFromCanonicalImpl, bind_eq_ok, ensure_eq_ok, Bool.and_eq_true, beq_iff_eq] at h
  obtain ⟨_, -, _, -, _, -, _, -, _, ⟨howner, hgeneration⟩, -⟩ := h
  exact ⟨howner.symm, hgeneration.symm⟩

theorem Half.target_restored (ha : Assembled source (some target) sourceDomain targetDomain pair)
    (hj : Joined source (some target) pair) (hs : source.Orderly) (ht : target.Orderly)
    (hidentity : source.owner = target.owner ∧ source.generation = target.generation)
    (hsettings : SameSettings source target)
    (h : Half pair targetDomain (rejoin pair targetDomain.key) side) : Restored target side where
  trees := h.target_trees ha
  windows := h.target_windows ha
  exceptions := h.target_exceptions ha
  focusedDomain := (h.target_focus ha hj hs ht).1
  focusedLeaf := (h.target_focus ha hj hs ht).2
  focusStack := h.target_focusStack ha hj hs ht
  identity := ⟨(h.identity.1.trans hj.identity.1).trans hidentity.1,
    (h.identity.2.trans hj.identity.2).trans hidentity.2⟩
  settings := ⟨(h.settings.1.trans hj.settings.1).trans hsettings.1,
    (h.settings.2.1.trans hj.settings.2.1).trans hsettings.2.1,
    (h.settings.2.2.trans hj.settings.2.2).trans hsettings.2.2⟩

theorem Restored.isKnown {s s' : Session} (h : Restored s s') : s'.isKnown w = s.isKnown w := by
  rw [Session.isKnown, h.windows, h.exceptions]
  rfl

/-- The halves of a pair nothing was committed on. Every rectangle and mark
of a window the target has goes with it, all others with the source. -/
theorem splitCanonicalPair_paired (hs : Obtainable source) (ht : Obtainable target)
    (hsettings : SameSettings source target)
    (h : pairedFromCanonicalImpl source (some target) sourceDomain targetDomain requireAdjacency =
      .ok pair) :
    ∃ source' target', pair.splitCanonicalPair =
        .ok (source', if target.isEmptyAt targetDomain.key then none else some target') ∧
      (Restored source source' ∧ Restored target target') ∧
      (source'.lastActive = source.lastActive ∧
        ((∀ leaf, target.lastActive[targetDomain.key]? = some leaf →
          leaf ∈ target.allNodeIds ∨ leaf ∉ values (pairTargetNodeRemap source target)) →
            target'.lastActive = target.lastActive)) ∧
      Parted (fun w => target.retainedFloatGeometry[w]?.or source.retainedFloatGeometry[w]?)
        (fun w => w ∈ source.automaticFixed ∨ w ∈ target.automaticFixed)
        (fun w => w ∈ source.fixedTileOverride ∨ w ∈ target.fixedTileOverride) target.isKnown
        source' target' ∧
      Newest source target source' ∧ Newest source target target' := by
  have ha := pairedFromCanonicalImpl_assembled h
  have hj := pairedFromCanonicalImpl_joined h
  obtain ⟨source', target?, hsplit⟩ := splitCanonicalPair_assembled ha (revision_of_paired h)
  obtain ⟨d, e, target', hdomains, -, hsource, htarget, -, hparted, rfl⟩ := splitCanonicalPair_ok hsplit
  obtain ⟨rfl, rfl⟩ : sourceDomain = d ∧ targetDomain = e := by
    simpa using ha.domains.symm.trans hdomains
  have hsourceBack := hsource.source_restored ha hj hs.orderly ht.orderly
  have htargetBack := htarget.target_restored ha hj hs.orderly ht.orderly (sameIdentity_of_paired h)
    hsettings
  have hempty : target'.isEmptyAt targetDomain.key = target.isEmptyAt targetDomain.key := by
    rw [isEmptyAt, isEmptyAt, htargetBack.trees, htargetBack.windows, htargetBack.exceptions]
  have hmoves : ∀ w, goesAlong source' target' w = target.isKnown w := by
    intro w
    rw [goesAlong, hsourceBack.isKnown, htargetBack.isKnown]
    cases hknown : target.isKnown w with
    | false => exact Bool.and_false _
    | true =>
      rw [ha.apart rfl w hknown]
      rfl
  rw [hempty] at hsplit
  refine ⟨source', target', hsplit, ⟨hsourceBack, htargetBack⟩,
    ⟨hsource.source_lastActive ha hj hs.orderly ht.orderly,
      htarget.target_lastActive ha hj hs.orderly ht.orderly⟩,
    ⟨fun w => ?_, fun w => ?_, fun w => ?_⟩, hsource.newest hj, htarget.newest hj⟩
  · have hretained := hparted.retained w
    rw [hmoves, hj.retained] at hretained
    exact hretained
  · have hautomatic := hparted.automatic w
    simp only [hmoves, hj.automatic, Option.some.injEq, exists_eq_left'] at hautomatic
    exact hautomatic
  · have hoverride := hparted.override w
    simp only [hmoves, hj.override, Option.some.injEq, exists_eq_left'] at hoverride
    exact hoverride

end

end Session

/-! ## What does not come back

A float taken back but never withdrawn leaves a rectangle and a mark behind,
of a window the session no longer has. And a transfer out of the target leaves a name of
the pair in the source, where it can outlive its tile as the last active leaf. -/

namespace Sample

/-- The pair of two sessions and its halves. -/
structure Parting where
  pair : Session
  left : Session
  right : Option Session

def parting (d e : OutputDomain) (source target : Session) : Option Parting := do
  let pair ← (Session.pairedFromCanonicalForSend source (some target) d e).toOption
  let (left, right) ← pair.splitCanonicalPair.toOption
  return { pair, left, right }

theorem parting_ok {d e : OutputDomain} {source target : Session} {p : Parting}
    (h : parting d e source target = some p) :
    Session.pairedFromCanonicalImpl source (some target) d e false = .ok p.pair ∧
      p.pair.splitCanonicalPair = .ok (p.left, p.right) := by
  simp only [parting, Option.bind_eq_bind, Option.bind_eq_some_iff] at h
  obtain ⟨pair, hpair, ⟨left, right⟩, hsplit, h⟩ := h
  cases h
  exact ⟨toOption_eq_ok.mp hpair, toOption_eq_ok.mp hsplit⟩

/-- A session over workspace 1 of an output after some calls. -/
def onOutput (output : String)
    (h : (Session.new owner generation 0 0 [domain output "1"]).toOption.isSome = true)
    (ops : List SessionOp) : Session := Session.machine.run (session [domain output "1"] h) ops

theorem onOutput_obtainable {output : String}
    (h : (Session.new owner generation 0 0 [domain output "1"]).toOption.isSome = true)
    (ops : List SessionOp) : (onOutput output h ops).Obtainable :=
  Session.Obtainable.of_reachable (session_reachable h ops)

/-- One tile on the left output, with the opt-in on. -/
def leftTile : Session := onOutput "A" one_domain_new
  [.setFixedSizeAdmission true, .convergeObservation (observation 0 [placed "x" "A"]) (some ⟨"x"⟩)]

theorem leftTile_obtainable : leftTile.Obtainable := onOutput_obtainable _ _

/-- A window of a fixed size. -/
def fixedSize (floating : Bool) : ObservedWindow :=
  { placed "f" "B" with
    floating, hints := { minW := some 300, maxW := some 300, minH := some 200, maxH := some 200 } }

/-- A tile and a fixed-size window that was to be tiled but was not. -/
def withOrphan : Session := onOutput "B" (by decide +kernel)
  [.setFixedSizeAdmission true,
    .convergeObservation (observation 0 [placed "y" "B", fixedSize false]) (some ⟨"y"⟩),
    .propose (.command (.toggleFloat ⟨"f"⟩ (some ⟨10, 10, 100, 100⟩))
      (observation 1 [placed "y" "B", fixedSize true]) correlationId lifecycle),
    .cancelUnackedPending correlationId 1]

theorem withOrphan_obtainable : withOrphan.Obtainable := onOutput_obtainable _ _

def emptyRight : Session := onOutput "B" (by decide +kernel) [.setFixedSizeAdmission true]

theorem emptyRight_obtainable : emptyRight.Obtainable := onOutput_obtainable _ _

/-- A tile on the right output without the opt-in. -/
def rightTile : Session := onOutput "B" (by decide +kernel)
  [.convergeObservation (observation 0 [placed "y" "B"]) (some ⟨"y"⟩)]

theorem rightTile_obtainable : rightTile.Obtainable := onOutput_obtainable _ _

/-- The target's tile goes to the empty source. -/
def sentOver : List SessionOp :=
  [.propose (.command (.moveToOutput ⟨"y"⟩ (domain "A" "1").key true) (observation 1 [placed "y" "B"])
      correlationId lifecycle),
    .acknowledge ⟨correlationId, owner, generation, 1, .accepted⟩,
    .verify (.lifecycle {
      observation := ⟨owner, generation, 1, 1⟩
      correlationId
      verified := true
      verifiedPreconditions := [.windowObserved, .desiredTopologyValid, .adapterMustVerifyPostconditions]
      verifiedOperation := .moveTiled ⟨"y"⟩ ⟨"pair-target-0"⟩ ⟨"B"⟩ ⟨"1"⟩ ⟨"A"⟩ ⟨"1"⟩ })]

/-- The source, in which another window took that tile's place. -/
def withStale : Option Session :=
  (parting (domain "A" "1") (domain "B" "1") (onOutput "A" one_domain_new [])
      rightTile).bind fun p =>
    (Session.machine.run p.pair sentOver).splitCanonicalPair.toOption.map fun halves =>
      halves.1.next (.convergeObservation (observation 2 [placed "z" "A"]) none)

theorem withStale_obtainable {s : Session} (h : withStale = some s) : s.Obtainable := by
  simp only [withStale, Option.bind_eq_some_iff, Option.map_eq_some_iff] at h
  obtain ⟨p, hp, ⟨left, right⟩, hsplit, rfl⟩ := h
  have hpair : p.pair.Obtainable := by
    refine .paired (onOutput_obtainable _ []) (fun t ht => ?_) (parting_ok hp).1
    cases ht
    exact rightTile_obtainable
  exact (Session.Obtainable.source (hpair.run sentOver) (toOption_eq_ok.mp hsplit)).next _

end Sample

namespace Session

/-- Two tiles come apart as they were. -/
theorem splitCanonicalPair_paired_tiles :
    ∃ pair source' target', pairedFromCanonicalImpl Sample.leftTile (some Sample.withOrphan)
        (Sample.domain "A" "1") (Sample.domain "B" "1") false = .ok pair ∧
      pair.splitCanonicalPair = .ok (source', some target') ∧ Restored Sample.leftTile source' ∧
      Restored Sample.withOrphan target' := by
  have hsome : (Sample.parting (Sample.domain "A" "1") (Sample.domain "B" "1") Sample.leftTile
      Sample.withOrphan).isSome = true := by decide +kernel
  obtain ⟨p, hp⟩ := Option.isSome_iff_exists.mp hsome
  obtain ⟨hpair, -⟩ := Sample.parting_ok hp
  obtain ⟨source', target', hsplit, ⟨hsource, htarget⟩, -⟩ := splitCanonicalPair_paired
    Sample.leftTile_obtainable Sample.withOrphan_obtainable (by decide +kernel) hpair
  have hoccupied : Sample.withOrphan.isEmptyAt (Sample.domain "B" "1").key = false := by decide +kernel
  rw [hoccupied] at hsplit
  exact ⟨p.pair, source', target', hpair, hsplit, hsource, htarget⟩

/-- Every pair of sessions the builder takes, with a target as asked for,
splits into two, the target's half as wanted. -/
def SplitsBack (asked : Session → DomainKey → Prop) (wanted : Session → Session → Prop) : Prop :=
  ∀ (source target pair : Session) (d e : OutputDomain) (requireAdjacency : Bool),
    Obtainable source → Obtainable target → SameSettings source target →
      pairedFromCanonicalImpl source (some target) d e requireAdjacency = .ok pair →
      asked target e.key → ∃ source' target',
        pair.splitCanonicalPair = .ok (source', some target') ∧ wanted target target'

theorem SplitsBack.parting {asked : Session → DomainKey → Prop} {wanted : Session → Session → Prop}
    {p : Sample.Parting} {e : OutputDomain} (h : SplitsBack asked wanted) (hs : Obtainable source)
    (ht : Obtainable target)
    (hsettings : SameSettings source target) (hp : Sample.parting d e source target = some p)
    (hasked : asked target e.key) : ∃ target', p.right = some target' ∧ wanted target target' := by
  obtain ⟨hpair, hsplit⟩ := Sample.parting_ok hp
  obtain ⟨source', target', hsplit', hwanted⟩ := h _ _ _ _ _ _ hs ht hsettings hpair hasked
  obtain ⟨-, hright⟩ := Prod.mk.inj (Except.ok.inj (hsplit.symm.trans hsplit'))
  exact ⟨target', hright, hwanted⟩

/-- An orphan's rectangle and mark do not come back, an empty target does not,
and a last active leaf named like a fresh id comes back as another. -/
theorem splitCanonicalPair_not_back :
    ¬SplitsBack (fun target key => target.isEmptyAt key = false) (fun target target' =>
        target'.retainedFloatGeometry = target.retainedFloatGeometry ∨
          target'.automaticFixed = target.automaticFixed) ∧
      ¬SplitsBack (fun _ _ => True) (fun _ _ => True) ∧
      ¬SplitsBack (fun target key => target.isEmptyAt key = false)
        (fun target target' => target'.lastActive = target.lastActive) := by
  refine ⟨fun hclaim => ?_, fun hclaim => ?_, fun hclaim => ?_⟩
  · have heval : (Sample.parting (Sample.domain "A" "1") (Sample.domain "B" "1") Sample.leftTile
        Sample.withOrphan).any (fun p => p.right.all fun t =>
          !t.retainedFloatGeometry.contains ⟨"f"⟩ && !t.automaticFixed.contains ⟨"f"⟩) = true := by
      decide +kernel
    obtain ⟨p, hp, hright⟩ := (Option.any_eq_true _ _).mp heval
    obtain ⟨target', htarget, hback⟩ := hclaim.parting Sample.leftTile_obtainable
      Sample.withOrphan_obtainable (by decide +kernel) hp (by decide +kernel)
    rw [htarget, Option.all_some, Bool.and_eq_true, Bool.not_eq_true', Bool.not_eq_true'] at hright
    rcases hback with heq | heq
    · rw [heq] at hright
      exact absurd hright.1 (by decide +kernel)
    · rw [heq] at hright
      exact absurd hright.2 (by decide +kernel)
  · have heval : (Sample.parting (Sample.domain "A" "1") (Sample.domain "B" "1") Sample.leftTile
        Sample.emptyRight).any (fun p => p.right.isNone) = true := by decide +kernel
    obtain ⟨p, hp, hright⟩ := (Option.any_eq_true _ _).mp heval
    obtain ⟨target', htarget, -⟩ := hclaim.parting Sample.leftTile_obtainable
      Sample.emptyRight_obtainable (by decide +kernel) hp trivial
    rw [htarget] at hright
    cases hright
  · have heval : Sample.withStale.any (fun target =>
        (decide (SameSettings Sample.rightTile target) && !target.isEmptyAt (Sample.domain "A" "1").key) &&
        (Sample.parting (Sample.domain "B" "1") (Sample.domain "A" "1") Sample.rightTile target).any
          fun p => p.right.all fun t =>
            t.lastActive[(Sample.domain "A" "1").key]? != target.lastActive[(Sample.domain "A" "1").key]?) =
        true := by decide +kernel
    obtain ⟨target, hstale, hchecks⟩ := (Option.any_eq_true _ _).mp heval
    simp only [Bool.and_eq_true, decide_eq_true_eq, Bool.not_eq_true', Option.any_eq_true] at hchecks
    obtain ⟨⟨hsettings, hoccupied⟩, p, hp, hright⟩ := hchecks
    obtain ⟨target', htarget, heq⟩ := hclaim.parting Sample.rightTile_obtainable
      (Sample.withStale_obtainable hstale) hsettings hp hoccupied
    rw [htarget, Option.all_some, heq, bne_self_eq_false] at hright
    cases hright

end Session

end PlasmaTiler
