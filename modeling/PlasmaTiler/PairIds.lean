import PlasmaTiler.Halves
import PlasmaTiler.Settling

/-!
# The ids of a pair

A transfer works on a pair: two sessions of one domain each put side by side,
which it then takes apart again. Pairing renames the target's ids where one of
them is taken, and keeps the way back; splitting renames them back, and mints
an id for a moved leaf whose own one is taken on the other side.

Neither leaves the alphabet. The renamed ids are minted from a number, and
whatever the renaming does not touch stays as it was. So a pair of lettered
sessions is lettered, and so are both halves of a lettered pair:

- the trees by `Node.Over.rename`, the links by their windows;
- the records by what a pair joins (`Joined`) and what a split parts
  (`Parted`): each window of a half's records is in the pair's;
- the last active leaves by the renaming, as the trees.

A new work area changes no id, and needs the domain's keys only.
-/

namespace PlasmaTiler

section
variable {P : NodeId → Prop} {n : Node} {f : NodeId → NodeId} {m : BTreeMap NodeId NodeId}
  {name : Nat → NodeId} {i : NodeId}

theorem Node.Over.rename {Q : NodeId → Prop} (h : n.Over P) (hf : ∀ i, P i → Q (f i)) :
    (n.rename f).Over Q := by
  intro j hj
  rw [Node.ids_rename] at hj
  obtain ⟨i, hi, rfl⟩ := List.mem_map.mp hj
  exact hf i (h i hi)

theorem firstFree_spelled (hname : ∀ n, (name n).Spelled) (existing : BTreeSet NodeId) :
    (firstFree name existing).Spelled := by
  unfold firstFree
  cases hfind : ((List.range (existing.size + 1)).map name).find? (· ∉ existing) with
  | none => exact hname 0
  | some i =>
    obtain ⟨n, -, rfl⟩ := List.mem_map.mp (List.mem_of_find?_eq_some hfind)
    exact hname n

theorem mintAll_spelled {ids : List NodeId} {occupied : BTreeSet NodeId}
    (hname : ∀ n, (name n).Spelled) (hm : ∀ i v : NodeId, m[i]? = some v → v.Spelled) :
    ∀ i v : NodeId, (mintAll name ids occupied m)[i]? = some v → v.Spelled := by
  induction ids generalizing occupied m with
  | nil => exact hm
  | cons j ids ih =>
    refine ih fun i v hv => ?_
    rw [lookup_insert] at hv
    split at hv
    · cases hv
      exact firstFree_spelled hname occupied
    · exact hm i v hv

theorem remapNodeId_spelled (hm : ∀ i v : NodeId, m[i]? = some v → v.Spelled) (hi : i.Spelled) :
    (remapNodeId m i).Spelled := by
  cases hv : m[i]? with
  | none =>
    rw [remapNodeId_of_none hv]
    exact hi
  | some v =>
    rw [remapNodeId_of_lookup hv]
    exact hm i v hv

theorem empty_spelled : ∀ i v : NodeId, (∅ : BTreeMap NodeId NodeId)[i]? = some v → v.Spelled := by
  intro i v hv
  rw [Std.ExtTreeMap.getElem?_empty] at hv
  cases hv

end

/-! ## Work areas -/

section
variable {domains domains' : List OutputDomain} {trees : Trees} {windows : Links}
  {exceptions : Exceptions} {focusedDomain : Option DomainKey} {focusedLeaf : Option NodeId}

theorem any_key {p : DomainKey → Bool}
    (h : domains'.map OutputDomain.key = domains.map OutputDomain.key) :
    (domains'.any fun d => p d.key) = domains.any fun d => p d.key := by
  have hany : ∀ l : List OutputDomain, (l.any fun d => p d.key) = (l.map OutputDomain.key).any p :=
    fun l => List.any_map.symm
  rw [hany, hany, h]

/-- Of its domains a world needs the keys, and that each is valid. -/
theorem WorldOk.of_keys (h : WorldOk domains trees windows exceptions focusedDomain focusedLeaf)
    (hkeys : domains'.map OutputDomain.key = domains.map OutputDomain.key)
    (hvalid : ∀ d ∈ domains', d.validate = true) :
    WorldOk domains' trees windows exceptions focusedDomain focusedLeaf := by
  have hlength : domains'.length = domains.length := by simpa using congrArg List.length hkeys
  have hmem : ∀ key, (∃ d ∈ domains', d.key = key) ↔ ∃ d ∈ domains, d.key = key := fun key => by
    rw [← List.mem_map, ← List.mem_map, hkeys]
  refine ⟨fun hnil => h.domains_ne ?_, h.slot_count.trans hlength.symm, hvalid, fun d hd => ?_,
    fun key hkey => (hmem key).mpr (h.domain_of_slot key hkey), h.tree_ok, h.disjoint,
    fun {w r} hr => ?_, fun {w l} hl => ?_, h.leaf_inj, h.leaf_linked, h.focus⟩
  · rw [hnil] at hlength
    exact List.length_eq_zero_iff.mp hlength.symm
  · obtain ⟨e, he, heq⟩ := (hmem d.key).mp ⟨d, hd, rfl⟩
    exact heq ▸ h.slot_of_domain e he
  · rw [← h.exception_valid hr]
    exact congrArg _
      (@any_key domains domains' (fun k => k.output == r.output && k.workspace == r.workspace) hkeys)
  · rw [← h.link_valid hl]
    simp only [validLink]
    rw [@any_key domains domains' (· == l.key) hkeys]

/-- What is remembered for a domain is remembered for its key. -/
theorem Session.ActiveAt.of_keys {lastActive : BTreeMap DomainKey NodeId}
    (h : Session.ActiveAt domains lastActive)
    (hkeys : domains'.map OutputDomain.key = domains.map OutputDomain.key) :
    Session.ActiveAt domains' lastActive := by
  intro key leaf hleaf
  rw [← List.mem_map, hkeys, List.mem_map]
  exact h hleaf

theorem validate_reprojected {d e : OutputDomain} (hd : d.validate = true) (he : e.validate = true) :
    ({ d with bounds := e.bounds } : OutputDomain).validate = true := by
  simp only [OutputDomain.validate, Bool.and_eq_true] at hd he ⊢
  obtain ⟨⟨⟨⟨⟨⟨⟨⟨hid, hworkspace⟩, -⟩, -⟩, -⟩, -⟩, hgap⟩, hsize⟩, hadjacent⟩ := hd
  obtain ⟨⟨⟨⟨⟨⟨⟨⟨-, -⟩, hwidth⟩, hheight⟩, hright⟩, hbottom⟩, -⟩, -⟩, -⟩ := he
  exact ⟨⟨⟨⟨⟨⟨⟨⟨hid, hworkspace⟩, hwidth⟩, hheight⟩, hright⟩, hbottom⟩, hgap⟩, hsize⟩, hadjacent⟩

end

namespace Session

variable {s source pair half source' t : Session} {target? : Option Session}
  {sourceDomain targetDomain d : OutputDomain} {key : DomainKey} {f : NodeId → NodeId}

/-! ## Pairs -/

theorem pairRenaming_spelled (i v : NodeId) (h : (pairRenaming source target?)[i]? = some v) :
    v.Spelled := by
  cases target? with
  | none => exact empty_spelled i v h
  | some target =>
    exact mintAll_spelled (fun n => Lettered.append (by decide) (lettered_toString n))
      empty_spelled i v h

/-- A record of a pair is one of its two sessions'. -/
theorem Assembled.records (h : Assembled source target? sourceDomain targetDomain pair)
    (hj : Joined source target? pair) (hs : source.RecordsSpelled)
    (ht : ∀ t, target? = some t → t.RecordsSpelled) : pair.RecordsSpelled := by
  refine ⟨⟨fun {w r} hr => ?_, fun {w} hw => ?_, fun {w} hw => ?_⟩, fun {w} hw => ?_,
    fun {key leaf} hleaf => ?_⟩
  · have hr : pair.exceptions[w]? = some r := hr
    rw [h.exceptions, Option.or_eq_some_iff] at hr
    rcases hr with hr | ⟨-, hr⟩
    · obtain ⟨t, hsome, hr⟩ := Option.bind_eq_some_iff.mp hr
      exact (ht t hsome).apart.exception hr
    · exact hs.apart.exception hr
  · rcases (hj.automatic w).mp hw with hw | ⟨t, hsome, hw⟩
    · exact hs.apart.automatic hw
    · exact (ht t hsome).apart.automatic hw
  · rcases (hj.override w).mp hw with hw | ⟨t, hsome, hw⟩
    · exact hs.apart.tileOverride hw
    · exact (ht t hsome).apart.tileOverride hw
  · obtain ⟨rect, hrect⟩ := mem_iff_lookup.mp hw
    have hrect : pair.retainedFloatGeometry[w]? = some rect := hrect
    rw [hj.retained, Option.or_eq_some_iff] at hrect
    rcases hrect with hrect | ⟨-, hrect⟩
    · obtain ⟨t, hsome, hrect⟩ := Option.bind_eq_some_iff.mp hrect
      exact (ht t hsome).retained (mem_iff_lookup.mpr ⟨rect, hrect⟩)
    · exact hs.retained (mem_iff_lookup.mpr ⟨rect, hrect⟩)
  · have hleaf : pair.lastActive[key]? = some leaf := hleaf
    rw [hj.lastActive, Option.or_eq_some_iff] at hleaf
    rcases hleaf with hleaf | ⟨-, hleaf⟩
    · obtain ⟨own, hown, rfl⟩ := Option.map_eq_some_iff.mp hleaf
      obtain ⟨t, hsome, hown⟩ := Option.bind_eq_some_iff.mp hown
      exact remapNodeId_spelled pairRenaming_spelled ((ht t hsome).active hown)
    · exact hs.active hleaf

theorem Assembled.spelled (h : Assembled source target? sourceDomain targetDomain pair)
    (hj : Joined source target? pair) (hs : source.IdsSpelled)
    (ht : ∀ t, target? = some t → t.IdsSpelled) (hsource : sourceDomain.key.Opaque)
    (htarget : targetDomain.key.Opaque) : pair.IdsSpelled := by
  obtain ⟨-, -, hdesired, hdrag⟩ := settledWorld_iff.mp h.settled
  refine ⟨?_, ⟨fun {key n} hn => ?_, fun {w link} hlink => ?_⟩,
    h.records hj hs.records fun t hsome => (ht t hsome).records, undesired hdesired,
    undragged hdrag, fun {i j} hij => ?_⟩
  · rw [h.domains]
    exact List.forall_mem_cons.mpr ⟨hsource, List.forall_mem_singleton.mpr htarget⟩
  · obtain ⟨e, he, rfl⟩ := h.valid.domain_of_slot key (mem_of_treeAt hn)
    rw [h.domains] at he
    rcases List.mem_cons.mp he with rfl | he
    · rw [h.sourceTree] at hn
      exact hs.accepted.tree hn
    · obtain rfl := List.mem_singleton.mp he
      rw [h.targetTree] at hn
      obtain ⟨own, hthere, rfl⟩ := Option.map_eq_some_iff.mp hn
      obtain ⟨t, rfl, hown⟩ := Option.bind_eq_some_iff.mp hthere
      exact ((ht t rfl).accepted.tree hown).rename fun i hi =>
        remapNodeId_spelled pairRenaming_spelled hi
  · rw [h.windows, Option.or_eq_some_iff] at hlink
    rcases hlink with hlink | ⟨-, hlink⟩
    · obtain ⟨own, hthere, rfl⟩ := Option.map_eq_some_iff.mp hlink
      obtain ⟨t, rfl, hown⟩ := Option.bind_eq_some_iff.mp hthere
      have hids := (ht t rfl).accepted.window hown
      exact hids
    · exact hs.accepted.window hlink
  · rw [h.restore] at hij
    have hminted := @pairRenaming_minted source target?
    have hrenamed := (inverseMap_lookup hminted.inj).mp hij
    obtain hj := hminted.domain.mpr ⟨i, hrenamed⟩
    refine ⟨pairRenaming_spelled j i hrenamed, ?_⟩
    cases target? with
    | none => cases hj
    | some t =>
      obtain ⟨key, n, hn, hmem⟩ :=
        mem_allNodeIds_iff.mp (Std.ExtTreeSet.mem_toList.mp hj)
      exact (ht t rfl).accepted.tree hn j hmem

/-- Two lettered sessions make a lettered pair. -/
theorem paired_lettered {requireAdjacency : Bool}
    (h : pairedFromCanonicalImpl source target? sourceDomain targetDomain requireAdjacency =
      .ok pair) (hs : source.Lettered) (ht : ∀ t, target? = some t → t.Lettered)
    (hsource : sourceDomain.key.Opaque) (htarget : targetDomain.key.Opaque) : pair.Lettered := by
  have ha := pairedFromCanonicalImpl_assembled h
  have hj := pairedFromCanonicalImpl_joined h
  obtain ⟨-, -, hdesired, -⟩ := settledWorld_iff.mp ha.settled
  have hidle : ∀ desired, pair.pendingDesired ≠ some desired := by simp [hdesired]
  refine ⟨hs.toOrderly.paired (fun t hsome => (ht t hsome).toOrderly) h,
    ⟨fun {w link} hlink => ?_, fun desired heq => absurd heq (hidle desired)⟩,
    ha.spelled hj hs.ids (fun t hsome => (ht t hsome).ids) hsource htarget⟩
  rw [ha.windows, Option.or_eq_some_iff] at hlink
  rcases hlink with hlink | ⟨-, hlink⟩
  · obtain ⟨own, hthere, rfl⟩ := Option.map_eq_some_iff.mp hlink
    obtain ⟨t, rfl, hown⟩ := Option.bind_eq_some_iff.mp hthere
    have hkeyed : own.window = w := (ht t rfl).keyed.accepted hown
    exact hkeyed
  · exact hs.keyed.accepted hlink

/-- A pair is its source's. -/
theorem paired_identity {requireAdjacency : Bool}
    (h : pairedFromCanonicalImpl source target? sourceDomain targetDomain requireAdjacency =
      .ok pair) : pair.owner = source.owner ∧ pair.generation = source.generation := by
  cases target? with
  | none =>
    simp only [pairedFromCanonicalImpl, bind_eq_ok, mapError_eq_ok, pure_eq_ok] at h
    obtain ⟨_, -, _, -, _, -, base, hbase, _, -, rfl⟩ := h
    obtain ⟨-, howner, hgeneration, -⟩ := new_ok hbase
    exact ⟨howner, hgeneration⟩
  | some target =>
    simp only [pairedFromCanonicalImpl, bind_eq_ok, mapError_eq_ok, pure_eq_ok] at h
    obtain ⟨_, -, _, -, _, -, _, -, _, -, _, -, base, hbase, _, -, rfl⟩ := h
    obtain ⟨-, howner, hgeneration, -⟩ := new_ok hbase
    exact ⟨howner, hgeneration⟩

/-! ## Halves -/

theorem rejoin_spelled (h : pair.IdsSpelled) {i : NodeId} (hi : i.Spelled) :
    (pair.rejoin key i).Spelled :=
  remapNodeId_spelled (fun _ _ hv => (h.restore hv).2)
    (remapNodeId_spelled
      (mintAll_spelled (fun n => Lettered.append (by decide) (lettered_toString n)) empty_spelled) hi)

theorem sideOf_untouched (h : pair.sideOf d = .ok half) :
    half.drag = none ∧ half.canonicalPairTargetRestore = ∅ := by
  simp only [sideOf, bind_eq_ok, mapError_eq_ok, pure_eq_ok] at h
  obtain ⟨base, hbase, rfl⟩ := h
  have hrestore := new_restore hbase
  exact ⟨(new_ok hbase).1.drag, hrestore⟩

/-- No half is dragged or carries ids to restore. -/
theorem splitCanonicalPair_untouched (h : pair.splitCanonicalPair = .ok (source', target?)) :
    (source'.drag = none ∧ source'.canonicalPairTargetRestore = ∅) ∧
      ∀ t, target? = some t → t.drag = none ∧ t.canonicalPairTargetRestore = ∅ := by
  unfold splitCanonicalPair at h
  split at h
  · simp only [bind_eq_ok, ensure_eq_ok, pure_eq_ok, Prod.mk.injEq] at h
    obtain ⟨_, -, half, hhalf, other, hother, _, -, _, -, _, -, rfl, rfl⟩ := h
    have hsource := sideOf_untouched hhalf
    have htarget := sideOf_untouched hother
    refine ⟨hsource, fun t ht => ?_⟩
    split at ht
    · cases ht
    · cases ht
      exact htarget
  · cases h

/-- What a half of a split pair keeps under the ids of windows, the retained
rectangles and the two kinds of marks, was kept by the pair already: a split
names no window of its own. -/
structure Inherits (pair half : Session) : Prop where
  retained : ∀ {w : WindowId}, w ∈ half.retainedFloatGeometry → w ∈ pair.retainedFloatGeometry
  automatic : ∀ {w : WindowId}, w ∈ half.automaticFixed → w ∈ pair.automaticFixed
  tileOverride : ∀ {w : WindowId}, w ∈ half.fixedTileOverride → w ∈ pair.fixedTileOverride

theorem Parted.inherits {moves : WindowId → Bool}
    (h : Parted (fun w => pair.retainedFloatGeometry[w]?) (· ∈ pair.automaticFixed)
      (· ∈ pair.fixedTileOverride) moves source' half) :
    pair.Inherits source' ∧ pair.Inherits half := by
  refine ⟨⟨fun {w} hw => ?_, fun {w} hw => ((h.automatic w).1.mp hw).1,
      fun {w} hw => ((h.override w).1.mp hw).1⟩,
    ⟨fun {w} hw => ?_, fun {w} hw => ((h.automatic w).2.mp hw).1,
      fun {w} hw => ((h.override w).2.mp hw).1⟩⟩
  · obtain ⟨rect, hrect⟩ := mem_iff_lookup.mp hw
    rw [(h.retained w).1] at hrect
    split at hrect
    · cases hrect
    · exact mem_iff_lookup.mpr ⟨rect, hrect⟩
  · obtain ⟨rect, hrect⟩ := mem_iff_lookup.mp hw
    rw [(h.retained w).2] at hrect
    split at hrect
    · exact mem_iff_lookup.mpr ⟨rect, hrect⟩
    · cases hrect

theorem Half.records (h : Half pair d f half) (hp : pair.RecordsSpelled)
    (hf : ∀ i : NodeId, i.Spelled → (f i).Spelled) (hinherits : pair.Inherits half) :
    half.RecordsSpelled := by
  refine ⟨⟨fun {w r} hr => ?_, fun hw => hp.apart.automatic (hinherits.automatic hw),
    fun hw => hp.apart.tileOverride (hinherits.tileOverride hw)⟩,
    fun hw => hp.retained (hinherits.retained hw), fun {key leaf} hleaf => ?_⟩
  · have hr : half.exceptions[w]? = some r := hr
    rw [h.exceptions] at hr
    exact hp.apart.exception (Option.filter_eq_some_iff.mp hr).1
  · have hleaf : half.lastActive[key]? = some leaf := hleaf
    rw [h.lastActive] at hleaf
    split at hleaf
    · obtain ⟨own, hown, rfl⟩ := Option.map_eq_some_iff.mp hleaf
      exact hf own (hp.active hown)
    · cases hleaf

theorem Half.lettered (h : Half pair d f half) (hp : pair.Lettered) (hd : d ∈ pair.domains)
    (hf : ∀ i : NodeId, i.Spelled → (f i).Spelled) (hvalid : half.Valid)
    (hinherits : pair.Inherits half)
    (huntouched : half.drag = none ∧ half.canonicalPairTargetRestore = ∅) : half.Lettered := by
  have hidle : ∀ desired, half.pendingDesired ≠ some desired := by simp [h.idle]
  refine ⟨h.orderly hvalid hp.toOrderly,
    ⟨fun {w link} hlink => ?_, fun desired heq => absurd heq (hidle desired)⟩,
    ?_, ⟨fun {key n} hn => ?_, fun {w link} hlink => ?_⟩, h.records hp.ids.records hf hinherits,
    undesired h.idle, undragged huntouched.1, fun {i j} hij => ?_⟩
  · obtain ⟨own, hown, -, rfl⟩ := h.toSide.link.mp hlink
    have hkeyed : own.window = w := hp.keyed.accepted hown
    exact hkeyed
  · rw [h.domains]
    exact List.forall_mem_singleton.mpr (hp.ids.domain d hd)
  · rw [h.toSide.treeAt] at hn
    split at hn
    · obtain ⟨own, hown, rfl⟩ := Option.map_eq_some_iff.mp hn
      exact (hp.ids.accepted.tree hown).rename hf
    · cases hn
  · obtain ⟨own, hown, -, rfl⟩ := h.toSide.link.mp hlink
    have hids := hp.ids.accepted.window hown
    exact hids
  · rw [huntouched.2] at hij
    exact absurd hij (by simp)

/-- Both halves of a lettered pair. -/
theorem splitCanonicalPair_lettered (h : pair.splitCanonicalPair = .ok (source', target?))
    (hp : pair.Lettered) : source'.Lettered ∧ ∀ t, target? = some t → t.Lettered := by
  obtain ⟨huntouched, huntouched'⟩ := splitCanonicalPair_untouched h
  obtain ⟨sourceDomain, targetDomain, target', hdomains, -, hsource, htarget, hvalid, hparted,
    hsome⟩ := splitCanonicalPair_ok h
  obtain ⟨hinherits, hinherits'⟩ := hparted.inherits
  refine ⟨hsource.lettered hp ?_ (fun i hi => hi) hvalid.1 hinherits huntouched, fun t ht => ?_⟩
  · rw [hdomains]
    exact List.mem_cons_self
  · have huntouched' := huntouched' t ht
    rw [ht] at hsome
    split at hsome
    · cases hsome
    · cases hsome
      refine htarget.lettered hp ?_ (fun i hi => rejoin_spelled hp.ids hi) hvalid.2 hinherits'
        huntouched'
      rw [hdomains]
      exact List.mem_cons_of_mem _ List.mem_cons_self

/-! ## Reprojection -/

/-- The work area of a valid domain can be stored. -/
theorem reprojectDomain_lettered (h : s.Lettered) (hdomain : d.validate = true) :
    (s.reprojectDomain key d.bounds).Lettered := by
  have hkeys : (s.reprojectDomain key d.bounds).domains.map OutputDomain.key =
      s.domains.map OutputDomain.key := reprojectDomain_keys
  have hvalid : ∀ d' ∈ (s.reprojectDomain key d.bounds).domains, d'.validate = true := by
    intro d' hd
    rcases mem_updateDomain hd with hd | ⟨e, he, -, rfl⟩
    · exact h.worlds.accepted.domain_valid d' hd
    · exact validate_reprojected (h.worlds.accepted.domain_valid e he) hdomain
  have hlength : (s.reprojectDomain key d.bounds).domains.length = s.domains.length := by
    simpa using congrArg List.length hkeys
  refine ⟨⟨⟨h.worlds.accepted.of_keys hkeys hvalid,
    fun desired hdesired => (h.worlds.desired desired hdesired).of_keys hkeys hvalid⟩,
    h.stacked.congr rfl rfl rfl rfl rfl, h.remembers.active.of_keys hkeys,
    fun hone hnone => h.remembers.unfocused (hlength.symm.trans hone) hnone,
    fun desired hdesired => ?_⟩, ⟨h.keyed.accepted, h.keyed.desired⟩, ?_,
    h.ids.accepted, h.ids.records, h.ids.desired, h.ids.drag, h.ids.restore⟩
  · obtain ⟨hpending, hactive, hforgets⟩ := h.remembers.pending desired hdesired
    exact ⟨hpending, hactive.of_keys hkeys, fun hone => hforgets (hlength.symm.trans hone)⟩
  · intro d' hd
    rcases mem_updateDomain hd with hd | ⟨e, he, -, rfl⟩
    · exact h.ids.domain d' hd
    · exact h.ids.domain e he

end Session

end PlasmaTiler
