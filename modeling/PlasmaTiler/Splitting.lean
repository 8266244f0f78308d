import PlasmaTiler.PairWorld
import PlasmaTiler.Committing

/-!
# Splitting a pair after a transfer

A pair is its two components side by side, the target under other node ids
(`Assembled`). A transfer takes one window out of the source and grafts its
leaf into the target; the split renames the target back. The renaming back
tells all ids of the new target tree apart but one: the group the graft
opened is named against the ids of the pair, and so may carry an original id
of the target.

A split of a settled valid pair comes down to its two sides
(`splitCanonicalPair_sides`), and a side is valid when its renaming is
injective on the ids of its tree (`Side.valid`). So most of the module is
about `rejoin`, the renaming back with the mover's leaf in front, on the four
kinds of ids there are: those the pair had renamed, those it had not, those
carried in, and fresh ones.
-/

namespace PlasmaTiler

theorem toList_empty {κ ν : Type} [Ord κ] [Std.TransOrd κ] : (∅ : BTreeMap κ ν).toList = [] := by
  rw [← List.isEmpty_iff, Std.ExtTreeMap.isEmpty_toList]
  exact Std.ExtTreeMap.isEmpty_empty

theorem ensure_pure {ε α : Type} {b : Bool} {e : ε} {a : α} :
    (ensure b e >>= fun _ => pure a) = if b = true then .ok a else .error e := by
  cases b <;> rfl

/-- A domain stays valid without its neighbors. -/
theorem OutputDomain.validate_alone {d : OutputDomain} (h : d.validate = true) :
    OutputDomain.validate { d with adjacent := ∅ } = true := by
  simp only [OutputDomain.validate, Bool.and_eq_true] at h ⊢
  refine ⟨⟨h.1.1, by simp⟩, ?_⟩
  rw [values, toList_empty]
  rfl

namespace Session

variable {source pair pair' s : Session} {target? : Option Session}
  {sourceDomain targetDomain d : OutputDomain} {w mover : WindowId} {key : DomainKey}

/-! ## Assembled pairs -/

/-- The renaming of the target, if there is one. -/
def pairRenaming (source : Session) (target? : Option Session) : BTreeMap NodeId NodeId :=
  match target? with
  | some target => pairTargetNodeRemap source target
  | none => ∅

def targetIds (target? : Option Session) : List NodeId :=
  match target? with
  | some target => target.allNodeIds.toList
  | none => []

theorem pairRenaming_minted :
    Minted (pairRenaming source target?) (targetIds target?) source.allNodeIds := by
  cases target? with
  | some target => exact pairTargetNodeRemap_minted
  | none =>
    have hempty : ∀ {i v : NodeId}, (∅ : BTreeMap NodeId NodeId)[i]? ≠ some v := by
      intro i v h
      rw [Std.ExtTreeMap.getElem?_empty] at h
      cases h
    exact ⟨⟨nofun, fun ⟨v, hv⟩ => absurd hv hempty⟩, fun h => absurd h hempty,
      fun h => absurd h hempty, fun h => absurd h hempty⟩

/-- The pair has the two components side by side: both domains, every window
and exception of either with its leaf renamed where the ids would clash, and a
valid world that is settled. -/
structure Assembled (source : Session) (target? : Option Session)
    (sourceDomain targetDomain : OutputDomain) (pair : Session) : Prop where
  sourceOk : Component source sourceDomain
  targetOk : ∀ {t}, target? = some t → Component t targetDomain
  apart : ∀ {t}, target? = some t → ∀ w, t.isKnown w = true → source.isKnown w = false
  domains : pair.domains = [sourceDomain, targetDomain]
  keys : sourceDomain.key ≠ targetDomain.key
  valid : pair.Valid
  settled : pair.settledWorld = true
  sourceTree : treeAt pair.trees sourceDomain.key = treeAt source.trees sourceDomain.key
  targetTree : treeAt pair.trees targetDomain.key =
    (target?.bind fun t => treeAt t.trees targetDomain.key).map
      (Node.rename (remapNodeId (pairRenaming source target?)))
  windows : ∀ w : WindowId, pair.windows[w]? =
    ((target?.bind fun t => t.windows[w]?).map (remapLink (pairRenaming source target?))).or
      source.windows[w]?
  exceptions : ∀ w : WindowId, pair.exceptions[w]? =
    (target?.bind fun t => t.exceptions[w]?).or source.exceptions[w]?
  restore : pair.canonicalPairTargetRestore = inverseMap (pairRenaming source target?)

theorem apart_of_disjointState {target : Session} (h : disjointState source target = true)
    (hknown : target.isKnown w = true) : source.isKnown w = false := by
  simp only [disjointState, Bool.and_eq_true, List.all_eq_true, Std.ExtTreeMap.mem_keys,
    Bool.not_eq_true'] at h
  rcases isKnown_iff.mp hknown with hw | hw
  · exact h.1.1.1 w hw
  · exact h.1.1.2 w hw

theorem new_restore {owner : OwnerId} {generation : GenerationId} {revision fingerprint : Nat}
    {domains : List OutputDomain} (h : new owner generation revision fingerprint domains = .ok s) :
    s.canonicalPairTargetRestore = ∅ := by
  simp only [new, bind_eq_ok, pure_eq_ok] at h
  obtain ⟨_, -, _, -, _, -, _, -, _, -, _, -, _, -, rfl⟩ := h
  rfl

theorem pairedFromCanonicalImpl_assembled {requireAdjacency : Bool}
    (h : pairedFromCanonicalImpl source target? sourceDomain targetDomain requireAdjacency =
      .ok pair) : Assembled source target? sourceDomain targetDomain pair := by
  cases target? with
  | none =>
    simp only [pairedFromCanonicalImpl, bind_eq_ok, ensure_eq_ok, mapError_eq_ok, pure_eq_ok,
      Bool.and_eq_true, bne_iff_ne, checkComponent_iff, validateCurrentTopology_iff] at h
    obtain ⟨_, ⟨⟨-, hkeys⟩, -⟩, _, -, _, hsource, base, hbase, _, hvalid, rfl⟩ := h
    obtain ⟨hblank, -, -, -, -, hdomains⟩ := new_ok hbase
    refine ⟨hsource, nofun, nofun, hdomains, hkeys, hvalid, ?_, ?_, ?_, fun w => rfl, fun w => rfl, ?_⟩
    · simp only [settledWorld, withSource, divergence, hasPending, hasPendingDesired, hasDrag]
      have hdiverged : base.reconciler.diverged = none := hblank.divergence
      have hpending : base.reconciler.pending.isSome = false := hblank.pending
      simp [hdiverged, hpending, hblank.desired, hblank.drag]
    · simp only [withSource, treeAt_insert, if_neg hkeys.symm, if_pos]
    · simp only [withSource, treeAt_insert, if_pos]
      rfl
    · rw [withSource, new_restore hbase, pairRenaming, inverseMap, toList_empty]
      rfl
  | some target =>
    simp only [pairedFromCanonicalImpl, bind_eq_ok, ensure_eq_ok, mapError_eq_ok, pure_eq_ok,
      Bool.and_eq_true, bne_iff_ne, checkComponent_iff, validateCurrentTopology_iff] at h
    obtain ⟨_, ⟨⟨-, hkeys⟩, -⟩, _, -, _, hsource, _, htarget, _, -, _, hdisjoint, base, hbase, _,
      hvalid, rfl⟩ := h
    obtain ⟨hblank, -, -, -, -, hdomains⟩ := new_ok hbase
    refine ⟨hsource, ?_, ?_, hdomains, hkeys, hvalid, ?_, ?_, ?_, fun w => withTarget_windows,
      fun w => withTarget_exceptions, rfl⟩
    · rintro t ht
      cases ht
      exact htarget
    · rintro t ht w hknown
      cases ht
      exact apart_of_disjointState hdisjoint hknown
    · simp only [settledWorld, withTarget, withSource, divergence, hasPending, hasPendingDesired,
        hasDrag]
      have hdiverged : base.reconciler.diverged = none := hblank.divergence
      have hpending : base.reconciler.pending.isSome = false := hblank.pending
      simp [hdiverged, hpending, hblank.desired, hblank.drag]
    · simp only [withTarget, withSource, treeAt_insert, if_neg hkeys.symm, if_pos]
    · simp only [withTarget, treeAt_insert, if_pos, Option.bind_some]
      exact congrFun (congrArg Option.map (funext fun n => remapTreeNodeIds_eq)) _

/-! ## One side of a split -/

/-- The half of a pair at one domain: its tree, links, exceptions and focus,
with the leaves under the names they had before they were paired. -/
structure Side (pair : Session) (d : OutputDomain) (f : NodeId → NodeId) (side : Session) :
    Prop where
  domains : side.domains = [{ d with adjacent := ∅ }]
  trees : side.trees = (∅ : Trees).insert d.key ((treeAt pair.trees d.key).map (Node.rename f))
  windows : ∀ w : WindowId, side.windows[w]? =
    (pair.windows[w]?.filter (·.key == d.key)).map fun link => { link with leaf := f link.leaf }
  exceptions : ∀ w : WindowId, side.exceptions[w]? = pair.exceptions[w]?.filter (·.key == d.key)
  focusedDomain : side.focusedDomain = (pair.sideFocus d.key).map fun _ => d.key
  focusedLeaf : side.focusedLeaf = (pair.sideFocus d.key).map f

section
variable {f : NodeId → NodeId} {side : Session}

theorem Side.link (h : Side pair d f side) {l : WindowLink} : side.windows[w]? = some l ↔
    ∃ link, pair.windows[w]? = some link ∧ link.key = d.key ∧ { link with leaf := f link.leaf } = l := by
  rw [h.windows, Option.map_eq_some_iff]
  simp only [Option.filter_eq_some_iff, beq_iff_eq, and_assoc]

theorem Side.treeAt (h : Side pair d f side) : treeAt side.trees key =
    if d.key = key then (treeAt pair.trees d.key).map (Node.rename f) else none := by
  rw [h.trees, treeAt_insert]
  split
  · rfl
  · simp [PlasmaTiler.treeAt]

theorem sideFocus_valid (hpair : pair.Valid) {leaf : NodeId} (h : pair.sideFocus key = some leaf) :
    validFocus pair.trees pair.windows (some key) (some leaf) = true := by
  unfold sideFocus at h
  split at h
  · rename_i hfocused
    have hfocus := hpair.focus
    rwa [hfocused, h] at hfocus
  · exact (Option.filter_eq_some_iff.mp h).2

/-- A side is valid when the renaming tells the ids of its tree apart and
leaves none empty; every rule of the world is one of the pair's, restricted to
the domain. -/
theorem Side.valid (h : Side pair d f side) (hpair : pair.Valid) (hd : d ∈ pair.domains)
    (hinj : ∀ tree, PlasmaTiler.treeAt pair.trees d.key = some tree →
      ∀ i ∈ tree.ids, ∀ j ∈ tree.ids, f i = f j → i = j)
    (hnamed : ∀ tree, PlasmaTiler.treeAt pair.trees d.key = some tree →
      ∀ i ∈ tree.ids, (f i).isEmpty = false) : side.Valid := by
  have hlinkLeaf : ∀ {w : WindowId} {link : WindowLink}, pair.windows[w]? = some link →
      link.key = d.key → ∃ tree, PlasmaTiler.treeAt pair.trees d.key = some tree ∧
        link.leaf ∈ tree.leaves ∧ link.leaf ∈ tree.ids := by
    intro w link hlink hkey
    obtain ⟨tree, htree, hleaf⟩ := hasLeaf_iff.mp (hasLeaf_of_link hpair hlink)
    exact ⟨tree, hkey ▸ htree, hleaf, Node.mem_ids_of_mem_leaves hleaf⟩
  have hrenamed : ∀ {tree : Node} {leaf : NodeId}, PlasmaTiler.treeAt pair.trees d.key = some tree →
      leaf ∈ tree.leaves → hasLeaf side.trees d.key (f leaf) = true := by
    intro tree leaf htree hleaf
    refine hasLeaf_iff.mpr ⟨tree.rename f, by rw [h.treeAt, if_pos rfl, htree]; rfl, ?_⟩
    rw [Node.leaves_rename]
    exact List.mem_map_of_mem hleaf
  refine {
    domains_ne := by rw [h.domains]; simp
    slot_count := by
      rw [h.domains, h.trees, Std.ExtTreeMap.size_insert, if_neg (by simp), Std.ExtTreeMap.size_empty]
      rfl
    domain_valid := ?_
    slot_of_domain := ?_
    domain_of_slot := ?_
    tree_ok := ?_
    disjoint := ?_
    exception_valid := ?_
    link_valid := ?_
    leaf_inj := ?_
    leaf_linked := ?_
    focus := ?_ }
  · intro e he
    rw [h.domains, List.mem_singleton] at he
    subst he
    exact OutputDomain.validate_alone (hpair.domain_valid d hd)
  · intro e he
    rw [h.domains, List.mem_singleton] at he
    subst he
    rw [h.trees]
    exact mem_iff_lookup.mpr ⟨_, lookup_insert.trans (if_pos rfl)⟩
  · intro key hkey
    rw [h.trees, Std.ExtTreeMap.mem_insert, Std.LawfulEqOrd.compare_eq_iff_eq] at hkey
    rw [h.domains]
    refine ⟨_, List.mem_singleton.mpr rfl, ?_⟩
    rcases hkey with hkey | hkey
    · exact hkey
    · simp at hkey
  · intro key tree htree
    rw [h.treeAt] at htree
    split at htree
    · obtain ⟨t, ht, rfl⟩ := Option.map_eq_some_iff.mp htree
      exact (hpair.tree_ok ht).rename (hinj t ht) (hnamed t ht)
    · cases htree
  · intro w hw hrecord
    obtain ⟨l, hl⟩ := mem_iff_lookup.mp hw
    obtain ⟨r, hr⟩ := mem_iff_lookup.mp hrecord
    obtain ⟨link, hlink, -, -⟩ := h.link.mp hl
    rw [h.exceptions] at hr
    exact hpair.disjoint (mem_iff_lookup.mpr ⟨link, hlink⟩)
      (mem_iff_lookup.mpr ⟨r, (Option.filter_eq_some_iff.mp hr).1⟩)
  · intro w r hr
    rw [h.exceptions, Option.filter_eq_some_iff, beq_iff_eq] at hr
    obtain ⟨hr, hkey⟩ := hr
    have hrecord := hpair.exception_valid hr
    rw [ExceptionRecord.key, OutputDomain.key, DomainKey.mk.injEq] at hkey
    simp only [validException, Bool.and_eq_true] at hrecord ⊢
    refine ⟨hrecord.1, ?_⟩
    rw [h.domains, hkey.1, hkey.2]
    simp
  · intro w l hl
    obtain ⟨link, hlink, hkey, rfl⟩ := h.link.mp hl
    obtain ⟨tree, htree, hleaf, hid⟩ := hlinkLeaf hlink hkey
    have hvalid := hpair.link_valid hlink
    have hkey' : WindowLink.key { link with leaf := f link.leaf } = d.key := hkey
    simp only [validLink, Bool.and_eq_true, Bool.not_eq_true'] at hvalid ⊢
    refine ⟨⟨⟨⟨⟨hvalid.1.1.1.1.1, hnamed tree htree _ hid⟩, hvalid.1.1.1.2⟩, hvalid.1.1.2⟩, ?_⟩, ?_⟩
    · rw [h.domains, hkey']
      simp [OutputDomain.key]
    · rw [hkey']
      exact hrenamed htree hleaf
  · intro w w' l l' hl hl' heq
    obtain ⟨link, hlink, hkey, rfl⟩ := h.link.mp hl
    obtain ⟨link', hlink', hkey', rfl⟩ := h.link.mp hl'
    obtain ⟨tree, htree, -, hid⟩ := hlinkLeaf hlink hkey
    obtain ⟨tree', htree', -, hid'⟩ := hlinkLeaf hlink' hkey'
    obtain rfl := Option.some.inj (htree.symm.trans htree')
    exact hpair.leaf_inj hlink hlink' (hinj tree htree _ hid _ hid' heq)
  · intro key tree leaf htree hleaf
    rw [h.treeAt] at htree
    split at htree
    · rename_i hkey
      obtain ⟨t, ht, rfl⟩ := Option.map_eq_some_iff.mp htree
      rw [Node.leaves_rename] at hleaf
      obtain ⟨i, hi, rfl⟩ := List.mem_map.mp hleaf
      obtain ⟨w, link, hlink, rfl, hhome⟩ := hpair.leaf_linked ht hi
      exact ⟨w, _, h.link.mpr ⟨link, hlink, hhome, rfl⟩, rfl, hhome.trans hkey⟩
    · cases htree
  · rw [h.focusedDomain, h.focusedLeaf]
    cases hfocus : pair.sideFocus d.key with
    | none => rfl
    | some leaf =>
      have hvalid := sideFocus_valid hpair hfocus
      rw [validFocus, Bool.and_eq_true] at hvalid
      obtain ⟨tree, htree, hleaf⟩ := hasLeaf_iff.mp hvalid.1
      obtain ⟨w, link, hlink, rfl, hkey⟩ := linkedAt_iff.mp hvalid.2
      rw [Option.map_some, Option.map_some, validFocus, Bool.and_eq_true]
      exact ⟨hrenamed htree hleaf,
        linkedAt_iff.mpr ⟨w, _, h.link.mpr ⟨link, hlink, hkey, rfl⟩, rfl, hkey⟩⟩

end

/-! ## The split -/

/-- The renaming back: the mover's leaf first, when its id is an original one
of the target, then the ids the pair had renamed. -/
def rejoin (pair : Session) (key : DomainKey) (leaf : NodeId) : NodeId :=
  remapNodeId pair.canonicalPairTargetRestore
    (remapNodeId (pair.movedTargetRemap (pair.windows.filter fun _ link => link.key == key)) leaf)

/-- The half of a pair a side starts from: what the pair has at this domain
and nothing else, the leaves still under the pair's names. -/
structure HalfOf (pair : Session) (d : OutputDomain) (half : Session) : Prop where
  domains : half.domains = [{ d with adjacent := ∅ }]
  trees : half.trees = (∅ : Trees).insert d.key (treeAt pair.trees d.key)
  windows : half.windows = pair.windows.filter fun _ link => link.key == d.key
  exceptions : half.exceptions = pair.exceptions.filter fun _ record => record.key == d.key

theorem sideOf_half (hd : d.validate = true) (hrevision : isRevision pair.acceptedRevision = true) :
    ∃ half, pair.sideOf d = .ok half ∧ HalfOf pair d half := by
  have howner : isOwnerId pair.owner.asStr = true := pair.owner.valid_asStr
  have hgeneration : isGenerationId pair.generation.asStr = true := pair.generation.valid_asStr
  have halone := OutputDomain.validate_alone hd
  have hadjacency : validateAdjacency [{ d with adjacent := ∅ }] = true := by
    simp [validateAdjacency, toList_empty]
  have hok : ∃ base, Session.new pair.owner pair.generation pair.acceptedRevision
      pair.acceptedFingerprint [{ d with adjacent := ∅ }] = .ok base := by
    simp only [Session.new, Reconciler.new, howner, hgeneration, hrevision, hadjacency, halone,
      List.isEmpty_cons, List.all_cons, List.all_nil, Bool.not_false, Bool.and_true, List.map_cons,
      List.map_nil, List.nodup_singleton, decide_true, ensure_true]
    exact ⟨_, rfl⟩
  obtain ⟨base, hbase⟩ := hok
  obtain ⟨-, -, -, -, -, hdomains⟩ := new_ok hbase
  rw [sideOf, hbase]
  exact ⟨_, rfl, hdomains, rfl, rfl, rfl⟩

section
variable {half left right : Session} {isSource : Bool}

/-- The source keeps its ids. -/
theorem HalfOf.source_side (h : HalfOf pair d half) :
    Side pair d id ((half.withSideMarks pair left right isSource).withSideFocus pair d.key id) := by
  refine ⟨h.domains, ?_, fun w => ?_, fun w => ?_, rfl, rfl⟩
  · show half.trees = _
    rw [h.trees]
    cases PlasmaTiler.treeAt pair.trees d.key with
    | none => rfl
    | some tree => exact congrArg _ (congrArg some Node.rename_self.symm)
  · show half.windows[w]? = _
    rw [h.windows, Std.ExtTreeMap.getElem?_filter']
    exact Option.map_id'.symm
  · show half.exceptions[w]? = _
    rw [h.exceptions, Std.ExtTreeMap.getElem?_filter']

/-- The target gets its own back. -/
theorem HalfOf.target_side (h : HalfOf pair d half) :
    Side pair d (rejoin pair d.key)
      (((half.withSideMarks pair left right isSource).renamed d.key
        (pair.movedTargetRemap half.windows) pair.canonicalPairTargetRestore).withSideFocus pair
          d.key fun leaf => remapNodeId pair.canonicalPairTargetRestore
            (remapNodeId (pair.movedTargetRemap half.windows) leaf)) := by
  have hrejoin : (fun leaf => remapNodeId pair.canonicalPairTargetRestore
      (remapNodeId (pair.movedTargetRemap half.windows) leaf)) = rejoin pair d.key := by
    funext leaf
    rw [rejoin, h.windows]
  refine ⟨h.domains, ?_, fun w => ?_, fun w => ?_, rfl, ?_⟩
  · show (∅ : Trees).insert d.key ((PlasmaTiler.treeAt half.trees d.key).map fun tree =>
      remapTreeNodeIds _ (remapTreeNodeIds _ tree)) = _
    rw [h.trees, treeAt_insert, if_pos rfl, ← hrejoin]
    congr 2
    funext tree
    rw [remapTreeNodeIds_eq, remapTreeNodeIds_eq, Node.rename_rename]
    rfl
  · show (half.windows.map fun _ link => remapLink _ (remapLink _ link))[w]? = _
    rw [Std.ExtTreeMap.getElem?_map, ← hrejoin, h.windows, Std.ExtTreeMap.getElem?_filter']
    rfl
  · show half.exceptions[w]? = _
    rw [h.exceptions, Std.ExtTreeMap.getElem?_filter']
  · rw [← hrejoin]
    rfl

end

/-- What a split of a settled valid pair comes down to: the two sides always
exist, and the split succeeds exactly if both pass the topology check. -/
theorem splitCanonicalPair_sides (hsettled : pair.settledWorld = true) (hvalid : pair.Valid)
    (hdomains : pair.domains = [sourceDomain, targetDomain])
    (hrevision : isRevision pair.acceptedRevision = true) :
    ∃ source' target', Side pair sourceDomain id source' ∧
      Side pair targetDomain (rejoin pair targetDomain.key) target' ∧
      pair.splitCanonicalPair =
        if source'.validateCurrentTopology && target'.validateCurrentTopology then
          .ok (source', if target'.isEmptyAt targetDomain.key then none else some target')
        else .error .domainMismatch := by
  have hin : sourceDomain ∈ pair.domains ∧ targetDomain ∈ pair.domains := by simp [hdomains]
  obtain ⟨source, hsource, hsourceHalf⟩ := sideOf_half (hvalid.domain_valid _ hin.1) hrevision
  obtain ⟨target, htarget, htargetHalf⟩ := sideOf_half (hvalid.domain_valid _ hin.2) hrevision
  have hhome : ∀ {key : DomainKey}, (∃ d ∈ pair.domains, d.key = key) →
      (key == sourceDomain.key || key == targetDomain.key) = true := by
    rintro key ⟨e, he, rfl⟩
    rw [hdomains, List.mem_cons, List.mem_singleton] at he
    rcases he with rfl | rfl <;> simp
  have hlinks : ((values pair.windows).all fun link =>
      link.key == sourceDomain.key || link.key == targetDomain.key) = true := by
    rw [List.all_eq_true]
    intro link hlink
    obtain ⟨w, hw⟩ := mem_values.mp hlink
    have hlinkValid := hvalid.link_valid hw
    simp only [validLink, Bool.and_eq_true, List.any_eq_true, beq_iff_eq] at hlinkValid
    exact hhome hlinkValid.1.2
  have hrecords : ((values pair.exceptions).all fun record =>
      record.key == sourceDomain.key || record.key == targetDomain.key) = true := by
    rw [List.all_eq_true]
    intro record hrecord
    obtain ⟨w, hw⟩ := mem_values.mp hrecord
    have hrecordValid := hvalid.exception_valid hw
    simp only [validException, Bool.and_eq_true, List.any_eq_true, beq_iff_eq] at hrecordValid
    obtain ⟨-, e, he, houtput, hworkspace⟩ := hrecordValid
    exact hhome ⟨e, he, by rw [ExceptionRecord.key, OutputDomain.key, houtput, hworkspace]⟩
  have husable : (pair.settledWorld && pair.validateCurrentTopology) = true := by
    rw [hsettled, validateCurrentTopology_iff.mpr hvalid]
    rfl
  refine ⟨_, _, @HalfOf.source_side _ _ source source target true hsourceHalf,
    @HalfOf.target_side _ _ target source target false htargetHalf, ?_⟩
  simp only [splitCanonicalPair, hdomains, husable, hsource, htarget, hlinks, hrecords, ensure_true]
  exact ensure_pure

/-! ## The renaming back -/

theorem mem_allNodeIds_iff {i : NodeId} : i ∈ s.allNodeIds ↔
    ∃ key tree, PlasmaTiler.treeAt s.trees key = some tree ∧ i ∈ tree.ids := by
  constructor
  · intro h
    rw [allNodeIds, Std.ExtTreeSet.mem_ofList, List.contains_iff_mem, List.mem_flatMap] at h
    obtain ⟨slot, hslot, hi⟩ := h
    obtain ⟨key, hkey⟩ := mem_values.mp hslot
    cases slot with
    | none => simp at hi
    | some tree => exact ⟨key, tree, treeAt_eq_some.mpr hkey, hi⟩
  · rintro ⟨key, tree, htree, hi⟩
    exact mem_allNodeIds htree hi

section
variable {ids : List NodeId} {occupied : BTreeSet NodeId} {ren : BTreeMap NodeId NodeId}
  {i : NodeId}

theorem inverse_absent (h : Minted ren ids occupied) (hi : i ∈ occupied) :
    (inverseMap ren)[i]? = none := by
  rw [Option.eq_none_iff_forall_ne_some]
  intro j hj
  exact h.free ((inverseMap_lookup h.inj).mp hj) hi

theorem mem_values_inverse (h : Minted ren ids occupied) :
    i ∈ values (inverseMap ren) ↔ i ∈ ids := by
  rw [mem_values, h.domain]
  exact exists_congr fun v => inverseMap_lookup h.inj

/-- The leaves of a domain that came in with a transfer under an original id
of the target. -/
def carriedLeaves (s : Session) (key : DomainKey) : List NodeId :=
  ((values (s.windows.filter fun _ link => link.key == key)).map WindowLink.leaf).filter fun leaf =>
    !s.canonicalPairTargetRestore.contains leaf &&
      (Std.ExtTreeSet.ofList (values s.canonicalPairTargetRestore)).contains leaf

theorem mem_carriedLeaves (h : Minted ren ids occupied)
    (hrestore : s.canonicalPairTargetRestore = inverseMap ren) :
    i ∈ s.carriedLeaves key ↔ (∃ (w : WindowId) (link : WindowLink), s.windows[w]? = some link ∧ link.key = key ∧
      link.leaf = i) ∧ (inverseMap ren)[i]? = none ∧ i ∈ ids := by
  have hlinked : (∃ (w : WindowId) (link : WindowLink), s.windows[w]? = some link ∧ link.key = key ∧ link.leaf = i) ↔
      i ∈ (values (s.windows.filter fun _ link => link.key == key)).map WindowLink.leaf := by
    simp only [List.mem_map, mem_values, Std.ExtTreeMap.getElem?_filter', Option.filter_eq_some_iff,
      beq_iff_eq]
    constructor
    · rintro ⟨w, link, hlink, hkey, hleaf⟩
      exact ⟨link, ⟨w, hlink, hkey⟩, hleaf⟩
    · rintro ⟨link, ⟨w, hlink, hkey⟩, hleaf⟩
      exact ⟨w, link, hlink, hkey, hleaf⟩
  have hnone : i ∉ inverseMap ren ↔ (inverseMap ren)[i]? = none := by
    rw [mem_iff_lookup, ← Option.ne_none_iff_exists', not_not]
  rw [hlinked, carriedLeaves, hrestore, List.mem_filter, Bool.and_eq_true, Bool.not_eq_true',
    Std.ExtTreeSet.contains_ofList, List.contains_iff_mem, mem_values_inverse h, contains_eq_false, hnone]

theorem movedTargetRemap_minted (hs : s.Valid) :
    Minted (s.movedTargetRemap (s.windows.filter fun _ link => link.key == key))
      (s.carriedLeaves key)
      (s.allNodeIds.insertMany (values s.canonicalPairTargetRestore)) := by
  refine mintAll_minted (fun m n h => ?_) (fun n => ?_) ?_
  · have hraw := congrArg Id.raw h
    simp only [pairMovedName, String.append_right_inj] at hraw
    exact Nat.repr_inj.mp hraw
  · simp [pairMovedName, Id.isEmpty]
  · refine List.Nodup.filter _ (nodup_map_values.mpr fun hlink hlink' heq => ?_)
    rw [Std.ExtTreeMap.getElem?_filter', Option.filter_eq_some_iff] at hlink hlink'
    exact hs.leaf_inj hlink.1 hlink'.1 heq

/-- An id of the target comes back. -/
theorem rejoin_original (h : Minted ren ids occupied) (hs : s.Valid)
    (hrestore : s.canonicalPairTargetRestore = inverseMap ren) (hi : i ∈ ids) :
    s.rejoin key (remapNodeId ren i) = i := by
  have hnot : remapNodeId ren i ∉ s.carriedLeaves key := by
    intro hcarried
    obtain ⟨-, hnone, -⟩ := (mem_carriedLeaves h hrestore).mp hcarried
    obtain ⟨v, hv⟩ := h.domain.mp hi
    rw [remapNodeId_of_lookup hv, (inverseMap_lookup h.inj).mpr hv] at hnone
    cases hnone
  rw [rejoin, remapNodeId_of_none ((movedTargetRemap_minted hs).lookup_none hnot), hrestore]
  exact h.remap_inverse hi

/-- An id that is no renamed one stays, unless it was carried in. -/
theorem rejoin_kept (h : Minted ren ids occupied) (hs : s.Valid)
    (hrestore : s.canonicalPairTargetRestore = inverseMap ren) (hi : i ∈ occupied ∨
      (inverseMap ren)[i]? = none) (hnot : i ∉ s.carriedLeaves key) : s.rejoin key i = i := by
  have hnone : (inverseMap ren)[i]? = none := hi.elim (inverse_absent h) id
  rw [rejoin, remapNodeId_of_none ((movedTargetRemap_minted hs).lookup_none hnot), hrestore]
  exact remapNodeId_of_none hnone

/-- An id carried in gets a name no tree of the pair nor the target uses. -/
theorem rejoin_carried (h : Minted ren ids occupied) (hs : s.Valid)
    (hrestore : s.canonicalPairTargetRestore = inverseMap ren)
    (hpresent : ∀ j ∈ ids, remapNodeId ren j ∈ s.allNodeIds) (hi : i ∈ s.carriedLeaves key) :
    s.rejoin key i ∉ s.allNodeIds ∧ s.rejoin key i ∉ ids ∧ (s.rejoin key i).isEmpty = false := by
  have hminted := @movedTargetRemap_minted s key hs
  obtain ⟨v, hv⟩ := hminted.domain.mp hi
  have hfree := hminted.free hv
  rw [Std.ExtTreeSet.mem_insertMany_list, not_or, List.contains_iff_mem, hrestore,
    mem_values_inverse h] at hfree
  obtain ⟨hunused, hother⟩ := hfree
  have hnone : (inverseMap ren)[v]? = none := by
    rw [Option.eq_none_iff_forall_ne_some]
    intro j hj
    have hjv := (inverseMap_lookup h.inj).mp hj
    refine hunused ?_
    rw [← remapNodeId_of_lookup hjv]
    exact hpresent j (h.domain.mpr ⟨v, hjv⟩)
  have hrejoin : s.rejoin key i = v := by
    rw [rejoin, remapNodeId_of_lookup hv, hrestore]
    exact remapNodeId_of_none hnone
  rw [hrejoin]
  exact ⟨hunused, hother, hminted.named hv⟩

end

end Session

end PlasmaTiler
