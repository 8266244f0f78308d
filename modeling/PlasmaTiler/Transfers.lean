import PlasmaTiler.Splitting
import PlasmaTiler.OuterGaps

/-!
# Committed transfers

A transfer committed on a pair takes the mover's leaf out of the source tree
and into the target's. The split that follows has to give both sessions back,
the source without the mover and the target with it.

In the pair the target's nodes go by fresh names, and the split renames them
back. Two ids can be in the way then. The mover's leaf comes from the source
and may be called like an original node of the target; the split knows that
and gives it another name. The group the transfer opens is named fresh among
the ids of the pair, where the target's own are hidden behind their renaming;
it may be called like one of them as well, and nothing is done about that.
The renamed tree then has an id twice, and the split refuses.

The proof describes the pair after the commit (`Transferred`), finds out
where each of its ids comes from (`leaf_carried`, `carried_leaf`), and
follows them through the renaming back. `target_valid_iff` is the crux: the
target's new tree is valid exactly when the group's id is no original one.
`splitCanonicalPair_transfer_iff` states it for every transfer, whatever the
two sessions call their nodes; the two samples differ in one window's id.
-/

namespace PlasmaTiler

namespace Session

variable {source pair moved source' target' : Session} {target? : Option Session}
  {sourceDomain targetDomain : OutputDomain} {mover w : WindowId} {leaf group i : NodeId}

/-! ## What a transfer does to a pair -/

/-- One tile has moved from the source into the target of a pair. It keeps its
leaf, the target's tree has it grafted on under a fresh group, and all other
windows stay. -/
structure Transferred (pair : Session) (sourceKey targetKey : DomainKey) (mover : WindowId)
    (leaf group : NodeId) (moved : Session) : Prop where
  link : ∃ link, pair.windows[mover]? = some link ∧ link.key = sourceKey ∧ link.leaf = leaf
  windows : moved.windows =
    pair.windows.insert mover ⟨mover, leaf, targetKey.output, targetKey.workspace⟩
  exceptions : moved.exceptions = pair.exceptions
  domains : moved.domains = pair.domains
  restore : moved.canonicalPairTargetRestore = pair.canonicalPairTargetRestore
  alone : treeAt pair.trees targetKey = none → treeAt moved.trees targetKey = some (.leaf leaf)
  grafted : ∀ {t}, treeAt pair.trees targetKey = some t →
    ∃ n, treeAt moved.trees targetKey = some n ∧ Grafted t n group leaf
  fresh : group ∉ pair.allNodeIds
  named : group.isEmpty = false
  valid : moved.Valid
  settled : moved.settledWorld = true
  revision : isRevision moved.acceptedRevision = true

/-- What the two sessions of a split have to be after a transfer: the source
loses the mover, the target gains it, and each keeps everything else it had. -/
structure TransferSplit (source : Session) (target? : Option Session) (targetKey : DomainKey)
    (mover : WindowId) (source' target' : Session) : Prop where
  loses : ∀ w : WindowId, source'.windows[w]? = if w = mover then none else source.windows[w]?
  keeps : ∀ w : WindowId, w ≠ mover → target'.windows[w]? = target?.bind fun t => t.windows[w]?
  gains : ∃ link, target'.windows[mover]? = some link ∧ link.key = targetKey
  sourceExceptions : ∀ w : WindowId, source'.exceptions[w]? = source.exceptions[w]?
  targetExceptions : ∀ w : WindowId,
    target'.exceptions[w]? = target?.bind fun t => t.exceptions[w]?
  topology : source'.validateCurrentTopology = true ∧ target'.validateCurrentTopology = true
  nodup : ∀ s ∈ [source', target'], ∀ key tree, treeAt s.trees key = some tree → tree.ids.Nodup

/-! ## Where the pair has things from -/

theorem Assembled.targetTree_some (h : Assembled source target? sourceDomain targetDomain pair)
    (hi : i ∈ targetIds target?) : ∃ target tree, target? = some target ∧
      treeAt target.trees targetDomain.key = some tree ∧ i ∈ tree.ids := by
  cases htarget : target? with
  | none =>
    rw [htarget] at hi
    cases hi
  | some target =>
    rw [htarget, targetIds, Std.ExtTreeSet.mem_toList, mem_allNodeIds_iff] at hi
    obtain ⟨key, tree, htree, hi⟩ := hi
    obtain rfl := (h.targetOk htarget).tree_key htree
    exact ⟨target, tree, rfl, htree, hi⟩

theorem Assembled.mem_targetIds {target : Session} {tree : Node} (htarget : target? = some target)
    (htree : treeAt target.trees targetDomain.key = some tree) (hi : i ∈ tree.ids) :
    i ∈ targetIds target? := by
  rw [htarget, targetIds, Std.ExtTreeSet.mem_toList]
  exact mem_allNodeIds htree hi

/-- A link of the pair is one of the source, or a renamed one of the target. -/
theorem Assembled.link_cases (h : Assembled source target? sourceDomain targetDomain pair)
    {link : WindowLink} (hlink : pair.windows[w]? = some link) :
    (source.windows[w]? = some link ∧ link.key = sourceDomain.key) ∨
      ∃ target l, target? = some target ∧ target.windows[w]? = some l ∧
        link = remapLink (pairRenaming source target?) l ∧ link.key = targetDomain.key := by
  rw [h.windows, Option.or_eq_some_iff, Option.map_eq_some_iff] at hlink
  rcases hlink with ⟨l, hl, rfl⟩ | ⟨-, hl⟩
  · obtain ⟨target, htarget, hl⟩ := Option.bind_eq_some_iff.mp hl
    have hkey : l.key = targetDomain.key := (h.targetOk htarget).link_key hl
    exact .inr ⟨target, l, htarget, hl, rfl, hkey⟩
  · exact .inl ⟨hl, h.sourceOk.link_key hl⟩

/-- What is homed on the source is the source's. -/
theorem Assembled.source_links (h : Assembled source target? sourceDomain targetDomain pair) :
    pair.windows[w]?.filter (·.key == sourceDomain.key) = source.windows[w]? := by
  refine Option.ext fun link => ?_
  rw [Option.filter_eq_some_iff, beq_iff_eq]
  constructor
  · rintro ⟨hlink, hkey⟩
    rcases h.link_cases hlink with ⟨hl, -⟩ | ⟨-, -, -, -, -, hhome⟩
    · exact hl
    · exact absurd (hkey.symm.trans hhome) h.keys
  · intro hlink
    refine ⟨?_, h.sourceOk.link_key hlink⟩
    have hnone : target?.bind (fun t => t.windows[w]?) = none := by
      rw [Option.bind_eq_none_iff]
      intro target htarget
      rw [Option.eq_none_iff_forall_ne_some]
      intro l hl
      have happart := h.apart htarget w (isKnown_iff.mpr (.inl (mem_iff_lookup.mpr ⟨l, hl⟩)))
      rw [isKnown_iff.mpr (.inl (mem_iff_lookup.mpr ⟨link, hlink⟩))] at happart
      cases happart
    rw [h.windows, hnone, hlink]
    rfl

theorem Assembled.target_links (h : Assembled source target? sourceDomain targetDomain pair) :
    pair.windows[w]?.filter (·.key == targetDomain.key) =
      (target?.bind fun t => t.windows[w]?).map (remapLink (pairRenaming source target?)) := by
  refine Option.ext fun link => ?_
  rw [Option.filter_eq_some_iff, beq_iff_eq]
  constructor
  · rintro ⟨hlink, hkey⟩
    rcases h.link_cases hlink with ⟨-, hhome⟩ | ⟨target, l, htarget, hl, rfl, -⟩
    · exact absurd (hhome.symm.trans hkey) h.keys
    · rw [htarget, Option.bind_some, hl]
      rfl
  · intro hlink
    refine ⟨by rw [h.windows, hlink]; rfl, ?_⟩
    obtain ⟨l, hl, rfl⟩ := Option.map_eq_some_iff.mp hlink
    obtain ⟨target, htarget, hl⟩ := Option.bind_eq_some_iff.mp hl
    have hkey : l.key = targetDomain.key := (h.targetOk htarget).link_key hl
    exact hkey

theorem Assembled.source_records (h : Assembled source target? sourceDomain targetDomain pair) :
    pair.exceptions[w]?.filter (·.key == sourceDomain.key) = source.exceptions[w]? := by
  refine Option.ext fun record => ?_
  rw [Option.filter_eq_some_iff, beq_iff_eq, h.exceptions, Option.or_eq_some_iff]
  constructor
  · rintro ⟨hrecord | ⟨-, hrecord⟩, hkey⟩
    · obtain ⟨target, htarget, hr⟩ := Option.bind_eq_some_iff.mp hrecord
      exact absurd (hkey.symm.trans ((h.targetOk htarget).record_key hr)) h.keys
    · exact hrecord
  · intro hrecord
    refine ⟨.inr ⟨?_, hrecord⟩, h.sourceOk.record_key hrecord⟩
    rw [Option.bind_eq_none_iff]
    intro target htarget
    rw [Option.eq_none_iff_forall_ne_some]
    intro r hr
    have happart := h.apart htarget w (isKnown_iff.mpr (.inr (mem_iff_lookup.mpr ⟨r, hr⟩)))
    rw [isKnown_iff.mpr (.inr (mem_iff_lookup.mpr ⟨record, hrecord⟩))] at happart
    cases happart

theorem Assembled.target_records (h : Assembled source target? sourceDomain targetDomain pair) :
    pair.exceptions[w]?.filter (·.key == targetDomain.key) =
      target?.bind fun t => t.exceptions[w]? := by
  refine Option.ext fun record => ?_
  rw [Option.filter_eq_some_iff, beq_iff_eq, h.exceptions, Option.or_eq_some_iff]
  constructor
  · rintro ⟨hrecord | ⟨-, hrecord⟩, hkey⟩
    · exact hrecord
    · exact absurd ((h.sourceOk.record_key hrecord).symm.trans hkey) h.keys
  · intro hrecord
    obtain ⟨target, htarget, hr⟩ := Option.bind_eq_some_iff.mp hrecord
    exact ⟨.inl hrecord, (h.targetOk htarget).record_key hr⟩

/-- The mover's leaf is one of the source's. -/
theorem Assembled.leaf_mem (h : Assembled source target? sourceDomain targetDomain pair)
    {link : WindowLink} (hlink : pair.windows[w]? = some link)
    (hkey : link.key = sourceDomain.key) : link.leaf ∈ source.allNodeIds := by
  rcases h.link_cases hlink with ⟨hl, -⟩ | ⟨-, -, -, -, -, htarget⟩
  · obtain ⟨tree, htree, hleaf⟩ := h.sourceOk.leaf_mem hl
    exact mem_allNodeIds htree (Node.mem_ids_of_mem_leaves hleaf)
  · exact absurd (hkey.symm.trans htarget) h.keys

/-! ## The split after a transfer -/

section
variable (ha : Assembled source target? sourceDomain targetDomain pair)
  (ht : Transferred pair sourceDomain.key targetDomain.key mover leaf group moved)

include ha ht

theorem Transferred.restored :
    moved.canonicalPairTargetRestore = inverseMap (pairRenaming source target?) :=
  ht.restore.trans ha.restore

theorem Transferred.leaf_source : leaf ∈ source.allNodeIds := by
  obtain ⟨link, hlink, hkey, rfl⟩ := ht.link
  exact ha.leaf_mem hlink hkey

/-- The mover's leaf is carried in when its id is an original one of the target. -/
theorem Transferred.leaf_carried (hi : leaf ∈ targetIds target?) :
    leaf ∈ moved.carriedLeaves targetDomain.key := by
  refine (mem_carriedLeaves pairRenaming_minted (ht.restored ha)).mpr ⟨?_, ?_, hi⟩
  · refine ⟨mover, ⟨mover, leaf, targetDomain.key.output, targetDomain.key.workspace⟩, ?_, rfl, rfl⟩
    rw [ht.windows]
    exact lookup_insert.trans (if_pos rfl)
  · exact inverse_absent pairRenaming_minted (ht.leaf_source ha)

/-- No other leaf is. -/
theorem Transferred.carried_leaf (hi : i ∈ moved.carriedLeaves targetDomain.key) : i = leaf := by
  obtain ⟨⟨w, link, hlink, hkey, rfl⟩, hnone, hids⟩ :=
    (mem_carriedLeaves pairRenaming_minted (ht.restored ha)).mp hi
  rw [ht.windows, lookup_insert] at hlink
  split at hlink
  · cases hlink
    rfl
  · rcases ha.link_cases hlink with ⟨-, hsource⟩ | ⟨target, l, htarget, hl, rfl, -⟩
    · exact absurd (hsource.symm.trans hkey) ha.keys
    · -- a renamed leaf is one the pair restores
      obtain ⟨tree, htree, hleaf⟩ := (ha.targetOk htarget).leaf_mem hl
      have hl' := Assembled.mem_targetIds htarget htree (Node.mem_ids_of_mem_leaves hleaf)
      obtain ⟨v, hv⟩ := (@pairRenaming_minted source target?).domain.mp hl'
      have hrenamed : (remapLink (pairRenaming source target?) l).leaf = v := remapNodeId_of_lookup hv
      rw [hrenamed, (inverseMap_lookup pairRenaming_minted.inj).mpr hv] at hnone
      cases hnone

/-- The new target tree before its renaming back, over an occupied target. -/
theorem Transferred.tree {target : Session} {tree : Node} (htarget : target? = some target)
    (htree : treeAt target.trees targetDomain.key = some tree) :
    ∃ n, treeAt moved.trees targetDomain.key = some n ∧
      n.ids.Perm (group :: leaf :: tree.ids.map (remapNodeId (pairRenaming source target?))) := by
  have hpair : treeAt pair.trees targetDomain.key =
      some (tree.rename (remapNodeId (pairRenaming source target?))) := by
    rw [ha.targetTree, htarget, Option.bind_some, htree]
    rfl
  obtain ⟨n, hn, hgrafted⟩ := ht.grafted hpair
  refine ⟨n, hn, ?_⟩
  rw [← Node.ids_rename]
  exact hgrafted.ids

theorem Transferred.group_ne : group ≠ leaf := by
  obtain ⟨link, hlink, hkey, rfl⟩ := ht.link
  intro heq
  obtain ⟨tree, htree, hleaf⟩ := hasLeaf_iff.mp
    (hasLeaf_of_link ha.valid hlink)
  refine ht.fresh ?_
  rw [heq]
  exact mem_allNodeIds htree (Node.mem_ids_of_mem_leaves hleaf)

theorem Transferred.rejoin_group : moved.rejoin targetDomain.key group = group := by
  have hnot : group ∉ moved.carriedLeaves targetDomain.key :=
    fun h => ht.group_ne ha (ht.carried_leaf ha h)
  refine rejoin_kept pairRenaming_minted ht.valid (ht.restored ha) (.inr ?_) hnot
  rw [Option.eq_none_iff_forall_ne_some]
  intro j hj
  have hren := (inverseMap_lookup (@pairRenaming_minted source target?).inj).mp hj
  obtain ⟨target, tree, htarget, htree, hi⟩ :=
    ha.targetTree_some (pairRenaming_minted.domain.mpr ⟨group, hren⟩)
  have hpair : treeAt pair.trees targetDomain.key =
      some (tree.rename (remapNodeId (pairRenaming source target?))) := by
    rw [ha.targetTree, htarget, Option.bind_some, htree]
    rfl
  refine ht.fresh (mem_allNodeIds hpair ?_)
  rw [Node.ids_rename, ← remapNodeId_of_lookup hren]
  exact List.mem_map_of_mem hi

/-- The mover's leaf keeps its id or gets one that nothing uses. -/
theorem Transferred.rejoin_leaf {target : Session} {tree : Node} (htarget : target? = some target)
    (htree : treeAt target.trees targetDomain.key = some tree) :
    moved.rejoin targetDomain.key leaf ∉ targetIds target? ∧
      moved.rejoin targetDomain.key leaf ≠ group ∧
      (moved.rejoin targetDomain.key leaf).isEmpty = false := by
  obtain ⟨n, hn, hperm⟩ := ht.tree ha htarget htree
  have hin : ∀ {j}, j ∈ n.ids → j ∈ moved.allNodeIds := fun hj => mem_allNodeIds hn hj
  by_cases hcarried : leaf ∈ moved.carriedLeaves targetDomain.key
  · have hpresent : ∀ j ∈ targetIds target?,
        remapNodeId (pairRenaming source target?) j ∈ moved.allNodeIds := by
      intro j hj
      obtain ⟨target', tree', htarget', htree', hj⟩ := ha.targetTree_some hj
      obtain rfl := Option.some.inj (htarget.symm.trans htarget')
      obtain rfl := Option.some.inj (htree.symm.trans htree')
      refine hin (hperm.mem_iff.mpr (.tail _ (.tail _ ?_)))
      exact List.mem_map_of_mem hj
    obtain ⟨hunused, hother, hnamed⟩ := rejoin_carried pairRenaming_minted ht.valid
      (ht.restored ha) hpresent hcarried
    refine ⟨hother, fun heq => hunused ?_, hnamed⟩
    rw [heq]
    exact hin (hperm.mem_iff.mpr (by simp))
  · have hsame := rejoin_kept pairRenaming_minted ht.valid (ht.restored ha)
      (.inl (ht.leaf_source ha)) hcarried
    rw [hsame]
    refine ⟨fun hi => hcarried (ht.leaf_carried ha hi), fun heq => ht.group_ne ha heq.symm, ?_⟩
    exact (ht.valid.tree_ok hn).nonempty _ (hperm.mem_iff.mpr (by simp))

/-- The ids of the new target tree, renamed back. -/
theorem Transferred.rejoined {target : Session} {tree : Node} (htarget : target? = some target)
    (htree : treeAt target.trees targetDomain.key = some tree) :
    ∃ n, treeAt moved.trees targetDomain.key = some n ∧
      (n.ids.map (moved.rejoin targetDomain.key)).Perm
        (group :: moved.rejoin targetDomain.key leaf :: tree.ids) := by
  obtain ⟨n, hn, hperm⟩ := ht.tree ha htarget htree
  refine ⟨n, hn, ?_⟩
  have hmapped := hperm.map (moved.rejoin targetDomain.key)
  have hback : (tree.ids.map (remapNodeId (pairRenaming source target?))).map
      (moved.rejoin targetDomain.key) = tree.ids := by
    rw [List.map_map]
    refine (List.map_congr_left fun i hi => ?_).trans (List.map_id _)
    exact rejoin_original pairRenaming_minted ht.valid (ht.restored ha)
      (Assembled.mem_targetIds htarget htree hi)
  rw [List.map_cons, List.map_cons, hback, ht.rejoin_group ha] at hmapped
  exact hmapped

/-- The renaming back tells the ids of the new target tree apart exactly when
the group's is no original one. -/
theorem Transferred.target_valid_iff
    (hside : Side moved targetDomain (moved.rejoin targetDomain.key) target') :
    target'.Valid ↔ group ∉ targetIds target? := by
  have hin : targetDomain ∈ moved.domains := by
    rw [ht.domains, ha.domains]
    simp
  constructor
  · intro hvalid hgroup
    obtain ⟨target, tree, htarget, htree, hi⟩ := ha.targetTree_some hgroup
    obtain ⟨n, hn, hperm⟩ := ht.rejoined ha htarget htree
    have hok := hvalid.tree_ok (show treeAt target'.trees targetDomain.key =
      some (n.rename (moved.rejoin targetDomain.key)) by rw [hside.treeAt, if_pos rfl, hn]; rfl)
    have hnodup := hok.nodup
    rw [Node.ids_rename, hperm.nodup_iff, List.nodup_cons] at hnodup
    exact hnodup.1 (.tail _ hi)
  · intro hgroup
    have hrenamed : ∀ n, treeAt moved.trees targetDomain.key = some n →
        (n.ids.map (moved.rejoin targetDomain.key)).Nodup ∧
          ∀ i ∈ n.ids.map (moved.rejoin targetDomain.key), i.isEmpty = false := by
      intro n hn
      cases htree : target?.bind fun t => treeAt t.trees targetDomain.key with
      | none =>
        have hleaf := ht.alone (by rw [ha.targetTree, htree]; rfl)
        obtain rfl := Option.some.inj (hn.symm.trans hleaf)
        have hids : leaf ∉ targetIds target? := by
          intro hi
          obtain ⟨target, tree, htarget, htree', -⟩ := ha.targetTree_some hi
          rw [htarget, Option.bind_some, htree'] at htree
          cases htree
        have hsame : moved.rejoin targetDomain.key leaf = leaf :=
          rejoin_kept pairRenaming_minted ht.valid (ht.restored ha) (.inl (ht.leaf_source ha))
            fun hcarried => hids ((mem_carriedLeaves pairRenaming_minted (ht.restored ha)).mp
              hcarried).2.2
        have hnamed := (ht.valid.tree_ok hn).nonempty
        simp only [Node.ids_leaf, List.map_cons, List.map_nil, hsame] at hnamed ⊢
        exact ⟨List.nodup_singleton _, hnamed⟩
      | some tree =>
        obtain ⟨target, htarget, htree⟩ := Option.bind_eq_some_iff.mp htree
        obtain ⟨n', hn', hperm⟩ := ht.rejoined ha htarget htree
        obtain rfl := Option.some.inj (hn.symm.trans hn')
        have hok := (ha.targetOk htarget).valid.tree_ok htree
        obtain ⟨hother, hne, hnamed⟩ := ht.rejoin_leaf ha htarget htree
        have horiginal : ∀ i ∈ tree.ids, i ∈ targetIds target? :=
          fun i hi => Assembled.mem_targetIds htarget htree hi
        constructor
        · rw [hperm.nodup_iff, List.nodup_cons, List.nodup_cons, List.mem_cons, not_or]
          exact ⟨⟨hne.symm, fun hi => hgroup (horiginal _ hi)⟩, fun hi => hother (horiginal _ hi),
            hok.nodup⟩
        · intro i hi
          rcases List.mem_cons.mp (hperm.mem_iff.mp hi) with rfl | hi
          · exact ht.named
          · rcases List.mem_cons.mp hi with rfl | hi
            · exact hnamed
            · exact hok.nonempty i hi
    refine hside.valid ht.valid hin (fun n hn i hi j hj heq => ?_) (fun n hn i hi => ?_)
    · exact List.inj_on_of_nodup_map (hrenamed n hn).1 hi hj heq
    · exact (hrenamed n hn).2 _ (List.mem_map_of_mem hi)

theorem Transferred.source_valid (hside : Side moved sourceDomain id source') : source'.Valid := by
  have hin : sourceDomain ∈ moved.domains := by
    rw [ht.domains, ha.domains]
    simp
  exact hside.valid ht.valid hin (fun n _ i _ j _ heq => heq)
    fun n hn i hi => (ht.valid.tree_ok hn).nonempty i hi

/-- The links and exceptions of the two sides. -/
theorem Transferred.splits (hsource : Side moved sourceDomain id source')
    (htarget : Side moved targetDomain (moved.rejoin targetDomain.key) target')
    (htopology : source'.Valid ∧ target'.Valid) :
    TransferSplit source target? targetDomain.key mover source' target' := by
  obtain ⟨link, hlink, hkey, rfl⟩ := ht.link
  have hmoved : moved.windows[mover]? =
      some ⟨mover, link.leaf, targetDomain.key.output, targetDomain.key.workspace⟩ := by
    rw [ht.windows]
    exact lookup_insert.trans (if_pos rfl)
  have hother : ∀ w : WindowId, w ≠ mover → moved.windows[w]? = pair.windows[w]? := by
    intro w hne
    rw [ht.windows]
    exact lookup_insert.trans (if_neg hne.symm)
  refine {
    loses := fun w => ?_
    keeps := fun w hne => ?_
    gains := ?_
    sourceExceptions := fun w => ?_
    targetExceptions := fun w => ?_
    topology := ⟨validateCurrentTopology_iff.mpr htopology.1,
      validateCurrentTopology_iff.mpr htopology.2⟩
    nodup := ?_ }
  · rw [hsource.windows]
    by_cases hw : w = mover
    · rw [if_pos hw, hw, hmoved, Option.filter_eq_none_iff.mpr]
      · rfl
      · intro l hl
        cases hl
        exact fun hhome => ha.keys (beq_iff_eq.mp hhome).symm
    · rw [if_neg hw, hother w hw, ha.source_links]
      exact Option.map_id'
  · rw [htarget.windows, hother w hne, ha.target_links, Option.map_map]
    refine (Option.map_congr fun l hl => ?_).trans Option.map_id'
    obtain ⟨target, htarget, hl⟩ := Option.bind_eq_some_iff.mp hl
    obtain ⟨tree, htree, hleaf⟩ := (ha.targetOk htarget).leaf_mem hl
    have hback := @rejoin_original moved targetDomain.key _ _ _ _ pairRenaming_minted ht.valid
      (ht.restored ha) (Assembled.mem_targetIds htarget htree (Node.mem_ids_of_mem_leaves hleaf))
    exact congrArg (fun leaf => { l with leaf }) hback
  · refine ⟨_, htarget.link.mpr ⟨_, hmoved, rfl, rfl⟩, rfl⟩
  · rw [hsource.exceptions, ht.exceptions, ha.source_records]
  · rw [htarget.exceptions, ht.exceptions, ha.target_records]
  · intro s hs key tree htree
    rw [List.mem_cons, List.mem_singleton] at hs
    rcases hs with rfl | rfl
    · exact (htopology.1.tree_ok htree).nodup
    · exact (htopology.2.tree_ok htree).nodup

end

/-! ## Committing one plan -/

/-- The focus a request brings along is followed first. -/
def focusedOn (s : Session) : Option (DomainKey × WindowId) → Session
  | none => s
  | some (key, window) => (s.syncFocusFromWindow key window).1

/-- Propose, acknowledge and verify. -/
def commitPlan (s : Session) (p : Proposal) (ack : AdapterAck) (v : Verification) :
    Option Session :=
  match s.proposal p with
  | (proposed, .ok (some _)) =>
    match (proposed.acknowledge ack).1.verification v with
    | (committed, .ok _) => some committed
    | (_, .error _) => none
  | _ => none

/-- The session after the commit of a desired world has that world, valid and
settled, over the domains it had before. -/
structure Commits (s : Session) (desired : PendingDesired) (moved : Session) : Prop where
  trees : moved.trees = desired.trees
  windows : moved.windows = desired.windows
  exceptions : moved.exceptions = desired.exceptions
  domains : moved.domains = s.domains
  restore : moved.canonicalPairTargetRestore = s.canonicalPairTargetRestore
  valid : moved.Valid
  settled : moved.settledWorld = true
  revision : isRevision moved.acceptedRevision = true

/-- A verification that succeeds has committed, whatever it does to the
remembered leaves. -/
theorem verification_committed {t : Session} {v : Verification} {commit : Commit}
    (h : t.verification v = (moved, .ok commit)) :
    ∃ t', Verified t t' (.ok commit) ∧
      (moved = t' ∨ moved = { t' with lastActive := t.lastActive }) := by
  rcases @verification_verified t v with hverified | ⟨t', commit', hverified, heq⟩
  · rw [h] at hverified
    exact ⟨moved, hverified, .inl rfl⟩
  · rw [heq] at h
    cases h
    exact ⟨t', hverified, .inr rfl⟩

theorem Awaits.commits {s s' t : Session} {desired : PendingDesired} {ack : AdapterAck}
    {v : Verification} {commit : Commit} (h : Awaits s s' desired) (hdrag : s.drag = none)
    (hvalid : s.ValidDesired desired) (hack : (s'.acknowledge ack).1 = t)
    (hcommit : t.verification v = (moved, .ok commit)) : Commits s desired moved := by
  obtain ⟨t', hverified, hmoved⟩ := verification_committed hcommit
  have hkept : t.divergence = none → t.pendingDesired = some desired ∧ t.domains = s.domains ∧
      t.drag = none ∧ t.canonicalPairTargetRestore = s.canonicalPairTargetRestore ∧
      Opens t.reconciler := by
    intro hlive
    have hanswer := @acknowledge_acknowledged s' ack
    rw [hack] at hanswer
    generalize (s'.acknowledge ack).2 = result at hanswer
    cases hanswer with
    | cleared hreason =>
      have hdiverged : s'.divergence = none := hlive
      rw [hdiverged] at hreason
      cases hreason
    | halted _ => cases hlive
    | unchanged => exact ⟨h.desired, h.domains, h.drag.trans hdrag, h.restore, h.opens⟩
    | acked _ hpending =>
      obtain ⟨pending, hopen, hbase⟩ := h.opens
      obtain rfl := Option.some.inj (hpending.symm.trans hopen)
      exact ⟨h.desired, h.domains, h.drag.trans hdrag, h.restore, _, rfl, hbase⟩
  have hcommits : Commits s desired t' := by
    cases hverified with
    | bare hlive _ hnone =>
      rw [(hkept hlive).1] at hnone
      cases hnone
    | committed hlive hpending hsome =>
      obtain ⟨hdesired, hdomains, hdrag', hrestore, pending, hopen, hbase⟩ := hkept hlive
      obtain rfl := Option.some.inj (hdesired.symm.trans hsome)
      obtain rfl := Option.some.inj (hpending.symm.trans hopen)
      refine ⟨rfl, rfl, rfl, hdomains, hrestore, ?_, ?_, ?_⟩
      · rw [ValidDesired, ← hdomains] at hvalid
        exact hvalid
      · exact settledWorld_iff.mpr ⟨hlive, rfl, rfl, hdrag'⟩
      · exact decide_eq_true hbase
  rcases hmoved with rfl | rfl
  · exact hcommits
  · exact { hcommits with }

/-! ## Sends and crossings -/

theorem generateGroupId_named {window : WindowId} {baseRevision : Nat} {existing : BTreeSet NodeId} :
    (generateGroupId window baseRevision existing).isEmpty = false := by
  refine freshId_isEmpty fun heq => ?_
  have hlength := congrArg String.length heq
  simp [String.length_append] at hlength

/-- What a crossing makes of the target tree. -/
theorem crossInto_grafted {existing? : Option Node} {windows : Links} {key : DomainKey}
    {direction : Direction} {baseRevision : Nat} {nodeIds : BTreeSet NodeId}
    {target : CrossOutputTarget} {targetFocus : Option NodeId} {n : Node}
    (h : crossInto existing? windows key leaf direction baseRevision nodeIds target targetFocus =
      some n) :
    (existing? = none → n = .leaf leaf) ∧
      ∀ t, existing? = some t →
        Grafted t n (generateMoveGroupId leaf baseRevision "r4" nodeIds) leaf := by
  unfold crossInto at h
  split at h
  · cases h
    exact ⟨fun _ => rfl, nofun⟩
  · cases h
  · cases h
  · refine ⟨nofun, fun t ht => ?_⟩
    cases ht
    dsimp only at h
    split at h
    · exact nestFocusedOrdered_grafted h
    · cases h
      exact @grafted_fill [] _ _ leaf _ _

theorem SentWorld.transferred {s : Session} {target : DomainKey} {follow : Bool} {revision : Nat}
    {desired : PendingDesired} {link : WindowLink}
    (hsent : s.SentWorld mover target follow revision desired)
    (hlink : s.windows[mover]? = some link) (hcommits : Commits s desired moved) :
    link.key ≠ target ∧ (s.domainAt target).isSome = true ∧
      Transferred s link.key target mover link.leaf
        (generateGroupId mover revision s.allNodeIds) moved := by
  obtain ⟨link', n, ids, anchor, axis, hlink', hne, hdomain, -, -, hinsert, htrees, hwindows, -⟩ :=
    hsent.moved
  obtain rfl := Option.some.inj (hlink.symm.trans hlink')
  have hat : treeAt moved.trees target = some n := by
    rw [hcommits.trees, htrees, treeAt_insert, if_pos rfl]
  refine ⟨hne, hdomain, {
    link := ⟨link, hlink, rfl, rfl⟩
    windows := hcommits.windows.trans hwindows
    exceptions := hcommits.exceptions.trans hsent.exceptions
    domains := hcommits.domains
    restore := hcommits.restore
    alone := fun hnone => ?_
    grafted := fun ht => ?_
    fresh := freshId_not_mem
    named := generateGroupId_named
    valid := hcommits.valid
    settled := hcommits.settled
    revision := hcommits.revision }⟩
  · rw [hnone] at hinsert
    simp only [insertTiled, Option.some.injEq, Prod.mk.injEq] at hinsert
    rw [hat, ← hinsert.1]
  · rw [ht] at hinsert
    exact ⟨n, hat, (insertTiled_grafted hinsert).1⟩

theorem transferred_of_crossing {s : Session} {source target : DomainKey} {direction : Direction}
    {plan : MovePlan} {revision : Nat} {targetFocus : Option NodeId} {applied : AppliedMove}
    {desired : PendingDesired}
    (happlied : applyMoveOperation s.trees s.windows s.domains source leaf direction plan revision
      targetFocus = some applied)
    (htarget : crossTarget plan.operation = some target)
    (htrees : desired.trees = applied.trees) (hwindows : desired.windows = applied.windows)
    (hexceptions : desired.exceptions = s.exceptions) (hvalid : s.ValidDesired desired)
    (hcommits : Commits s desired moved) :
    source ≠ target ∧ (s.domains.any (·.key == target)) = true ∧
      Transferred s source target plan.intent.focusedWindow leaf
        (generateMoveGroupId leaf revision "r4" (nodeIdsOf s.trees)) moved := by
  unfold applyMoveOperation at happlied
  simp only [Option.bind_eq_bind, Option.bind_eq_some_iff, require_eq_some] at happlied
  obtain ⟨_, -, mover, hmover, _, hintent, h⟩ := happlied
  obtain rfl : plan.intent.focusedWindow = mover := beq_iff_eq.mp hintent
  cases hoperation : plan.operation with
  | crossOutput rule output workspace index place =>
    rw [hoperation] at h htarget
    cases htarget
    simp only [applyCrossOutput, Option.bind_eq_bind, Option.bind_eq_some_iff, require_eq_some,
      Option.pure_def, Option.some.injEq] at h
    obtain ⟨d, hd, _, haway, _, -, _, -, _, -, tree, htree, _, -, n, hinto, rfl⟩ := h
    have hne : (⟨output, workspace⟩ : DomainKey) ≠ source := bne_iff_ne.mp haway
    rw [treeAt_insert, if_neg hne.symm] at hinto
    obtain ⟨halone, hgrafted⟩ := crossInto_grafted hinto
    have hat : treeAt moved.trees ⟨output, workspace⟩ = some n := by
      rw [hcommits.trees, htrees, treeAt_insert, if_pos rfl]
    have hmoved := hcommits.windows.trans hwindows
    -- the mover's link is stored under its own window, or the new world had two links to its leaf
    have hlink : ∃ link, s.windows[plan.intent.focusedWindow]? = some link ∧ link.key = source ∧
        link.leaf = leaf := by
      obtain ⟨link, hfind, hwindow⟩ := Option.map_eq_some_iff.mp hmover
      obtain ⟨k, hk⟩ := mem_values.mp (List.mem_of_find?_eq_some hfind)
      have hmatch := List.find?_some hfind
      simp only [Bool.and_eq_true, beq_iff_eq] at hmatch
      have hkey : link.key = source := DomainKey.ext hmatch.1.2 hmatch.2
      by_cases heq : k = plan.intent.focusedWindow
      · exact ⟨link, heq ▸ hk, hkey, hmatch.1.1⟩
      · have hold : desired.windows[k]? = some link := by
          rw [hwindows]
          exact (lookup_insert.trans (if_neg (Ne.symm heq))).trans hk
        have hnew : desired.windows[plan.intent.focusedWindow]? =
            some ⟨plan.intent.focusedWindow, leaf, output, workspace⟩ := by
          rw [hwindows]
          exact lookup_insert.trans (if_pos rfl)
        exact absurd (hvalid.leaf_inj hold hnew hmatch.1.1) heq
    refine ⟨hne.symm, ?_, {
      link := hlink
      windows := hmoved
      exceptions := hcommits.exceptions.trans hexceptions
      domains := hcommits.domains
      restore := hcommits.restore
      alone := fun hnone => hat.trans (congrArg some (halone hnone))
      grafted := fun ht => ⟨n, hat, hgrafted _ ht⟩
      fresh := freshId_not_mem
      named := generateMoveGroupId_named
      valid := hcommits.valid
      settled := hcommits.settled
      revision := hcommits.revision }⟩
    have hkey := List.find?_some hd
    exact List.any_eq_true.mpr ⟨d, List.mem_of_find?_eq_some hd, hkey⟩
  | _ =>
    rw [hoperation] at htarget
    cases htarget

/-- A proposal that takes a tile out of a domain: the tile, and the id of the
group it would open in an occupied target. -/
def transfer (s : Session) (sourceKey : DomainKey) : Proposal → Option (WindowId × NodeId)
  | .command (.moveToWorkspace window _ _) observed _ _
  | .command (.moveToOutput window _ _) observed _ _ =>
    if s.windows[window]?.any (·.key == sourceKey) then
      some (window, generateGroupId window observed.observation.revision s.allNodeIds)
    else none
  | .move domain window direction observed _ capabilities sameAxisMove =>
    if domain == sourceKey && s.crosses domain window direction capabilities sameAxisMove then
      s.focusedLeaf.map fun leaf =>
        (window, generateMoveGroupId leaf observed.observation.revision "r4" s.allNodeIds)
    else none
  | _ => none

theorem focusedOn_frame {s : Session} {focus : Option (DomainKey × WindowId)} :
    (s.focusedOn focus).trees = s.trees ∧ (s.focusedOn focus).windows = s.windows ∧
      (s.focusedOn focus).exceptions = s.exceptions ∧ (s.focusedOn focus).domains = s.domains ∧
      (s.focusedOn focus).drag = s.drag ∧
      (s.focusedOn focus).canonicalPairTargetRestore = s.canonicalPairTargetRestore := by
  cases focus with
  | none => exact ⟨rfl, rfl, rfl, rfl, rfl, rfl⟩
  | some focus =>
    unfold focusedOn syncFocusFromWindow
    dsimp only
    split
    · exact ⟨rfl, rfl, rfl, rfl, rfl, rfl⟩
    · split
      · exact ⟨rfl, rfl, rfl, rfl, rfl, rfl⟩
      · split <;> exact ⟨rfl, rfl, rfl, rfl, rfl, rfl⟩

/-- The pair a transfer was proposed on may have followed the focus before. -/
theorem Transferred.of_focusedOn {sourceKey targetKey : DomainKey}
    {focus : Option (DomainKey × WindowId)}
    (h : Transferred (pair.focusedOn focus) sourceKey targetKey mover leaf group moved) :
    Transferred pair sourceKey targetKey mover leaf group moved := by
  obtain ⟨htrees, hwindows, hexceptions, hdomains, -, hrestore⟩ := @focusedOn_frame pair focus
  refine { h with
    link := hwindows ▸ h.link
    windows := hwindows ▸ h.windows
    exceptions := h.exceptions.trans hexceptions
    domains := h.domains.trans hdomains
    restore := h.restore.trans hrestore
    alone := fun hnone => h.alone (by rw [htrees]; exact hnone)
    grafted := fun ht => h.grafted (by rw [htrees]; exact ht)
    fresh := fun hin => h.fresh ?_ }
  rw [allNodeIds, htrees]
  exact hin

theorem proposeSend_transferred {s proposed t : Session} {target : DomainKey} {follow cross : Bool}
    {observed : SessionObservation} {correlationId : CorrelationId}
    {capabilities : LifecycleCapabilities} {plan : SessionPlan} {ack : AdapterAck}
    {v : Verification} {commit : Commit} {link : WindowLink} (hdrag : s.drag = none)
    (hsend : s.proposeSend mover target follow cross observed correlationId capabilities =
      (proposed, .ok plan))
    (hlink : s.windows[mover]? = some link) (hack : (proposed.acknowledge ack).1 = t)
    (hcommit : t.verification v = (moved, .ok commit)) :
    link.key ≠ target ∧ (s.domainAt target).isSome = true ∧
      Transferred s link.key target mover link.leaf
        (generateGroupId mover observed.observation.revision s.allNodeIds) moved := by
  obtain ⟨desired, hawaits, hsent⟩ := proposeSend_awaits hsend
  exact hsent.transferred hlink (hawaits.commits hdrag hsent.valid hack hcommit)

theorem bound_ok {P : Type} {call : Session × Except ProposeError P}
    {binding : P → Option PlanBinding} {proposed : Session} {b : Option PlanBinding}
    (h : bound call binding = (proposed, .ok b)) : ∃ plan, call = (proposed, .ok plan) := by
  obtain ⟨s, result⟩ := call
  cases result with
  | error e => cases h
  | ok plan =>
    cases h
    exact ⟨plan, rfl⟩

/-- Both send commands are sends. -/
theorem propose_send {s proposed : Session} {target : DomainKey} {follow outputSend : Bool}
    {observed : SessionObservation} {correlationId : CorrelationId}
    {capabilities : LifecycleCapabilities} {plan : SessionPlan}
    (h : s.propose (if outputSend then .moveToOutput mover target follow
      else .moveToWorkspace mover target follow) observed correlationId capabilities =
        (proposed, .ok plan)) :
    s.proposeSend mover target follow outputSend observed correlationId capabilities =
      (proposed, .ok plan) := by
  unfold propose attempt at h
  cases hcheck : s.checkCommand (if outputSend then .moveToOutput mover target follow
      else .moveToWorkspace mover target follow) observed.windows with
  | error error => rw [hcheck] at h; cases h
  | ok u =>
    rw [hcheck] at h
    cases outputSend with
    | true => exact h
    | false => exact h

/-- A committed transfer moves its tile out of the source and opens its group.
Sends and crossings stage such a world, and the commit accepts what was
staged. -/
theorem commitPlan_transferred {s : Session} {p : Proposal} {ack : AdapterAck} {v : Verification}
    {sourceKey : DomainKey} (hdrag : s.drag = none)
    (htransfer : s.transfer sourceKey p = some (mover, group))
    (hcommit : s.commitPlan p ack v = some moved) :
    ∃ target leaf, sourceKey ≠ target ∧ (s.domains.any (·.key == target)) = true ∧
      Transferred s sourceKey target mover leaf group moved := by
  unfold commitPlan at hcommit
  generalize hproposal : s.proposal p = answer at hcommit
  obtain ⟨proposed, result⟩ := answer
  cases result with
  | error e => cases hcommit
  | ok binding =>
    cases binding with
    | none => cases hcommit
    | some binding =>
      simp only at hcommit
      generalize hack : (proposed.acknowledge ack).1 = t at hcommit
      generalize hverification : t.verification v = answer at hcommit
      obtain ⟨committed, result⟩ := answer
      cases result with
      | error e => cases hcommit
      | ok commit =>
        cases hcommit
        have hsent : ∀ {window : WindowId} {target : DomainKey} {follow outputSend : Bool}
            {observed : SessionObservation} {correlationId : CorrelationId}
            {capabilities : LifecycleCapabilities},
            (if s.windows[window]?.any (·.key == sourceKey) = true then
              some (window, generateGroupId window observed.observation.revision s.allNodeIds)
              else none) = some (mover, group) →
            bound (s.propose (if outputSend then .moveToOutput window target follow
              else .moveToWorkspace window target follow) observed correlationId capabilities)
              (some ·.dispatch.binding) = (proposed, .ok (some binding)) →
            ∃ target leaf, sourceKey ≠ target ∧ (s.domains.any (·.key == target)) = true ∧
              Transferred s sourceKey target mover leaf group moved := by
          intro window target follow outputSend observed correlationId capabilities htransfer hbound
          split at htransfer
          · rename_i hhome
            cases htransfer
            obtain ⟨link, hlink, hkey⟩ := (Option.any_eq_true _ _).mp hhome
            obtain rfl : link.key = sourceKey := beq_iff_eq.mp hkey
            obtain ⟨plan, hplan⟩ := bound_ok hbound
            obtain ⟨hne, hdomain, hmoved⟩ := proposeSend_transferred hdrag (propose_send hplan) hlink
              hack hverification
            obtain ⟨d, hd⟩ := Option.isSome_iff_exists.mp hdomain
            obtain ⟨hmem, hkey⟩ := domainAt_eq_some hd
            exact ⟨target, link.leaf, hne, List.any_eq_true.mpr ⟨d, hmem, beq_iff_eq.mpr hkey⟩, hmoved⟩
          · cases htransfer
        cases p with
        | command command observed correlationId capabilities =>
          cases command with
          | moveToWorkspace window target follow =>
            exact @hsent window target follow false observed correlationId capabilities htransfer
              hproposal
          | moveToOutput window target follow =>
            exact @hsent window target follow true observed correlationId capabilities htransfer
              hproposal
          | _ => cases htransfer
        | move domain window direction observed correlationId capabilities sameAxisMove =>
          rw [transfer] at htransfer
          split at htransfer
          · rename_i hcrosses
            rw [Bool.and_eq_true, beq_iff_eq] at hcrosses
            obtain ⟨rfl, hcrosses⟩ := hcrosses
            obtain ⟨leaf, hleaf, heq⟩ := Option.map_eq_some_iff.mp htransfer
            cases heq
            obtain ⟨plan, hplan⟩ := bound_ok hproposal
            obtain ⟨staging, dispatch, hplanned, -, -, hawaits⟩ :=
              proposeStaged_ok (fun _ _ => propose_opens) hplan
            obtain ⟨leaf', snapshot, applied, hleaf', hsnapshot, hplan, happlied, -, hdesired, hvalid⟩ :=
              planMoveWithSameAxis_ok hplanned
            obtain rfl := Option.some.inj (hleaf.symm.trans hleaf')
            simp only [crosses, hleaf, hsnapshot, hplan] at hcrosses
            obtain ⟨target, htarget⟩ := Option.isSome_iff_exists.mp hcrosses
            obtain ⟨operation, hfor, -⟩ := planMoveWithCapabilities_planned hplan
            obtain ⟨hne, hdomain, hmoved⟩ := transferred_of_crossing happlied htarget
              (by rw [hdesired]) (by rw [hdesired]) (by rw [hdesired]; rfl) hvalid
              (hawaits.commits hdrag hvalid hack hverification)
            rw [hfor] at hmoved
            exact ⟨target, leaf, hne, hdomain, hmoved⟩
          · cases htransfer
        | _ => cases htransfer

/-- Whatever the two sessions call their nodes: after a committed transfer the
split gives both back, each with its windows, exactly when the group the
transfer opens is not named like a node of the target. -/
theorem splitCanonicalPair_transfer_iff {requireAdjacency : Bool}
    {focus : Option (DomainKey × WindowId)} {p : Proposal} {ack : AdapterAck} {v : Verification}
    (hpair : pairedFromCanonicalImpl source target? sourceDomain targetDomain requireAdjacency =
      .ok pair)
    (htransfer : (pair.focusedOn focus).transfer sourceDomain.key p = some (mover, group))
    (hcommit : (pair.focusedOn focus).commitPlan p ack v = some moved) :
    (∃ source' target', moved.splitCanonicalPair = .ok (source', some target') ∧
      TransferSplit source target? targetDomain.key mover source' target') ↔
      group ∉ targetIds target? := by
  have ha := pairedFromCanonicalImpl_assembled hpair
  obtain ⟨-, -, -, hframe, hdrag, -⟩ := @focusedOn_frame pair focus
  have hidle : (pair.focusedOn focus).drag = none :=
    hdrag.trans (settledWorld_iff.mp ha.settled).2.2.2
  obtain ⟨target, leaf, hne, hdomain, hmoved⟩ := commitPlan_transferred hidle htransfer hcommit
  -- the pair has one other domain
  obtain rfl : target = targetDomain.key := by
    rw [hframe, ha.domains, List.any_eq_true] at hdomain
    obtain ⟨d, hd, hkey⟩ := hdomain
    rw [List.mem_cons, List.mem_singleton] at hd
    rw [beq_iff_eq] at hkey
    rcases hd with rfl | rfl
    · exact absurd hkey hne
    · exact hkey.symm
  have ht := hmoved.of_focusedOn
  obtain ⟨source', target', hsource, htarget, hsplit⟩ :=
    splitCanonicalPair_sides ht.settled ht.valid (ht.domains.trans ha.domains) ht.revision
  have hsourceValid := ht.source_valid ha hsource
  rw [hsplit, validateCurrentTopology_iff.mpr hsourceValid, Bool.true_and,
    ← ht.target_valid_iff ha htarget]
  constructor
  · rintro ⟨s, t, hok, -⟩
    split at hok
    · rename_i hvalid
      exact validateCurrentTopology_iff.mp hvalid
    · cases hok
  · intro hvalid
    rw [if_pos (validateCurrentTopology_iff.mpr hvalid)]
    have hsplits := ht.splits ha hsource htarget ⟨hsourceValid, hvalid⟩
    obtain ⟨link, hlink, -⟩ := hsplits.gains
    have hoccupied : target'.isEmptyAt targetDomain.key = false := by
      rw [Bool.eq_false_iff]
      intro hempty
      simp only [isEmptyAt, Bool.and_eq_true] at hempty
      rw [isEmpty_iff_lookup.mp hempty.1.2 mover] at hlink
      cases hlink
    rw [hoccupied]
    exact ⟨source', target', rfl, hsplits⟩

end Session

namespace Sample

/-- A plain window on workspace 1 of an output. -/
def placed (raw output : String) : ObservedWindow := { window raw with output := ⟨output⟩ }

/-- A component that has adopted some windows at once. -/
def component (d : OutputDomain) (revision : Nat) (windows : List ObservedWindow) : Option Session :=
  (Session.new owner generation revision 0 [d.canonicalComponent]).toOption.map fun s =>
    (s.convergeObservation (observation revision windows) none).1

/-- A transfer as it was committed. -/
structure Crossing where
  source : Session
  target : Session
  pair : Session
  verification : Verification
  moved : Session

def crossingWindows (other : String) : SessionObservation :=
  observation 5 [placed "x" "A", placed "a" "B", placed other "B"]

def crossingFocus : Option (DomainKey × WindowId) := some (leftOutput.key, ⟨"x"⟩)

def crossingMove (other : String) : Proposal :=
  .move leftOutput.key ⟨"x"⟩ .right (crossingWindows other) correlationId .full .groupWithNeighbor

def crossingAck : AdapterAck := ⟨correlationId, owner, generation, 5, .accepted⟩

/-- What the adapter reports of the crossing it realized. -/
def crossingPost (s : Session) (other : String) : Option Verification :=
  match (s.proposeMoveWithSameAxis leftOutput.key ⟨"x"⟩ .right (crossingWindows other) correlationId
    .full .groupWithNeighbor).2 with
  | .ok plan => some (.move ⟨(crossingWindows other).observation, correlationId, true,
      plan.dispatch.preconditions, plan.dispatch.operation⟩)
  | .error _ => none

/-- The only tile of the left output crosses into the right one, which has
adopted two at revision 4. -/
def crossed (other : String) : Option Crossing :=
  (component leftOutput 0 [placed "x" "A"]).bind fun source =>
    (component rightOutput 4 [placed "a" "B", placed other "B"]).bind fun target =>
      (Session.pairedFromCanonical source (some target) leftOutput rightOutput).toOption.bind fun pair =>
        (crossingPost (pair.focusedOn crossingFocus) other).bind fun verification =>
          ((pair.focusedOn crossingFocus).commitPlan (crossingMove other) crossingAck
            verification).map fun moved => ⟨source, target, pair, verification, moved⟩

theorem crossed_spec {other : String} {c : Crossing} (h : crossed other = some c) :
    Session.pairedFromCanonicalImpl c.source (some c.target) leftOutput rightOutput true =
        .ok c.pair ∧
      (c.pair.focusedOn crossingFocus).commitPlan (crossingMove other) crossingAck c.verification =
        some c.moved := by
  simp only [crossed, Option.bind_eq_some_iff, Option.map_eq_some_iff] at h
  obtain ⟨source, -, target, -, pair, hpair, verification, -, moved, hmoved, rfl⟩ := h
  exact ⟨toOption_eq_ok.mp hpair, hmoved⟩

end Sample

namespace Session

/-- Beside a plain tile the crossing splits. -/
theorem splitCanonicalPair_transfer_crossing :
    ∃ c, Sample.crossed "b" = some c ∧
      ((∃ source' target', c.moved.splitCanonicalPair = .ok (source', some target') ∧
        TransferSplit c.source (some c.target) Sample.rightOutput.key ⟨"x"⟩ source' target') ↔
        (⟨"grp-leaf-x-r5-r4"⟩ : NodeId) ∉ targetIds (some c.target)) := by
  have hall : (Sample.crossed "b").any (fun c =>
      (c.pair.focusedOn Sample.crossingFocus).transfer Sample.leftOutput.key
        (Sample.crossingMove "b") == some (⟨"x"⟩, ⟨"grp-leaf-x-r5-r4"⟩)) = true := by decide +kernel
  obtain ⟨c, hc, htransfer⟩ := (Option.any_eq_true _ _).mp hall
  obtain ⟨hpair, hcommit⟩ := Sample.crossed_spec hc
  exact ⟨c, hc, splitCanonicalPair_transfer_iff hpair (beq_iff_eq.mp htransfer) hcommit⟩

/-- Beside a tile whose admission opened a group of the same name it does not. -/
theorem splitCanonicalPair_transfer_clash :
    ∃ source target pair v moved group,
      pairedFromCanonicalImpl source (some target) Sample.leftOutput Sample.rightOutput true =
          .ok pair ∧
        (pair.focusedOn Sample.crossingFocus).transfer Sample.leftOutput.key
          (Sample.crossingMove "leaf-x-r5") = some (⟨"x"⟩, group) ∧
        (pair.focusedOn Sample.crossingFocus).commitPlan (Sample.crossingMove "leaf-x-r5")
          Sample.crossingAck v = some moved ∧
        moved.splitCanonicalPair.isOk = false := by
  have hall : (Sample.crossed "leaf-x-r5").any (fun c =>
      (c.pair.focusedOn Sample.crossingFocus).transfer Sample.leftOutput.key
        (Sample.crossingMove "leaf-x-r5") == some (⟨"x"⟩, ⟨"grp-leaf-x-r5-r4"⟩) &&
      !c.moved.splitCanonicalPair.isOk) = true := by decide +kernel
  obtain ⟨c, hc, hchecks⟩ := (Option.any_eq_true _ _).mp hall
  rw [Bool.and_eq_true, Bool.not_eq_true', beq_iff_eq] at hchecks
  obtain ⟨hpair, hcommit⟩ := Sample.crossed_spec hc
  exact ⟨c.source, c.target, c.pair, c.verification, c.moved, _, hpair, hchecks.1, hcommit, hchecks.2⟩

end Session

end PlasmaTiler
