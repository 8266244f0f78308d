import PlasmaTiler.FocusMemory
import PlasmaTiler.Splitting

/-!
# Pairs and their halves

Besides its world a session has a memory: stacks, last active leaves,
retained rectangles, marks. Assembly joins the memories of two sessions
(`Joined`) and a split takes them apart by domain and by window (`Parted`).
Both leave an orderly memory orderly, so that the invariants of single
sessions hold of pairs and of their halves as well.

The world says which half a stack or a leaf belongs to. For rectangles and
marks there is no domain to go by; they go along with the windows, and those
whose window neither half has stay with the source (`keeps_iff`).

`Obtainable` closes the sessions a client can bring about under pairs: new
ones, what a call leaves, two sessions paired, and the halves of a split.
Everything proved of reachable sessions that an engine needs is proved of
these.
-/

namespace PlasmaTiler

namespace Session

variable {source target pair side : Session} {target? : Option Session}
  {sourceDomain targetDomain d : OutputDomain} {w : WindowId} {key : DomainKey} {leaf : NodeId}
  {requireAdjacency : Bool} {f : NodeId → NodeId}

/-! ## What assembly joins -/

/-- The input a pair takes its revision from. -/
def newestOf (source : Session) (target? : Option Session) : Session :=
  match target? with
  | some target => if source.acceptedRevision < target.acceptedRevision then target else source
  | none => source

/-- The memory, the rectangles and the marks of a pair, lookup by lookup:
those of the target, renamed, and those of the source. -/
structure Joined (source : Session) (target? : Option Session) (pair : Session) : Prop where
  focusStack : ∀ key : DomainKey, pair.focusStack[key]? =
    ((target?.bind fun t => t.focusStack[key]?).map
      (List.map (remapNodeId (pairRenaming source target?)))).or source.focusStack[key]?
  lastActive : ∀ key : DomainKey, pair.lastActive[key]? =
    ((target?.bind fun t => t.lastActive[key]?).map
      (remapNodeId (pairRenaming source target?))).or source.lastActive[key]?
  focusedDomain : pair.focusedDomain = if source.focusedDomain.isNone then
    target?.bind focusedDomain else source.focusedDomain
  focusedLeaf : pair.focusedLeaf = if source.focusedDomain.isNone then
    (target?.bind Session.focusedLeaf).map (remapNodeId (pairRenaming source target?))
      else source.focusedLeaf
  retained : ∀ w : WindowId, pair.retainedFloatGeometry[w]? =
    (target?.bind fun t => t.retainedFloatGeometry[w]?).or source.retainedFloatGeometry[w]?
  automatic : ∀ w : WindowId, w ∈ pair.automaticFixed ↔
    w ∈ source.automaticFixed ∨ ∃ t, target? = some t ∧ w ∈ t.automaticFixed
  override : ∀ w : WindowId, w ∈ pair.fixedTileOverride ↔
    w ∈ source.fixedTileOverride ∨ ∃ t, target? = some t ∧ w ∈ t.fixedTileOverride
  identity : pair.owner = source.owner ∧ pair.generation = source.generation
  settings : pair.fixedAdmission = source.fixedAdmission ∧
    pair.fixedPredicate = source.fixedPredicate ∧
      pair.maximizedFocusFence = source.maximizedFocusFence
  revision : pair.acceptedRevision = (newestOf source target?).acceptedRevision
  fingerprint : pair.acceptedFingerprint = (newestOf source target?).acceptedFingerprint

theorem mem_union_marks {marks more : BTreeSet WindowId} :
    w ∈ marks.insertMany more.toList ↔ w ∈ marks ∨ w ∈ more := by
  rw [Std.ExtTreeSet.mem_insertMany_list, List.contains_iff_mem, Std.ExtTreeSet.mem_toList]

theorem lookup_extendMap_same {ν : Type} {m t : BTreeMap WindowId ν} :
    (extendMap m t.toList)[w]? = t[w]?.or m[w]? := by
  have hlookup := @lookup_extendMap _ _ _ _ _ _ _ m t (fun _ v => v) w
  simpa using hlookup

theorem pairedFromCanonicalImpl_joined
    (h : pairedFromCanonicalImpl source target? sourceDomain targetDomain requireAdjacency =
      .ok pair) : Joined source target? pair := by
  cases target? with
  | none =>
    simp only [pairedFromCanonicalImpl, bind_eq_ok, ensure_eq_ok, mapError_eq_ok, pure_eq_ok,
      checkComponent_iff] at h
    obtain ⟨_, -, _, -, _, hsource, base, hbase, _, -, rfl⟩ := h
    obtain ⟨-, howner, hgeneration, hrevision, hfingerprint, -⟩ := new_ok hbase
    refine ⟨fun key => rfl, fun key => rfl, ?_, ?_, fun w => rfl, fun w => ?_, fun w => ?_,
      ⟨howner, hgeneration⟩, ⟨rfl, rfl, rfl⟩, hrevision, hfingerprint⟩
    · show source.focusedDomain = _
      cases source.focusedDomain <;> rfl
    · show source.focusedLeaf = _
      rcases validFocus_cases hsource.valid.focus with ⟨hdomain, hleaf⟩ | ⟨k, leaf, hdomain, hleaf, -⟩
      · rw [hdomain, hleaf]
        rfl
      · rw [hdomain, hleaf]
        rfl
    · exact (or_iff_left (by simp)).symm
    · exact (or_iff_left (by simp)).symm
  | some target =>
    simp only [pairedFromCanonicalImpl, bind_eq_ok, ensure_eq_ok, mapError_eq_ok, pure_eq_ok] at h
    obtain ⟨_, -, _, -, _, -, _, -, _, -, _, -, base, hbase, _, -, rfl⟩ := h
    obtain ⟨-, howner, hgeneration, hrevision, hfingerprint, -⟩ := new_ok hbase
    refine ⟨fun key => ?_, fun key => ?_, rfl, rfl, fun w => lookup_extendMap_same, fun w => ?_,
      fun w => ?_, ⟨howner, hgeneration⟩, ⟨rfl, rfl, rfl⟩, hrevision, hfingerprint⟩
    · exact lookup_extendMap (f := fun _ => List.map (remapNodeId (pairTargetNodeRemap source target)))
    · exact lookup_extendMap (f := fun _ => remapNodeId (pairTargetNodeRemap source target))
    · exact mem_union_marks.trans (or_congr Iff.rfl (by simp))
    · exact mem_union_marks.trans (or_congr Iff.rfl (by simp))

/-! ## Leaves of a pair -/

section
variable {s t : Session} {l : WindowLink} {leaves : List NodeId}

theorem Assembled.source_link (ha : Assembled source target? sourceDomain targetDomain pair)
    (hl : source.windows[w]? = some l) : pair.windows[w]? = some l := by
  have hknown : source.isKnown w = true := isKnown_iff.mpr (.inl (mem_iff_lookup.mpr ⟨l, hl⟩))
  have hnone : (target?.bind fun t => t.windows[w]?) = none := by
    rw [Option.bind_eq_none_iff]
    intro t ht
    refine Std.ExtTreeMap.getElem?_eq_none fun hw => ?_
    rw [ha.apart ht w (isKnown_iff.mpr (.inl hw))] at hknown
    cases hknown
  rw [ha.windows, hnone, Option.map_none, Option.none_or, hl]

theorem Assembled.target_link (ha : Assembled source target? sourceDomain targetDomain pair)
    (ht : target? = some t) (hl : t.windows[w]? = some l) :
    pair.windows[w]? = some (remapLink (pairRenaming source target?) l) := by
  rw [ha.windows]
  subst ht
  rw [Option.bind_some, hl]
  rfl

/-- A focus of the source is one of the pair. -/
theorem Assembled.focus_source (ha : Assembled source target? sourceDomain targetDomain pair)
    (h : validFocus source.trees source.windows (some key) (some leaf) = true) :
    key = sourceDomain.key ∧ validFocus pair.trees pair.windows (some key) (some leaf) = true := by
  obtain ⟨htree, hlinked⟩ := validFocus_some.mp h
  obtain ⟨n, hn, hleaf⟩ := hasLeaf_iff.mp htree
  obtain ⟨w, l, hl, hlleaf, hlkey⟩ := linkedAt_iff.mp hlinked
  obtain rfl := ha.sourceOk.tree_key hn
  exact ⟨rfl, validFocus_some.mpr ⟨hasLeaf_iff.mpr ⟨n, ha.sourceTree.trans hn, hleaf⟩,
    linkedAt_iff.mpr ⟨w, l, ha.source_link hl, hlleaf, hlkey⟩⟩⟩

/-- A focus of the target is one of the pair under its fresh name. -/
theorem Assembled.focus_target (ha : Assembled source target? sourceDomain targetDomain pair)
    (ht : target? = some t) (h : validFocus t.trees t.windows (some key) (some leaf) = true) :
    key = targetDomain.key ∧ leaf ∈ targetIds target? ∧ validFocus pair.trees pair.windows (some key)
      (some (remapNodeId (pairRenaming source target?) leaf)) = true := by
  obtain ⟨htree, hlinked⟩ := validFocus_some.mp h
  obtain ⟨n, hn, hleaf⟩ := hasLeaf_iff.mp htree
  obtain ⟨w, l, hl, rfl, hlkey⟩ := linkedAt_iff.mp hlinked
  obtain rfl := (ha.targetOk ht).tree_key hn
  refine ⟨rfl, ?_, validFocus_some.mpr ⟨hasLeaf_iff.mpr
    ⟨n.rename (remapNodeId (pairRenaming source target?)), ?_, ?_⟩,
    linkedAt_iff.mpr ⟨w, _, ha.target_link ht hl, rfl, hlkey⟩⟩⟩
  · subst ht
    exact Std.ExtTreeSet.mem_toList.mpr (mem_allNodeIds hn (Node.mem_ids_of_mem_leaves hleaf))
  · rw [ha.targetTree]
    subst ht
    rw [Option.bind_some, hn]
    rfl
  · rw [Node.leaves_rename]
    exact List.mem_map_of_mem hleaf

theorem Stacked.component_key (h : s.Stacked) (hc : Component s d)
    (hstack : s.focusStack[key]? = some leaves) : key = d.key := by
  obtain ⟨hnonempty, -, hlive⟩ := h.live hstack
  obtain ⟨x, hx⟩ := List.exists_mem_of_ne_nil leaves hnonempty
  obtain ⟨n, hn, -⟩ := hasLeaf_iff.mp (validFocus_some.mp (hlive x hx)).1
  exact hc.tree_key hn

theorem ActiveAt.component_key (h : ActiveAt s.domains s.lastActive) (hc : Component s d)
    (hleaf : s.lastActive[key]? = some leaf) : key = d.key := by
  obtain ⟨e, he, rfl⟩ := h hleaf
  exact hc.mem_domains he

/-- The stacks of a pair are the source's and, renamed, the target's. -/
theorem Joined.stack_cases (hj : Joined source target? pair)
    (hstack : pair.focusStack[key]? = some leaves) :
    (∃ t own, target? = some t ∧ t.focusStack[key]? = some own ∧
      leaves = own.map (remapNodeId (pairRenaming source target?))) ∨
      source.focusStack[key]? = some leaves := by
  rw [hj.focusStack, Option.or_eq_some_iff] at hstack
  rcases hstack with htarget | ⟨-, hsource⟩
  · obtain ⟨own, hown, rfl⟩ := Option.map_eq_some_iff.mp htarget
    obtain ⟨t, ht, hown⟩ := Option.bind_eq_some_iff.mp hown
    exact .inl ⟨t, own, ht, hown, rfl⟩
  · exact .inr hsource

theorem Joined.target_stack (hj : Joined source target? pair) (ht : target? = some t)
    (hstack : t.focusStack[key]? = some leaves) :
    pair.focusStack[key]? = some (leaves.map (remapNodeId (pairRenaming source target?))) := by
  rw [hj.focusStack]
  subst ht
  rw [Option.bind_some, hstack]
  rfl

/-- The target has no stack in the source's domain. -/
theorem Joined.source_stack (hj : Joined source target? pair)
    (ha : Assembled source target? sourceDomain targetDomain pair)
    (ht : ∀ t, target? = some t → t.Stacked) :
    pair.focusStack[sourceDomain.key]? = source.focusStack[sourceDomain.key]? := by
  have hnone : (target?.bind fun t => t.focusStack[sourceDomain.key]?) = none := by
    rw [Option.bind_eq_none_iff]
    intro t hsome
    rw [Option.eq_none_iff_forall_ne_some]
    intro leaves hstack
    exact ha.keys ((ht t hsome).component_key (ha.targetOk hsome) hstack)
  rw [hj.focusStack, hnone, Option.map_none, Option.none_or]

theorem Joined.stacked (hj : Joined source target? pair)
    (ha : Assembled source target? sourceDomain targetDomain pair) (hs : source.Stacked)
    (ht : ∀ t, target? = some t → t.Stacked) : pair.Stacked := by
  refine ⟨fun {key leaves} hstack => ?_, fun {key leaf} hdomain hleaf => ?_⟩
  · rcases hj.stack_cases hstack with ⟨t, own, hsome, hown, rfl⟩ | hsource
    · obtain ⟨hnonempty, hnodup, hlive⟩ := (ht t hsome).live hown
      refine ⟨by simpa using hnonempty, ?_, fun leaf hin => ?_⟩
      · refine List.Nodup.map_on (fun i hi j hj heq => ?_) hnodup
        exact pairRenaming_minted.remap_inj (ha.focus_target hsome (hlive i hi)).2.1
          (ha.focus_target hsome (hlive j hj)).2.1 heq
      · obtain ⟨i, hi, rfl⟩ := List.mem_map.mp hin
        exact (ha.focus_target hsome (hlive i hi)).2.2
    · obtain ⟨hnonempty, hnodup, hlive⟩ := hs.live hsource
      exact ⟨hnonempty, hnodup, fun leaf hin => (ha.focus_source (hlive leaf hin)).2⟩
  · rw [hj.focusedDomain] at hdomain
    rw [hj.focusedLeaf] at hleaf
    split at hdomain
    · rename_i hunfocused
      rw [if_pos hunfocused] at hleaf
      obtain ⟨t, hsome, hdomain⟩ := Option.bind_eq_some_iff.mp hdomain
      obtain ⟨own, hown, rfl⟩ := Option.map_eq_some_iff.mp hleaf
      obtain ⟨t', hsome', hown⟩ := Option.bind_eq_some_iff.mp hown
      obtain rfl := Option.some.inj (hsome.symm.trans hsome')
      obtain ⟨rest, hrest⟩ := (ht t hsome).top hdomain hown
      refine ⟨rest.map (remapNodeId (pairRenaming source target?)), ?_⟩
      rw [hj.target_stack hsome hrest, List.map_append]
      rfl
    · rename_i hfocused
      rw [if_neg hfocused] at hleaf
      obtain rfl := ha.sourceOk.focus_key hdomain
      rw [hj.source_stack ha ht]
      exact hs.top hdomain hleaf

theorem Joined.remembers (hj : Joined source target? pair)
    (ha : Assembled source target? sourceDomain targetDomain pair) (hs : source.Remembers)
    (ht : ∀ t, target? = some t → t.Remembers) : pair.Remembers := by
  refine ⟨fun key leaf hleaf => ?_, fun hone => ?_, fun desired hdesired => ?_⟩
  · rw [hj.lastActive, Option.or_eq_some_iff] at hleaf
    rw [ha.domains]
    rcases hleaf with htarget | ⟨-, hsource⟩
    · obtain ⟨own, hown, -⟩ := Option.map_eq_some_iff.mp htarget
      obtain ⟨t, hsome, hown⟩ := Option.bind_eq_some_iff.mp hown
      exact ⟨targetDomain, by simp, ((ht t hsome).active.component_key (ha.targetOk hsome) hown).symm⟩
    · exact ⟨sourceDomain, by simp, (hs.active.component_key ha.sourceOk hsource).symm⟩
  · rw [ha.domains] at hone
    cases hone
  · rw [(settledWorld_iff.mp ha.settled).2.2.1] at hdesired
    cases hdesired

end

/-! ## What a split takes apart -/

/-- A half of a split pair, with what it remembers: the stack and the last
active leaf of its own domain, renamed, and nothing of the other one.
Identity, settings and revision are the pair's. -/
structure Half (pair : Session) (d : OutputDomain) (f : NodeId → NodeId) (side : Session) : Prop
    extends Side pair d f side where
  focusStack : ∀ key : DomainKey, side.focusStack[key]? =
    if d.key = key then pair.focusStack[key]?.map (List.map f) else none
  lastActive : ∀ key : DomainKey, side.lastActive[key]? =
    if d.key = key then pair.lastActive[key]?.map f else none
  identity : side.owner = pair.owner ∧ side.generation = pair.generation
  settings : side.fixedAdmission = pair.fixedAdmission ∧
    side.fixedPredicate = pair.fixedPredicate ∧ side.maximizedFocusFence = pair.maximizedFocusFence
  revision : side.acceptedRevision = pair.acceptedRevision
  fingerprint : side.acceptedFingerprint = pair.acceptedFingerprint
  idle : side.pendingDesired = none

/-- A window only the target's half has. -/
def goesAlong (source target : Session) (w : WindowId) : Bool := !source.isKnown w && target.isKnown w

/-- The target's half has the rectangles and marks of its windows, the
source's all others. -/
structure Parted (retained : WindowId → Option Rect) (automatic override : WindowId → Prop)
    (moves : WindowId → Bool) (source' target' : Session) : Prop where
  retained : ∀ w : WindowId,
    source'.retainedFloatGeometry[w]? = (if moves w then none else retained w) ∧
      target'.retainedFloatGeometry[w]? = if moves w then retained w else none
  automatic : ∀ w : WindowId, (w ∈ source'.automaticFixed ↔ automatic w ∧ moves w = false) ∧
    (w ∈ target'.automaticFixed ↔ automatic w ∧ moves w = true)
  override : ∀ w : WindowId, (w ∈ source'.fixedTileOverride ↔ override w ∧ moves w = false) ∧
    (w ∈ target'.fixedTileOverride ↔ override w ∧ moves w = true)

section
variable {half left right source' : Session} {isSource : Bool}

theorem sideOf_memory (h : pair.sideOf d = .ok half) : HalfOf pair d half ∧
    (half.owner = pair.owner ∧ half.generation = pair.generation) ∧
      (half.fixedAdmission = pair.fixedAdmission ∧ half.fixedPredicate = pair.fixedPredicate ∧
        half.maximizedFocusFence = pair.maximizedFocusFence) ∧
      half.acceptedRevision = pair.acceptedRevision ∧
      half.acceptedFingerprint = pair.acceptedFingerprint ∧ half.pendingDesired = none := by
  simp only [sideOf, bind_eq_ok, mapError_eq_ok, pure_eq_ok] at h
  obtain ⟨base, hbase, rfl⟩ := h
  obtain ⟨hblank, howner, hgeneration, hrevision, hfingerprint, hdomains⟩ := new_ok hbase
  exact ⟨⟨hdomains, rfl, rfl, rfl⟩, ⟨howner, hgeneration⟩, ⟨rfl, rfl, rfl⟩, hrevision, hfingerprint,
    hblank.desired⟩

theorem withSideFocus_focusStack {k : DomainKey} : (side.withSideFocus pair k f).focusStack[key]? =
    if k = key then pair.focusStack[key]?.map (List.map f) else none := by
  simp only [withSideFocus]
  split
  · rename_i leaves hstack
    rw [lookup_insert, Std.ExtTreeMap.getElem?_empty]
    split
    · rename_i heq
      rw [← heq, hstack]
      rfl
    · rfl
  · rename_i hnone
    rw [Std.ExtTreeMap.getElem?_empty]
    split
    · rename_i heq
      rw [← heq, hnone]
      rfl
    · rfl

theorem withSideFocus_lastActive {k : DomainKey} : (side.withSideFocus pair k f).lastActive[key]? =
    if k = key then pair.lastActive[key]?.map f else none := by
  simp only [withSideFocus]
  split
  · rename_i leaf hleaf
    rw [lookup_insert, Std.ExtTreeMap.getElem?_empty]
    split
    · rename_i heq
      rw [← heq, hleaf]
      rfl
    · rfl
  · rename_i hnone
    rw [Std.ExtTreeMap.getElem?_empty]
    split
    · rename_i heq
      rw [← heq, hnone]
      rfl
    · rfl

theorem goesAlong_sides {left' right' : Session} {k k' : DomainKey} {f g : NodeId → NodeId}
    {moved restore : BTreeMap NodeId NodeId} :
    goesAlong ((left.withSideMarks pair left' right' true).withSideFocus pair k f)
        (((right.withSideMarks pair left' right' false).renamed k' moved restore).withSideFocus pair
          k' g) w = goesAlong left right w := by
  simp [goesAlong, isKnown, withSideFocus, withSideMarks, renamed]

/-- Which half gets what is decided by the windows. -/
theorem keeps_iff {b c : Bool} : ((if b then isSource else if c then !isSource else isSource) = true) ↔
    ((!b && c) = !isSource) := by
  cases b <;> cases c <;> cases isSource <;> decide

theorem withSideMarks_retained : (half.withSideMarks pair left right isSource).retainedFloatGeometry[w]? =
    if goesAlong left right w = !isSource then pair.retainedFloatGeometry[w]? else none := by
  simp only [withSideMarks, Std.ExtTreeMap.getElem?_filter']
  by_cases hkeeps : goesAlong left right w = !isSource
  · rw [if_pos hkeeps]
    cases pair.retainedFloatGeometry[w]? with
    | none => rfl
    | some rect => exact Option.filter_some_pos (keeps_iff.mpr hkeeps)
  · rw [if_neg hkeeps, Option.filter_eq_none_iff]
    exact fun _ _ hin => hkeeps (keeps_iff.mp hin)

theorem mem_sideMarks {marks : BTreeSet WindowId} : w ∈ sideMarks marks left right isSource ↔
    w ∈ marks ∧ goesAlong left right w = !isSource := by
  rw [sideMarks, mem_retain, keeps_iff]
  rfl

/-- A successful split in terms of its halves: both valid, the second under
its old names, with the records parted by where a window goes, and no second
half where that would be empty. -/
theorem splitCanonicalPair_ok (h : pair.splitCanonicalPair = .ok (source', target?)) :
    ∃ sourceDomain targetDomain target', pair.domains = [sourceDomain, targetDomain] ∧
      pair.Valid ∧ Half pair sourceDomain id source' ∧
      Half pair targetDomain (rejoin pair targetDomain.key) target' ∧
      (source'.Valid ∧ target'.Valid) ∧
      Parted (fun w => pair.retainedFloatGeometry[w]?) (· ∈ pair.automaticFixed)
        (· ∈ pair.fixedTileOverride) (goesAlong source' target') source' target' ∧
      target? = if target'.isEmptyAt targetDomain.key then none else some target' := by
  unfold splitCanonicalPair at h
  split at h
  · rename_i sourceDomain targetDomain hdomains
    simp only [bind_eq_ok, ensure_eq_ok, pure_eq_ok, Bool.and_eq_true, validateCurrentTopology_iff,
      Prod.mk.injEq] at h
    obtain ⟨_, ⟨-, hpair⟩, half, hhalf, other, hother, _, -, _, -, _, hvalid, rfl, rfl⟩ := h
    obtain ⟨hsource, hidentity, hsettings, hrevision, hfingerprint, hidle⟩ := sideOf_memory hhalf
    obtain ⟨htarget, hidentity', hsettings', hrevision', hfingerprint', hidle'⟩ := sideOf_memory hother
    have hrejoin : (fun leaf => remapNodeId pair.canonicalPairTargetRestore
        (remapNodeId (pair.movedTargetRemap other.windows) leaf)) = rejoin pair targetDomain.key := by
      funext leaf
      rw [rejoin, htarget.windows]
    refine ⟨sourceDomain, targetDomain, _, hdomains, hpair, ⟨hsource.source_side,
      fun _ => withSideFocus_focusStack, fun _ => withSideFocus_lastActive, hidentity, hsettings,
      hrevision, hfingerprint, hidle⟩, ⟨htarget.target_side, fun _ => ?_, fun _ => ?_, hidentity',
      hsettings', hrevision', hfingerprint', hidle'⟩, hvalid, ?_, rfl⟩
    · rw [← hrejoin]
      exact withSideFocus_focusStack
    · rw [← hrejoin]
      exact withSideFocus_lastActive
    · refine ⟨fun w => ?_, fun w => ?_, fun w => ?_⟩
      · rw [goesAlong_sides]
        have hleft := @withSideMarks_retained pair w half half other true
        have hright := @withSideMarks_retained pair w other half other false
        constructor
        · refine Eq.trans hleft ?_
          cases goesAlong half other w <;> rfl
        · refine Eq.trans hright ?_
          cases goesAlong half other w <;> rfl
      · rw [goesAlong_sides]
        exact ⟨mem_sideMarks, mem_sideMarks⟩
      · rw [goesAlong_sides]
        exact ⟨mem_sideMarks, mem_sideMarks⟩
  · cases h

end

/-! ## What a half remembers -/

section
variable {source' : Session}

/-- The focus of a half is on top of its stack. -/
theorem sideFocus_top (hp : pair.Stacked) (h : pair.sideFocus key = some leaf) :
    ∃ rest, pair.focusStack[key]? = some (rest ++ [leaf]) := by
  unfold sideFocus at h
  split at h
  · exact hp.top ‹_› h
  · obtain ⟨htop, -⟩ := Option.filter_eq_some_iff.mp h
    obtain ⟨leaves, hstack, hlast⟩ := Option.bind_eq_some_iff.mp htop
    obtain ⟨rest, rfl⟩ := List.getLast?_eq_some_iff.mp hlast
    exact ⟨rest, hstack⟩

theorem sideFocus_of_top (hp : pair.Stacked) {rest : List NodeId} (hother : pair.focusedDomain ≠ some key)
    (hstack : pair.focusStack[key]? = some (rest ++ [leaf])) : pair.sideFocus key = some leaf := by
  have hlive := (hp.live hstack).2.2 leaf (by simp)
  rw [sideFocus, if_neg hother, hstack, Option.bind_some, List.getLast?_concat]
  exact Option.filter_some_pos hlive

/-- A half without focus has no stack. -/
theorem sideFocus_none (hp : pair.Stacked) (hpair : pair.Valid) (h : pair.sideFocus key = none) :
    pair.focusStack[key]? = none := by
  rw [Option.eq_none_iff_forall_ne_some]
  intro leaves hstack
  by_cases hfocused : pair.focusedDomain = some key
  · rw [sideFocus, if_pos hfocused] at h
    have hvalid := hpair.focus
    rw [hfocused, h] at hvalid
    cases hvalid
  · have hlast : leaves.getLast? ≠ none := fun hnone =>
      (hp.live hstack).1 (List.getLast?_eq_none_iff.mp hnone)
    obtain ⟨leaf, hleaf⟩ := Option.ne_none_iff_exists'.mp hlast
    obtain ⟨rest, rfl⟩ := List.getLast?_eq_some_iff.mp hleaf
    rw [sideFocus_of_top hp hfocused hstack] at h
    cases h

theorem Side.focus (h : Side pair d f side)
    (hfocus : validFocus pair.trees pair.windows (some d.key) (some leaf) = true) :
    validFocus side.trees side.windows (some d.key) (some (f leaf)) = true := by
  obtain ⟨htree, hlinked⟩ := validFocus_some.mp hfocus
  obtain ⟨n, hn, hleaf⟩ := hasLeaf_iff.mp htree
  obtain ⟨w, l, hl, rfl, hlkey⟩ := linkedAt_iff.mp hlinked
  refine validFocus_some.mpr ⟨hasLeaf_iff.mpr ⟨n.rename f, ?_, ?_⟩,
    linkedAt_iff.mpr ⟨w, _, h.link.mpr ⟨l, hl, hlkey, rfl⟩, rfl, hlkey⟩⟩
  · rw [h.treeAt, if_pos rfl, hn]
    rfl
  · rw [Node.leaves_rename]
    exact List.mem_map_of_mem hleaf

/-- In a valid half the renaming tells the leaves apart. -/
theorem Side.inj (h : Side pair d f side) (hside : side.Valid) {i j : NodeId}
    (hi : validFocus pair.trees pair.windows (some d.key) (some i) = true)
    (hj : validFocus pair.trees pair.windows (some d.key) (some j) = true) (heq : f i = f j) : i = j := by
  obtain ⟨n, hn, hin⟩ := hasLeaf_iff.mp (validFocus_some.mp hi).1
  obtain ⟨n', hn', hjn⟩ := hasLeaf_iff.mp (validFocus_some.mp hj).1
  obtain rfl := Option.some.inj (hn.symm.trans hn')
  have htree : PlasmaTiler.treeAt side.trees d.key = some (n.rename f) := by
    rw [h.treeAt, if_pos rfl, hn]
    rfl
  have hnodup := (hside.tree_ok htree).nodup
  rw [Node.ids_rename] at hnodup
  exact List.inj_on_of_nodup_map hnodup (Node.mem_ids_of_mem_leaves hin)
    (Node.mem_ids_of_mem_leaves hjn) heq

theorem Half.stacked (h : Half pair d f side) (hside : side.Valid) (hp : pair.Stacked) :
    side.Stacked := by
  refine ⟨fun {key leaves} hstack => ?_, fun {key leaf} hdomain hleaf => ?_⟩
  · rw [h.focusStack] at hstack
    split at hstack
    · rename_i heq
      subst heq
      obtain ⟨own, hown, rfl⟩ := Option.map_eq_some_iff.mp hstack
      obtain ⟨hnonempty, hnodup, hlive⟩ := hp.live hown
      refine ⟨by simpa using hnonempty, ?_, fun leaf hin => ?_⟩
      · exact List.Nodup.map_on (fun i hi j hj => h.inj hside (hlive i hi) (hlive j hj)) hnodup
      · obtain ⟨i, hi, rfl⟩ := List.mem_map.mp hin
        exact h.focus (hlive i hi)
    · cases hstack
  · rw [h.focusedDomain] at hdomain
    rw [h.focusedLeaf] at hleaf
    obtain ⟨own, hown, rfl⟩ := Option.map_eq_some_iff.mp hleaf
    obtain ⟨-, -, rfl⟩ := Option.map_eq_some_iff.mp hdomain
    obtain ⟨rest, hrest⟩ := sideFocus_top hp hown
    refine ⟨rest.map f, ?_⟩
    rw [h.focusStack, if_pos rfl, hrest, Option.map_some, List.map_append]
    rfl

theorem Half.remembers (h : Half pair d f side) (hpair : pair.Valid) (hp : pair.Stacked) :
    side.Remembers := by
  refine ⟨fun key leaf hleaf => ?_, fun _ hnone key => ?_, fun desired hdesired => ?_⟩
  · rw [h.lastActive] at hleaf
    split at hleaf
    · rw [h.domains]
      exact ⟨_, List.mem_singleton_self _, ‹_›⟩
    · cases hleaf
  · rw [h.focusedDomain, Option.map_eq_none_iff] at hnone
    rw [h.focusStack]
    split
    · rename_i heq
      rw [← heq, sideFocus_none hp hpair hnone]
      rfl
    · rfl
  · rw [h.idle] at hdesired
    cases hdesired

end

/-! ## Obtainable sessions -/

/-- The sessions a client can bring about with pairs: new ones, what a call
leaves, two sessions paired, and the halves of a split. -/
inductive Obtainable : Session → Prop
  | new {s : Session} (h : IsNew s) : Obtainable s
  | next {s : Session} (h : Obtainable s) (op : SessionOp) : Obtainable (s.next op)
  | paired {source pair : Session} {target? : Option Session} {sourceDomain targetDomain : OutputDomain}
      {requireAdjacency : Bool} (hs : Obtainable source)
      (ht : ∀ t, target? = some t → Obtainable t)
      (h : pairedFromCanonicalImpl source target? sourceDomain targetDomain requireAdjacency =
        .ok pair) : Obtainable pair
  | source {pair source' : Session} {target? : Option Session} (h : Obtainable pair)
      (hsplit : pair.splitCanonicalPair = .ok (source', target?)) : Obtainable source'
  | target {pair source' target' : Session} (h : Obtainable pair)
      (hsplit : pair.splitCanonicalPair = .ok (source', some target')) : Obtainable target'

/-- Valid worlds and an orderly memory, which is what assembly asks of the
sessions it joins beyond its own checks. -/
structure Orderly (s : Session) : Prop where
  worlds : s.WorldsOk
  stacked : s.Stacked
  remembers : s.Remembers

theorem Orderly.next {s : Session} (h : s.Orderly) (op : SessionOp) : (s.next op).Orderly := by
  have hstep : Step s (s.next op) := next_step op
  exact ⟨h.worlds.step hstep, h.stacked.step h.worlds hstep,
    h.remembers.step h.worlds h.stacked hstep⟩

/-- The pair of two orderly sessions. -/
theorem Orderly.paired {source pair : Session} {target? : Option Session}
    {sourceDomain targetDomain : OutputDomain} {requireAdjacency : Bool} (hs : source.Orderly)
    (ht : ∀ t, target? = some t → t.Orderly)
    (h : pairedFromCanonicalImpl source target? sourceDomain targetDomain requireAdjacency =
      .ok pair) : pair.Orderly := by
  have ha := pairedFromCanonicalImpl_assembled h
  have hj := pairedFromCanonicalImpl_joined h
  refine ⟨⟨ha.valid, fun desired hdesired => ?_⟩,
    hj.stacked ha hs.stacked fun t hsome => (ht t hsome).stacked,
    hj.remembers ha hs.remembers fun t hsome => (ht t hsome).remembers⟩
  rw [(settledWorld_iff.mp ha.settled).2.2.1] at hdesired
  cases hdesired

theorem Half.orderly {pair side : Session} {d : OutputDomain} {f : NodeId → NodeId}
    (h : Half pair d f side) (hside : side.Valid) (hp : pair.Orderly) : side.Orderly := by
  refine ⟨⟨hside, fun desired hdesired => ?_⟩, h.stacked hside hp.stacked,
    h.remembers hp.worlds.accepted hp.stacked⟩
  rw [h.idle] at hdesired
  cases hdesired

theorem Obtainable.orderly {s : Session} (h : Obtainable s) : s.Orderly := by
  induction h with
  | new h =>
    refine ⟨worldsOk_invariant.initial _ h, ⟨fun hstack => ?_, fun hdomain => ?_⟩, h.blank.remembers⟩
    · rw [h.blank.focusStack, Std.ExtTreeMap.getElem?_empty] at hstack
      cases hstack
    · rw [h.blank.focusedDomain] at hdomain
      cases hdomain
  | next _ op ih => exact ih.next op
  | paired _ _ hpair ihs iht => exact ihs.paired iht hpair
  | source _ hsplit ih =>
    obtain ⟨_, _, _, -, -, hhalf, -, hvalid, -, -⟩ := splitCanonicalPair_ok hsplit
    exact hhalf.orderly hvalid.1 ih
  | target _ hsplit ih =>
    obtain ⟨_, _, _, -, -, -, hhalf, hvalid, -, hsome⟩ := splitCanonicalPair_ok hsplit
    split at hsome
    · cases hsome
    · cases hsome
      exact hhalf.orderly hvalid.2 ih

theorem Obtainable.run {s : Session} (h : Obtainable s) (ops : List SessionOp) :
    Obtainable (machine.run s ops) := by
  induction ops generalizing s with
  | nil => exact h
  | cons op ops ih => exact ih (h.next op)

theorem Obtainable.of_reachable {s : Session} (h : Reachable s) : Obtainable s := by
  induction h with
  | initial h => exact .new h
  | next _ op ih => exact ih.next op

end Session

end PlasmaTiler
