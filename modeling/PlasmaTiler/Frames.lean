import PlasmaTiler.Conservation
import PlasmaTiler.Transaction

/-!
# Every commit keeps its frame

Family by family: the staged world differs from the accepted one in the named
domains only and moves the focus to no other one, which is what leaves the
focus stacks of the others alone; and of the named domains it keeps what
`Keeps` says.

A family's lemma comes in two parts. `Differs` is about the domains that are
not named, and nearly all families get it from how their world is written: a
tree of a named domain replaced, a link inserted or erased there. `Keeps` is
about the named ones and needs the family's own argument. An admission keeps
the order of the leaves that were there, since its leaf is grafted; a removal
the order of those that stay; a resize all of the tree but its shares; a move
everything that is not the mover.

What a commit adds to the world it adopts is the upkeep of the stacks, and
the frame of that is proved with the stacks. `commitPlan_conserves` puts the
families together, and says of every committed operation what it leaves alone
over all domains and windows.
-/

namespace PlasmaTiler

namespace Session

section
variable {s s' : Session} {desired : PendingDesired} {named : List DomainKey} {key : DomainKey}
  {leaf : NodeId} {window : WindowId} {observed : SessionObservation}

/-! ## Framed worlds -/

/-- A world that differs from the accepted one in some domains only and takes
the focus to no other one. -/
structure Differs (s : Session) (desired : PendingDesired) (named : List DomainKey) : Prop where
  trees : ∀ key ∉ named, desired.trees[key]? = s.trees[key]?
  links : ∀ {w : WindowId} {link : WindowLink}, link.key ∉ named →
    (desired.windows[w]? = some link ↔ s.windows[w]? = some link)
  focus : (desired.focusedDomain = s.focusedDomain ∧ desired.focusedLeaf = s.focusedLeaf) ∨
    ∀ key, desired.focusedDomain = some key → key ∈ named

theorem Differs.validFocus_eq (h : s.Differs desired named) (hkey : key ∉ named) :
    validFocus desired.trees desired.windows (some key) (some leaf) =
      validFocus s.trees s.windows (some key) (some leaf) := by
  rw [Bool.eq_iff_iff, validFocus_some, validFocus_some, linkedAt_iff, linkedAt_iff]
  have htree : hasLeaf desired.trees key leaf = hasLeaf s.trees key leaf := by
    unfold hasLeaf treeAt
    rw [h.trees key hkey]
  rw [htree]
  refine and_congr_right fun _ => ⟨?_, ?_⟩
  · rintro ⟨w, link, hlink, hleaf, rfl⟩
    exact ⟨w, link, (h.links hkey).mp hlink, hleaf, rfl⟩
  · rintro ⟨w, link, hlink, hleaf, rfl⟩
    exact ⟨w, link, (h.links hkey).mpr hlink, hleaf, rfl⟩

theorem Lands.framed (h : s.Lands desired s') (hstacked : s.Stacked)
    (hfocus : validFocus desired.trees desired.windows desired.focusedDomain desired.focusedLeaf =
      true) (hdiffers : s.Differs desired named) : s.Framed s' named := by
  refine ⟨fun key hkey => ?_, fun {w link} hkey => ?_, fun key hkey => ?_⟩
  · rw [h.trees]
    exact hdiffers.trees key hkey
  · rw [h.windows]
    exact hdiffers.links hkey
  · rw [h.focusStack]
    refine hstacked.updated_frame (fun leaf => hdiffers.validFocus_eq hkey) hfocus fun hdomain => ?_
    rcases hdiffers.focus with ⟨hd, hl⟩ | hnamed
    · exact ⟨hd.symm, hl.symm⟩
    · exact absurd (hnamed key hdomain) hkey

/-- A tree of a named domain is replaced, and the focus stays or goes there. -/
theorem differs_tree {value : Option Node} (htrees : desired.trees = s.trees.insert key value)
    (hwindows : desired.windows = s.windows)
    (hfocus : desired.focusedDomain = some key) (hkey : key ∈ named) : s.Differs desired named := by
  refine ⟨fun k hk => ?_, fun _ => by rw [hwindows], .inr fun k hdomain => ?_⟩
  · rw [htrees, lookup_insert, if_neg]
    rintro rfl
    exact hk hkey
  · obtain rfl := Option.some.inj (hfocus.symm.trans hdomain)
    exact hkey

/-- A window is linked to a named domain, away from another one or none. -/
theorem links_insert {w : WindowId} {link new : WindowLink} (hnew : new.key ∈ named)
    (hold : ∀ old, s.windows[window]? = some old → old.key ∈ named) (hlink : link.key ∉ named) :
    (s.windows.insert window new)[w]? = some link ↔ s.windows[w]? = some link := by
  rw [lookup_insert]
  split
  · rename_i heq
    subst heq
    constructor
    · rintro ⟨⟩
      exact absurd hnew hlink
    · intro h
      exact absurd (hold link h) hlink
  · exact Iff.rfl

theorem links_erase {w : WindowId} {link : WindowLink}
    (hold : ∀ old, s.windows[window]? = some old → old.key ∈ named) (hlink : link.key ∉ named) :
    (s.windows.erase window)[w]? = some link ↔ s.windows[w]? = some link := by
  rw [lookup_erase]
  split
  · rename_i heq
    subst heq
    constructor
    · intro h
      cases h
    · intro h
      exact absurd (hold link h) hlink
  · exact Iff.rfl

theorem mem_homesOf_link {link : WindowLink} (h : s.windows[window]? = some link) :
    link.key ∈ s.homesOf window := by
  rw [homesOf, h]
  exact List.mem_append_left _ (List.mem_singleton_self _)

theorem mem_homesOf_record {record : ExceptionRecord} (h : s.exceptions[window]? = some record) :
    record.key ∈ s.homesOf window := by
  rw [homesOf, h]
  exact List.mem_append_right _ (List.mem_singleton_self _)

/-! ## Leaves of the other windows -/

theorem otherLeaves_of_none (h : s.windows[window]? = none) :
    s.otherLeaves window key = leavesAt s.trees key := by
  rw [otherLeaves, h]
  exact List.filter_eq_self.mpr fun _ _ => rfl

theorem otherLeaves_of_some {link : WindowLink} (h : s.windows[window]? = some link) :
    s.otherLeaves window key = (leavesAt s.trees key).filter (· ≠ link.leaf) := by
  rw [otherLeaves, h]
  refine List.filter_congr fun leaf _ => ?_
  rw [Option.any_some, Bool.beq_eq_decide_eq, ← decide_not]
  exact decide_eq_decide.mpr ne_comm

theorem mem_leavesAt {trees : Trees} : leaf ∈ leavesAt trees key ↔
    ∃ tree, treeAt trees key = some tree ∧ leaf ∈ tree.leaves := by
  unfold leavesAt
  cases treeAt trees key with
  | none => simp
  | some tree => simp

/-- A leaf is in the tree its window is linked to and no other one. -/
theorem Valid.leaf_home (hs : s.Valid) {link : WindowLink} (hlink : s.windows[window]? = some link)
    (hleaf : link.leaf ∈ leavesAt s.trees key) : key = link.key := by
  obtain ⟨tree, htree, hin⟩ := mem_leavesAt.mp hleaf
  obtain ⟨w, link', hlink', heq, hkey⟩ := hs.leaf_linked htree hin
  obtain rfl := hs.leaf_inj hlink' hlink heq
  obtain rfl := Option.some.inj (hlink'.symm.trans hlink)
  exact hkey.symm

/-! ## Admissions -/

variable {c : AdmitCommand} {revision : Nat} {staging : Staging LifecyclePlan}

theorem TiledWorld.differs (h : s.TiledWorld c revision desired)
    (hnew : s.windows[c.window]? = none) (hkey : c.key ∈ named) : s.Differs desired named := by
  obtain ⟨n, ids, axis, -, htrees⟩ := h.inserted
  refine ⟨fun k hk => ?_, fun {w link} hlink => ?_, .inr fun k hdomain => ?_⟩
  · rw [htrees, lookup_insert, if_neg]
    rintro rfl
    exact hk hkey
  · rw [h.windows]
    refine links_insert hkey (fun old hold => ?_) hlink
    rw [hnew] at hold
    cases hold
  · obtain rfl := Option.some.inj (h.focusedDomain.symm.trans hdomain)
    exact hkey

/-- A minted leaf is in no tree. -/
theorem generateLeafId_fresh : generateLeafId window s.allNodeIds ∉ leavesAt s.trees key := by
  intro hleaf
  obtain ⟨tree, htree, hin⟩ := mem_leavesAt.mp hleaf
  exact freshId_not_mem (mem_allNodeIds htree (Node.mem_ids_of_mem_leaves hin))

theorem filter_ne_of_not_mem {leaves : List NodeId} (h : leaf ∉ leaves) :
    leaves.filter (· ≠ leaf) = leaves :=
  List.filter_eq_self.mpr fun x hx => by simpa using fun heq : x = leaf => h (heq ▸ hx)

/-- The leaves of the others stand as before the admission. -/
theorem TiledWorld.order (h : s.TiledWorld c revision desired) :
    (leavesAt desired.trees key).filter (· ≠ generateLeafId c.window s.allNodeIds) =
      leavesAt s.trees key := by
  obtain ⟨n, ids, axis, hinsert, htrees⟩ := h.inserted
  rw [htrees, leavesAt_insert]
  split
  · rename_i heq
    subst heq
    have hfresh := @generateLeafId_fresh s c.key c.window
    unfold leavesAt at hfresh ⊢
    cases htree : treeAt s.trees c.key with
    | none =>
      rw [htree] at hinsert
      simp only [insertTiled, Option.some.injEq, Prod.mk.injEq] at hinsert
      rw [← hinsert.1]
      simp
    | some t =>
      rw [htree] at hinsert hfresh
      exact (insertTiled_grafted hinsert).1.filter_leaves.trans (filter_ne_of_not_mem hfresh)
  · exact filter_ne_of_not_mem generateLeafId_fresh

theorem TiledWorld.keepsOthers (h : s.TiledWorld c revision desired)
    (hnew : s.windows[c.window]? = none) (htrees : s'.trees = desired.trees)
    (hwindows : s'.windows = desired.windows)
    (hrecords : ∀ w : WindowId, w ≠ c.window → s'.exceptions[w]? = s.exceptions[w]?) :
    s.KeepsOthers s' c.window := by
  have hlink : s'.windows[c.window]? =
      some ⟨c.window, generateLeafId c.window s.allNodeIds, c.output, c.workspace⟩ := by
    rw [hwindows, h.windows]
    exact lookup_insert.trans (if_pos rfl)
  refine ⟨fun w hne => ?_, hrecords, fun key => ?_⟩
  · rw [hwindows, h.windows]
    exact lookup_insert.trans (if_neg hne.symm)
  · rw [otherLeaves_of_some hlink, otherLeaves_of_none hnew, htrees]
    exact h.order

theorem planAdmit_differs (h : s.planAdmit c observed = .ok staging) (hkey : c.key ∈ named) :
    s.Differs staging.desired named := by
  obtain ⟨⟨hwindow, -⟩, ⟨flags, automatic, hdesired⟩ | htiled⟩ := planAdmit_ok h
  · rw [hdesired]
    exact ⟨fun _ _ => rfl, fun _ => Iff.rfl, .inl ⟨rfl, rfl⟩⟩
  · exact htiled.differs (Std.ExtTreeMap.getElem?_eq_none hwindow) hkey

theorem planAdmit_keeps (h : s.planAdmit c observed = .ok staging)
    (hlands : s.Lands staging.desired s') :
    s.KeepsOthers s' c.window ∧ s.isKnown c.window = false ∧ s'.isKnown c.window = true := by
  obtain ⟨hnew, hcases⟩ := planAdmit_ok h
  have hnone := Std.ExtTreeMap.getElem?_eq_none hnew.1
  refine ⟨?_, isKnown_eq_false.mpr hnew, ?_⟩
  · rcases hcases with ⟨flags, automatic, hdesired⟩ | htiled
    · rw [hdesired] at hlands
      refine ⟨fun w hne => by rw [hlands.windows]; rfl, fun w hne => ?_, fun key => ?_⟩
      · rw [hlands.exceptions]
        exact lookup_insert.trans (if_neg hne.symm)
      · rw [otherLeaves, hlands.trees, hlands.windows]
        rfl
    · refine htiled.keepsOthers hnone hlands.trees hlands.windows fun w _ => ?_
      rw [hlands.exceptions, htiled.exceptions]
  · rcases hcases with ⟨flags, automatic, hdesired⟩ | htiled
    · rw [hdesired] at hlands
      refine isKnown_iff.mpr (.inr (mem_iff_lookup.mpr ⟨c.record flags, ?_⟩))
      rw [hlands.exceptions]
      exact lookup_insert.trans (if_pos rfl)
    · refine isKnown_iff.mpr (.inl (mem_iff_lookup.mpr
        ⟨⟨c.window, generateLeafId c.window s.allNodeIds, c.output, c.workspace⟩, ?_⟩))
      rw [hlands.windows, htiled.windows]
      exact lookup_insert.trans (if_pos rfl)

/-! ## Removals -/

theorem focusAfterRemoval_cases {link : WindowLink} {trees : Trees} {windows : Links} :
    (∀ key, (s.focusAfterRemoval link trees windows).1 = some key → key = link.key) ∨
      s.focusAfterRemoval link trees windows = (s.focusedDomain, s.focusedLeaf) := by
  unfold focusAfterRemoval
  split
  · refine .inl fun key hkey => ?_
    split at hkey
    · exact (Option.some.inj hkey).symm
    · cases hkey
  · split
    · exact .inr rfl
    · exact .inl nofun

theorem removedWorld_differs {link : WindowLink} (hlink : s.windows[window]? = some link)
    (hkey : link.key ∈ named) : s.Differs (s.removedWorld window link) named := by
  refine ⟨fun k hk => ?_, fun {w l} hl => ?_, ?_⟩
  · refine lookup_insert.trans (if_neg ?_)
    rintro rfl
    exact hk hkey
  · refine links_erase (fun old hold => ?_) hl
    obtain rfl := Option.some.inj (hlink.symm.trans hold)
    exact hkey
  · rcases @focusAfterRemoval_cases s link (s.removedWorld window link).trees
      (s.removedWorld window link).windows with hhome | hsame
    · exact .inr fun key hdomain => (hhome key hdomain) ▸ hkey
    · exact .inl ⟨congrArg Prod.fst hsame, congrArg Prod.snd hsame⟩

theorem removedWorld_order (hs : s.Valid) {link : WindowLink}
    (hlink : s.windows[window]? = some link) :
    leavesAt (s.removedWorld window link).trees key =
      (leavesAt s.trees key).filter (· ≠ link.leaf) := by
  have hinsert : leavesAt (s.removedWorld window link).trees key = _ := leavesAt_insert
  rw [hinsert]
  split
  · rename_i heq
    subst heq
    exact (removeLeafFromTree_leaves fun n hn => hs.tree_ok hn).1
  · rename_i hne
    exact (filter_ne_of_not_mem fun hleaf => hne (hs.leaf_home hlink hleaf).symm).symm

/-- Removing an exception moves no valid focus. -/
theorem removeDeferred_desired (hs : s.Valid) {record : ExceptionRecord} :
    (s.removeDeferred window record).desired.trees = s.trees ∧
      (s.removeDeferred window record).desired.windows = s.windows ∧
      (s.removeDeferred window record).desired.exceptions = s.exceptions.erase window ∧
      (s.removeDeferred window record).desired.focusedDomain = s.focusedDomain ∧
      (s.removeDeferred window record).desired.focusedLeaf = s.focusedLeaf := by
  refine ⟨rfl, rfl, rfl, ?_, ?_⟩
  · simp only [removeDeferred, hs.focus, if_true]
  · simp only [removeDeferred, hs.focus, if_true]

/-- A planned removal, of an exception or of a tile. -/
theorem planRemove_differs (hs : s.Valid) (h : s.planRemove window observed = .ok staging) :
    s.Differs staging.desired (s.homesOf window) := by
  rcases planRemove_cases h with ⟨record, -, -, rfl⟩ | ⟨link, -, hlink, hplan⟩
  · obtain ⟨htrees, hwindows, -, hdomain, hleaf⟩ := @removeDeferred_desired s window hs record
    exact ⟨fun _ _ => by rw [htrees], fun _ => by rw [hwindows], .inl ⟨hdomain, hleaf⟩⟩
  · rw [(planRemoveTiled_ok hplan).1]
    exact removedWorld_differs hlink (mem_homesOf_link hlink)

theorem planRemove_keepsOthers (hs : s.Valid) (h : s.planRemove window observed = .ok staging)
    (htrees : s'.trees = staging.desired.trees) (hwindows : s'.windows = staging.desired.windows)
    (hrecords : ∀ w : WindowId, w ≠ window → s'.exceptions[w]? = staging.desired.exceptions[w]?) :
    s.KeepsOthers s' window := by
  rcases planRemove_cases h with ⟨record, -, hnone, rfl⟩ | ⟨link, -, hlink, hplan⟩
  · obtain ⟨hkeptTrees, hkept, hexceptions, -, -⟩ := @removeDeferred_desired s window hs record
    rw [hkeptTrees] at htrees
    rw [hkept] at hwindows
    refine ⟨fun w _ => by rw [hwindows], fun w hne => ?_, fun key => ?_⟩
    · rw [hrecords w hne, hexceptions]
      exact lookup_erase.trans (if_neg hne.symm)
    · rw [otherLeaves, htrees, hwindows]
      rfl
  · obtain ⟨hdesired, -⟩ := planRemoveTiled_ok hplan
    rw [hdesired] at htrees hwindows hrecords
    have hgone : s'.windows[window]? = none := by
      rw [hwindows]
      exact lookup_erase.trans (if_pos rfl)
    refine ⟨fun w hne => ?_, hrecords, fun key => ?_⟩
    · rw [hwindows]
      exact lookup_erase.trans (if_neg hne.symm)
    · rw [otherLeaves_of_none hgone, otherLeaves_of_some hlink, htrees]
      exact removedWorld_order hs hlink

/-- The removed window is neither tiled nor recorded any more. -/
theorem planRemove_membership (hs : s.Valid) (h : s.planRemove window observed = .ok staging) :
    s.isKnown window = true ∧ window ∉ staging.desired.windows ∧
      window ∉ staging.desired.exceptions := by
  rcases planRemove_cases h with ⟨record, hrecord, hnone, rfl⟩ | ⟨link, hnone, hlink, hplan⟩
  · obtain ⟨-, hkept, hexceptions, -, -⟩ := @removeDeferred_desired s window hs record
    refine ⟨isKnown_iff.mpr (.inr (mem_iff_lookup.mpr ⟨record, hrecord⟩)), ?_, ?_⟩
    · rw [hkept, Std.ExtTreeMap.mem_iff_isSome_getElem?, hnone]
      exact Bool.false_ne_true
    · rw [hexceptions, Std.ExtTreeMap.mem_iff_isSome_getElem?, lookup_erase, if_pos rfl]
      exact Bool.false_ne_true
  · rw [(planRemoveTiled_ok hplan).1]
    refine ⟨isKnown_iff.mpr (.inl (mem_iff_lookup.mpr ⟨link, hlink⟩)), ?_, ?_⟩
    · rw [Std.ExtTreeMap.mem_iff_isSome_getElem?]
      have hgone : (s.removedWorld window link).windows[window]? = none :=
        lookup_erase.trans (if_pos rfl)
      rw [hgone]
      exact Bool.false_ne_true
    · rw [Std.ExtTreeMap.mem_iff_isSome_getElem?]
      have hkept : (s.removedWorld window link).exceptions[window]? = none := hnone
      rw [hkept]
      exact Bool.false_ne_true

/-! ## Floats -/

/-- An admission that suppresses automatic floating tiles its window. -/
theorem planAdmit_tiled (hflags : c.exceptions = .none) (hsuppress : c.suppressFixedFloat = true)
    (h : s.planAdmit c observed = .ok staging) :
    s.TiledWorld c observed.observation.revision staging.desired := by
  simp only [planAdmit, bind_eq_ok, refuseUnless, ensure_eq_ok, okOr_eq_ok] at h
  obtain ⟨_, -, _, -, entry, -, _, -, _, -, _, -, _, -, _, -, h⟩ := h
  have hnormal : c.exceptions.any = false := by
    rw [hflags]
    rfl
  have hkept : s.floatsFixed c entry = false := by
    simp [floatsFixed, hsuppress]
  rw [if_neg (by simp [hnormal]), if_neg (by simp [hkept])] at h
  exact planAdmitTiled_ok h

/-- The world an unfloat stages over its working copy. -/
theorem planUnfloat_tiled {rect : Option Rect} {record : ExceptionRecord} {candidate : Session}
    (hplan : s.planUnfloat window record rect observed = .ok (candidate, c))
    (h : candidate.planAdmit c (observed.settled window) = .ok staging) :
    ∃ retained, candidate = s.unfloated window retained ∧ c.window = window ∧ c.key = record.key ∧
      s.windows[window]? = none ∧
      candidate.TiledWorld c (observed.settled window).observation.revision staging.desired := by
  obtain ⟨target, retained, -, -, hhome, hcandidate, hwindow, houtput, hworkspace, hflags, hsuppress,
    -⟩ := planUnfloat_ok hplan
  obtain ⟨⟨hnew, -⟩, -⟩ := planAdmit_ok h
  refine ⟨retained, hcandidate, hwindow, ?_, ?_, planAdmit_tiled hflags hsuppress h⟩
  · rw [← hhome, AdmitCommand.key, ObservedWindow.key, houtput, hworkspace]
  · rw [hwindow, hcandidate] at hnew
    exact Std.ExtTreeMap.getElem?_eq_none hnew

theorem planUnfloat_keeps {rect : Option Rect} {record : ExceptionRecord} {candidate : Session}
    (hrecord : s.exceptions[window]? = some record)
    (hplan : s.planUnfloat window record rect observed = .ok (candidate, c))
    (h : candidate.planAdmit c (observed.settled window) = .ok staging)
    (hlands : s.Lands staging.desired s') :
    s.KeepsOthers s' window ∧ s.isKnown window = true ∧
      s'.windows.contains window = s.exceptions.contains window ∧
      s'.exceptions.contains window = s.windows.contains window := by
  obtain ⟨retained, rfl, hwindow, -, hnone, htiled⟩ := planUnfloat_tiled hplan h
  have hexceptions : s'.exceptions = s.exceptions.erase window :=
    hlands.exceptions.trans htiled.exceptions
  refine ⟨?_, isKnown_iff.mpr (.inr (mem_iff_lookup.mpr ⟨record, hrecord⟩)), ?_, ?_⟩
  · rw [← hwindow] at hexceptions hnone
    have hothers : (s.unfloated window retained).KeepsOthers s' c.window :=
      htiled.keepsOthers hnone hlands.trees hlands.windows fun w _ => by
        rw [hlands.exceptions, htiled.exceptions]
    rw [hwindow] at hothers hexceptions
    refine ⟨hothers.links, fun w hne => ?_, hothers.order⟩
    rw [hexceptions]
    exact lookup_erase.trans (if_neg hne.symm)
  · have hlink : s'.windows[window]? =
        some ⟨c.window, generateLeafId c.window s.allNodeIds, c.output, c.workspace⟩ := by
      rw [hlands.windows, htiled.windows, hwindow]
      exact lookup_insert.trans (if_pos rfl)
    rw [Std.ExtTreeMap.contains_eq_isSome_getElem?, Std.ExtTreeMap.contains_eq_isSome_getElem?,
      hlink, hrecord]
    rfl
  · have hgone : s'.exceptions[window]? = none := by
      rw [hexceptions, lookup_erase, if_pos rfl]
    rw [Std.ExtTreeMap.contains_eq_isSome_getElem?, Std.ExtTreeMap.contains_eq_isSome_getElem?,
      hgone, hnone]
    rfl

theorem planFloat_keeps (hs : s.Valid) {rect : Option Rect} {target : ObservedWindow}
    {effective : Rect} (hnone : s.exceptions[window]? = none)
    (hfloat : s.planFloat window rect observed = .ok (target, effective))
    (h : s.planRemove window observed = .ok staging)
    (hlands : s.Lands (staging.desired.floated target window effective) s') :
    s.KeepsOthers s' window ∧ s.isKnown window = true ∧
      s'.windows.contains window = s.exceptions.contains window ∧
      s'.exceptions.contains window = s.windows.contains window := by
  obtain ⟨-, htiled⟩ := planFloat_ok hfloat
  obtain ⟨hknown, hgone, -⟩ := planRemove_membership hs h
  refine ⟨?_, hknown, ?_, ?_⟩
  · refine planRemove_keepsOthers hs h hlands.trees hlands.windows fun w hne => ?_
    rw [hlands.exceptions]
    exact lookup_insert.trans (if_neg hne.symm)
  · rw [Std.ExtTreeMap.contains_eq_isSome_getElem? (t := s.exceptions), hnone, hlands.windows]
    exact contains_eq_false.mpr hgone
  · rw [hlands.exceptions, htiled, Std.ExtTreeMap.contains_eq_isSome_getElem?]
    have hrecord : (staging.desired.floated target window effective).exceptions[window]? = _ :=
      lookup_insert.trans (if_pos rfl)
    rw [hrecord]
    rfl

/-! ## Sends and moves -/

theorem SentWorld.differs {target : DomainKey} {follow : Bool}
    (h : s.SentWorld window target follow revision desired) (htarget : target ∈ named)
    (hsource : ∀ link, s.windows[window]? = some link → link.key ∈ named) :
    s.Differs desired named := by
  obtain ⟨link, n, ids, anchor, axis, hlink, hne, -, -, -, -, htrees, hwindows, hfocus⟩ := h.moved
  have hhome := hsource link hlink
  refine ⟨fun k hk => ?_, fun {w l} hl => ?_, .inr fun key hdomain => ?_⟩
  · rw [htrees, lookup_insert, if_neg, lookup_insert, if_neg]
    · rintro rfl
      exact hk hhome
    · rintro rfl
      exact hk htarget
  · rw [hwindows]
    exact links_insert htarget hsource hl
  · have hsent : desired.focusedDomain = _ := congrArg Prod.fst hfocus
    rw [hdomain] at hsent
    unfold sentFocus at hsent
    split at hsent
    · obtain rfl := Option.some.inj hsent
      exact htarget
    · split at hsent
      · obtain rfl := Option.some.inj hsent
        exact hhome
      · cases hsent

theorem SentWorld.keeps {target : DomainKey} {follow : Bool}
    (h : s.SentWorld window target follow revision desired) (hlands : s.Lands desired s') :
    s.KeepsMembership s' window := by
  obtain ⟨link, n, ids, anchor, axis, hlink, -, -, -, -, -, -, hwindows, -⟩ := h.moved
  refine ⟨fun w => ?_, fun w hne => ?_, hlands.exceptions.trans h.exceptions⟩
  · rw [hlands.windows, hwindows, lookup_insert]
    split
    · rename_i heq
      rw [← heq, hlink]
      rfl
    · rfl
  · rw [hlands.windows, hwindows]
    exact lookup_insert.trans (if_neg hne.symm)

/-- What applying a planned move edits, and of which window. -/
theorem applyMoveOperation_frame {trees : Trees} {windows : Links} {domains : List OutputDomain}
    {domain : DomainKey} {direction : Direction} {plan : MovePlan} {targetFocus : Option NodeId}
    {applied : AppliedMove}
    (h : applyMoveOperation trees windows domains domain leaf direction plan revision targetFocus =
      some applied) :
    (∀ k ∉ domain :: (crossTarget plan.operation).toList, applied.trees[k]? = trees[k]?) ∧
      applied.focusDomain ∈ domain :: (crossTarget plan.operation).toList ∧
      windowAt windows domain leaf = some plan.intent.focusedWindow ∧
      (applied.windows = windows ∨ ∃ target, crossTarget plan.operation = some target ∧
        applied.windows = windows.insert plan.intent.focusedWindow
          ⟨plan.intent.focusedWindow, leaf, target.output, target.workspace⟩) := by
  unfold applyMoveOperation at h
  simp only [Option.bind_eq_bind, Option.bind_eq_some_iff, require_eq_some] at h
  obtain ⟨_, -, mover, hmover, _, hintent, h⟩ := h
  obtain rfl : plan.intent.focusedWindow = mover := beq_iff_eq.mp hintent
  cases hoperation : plan.operation with
  | crossOutput rule output workspace index target =>
    rw [hoperation] at h
    simp only [applyCrossOutput, Option.bind_eq_bind, Option.bind_eq_some_iff, require_eq_some,
      Option.pure_def, Option.some.injEq] at h
    obtain ⟨_, -, _, -, _, -, _, -, _, -, _, -, _, -, _, -, rfl⟩ := h
    refine ⟨fun k hk => ?_, .tail _ (.head _), hmover, .inr ⟨_, rfl, rfl⟩⟩
    rw [List.mem_cons, not_or] at hk
    rw [lookup_insert, if_neg, lookup_insert, if_neg (Ne.symm hk.1)]
    rintro rfl
    exact hk.2 (.head _)
  | _ =>
    rw [hoperation] at h
    simp only [Option.bind_eq_some_iff, Option.pure_def, Option.some.injEq] at h
    obtain ⟨_, -, _, -, rfl⟩ := h
    refine ⟨fun k hk => ?_, .head _, hmover, .inl rfl⟩
    rw [List.mem_cons, not_or] at hk
    rw [lookup_insert, if_neg (Ne.symm hk.1)]

theorem windowAt_eq_some {windows : Links} (hkeyed : Keyed windows)
    (h : windowAt windows key leaf = some window) :
    ∃ link, windows[window]? = some link ∧ link.key = key ∧ link.leaf = leaf := by
  obtain ⟨link, hfind, hwindow⟩ := Option.map_eq_some_iff.mp h
  obtain ⟨k, hk⟩ := mem_values.mp (List.mem_of_find?_eq_some hfind)
  have hmatch := List.find?_some hfind
  simp only [Bool.and_eq_true, beq_iff_eq] at hmatch
  obtain rfl : window = k := hwindow.symm.trans (hkeyed hk)
  exact ⟨link, hk, DomainKey.ext hmatch.1.2 hmatch.2, hmatch.1.1⟩

section
variable {domain : DomainKey} {direction : Direction} {capabilities : Capabilities}
  {sameAxisMove : SameAxisMove} {moveStaging : Staging MovePlan}

/-- The planned crossing is the one the proposal names. -/
theorem planMove_target
    (h : s.planMoveWithSameAxis domain window direction observed capabilities sameAxisMove =
      .ok moveStaging) :
    s.moveTarget domain window direction capabilities sameAxisMove =
        crossTarget moveStaging.plan.operation ∧
      moveStaging.plan.intent.focusedWindow = window := by
  obtain ⟨leaf, snapshot, applied, hleaf, hsnapshot, hplan, -⟩ := planMoveWithSameAxis_ok h
  obtain ⟨operation, hfor, -⟩ := planMoveWithCapabilities_planned hplan
  refine ⟨?_, by rw [hfor]; rfl⟩
  simp only [moveTarget, hleaf, hsnapshot, hplan]

theorem planMove_differs (hkeyed : Keyed s.windows)
    (h : s.planMoveWithSameAxis domain window direction observed capabilities sameAxisMove =
      .ok moveStaging) :
    s.Differs moveStaging.desired
      (domain :: (s.moveTarget domain window direction capabilities sameAxisMove).toList) := by
  obtain ⟨htarget, -⟩ := planMove_target h
  obtain ⟨leaf, snapshot, applied, -, -, -, happlied, -, hdesired, -⟩ := planMoveWithSameAxis_ok h
  obtain ⟨htrees, hfocus, hmover, hwindows⟩ := applyMoveOperation_frame happlied
  obtain ⟨link, hlink, hhome, -⟩ := windowAt_eq_some hkeyed hmover
  rw [htarget, hdesired]
  refine ⟨htrees, fun {w l} hl => ?_, .inr fun key hdomain => ?_⟩
  · rcases hwindows with hsame | ⟨target, hcross, hmoved⟩
    · exact hsame ▸ Iff.rfl
    · have hlinks := @links_insert s _ moveStaging.plan.intent.focusedWindow w l
        ⟨moveStaging.plan.intent.focusedWindow, leaf, target.output, target.workspace⟩
        (.tail _ (by rw [hcross]; exact .head _)) (fun old hold => by
          obtain rfl := Option.some.inj (hlink.symm.trans hold)
          rw [hhome]
          exact .head _) hl
      rw [← hmoved] at hlinks
      exact hlinks
  · obtain rfl := Option.some.inj hdomain
    exact hfocus

theorem planMove_keeps (hkeyed : Keyed s.windows)
    (h : s.planMoveWithSameAxis domain window direction observed capabilities sameAxisMove =
      .ok moveStaging) (hlands : s.Lands moveStaging.desired s') : s.KeepsMembership s' window := by
  obtain ⟨-, hwindow⟩ := planMove_target h
  obtain ⟨leaf, snapshot, applied, -, -, -, happlied, -, hdesired, -⟩ := planMoveWithSameAxis_ok h
  obtain ⟨-, -, hmover, hwindows⟩ := applyMoveOperation_frame happlied
  rw [hdesired] at hlands
  obtain ⟨link, hlink, -, hlinkLeaf⟩ := windowAt_eq_some hkeyed hmover
  rw [hwindow] at hlink hwindows
  have hnext : s'.windows = applied.windows := hlands.windows
  refine ⟨fun w => ?_, fun w hne => ?_, hlands.exceptions⟩
  · rcases hwindows with hsame | ⟨target, -, hmoved⟩
    · rw [hnext, hsame]
    · rw [hnext, hmoved, lookup_insert]
      split
      · rename_i heq
        rw [← heq, hlink]
        exact congrArg some hlinkLeaf.symm
      · rfl
  · rcases hwindows with hsame | ⟨target, -, hmoved⟩
    · rw [hnext, hsame]
    · rw [hnext, hmoved]
      exact lookup_insert.trans (if_neg hne.symm)

end

/-! ## Focus, shares and axes -/

theorem refocused_differs (hkey : key ∈ named) : s.Differs (s.refocused key leaf) named := by
  refine ⟨fun _ _ => rfl, fun _ => Iff.rfl, .inr fun k hdomain => ?_⟩
  obtain rfl := Option.some.inj hdomain
  exact hkey

theorem refocused_keeps (hlands : s.Lands (s.refocused key leaf) s') :
    s.KeepsWindows s' ∧ s.KeepsShapes s' :=
  ⟨⟨hlands.windows, hlands.exceptions⟩, fun key => by rw [hlands.trees]; rfl⟩

theorem planCrossOutputFocus_target {domain : DomainKey} {direction : Direction}
    {capabilities : FocusCapabilities} {floatSubject : Bool}
    {focusStaging : Staging (FocusPlanContract × FocusPlan)}
    (h : s.planCrossOutputFocus domain window direction observed capabilities floatSubject =
      .ok focusStaging) :
    ∃ key leaf, s.focusTarget domain direction = some key ∧
      focusStaging.desired = s.refocused key leaf := by
  simp only [planCrossOutputFocus, bind_eq_ok, refuseUnless, ensure_eq_ok] at h
  obtain ⟨_, -, _, -, _, -, h⟩ := h
  split at h
  · simp only [bind_eq_ok, ensure_eq_ok, okOr_eq_ok, pure_eq_ok] at h
    obtain ⟨_, -, _, -, source, hsource, target, htarget, _, -, leaf, -, _, -, _, -, _, -, _, -,
      rfl⟩ := h
    exact ⟨target.key, leaf, by rw [focusTarget, hsource, Option.bind_some, htarget]; rfl, rfl⟩
  · simp only [bind_eq_ok, ensure_eq_ok, okOr_eq_ok, pure_eq_ok] at h
    obtain ⟨_, -, _, -, source, hsource, target, htarget, _, -, leaf, -, _, -, _, -, _, -, _, -,
      rfl⟩ := h
    exact ⟨target.key, leaf, by rw [focusTarget, hsource, Option.bind_some, htarget]; rfl, rfl⟩

/-- The world of a resize: the tree of the domain with other shares, the same
links and exceptions, and the focus in the domain. -/
structure Reshared (s : Session) (domain : DomainKey) (desired : PendingDesired) : Prop where
  tree : ∃ tree updated, treeAt s.trees domain = some tree ∧ updated.unshared = tree.unshared ∧
    desired.trees = s.trees.insert domain (some updated)
  windows : desired.windows = s.windows
  exceptions : desired.exceptions = s.exceptions
  focusedDomain : desired.focusedDomain = some domain

theorem resized_reshared {tree updated : Node} (htree : treeAt s.trees key = some tree)
    (hshape : updated.unshared = tree.unshared) :
    s.Reshared key (s.resized key leaf (s.trees.insert key (some updated))) :=
  ⟨⟨tree, updated, htree, hshape, rfl⟩, rfl, rfl, rfl⟩

theorem Reshared.differs (h : s.Reshared key desired) : s.Differs desired [key] := by
  obtain ⟨tree, updated, -, -, htrees⟩ := h.tree
  exact differs_tree htrees h.windows h.focusedDomain (.head _)

theorem Reshared.keeps (h : s.Reshared key desired) (hlands : s.Lands desired s') :
    s.KeepsWindows s' ∧ s.KeepsShapes s' := by
  obtain ⟨tree, updated, htree, hshape, htrees⟩ := h.tree
  refine ⟨⟨hlands.windows.trans h.windows, hlands.exceptions.trans h.exceptions⟩, fun k => ?_⟩
  rw [hlands.trees, htrees, lookup_insert]
  split
  · rename_i heq
    rw [← heq, treeAt_eq_some.mp htree, Option.map_some, Option.map_some, Option.map_some,
      Option.map_some, hshape]
  · rfl

section
variable {domain : DomainKey} {capabilities : ResizeCapabilities} {resizeStaging : ResizeStaging}

theorem planKeyboardResize_reshared {direction : Direction} {mode : ResizeMode} {pressIndex : Nat}
    (h : s.planKeyboardResize domain window direction mode pressIndex observed capabilities =
      .ok resizeStaging) : s.Reshared domain resizeStaging.desired := by
  simp only [planKeyboardResize, bind_eq_ok, refuseUnless, ensure_eq_ok, okOr_eq_ok] at h
  obtain ⟨_, -, _, -, _, -, leaf, -, _, -, _, -, _, -, tree, htree, _, -, derived, -, h⟩ := h
  split at h
  · cases h
  · cases h
  · simp only [bind_eq_ok, ensure_eq_ok, okOr_eq_ok, pure_eq_ok] at h
    obtain ⟨updated, hupdated, ⟨trees, geometry⟩, htrees, _, -, rfl⟩ := h
    obtain ⟨rfl, -⟩ := resizedTrees_ok htrees
    exact resized_reshared htree (applyResizeShares_unshared hupdated)

theorem pointerDerive_unshared {tree updated : Node} {geometry : List DesiredGeometry}
    {request : PointerRequest} {direction : Direction} {boundary : Int} {plan : PointerPlan}
    (h : pointerDerive tree geometry request direction boundary = .ok (plan, updated)) :
    updated.unshared = tree.unshared := by
  simp only [pointerDerive, bind_eq_ok, okOr_eq_ok] at h
  obtain ⟨derived, -, h⟩ := h
  split at h
  · simp only [bind_eq_ok, okOr_eq_ok, pure_eq_ok, Prod.mk.injEq] at h
    obtain ⟨_, happlied, -, rfl⟩ := h
    exact applyResizeShares_unshared happlied
  · cases h

theorem planPointerResize_reshared {direction : Direction} {boundary : Int}
    (h : s.planPointerResize domain window direction boundary observed capabilities =
      .ok resizeStaging) : s.Reshared domain resizeStaging.desired := by
  simp only [planPointerResize, pointerTree, bind_eq_ok, refuseUnless, ensure_eq_ok, okOr_eq_ok,
    pure_eq_ok] at h
  obtain ⟨_, -, request, -, _, -, _, ⟨tree, htree, _, -, _, -, rfl⟩, ⟨plan, updated⟩, hderive,
    ⟨trees, geometry⟩, htrees, _, -, _, -, _, -, rfl⟩ := h
  obtain ⟨rfl, -⟩ := resizedTrees_ok htrees
  exact resized_reshared htree (pointerDerive_unshared hderive)

theorem planPointerResizeCorner_reshared {directionH directionV : Direction}
    {boundaryH boundaryV : Int}
    (h : s.planPointerResizeCorner domain window directionH boundaryH directionV boundaryV observed
      capabilities = .ok resizeStaging) : s.Reshared domain resizeStaging.desired := by
  simp only [planPointerResizeCorner, pointerTree, bind_eq_ok, refuseUnless, ensure_eq_ok,
    okOr_eq_ok, pure_eq_ok] at h
  obtain ⟨_, -, _, -, request, -, _, -, _, ⟨tree, htree, _, -, _, -, rfl⟩, ⟨planH, between⟩, hderiveH,
    _, -, ⟨planV, updated⟩, hderiveV, ⟨trees, geometry⟩, htrees, _, -, _, -, _, -, _, -, rfl⟩ := h
  obtain ⟨rfl, -⟩ := resizedTrees_ok htrees
  exact resized_reshared htree
    ((pointerDerive_unshared hderiveV).trans (pointerDerive_unshared hderiveH))

end

/-! ## Fitted admission -/

theorem planFittedAdmit_empty {f : FittedAdmit} (h : s.planFittedAdmit f observed = .ok staging) :
    s.windows.isEmpty = true := by
  simp only [planFittedAdmit, bind_eq_ok, refuseUnless, ensure_eq_ok, Bool.and_eq_true] at h
  obtain ⟨_, -, _, -, _, ⟨⟨-, hempty⟩, -⟩, -⟩ := h
  exact hempty

theorem planFittedAdmit_differs (hs : s.Valid) {f : FittedAdmit}
    (h : s.planFittedAdmit f observed = .ok staging) : s.Differs staging.desired [f.key] := by
  have hempty := planFittedAdmit_empty h
  obtain ⟨windows, hone, -, -, hdesired, hvalid⟩ := planFittedAdmit_ok h
  have htrees : staging.desired.trees = (∅ : Trees).insert f.key (some f.tree) := by rw [hdesired]
  have hslot : f.key ∈ staging.desired.trees := by
    rw [htrees]
    exact Std.ExtTreeMap.mem_insert_self
  obtain ⟨d, hd, hdkey⟩ := hvalid.domain_of_slot _ hslot
  obtain ⟨only, hdomains⟩ := List.length_eq_one_iff.mp hone
  have hunique : ∀ k ∈ s.trees, k = f.key := by
    intro k hk
    obtain ⟨d', hd', rfl⟩ := hs.domain_of_slot k hk
    rw [hdomains, List.mem_singleton] at hd hd'
    rw [← hdkey, hd, hd']
  refine ⟨fun k hk => ?_, fun {w link} hlink => ⟨fun hw => ?_, fun hw => ?_⟩, .inr fun k hk => ?_⟩
  · rw [List.mem_singleton] at hk
    rw [htrees, lookup_insert, if_neg (Ne.symm hk), Std.ExtTreeMap.getElem?_empty]
    exact (Std.ExtTreeMap.getElem?_eq_none fun hin => hk (hunique k hin)).symm
  · -- a link of the next world resolves in the only tree
    have hresolves := hvalid.link_valid hw
    simp only [validLink, Bool.and_eq_true, hasLeaf_iff] at hresolves
    obtain ⟨-, tree, htree, -⟩ := hresolves
    rw [htrees, treeAt_insert] at htree
    split at htree
    · rename_i heq
      exact absurd (List.mem_singleton.mpr heq.symm) hlink
    · cases htree
  · rw [isEmpty_iff_lookup.mp hempty w] at hw
    cases hw
  · rw [hdesired] at hk
    exact List.mem_singleton.mpr (Option.some.inj hk).symm

/-! ## All of them -/

variable {p : Proposal} {ack : AdapterAck} {v : Verification}

theorem Plans.differs (hs : s.Valid) (hkeyed : Keyed s.windows) (h : s.Plans p desired) :
    s.Differs desired (s.namedDomains p) := by
  cases h with
  | admits h => exact planAdmit_differs h (.head _)
  | remove h => exact planRemove_differs hs h
  | unfloat hrecord hplan h =>
    obtain ⟨retained, rfl, hwindow, hhome, hnone, htiled⟩ := planUnfloat_tiled hplan h
    have hkey := mem_homesOf_record hrecord
    rw [← hhome] at hkey
    rw [← hwindow] at hnone
    obtain ⟨htrees, hlinks, hfocus⟩ := htiled.differs hnone hkey
    exact ⟨htrees, hlinks, hfocus⟩
  | float _ _ h =>
    obtain ⟨htrees, hlinks, hfocus⟩ := planRemove_differs hs h
    exact ⟨htrees, hlinks, hfocus⟩
  | @send window target follow outputSend observed id capabilities staging trace h =>
    have hdiffers : s.Differs staging.desired (target :: s.homesOf window) :=
      (planSend_ok h).differs (.head _) fun link hlink => .tail _ (mem_homesOf_link hlink)
    cases outputSend with
    | true => exact hdiffers
    | false => exact hdiffers
  | orientation hp h =>
    obtain ⟨domain, leaf, tree, parent, flipped, hdomain, -, -, -, hdesired, -⟩ :=
      planToggleOrientation_ok h
    have hnamed : s.namedDomains p = [domain] := by
      rcases hp with rfl | rfl
      · rw [namedDomains, hdomain]
        rfl
      · rw [namedDomains, hdomain]
        rfl
    rw [hnamed, hdesired]
    exact differs_tree rfl rfl rfl (.head _)
  | fittedAdmit h => exact planFittedAdmit_differs hs h
  | move h => exact planMove_differs hkeyed h
  | focus h =>
    obtain ⟨leaf, hdesired, -⟩ := planFocusIn_ok hs h
    rw [hdesired]
    exact refocused_differs (.head _)
  | @crossOutputFocus domain window direction observed id capabilities floatSubject staging h =>
    obtain ⟨key, leaf, htarget, hdesired⟩ := planCrossOutputFocus_target h
    have hdiffers : s.Differs staging.desired
        (domain :: (s.focusTarget domain direction).toList) := by
      rw [hdesired, htarget]
      exact refocused_differs (.tail _ (.head _))
    cases floatSubject with
    | true => exact hdiffers
    | false => exact hdiffers
  | resize h => exact (planKeyboardResize_reshared h).differs
  | pointerResize h => exact (planPointerResize_reshared h).differs
  | pointerResizeCorner h => exact (planPointerResizeCorner_reshared h).differs
  | drop hdrag h =>
    obtain ⟨capture, current, domain, resolved, x, y, hcapture, -, -, -, hdesired⟩ :=
      (planDrop_ok hdrag h).dropped
    rw [namedDomains, hcapture, hdesired]
    exact differs_tree rfl rfl rfl (.head _)

theorem Plans.keeps (hs : s.Valid) (hkeyed : Keyed s.windows) (h : s.Plans p desired)
    (hlands : s.Lands desired s') : s.Keeps p s' := by
  cases h with
  | admits h => exact planAdmit_keeps h hlands
  | remove h =>
    obtain ⟨hknown, hwindow, hexception⟩ := planRemove_membership hs h
    refine ⟨planRemove_keepsOthers hs h hlands.trees hlands.windows fun w _ => ?_, hknown,
      isKnown_eq_false.mpr ⟨?_, ?_⟩⟩
    · rw [hlands.exceptions]
    · rw [hlands.windows]
      exact hwindow
    · rw [hlands.exceptions]
      exact hexception
  | unfloat hrecord hplan h => exact planUnfloat_keeps hrecord hplan h hlands
  | float hnone hfloat h => exact planFloat_keeps hs hnone hfloat h hlands
  | @send window target follow outputSend observed id capabilities staging trace h =>
    have hkeeps := (planSend_ok h).keeps hlands
    cases outputSend with
    | true => exact hkeeps
    | false => exact hkeeps
  | orientation hp h =>
    obtain ⟨domain, leaf, tree, parent, flipped, -, -, -, -, hdesired, -⟩ :=
      planToggleOrientation_ok h
    rw [hdesired] at hlands
    have hkeeps : s.KeepsWindows s' := ⟨hlands.windows, hlands.exceptions⟩
    rcases hp with rfl | rfl
    · exact hkeeps
    · exact hkeeps
  | fittedAdmit h =>
    obtain ⟨windows, -, -, -, hdesired, -⟩ := planFittedAdmit_ok h
    rw [hdesired] at hlands
    exact ⟨planFittedAdmit_empty h, hlands.exceptions⟩
  | move h => exact planMove_keeps hkeyed h hlands
  | focus h =>
    obtain ⟨leaf, hdesired, -⟩ := planFocusIn_ok hs h
    rw [hdesired] at hlands
    exact refocused_keeps hlands
  | @crossOutputFocus domain window direction observed id capabilities floatSubject staging h =>
    obtain ⟨key, leaf, -, hdesired⟩ := planCrossOutputFocus_target h
    rw [hdesired] at hlands
    have hkeeps := refocused_keeps hlands
    cases floatSubject with
    | true => exact hkeeps
    | false => exact hkeeps
  | resize h => exact (planKeyboardResize_reshared h).keeps hlands
  | pointerResize h => exact (planPointerResize_reshared h).keeps hlands
  | pointerResizeCorner h => exact (planPointerResizeCorner_reshared h).keeps hlands
  | drop hdrag h =>
    obtain ⟨capture, current, domain, resolved, x, y, -, -, -, -, hdesired⟩ :=
      (planDrop_ok hdrag h).dropped
    rw [hdesired] at hlands
    exact ⟨hlands.windows, hlands.exceptions⟩

/-- A committed operation conserves what it does not name: trees, links and
focus stacks of the domains that are neither its source nor its target, and of
those two what the kind of operation has to keep. -/
theorem commitPlan_conserves (hs : Reachable s) (h : s.commitPlan p ack v = some s') :
    s.Conserves p s' := by
  obtain ⟨desired, hplans, hdesired, hlands⟩ := commitPlan_lands h
  have hvalid := (reachable_worldsOk hs).1.2
  have hkeyed := reachable_keyed hs
  have hfocus := ((reachable_worldsOk (hs.next (.propose p))).2 desired hdesired).2.focus
  exact ⟨hlands.framed (reachable_stacked hs) hfocus (hplans.differs hvalid hkeyed),
    hplans.keeps hvalid hkeyed hlands⟩

end

/-- An admission to one of two workspaces, both with windows. -/
theorem commitPlan_conserves_admission :
    ∃ s', Sample.stocked.commitPlan Sample.admission Sample.stockedAck
        (.lifecycle Sample.stockedPost) = some s' ∧
      Sample.stocked.Conserves Sample.admission s' := by
  have hcommits : (Sample.stocked.commitPlan Sample.admission Sample.stockedAck
      (.lifecycle Sample.stockedPost)).isSome = true := by decide +kernel
  obtain ⟨s', hs'⟩ := Option.isSome_iff_exists.mp hcommits
  exact ⟨s', hs', commitPlan_conserves (Sample.session_reachable _ _) hs'⟩

end Session

end PlasmaTiler
