import PlasmaTiler.Agreed
import PlasmaTiler.Frames
import PlasmaTiler.Idempotence
import PlasmaTiler.Renaming

/-!
# One admission rule

A window becomes a tile of a domain in three ways: by an admission, by a
convergence that finds it new, and by an unfloat. Each chooses the leaf to
split and the axis to split it on by itself, the first from a rectangle that
is carried in the command, the second in a loop over new windows, the third
after taking the window out of the exceptions.

In a valid session they all choose by one rule. `admissionTree` is the rule,
a function of the domain's tree, its focus and its bounds: the leaf alone in
an empty domain, else in a group of its own beside the focused leaf, along
the longer side of its rectangle, or beside the whole tree. Each way has a
lemma that it follows the rule at ids of its own making (`Follows`), and the
rule does not look at the ids of the new nodes (`admissionTree_rename`); so
the trees that three routes commit from one session differ by the ids of the
new leaf and its group alone.

`Tiles` lists the routes, each carried through to the committed session, and
`tiles_agree` compares any two of them.
-/

namespace PlasmaTiler

/-! ## Renaming what is new -/

section
variable {f : NodeId → NodeId} {n m : Node} {ctx : Context}

/-- A renaming that fixes what is around the hole renames what fills it. -/
theorem Context.rename_fill (h : ∀ i ∈ (ctx.fill n).ids, f i = i) :
    (ctx.fill m).rename f = ctx.fill (m.rename f) := by
  induction ctx with
  | nil => rfl
  | cons g ctx ih =>
    rw [Context.fill_cons, Frame.fill, Node.ids_group, List.forall_mem_cons, List.flatMap_append,
      List.flatMap_cons, List.forall_mem_append, List.forall_mem_append] at h
    obtain ⟨hid, hbefore, hfill, hafter⟩ := h
    have hfixed : ∀ cs : List Node, (∀ i ∈ cs.flatMap Node.ids, f i = i) →
        cs.map (Node.rename f) = cs := by
      intro cs hcs
      refine (List.map_congr_left fun c hc => ?_).trans (List.map_id' cs)
      exact Node.rename_of_fixed fun i hi => hcs i (List.mem_flatMap.mpr ⟨c, hc, hi⟩)
    rw [Context.fill_cons, Context.fill_cons, Frame.fill, Frame.fill, Node.rename_group, List.map_append,
      List.map_cons, hfixed _ hbefore, hfixed _ hafter, hid, ih hfill]

theorem rename_graft {group leaf : NodeId} {axis : Axis} {moverFirst : Bool}
    (h : m.rename f = m) : (graft group axis moverFirst m (.leaf leaf)).rename f =
      graft (f group) axis moverFirst m (.leaf (f leaf)) := by
  cases moverFirst <;> simp [graft, h]

end

/-! ## The rule -/

/-- The tree of a domain with a new leaf: the leaf alone in an empty domain,
else in a group of its own beside the focused leaf, or beside the whole tree
when no leaf is focused. The group runs along the longer side of the focused
leaf's rectangle, or of the domain's bounds. -/
def admissionTree (domain : OutputDomain) (tree : Option Node) (focused : Option NodeId)
    (leaf group : NodeId) : Option Node :=
  let axis := admissionAxisForRect (admissionPlacementFor domain tree focused)
  match tree, focused with
  | none, _ => some (.leaf leaf)
  | some tree, none => some (graft group axis false tree (.leaf leaf))
  | some tree, some focused => nestFocusedWithNew tree focused (.leaf leaf) group axis

section
variable {domain : OutputDomain} {tree : Option Node} {focused : Option NodeId}
  {leaf group : NodeId} {n : Node} {f : NodeId → NodeId}

/-- An insertion along the rule's axis follows the rule. -/
theorem admissionTree_of_insertTiled {ids ids' : BTreeSet NodeId} {window : WindowId}
    {baseRevision : Nat}
    (h : insertTiled tree focused leaf
      (admissionAxisForRect (admissionPlacementFor domain tree focused)) ids window baseRevision =
        some (n, ids')) :
    admissionTree domain tree focused leaf (generateGroupId window baseRevision ids) = some n := by
  cases tree with
  | none =>
    cases h
    rfl
  | some tree =>
    cases focused with
    | none =>
      cases h
      rfl
    | some focused =>
      obtain ⟨next, hnext, heq⟩ := Option.map_eq_some_iff.mp h
      cases heq
      exact hnext

/-- The rule does not look at the ids of the new nodes. -/
theorem admissionTree_rename (hnodup : ∀ t, tree = some t → t.ids.Nodup)
    (hfixed : ∀ t, tree = some t → ∀ i ∈ t.ids, f i = i)
    (h : admissionTree domain tree focused leaf group = some n) :
    admissionTree domain tree focused (f leaf) (f group) = some (n.rename f) := by
  cases tree with
  | none =>
    cases h
    simp [admissionTree]
  | some tree =>
    have hself := Node.rename_of_fixed (hfixed tree rfl)
    cases focused with
    | none =>
      cases h
      exact congrArg some (rename_graft hself).symm
    | some focused =>
      obtain ⟨ctx, m, m', rfl, rfl, hhit, hm⟩ := updateAt_eq_some h
      obtain rfl := Option.some.inj hm
      have hleaf : m.rename f = m := Node.rename_of_fixed fun i hi => hfixed _ rfl i (by
        rw [Context.ids_fill]
        exact List.mem_append_left _ (List.mem_append_right _ hi))
      rw [Context.rename_fill (hfixed _ rfl), rename_graft hleaf]
      refine updateAt_fill (hnodup _ rfl) (fun k hk => ?_) hhit
      rw [isLeafNamed_iff.mp hk, Node.id_leaf]

end

namespace Session

section
variable {s s' : Session} {domain : OutputDomain} {key : DomainKey} {w : WindowId}

/-! ## The anchor -/

/-- In a valid session the focus of a domain is eligible there. -/
theorem eligibleFocusIn_eq (hs : s.Valid) :
    s.eligibleFocusIn key = s.focusedLeaf.filter fun _ => s.focusedDomain == some key := by
  unfold eligibleFocusIn
  have hfocus := hs.focus
  by_cases hdomain : s.focusedDomain = some key
  · rw [if_neg (not_not.mpr hdomain)]
    cases hleaf : s.focusedLeaf with
    | none => rfl
    | some leaf =>
      rw [hdomain, hleaf] at hfocus
      rw [Option.filter_some, Option.filter_some, hfocus, hdomain, beq_self_eq_true]
  · rw [if_pos hdomain]
    cases s.focusedLeaf with
    | none => rfl
    | some leaf => rw [Option.filter_some, if_neg (by simpa using hdomain)]

theorem seedTargetBounds_eq (hs : s.Valid) : s.seedTargetBounds domain =
    admissionPlacementFor domain (treeAt s.trees domain.key) (s.eligibleFocusIn domain.key) := by
  rw [seedTargetBounds, eligibleFocusIn_eq hs]

/-- The anchor of a convergence is the eligible focus. -/
theorem admissionFocus_eq :
    (if s.focusedDomain = some key ∧ validFocus s.trees s.windows s.focusedDomain s.focusedLeaf
      then s.focusedLeaf else none) = s.eligibleFocusIn key := by
  unfold eligibleFocusIn
  by_cases hdomain : s.focusedDomain = some key
  · rw [if_neg (not_not.mpr hdomain), hdomain]
    cases hleaf : s.focusedLeaf with
    | none => simp
    | some leaf =>
      rw [Option.filter_some]
      simp only [true_and]
  · rw [if_pos hdomain, if_neg fun h => hdomain h.1]

/-! ## Committed admissions -/

/-- The window is tiled in the domain by the rule: its link and the tree of
the domain are those of `admissionTree`, at a leaf and a group whose ids no
tree has used before. -/
structure Follows (s : Session) (domain : OutputDomain) (w : WindowId) (s' : Session)
    (leaf group : NodeId) : Prop where
  link : s'.windows[w]? = some ⟨w, leaf, domain.id, domain.workspace⟩
  tree : ∃ n, admissionTree domain (treeAt s.trees domain.key) (s.eligibleFocusIn domain.key) leaf
    group = some n ∧ treeAt s'.trees domain.key = some n
  leaf_fresh : leaf ∉ s.allNodeIds
  group_fresh : group ∉ s.allNodeIds
  group_ne : group ≠ leaf

theorem follows_of_insertTiled {n : Node} {ids : BTreeSet NodeId} {revision : Nat}
    (h : insertTiled (treeAt s.trees domain.key) (s.eligibleFocusIn domain.key)
      (generateLeafId w s.allNodeIds)
      (admissionAxisForRect (admissionPlacementFor domain (treeAt s.trees domain.key)
        (s.eligibleFocusIn domain.key)))
      (s.allNodeIds.insert (generateLeafId w s.allNodeIds)) w revision = some (n, ids))
    (hlink : s'.windows[w]? = some ⟨w, generateLeafId w s.allNodeIds, domain.id, domain.workspace⟩)
    (htree : treeAt s'.trees domain.key = some n) : ∃ leaf group, s.Follows domain w s' leaf group := by
  have hfresh : generateGroupId w revision (s.allNodeIds.insert (generateLeafId w s.allNodeIds)) ∉
      s.allNodeIds.insert (generateLeafId w s.allNodeIds) := freshId_not_mem
  rw [Std.ExtTreeSet.mem_insert, not_or, Std.LawfulEqOrd.compare_eq_iff_eq] at hfresh
  exact ⟨_, _, hlink, ⟨n, admissionTree_of_insertTiled h, htree⟩, freshId_not_mem, hfresh.2,
    Ne.symm hfresh.1⟩

variable {c : AdmitCommand} {observed : SessionObservation} {staging : Staging LifecyclePlan}

theorem planAdmitTiled_trees {entry : ObservedWindow}
    (h : s.planAdmitTiled c entry observed = .ok staging) :
    staging.desired.trees = s.trees.insert c.key ((insertTiled (treeAt s.trees c.key)
      (s.eligibleFocusIn c.key) (generateLeafId c.window s.allNodeIds)
      (admissionAxisForRect c.placementBounds)
      (s.allNodeIds.insert (generateLeafId c.window s.allNodeIds)) c.window
      observed.observation.revision).map Prod.fst) := by
  simp only [planAdmitTiled, bind_eq_ok, pure_eq_ok] at h
  obtain ⟨_, -, _, -, _, -, _, -, _, -, rfl⟩ := h
  rfl

/-- An admission placed on the rule's rectangle follows the rule. -/
theorem planAdmit_follows (hflags : c.exceptions = .none)
    (hfree : ∀ entry ∈ observed.windows, entry.window = c.window → s.floatsFixed c entry = false)
    (hhome : c.key = domain.key)
    (hbounds : c.placementBounds = admissionPlacementFor domain (treeAt s.trees domain.key)
      (s.eligibleFocusIn domain.key))
    (h : s.planAdmit c observed = .ok staging) (htrees : s'.trees = staging.desired.trees)
    (hwindows : s'.windows = staging.desired.windows) :
    ∃ leaf group, s.Follows domain c.window s' leaf group := by
  simp only [planAdmit, bind_eq_ok, refuseUnless, ensure_eq_ok, okOr_eq_ok] at h
  obtain ⟨_, -, _, -, entry, hentry, _, -, _, -, _, -, _, -, _, -, h⟩ := h
  have hnormal : c.exceptions.any = false := by
    rw [hflags]
    rfl
  have hkept := hfree entry (List.mem_of_find?_eq_some hentry) (by simpa using List.find?_some hentry)
  rw [if_neg (by simp [hnormal]), if_neg (by simp [hkept])] at h
  have htiled := planAdmitTiled_ok h
  obtain ⟨n, ids, axis, -, hworld⟩ := htiled.inserted
  -- the inserted tree is the one of the rule's axis
  have hnext := congrArg (fun trees => treeAt trees c.key) ((planAdmitTiled_trees h).symm.trans hworld)
  simp only [treeAt_insert, if_true] at hnext
  obtain ⟨⟨_, ids'⟩, hinsert, rfl⟩ := Option.map_eq_some_iff.mp hnext
  rw [hbounds, hhome] at hinsert
  obtain ⟨hid, hworkspace⟩ := DomainKey.ext_iff.mp hhome
  refine follows_of_insertTiled hinsert ?_ ?_
  · rw [hwindows, htiled.windows, lookup_insert, if_pos rfl]
    exact congrArg some (congrArg₂ (WindowLink.mk _ _) hid hworkspace)
  · rw [htrees, hworld, treeAt_insert, if_pos hhome]

/-- An unfloat places its admission on the rule's rectangle. -/
theorem planUnfloat_follows (hs : s.Valid) (hdomain : domain ∈ s.domains) {rect : Option Rect}
    {record : ExceptionRecord} {candidate : Session} (hhome : record.key = domain.key)
    (hplan : s.planUnfloat w record rect observed = .ok (candidate, c))
    (h : candidate.planAdmit c (observed.settled w) = .ok staging)
    (htrees : s'.trees = staging.desired.trees) (hwindows : s'.windows = staging.desired.windows) :
    ∃ leaf group, s.Follows domain w s' leaf group := by
  have hplanned := hplan
  simp only [planUnfloat, bind_eq_ok, refuseUnless, ensure_eq_ok, okOr_eq_ok, pure_eq_ok,
    Prod.mk.injEq, Bool.and_eq_true, beq_iff_eq] at hplanned
  obtain ⟨_, -, target, -, _, ⟨⟨-, houtput⟩, hworkspace⟩, requested, -, d, hd, rfl, rfl⟩ :=
    hplanned
  have hmatch := List.find?_some hd
  simp only [Bool.and_eq_true, beq_iff_eq] at hmatch
  have hkey : d.key = record.key :=
    DomainKey.ext (hmatch.1.trans houtput) (hmatch.2.trans hworkspace)
  have hmem : d ∈ s.domains := List.mem_of_find?_eq_some hd
  obtain rfl : d = domain := List.inj_on_of_nodup_map hs.keys_nodup hmem hdomain (hkey.trans hhome)
  -- the copy has the session's trees and focus
  obtain ⟨leaf, group, hfollows⟩ : ∃ leaf group, Follows _ d _ s' leaf group :=
    planAdmit_follows rfl (fun entry _ _ => by simp [floatsFixed])
      ((DomainKey.ext houtput hworkspace).trans hhome) (@seedTargetBounds_eq s d hs) h htrees hwindows
  exact ⟨leaf, group, hfollows.link, hfollows.tree, hfollows.leaf_fresh, hfollows.group_fresh,
    hfollows.group_ne⟩

end

/-! ## Convergence on one new tile -/

/-- The observation shows the accepted world and one plain tile more: a new
window, or an intentional float taken back. -/
structure NewTile (s : Session) (observed : List ObservedWindow) (entry : ObservedWindow) : Prop where
  seen : entry ∈ observed
  plain : entry.flags = .none
  unmarked : s.fixedFloatsAtAdmit entry = false
  untiled : entry.window ∉ s.windows
  intentional : entry.window ∈ s.exceptions → entry.window ∉ s.automaticFixed
  others : ∀ e ∈ observed, e.window ≠ entry.window → (s.stance e.window).stable (s.signals e) = true
  complete : ∀ v ∈ s.windows.keys ++ s.exceptions.keys, v ∈ observedIds observed

end Session

/-- A stable window keeps its membership through the passes before admission. -/
theorem Stance.classified_known {g : Signals} {v : Stance} (h : v.disjoint = true)
    (hstable : v.stable g = true) : (v.classified g v).known = true := by
  obtain ⟨tiled, excepted, automatic, override⟩ := v
  obtain ⟨fixedAdmission, floating, fullscreen, sticky, fixedAuto, fixedSuppress, fixedNow⟩ := g
  revert tiled excepted automatic override fixedAdmission floating fullscreen sticky fixedAuto
    fixedSuppress fixedNow
  decide +kernel

/-- A plain window that is no fixed-size float is left to admission. -/
theorem Stance.classified_free {g : Signals} {v : Stance} (htiled : v.tiled = false)
    (hautomatic : (v.excepted && v.automatic) = false) (hfloating : g.floating = false)
    (hfullscreen : g.fullscreen = false) (hsticky : g.sticky = false)
    (hfixed : (g.fixedAdmission && !g.fixedSuppress && !v.override && g.fixedNow) = false) :
    (v.classified g v).excepted = false := by
  obtain ⟨tiled, excepted, automatic, override⟩ := v
  obtain ⟨fixedAdmission, floating, fullscreen, sticky, fixedAuto, fixedSuppress, fixedNow⟩ := g
  obtain rfl : tiled = false := htiled
  obtain rfl : floating = false := hfloating
  obtain rfl : fullscreen = false := hfullscreen
  obtain rfl : sticky = false := hsticky
  revert excepted automatic override fixedAdmission fixedAuto fixedSuppress fixedNow
  decide +kernel

namespace Session

section
variable {s s' : Session} {domain : OutputDomain} {entry : ObservedWindow}
  {observation : SessionObservation} {observedFocus : Option WindowId}

/-- The passes before admission leave the world but for the new tile, which
is in neither membership. -/
theorem NewTile.classified (hs : s.Valid) (h : s.NewTile observation.windows entry)
    (hnodup : (observation.windows.map ObservedWindow.window).Nodup) {present : Converging}
    (hpresent : (s.windows.keys ++ s.exceptions.keys).foldlM
      (removeStep (observedById observation.windows)) s.converging = some present) :
    let classified := s.classify (observedById observation.windows)
      ((observedById observation.windows).toList.foldl s.floatStep present)
    (classified.trees = s.trees ∧ classified.windows = s.windows) ∧
      entry.window ∉ classified.exceptions ∧
      ∀ e ∈ observation.windows, e.window ≠ entry.window →
        e.window ∈ classified.windows ∨ e.window ∈ classified.exceptions := by
  intro classified
  have hlookup := fun {w e} => @lookup_observedById observation.windows hnodup w e
  -- every known window is observed, and nothing observed floating is a tile
  have hsame : present = s.converging := by
    refine (folded_of_foldlM_some hpresent).preserves (P := fun c => c = s.converging)
      (fun c v c' hv hstep hc => ?_) rfl
    obtain ⟨e, he⟩ := (observedById_isSome hnodup).mpr (h.complete v hv)
    have hcontains : (observedById observation.windows).contains v = true :=
      Std.ExtTreeMap.contains_iff_mem.mpr (mem_iff_lookup.mpr ⟨e, he⟩)
    rw [removeStep, if_pos hcontains] at hstep
    exact (Option.some.inj hstep).symm.trans hc
  have hfloated : (observedById observation.windows).toList.foldl s.floatStep present =
      s.converging := by
    rw [hsame]
    refine foldl_keeps (P := fun c => c = s.converging) (fun c p hp hc => ?_) rfl
    obtain ⟨v, e⟩ := p
    obtain ⟨he, rfl⟩ := hlookup.mp (Std.ExtTreeMap.mem_toList_iff_getElem?_eq_some.mp hp)
    by_cases hfloating : e.floating = true
    · have htiled : e.window ∉ s.windows := by
        by_cases heq : e.window = entry.window
        · exact heq ▸ h.untiled
        · obtain ⟨-, hnot, -⟩ := stable_iff.mp (h.others e he heq)
          have hstance : (s.signals e).floating = true := hfloating
          rw [hstance, Bool.true_and] at hnot
          exact contains_eq_false.mp hnot
      have hnone : s.converging.windows[e.window]? = none :=
        Std.ExtTreeMap.getElem?_eq_none htiled
      rw [hc, floatStep, if_neg (by simp [hfloating])]
      dsimp only
      rw [hnone]
    · rw [floatStep, if_pos (by simpa using hfloating), hc]
  have hframe := @classify_frame s (observedById observation.windows)
    ((observedById observation.windows).toList.foldl s.floatStep present)
  have hnamed : ∀ (w : WindowId) (e : ObservedWindow),
      (observedById observation.windows)[w]? = some e → e.window = w :=
    fun w e he => (hlookup.mp he).2
  have hstance : ∀ e ∈ observation.windows, classified.stance e.window =
      (s.stance e.window).classified (s.signals e) (s.stance e.window) := by
    intro e he
    have hclassified := classify_stance (s := s)
      (c := (observedById observation.windows).toList.foldl s.floatStep present) hnamed
      (hlookup.mpr ⟨he, rfl⟩)
    rw [hfloated] at hclassified
    show (s.classify _ _).stance e.window = _
    rw [hfloated]
    exact hclassified
  refine ⟨⟨?_, ?_⟩, ?_, fun e he hne => ?_⟩
  · rw [hframe.2, hfloated]
    rfl
  · rw [hframe.1, hfloated]
    rfl
  · have hflags := h.plain
    simp only [ObservedWindow.flags, ExceptionFlags.none, ExceptionFlags.mk.injEq] at hflags
    obtain ⟨hfloating, hfullscreen, -, hsticky⟩ := hflags
    have hunmarked := h.unmarked
    simp only [fixedFloatsAtAdmit, hfloating, hfullscreen, hsticky, Bool.not_false, Bool.and_true]
      at hunmarked
    have hautomatic : ((s.stance entry.window).excepted && (s.stance entry.window).automatic) = false :=
      Bool.and_eq_false_imp.mpr fun hexcepted => Bool.not_eq_true _ ▸ fun hmarked =>
        h.intentional (Std.ExtTreeMap.contains_iff_mem.mp hexcepted)
          (Std.ExtTreeSet.contains_iff_mem.mp hmarked)
    have hfree := Stance.classified_free (g := s.signals entry) (contains_eq_false.mpr h.untiled)
      hautomatic hfloating hfullscreen hsticky hunmarked
    rw [← hstance entry h.seen] at hfree
    exact contains_eq_false.mp hfree
  · have hknown := Stance.classified_known (stance_disjoint hs.disjoint) (h.others e he hne)
    rw [← hstance e he] at hknown
    have hor : (classified.windows.contains e.window || classified.exceptions.contains e.window) =
      true := hknown
    simpa [Std.ExtTreeMap.contains_iff_mem] using hor

/-- A convergence on a new tile follows the rule of the other ways: the passes
before the admission leave trees and links as they were, and the admission
inserts beside the eligible focus. -/
theorem NewTile.follows (hs : s.Valid) (hdomain : domain ∈ s.domains)
    (h : s.NewTile observation.windows entry) (hhome : entry.key = domain.key) {c : Converged}
    (hworld : s.ConvergedWorld observation observedFocus c) (htrees : s'.trees = c.world.trees)
    (hwindows : s'.windows = c.world.windows) :
    ∃ leaf group, s.Follows domain entry.window s' leaf group := by
  have hnodup := nodup_of_shapes hworld.shapes
  obtain ⟨world, hpasses, heq⟩ := hworld.passes
  obtain ⟨present, a, hpresent, hadmit, rfl⟩ := convergePasses_ok hpasses
  obtain ⟨⟨hsameTrees, hsameWindows⟩, hfree, hplaced⟩ := h.classified hs hnodup hpresent
  generalize s.classify (observedById observation.windows)
    ((observedById observation.windows).toList.foldl s.floatStep present) = classified at *
  have hentry : ∀ p ∈ (observedById observation.windows).toList, p.2 ∈ observation.windows ∧
      p.2.window = p.1 := fun p hp =>
    (lookup_observedById hnodup).mp (Std.ExtTreeMap.mem_toList_iff_getElem?_eq_some.mp hp)
  have hmem : (entry.window, entry) ∈ (observedById observation.windows).toList :=
    mem_entries ((lookup_observedById hnodup).mpr ⟨h.seen, rfl⟩)
  have hother : ∀ p ∈ (observedById observation.windows).toList, p ≠ (entry.window, entry) →
      p.1 ≠ entry.window := by
    rintro ⟨v, e⟩ hp hne rfl
    obtain ⟨he, hwindow⟩ := hentry _ hp
    exact hne (congrArg _ (List.inj_on_of_nodup_map hnodup he h.seen hwindow))
  -- a window that stands somewhere is passed over
  have hskip : ∀ {a a' : Admitting} {toTile : List WindowId} {p : WindowId × ObservedWindow},
      p.1 ∈ a.world.windows ∨ p.1 ∈ a.world.exceptions →
      s.admitStep observation.observation.revision toTile a p = .ok a' → a' = a := by
    intro a a' toTile p hstands hstep
    rcases admitStep_cases hstep with ⟨-, heq⟩ | ⟨_, _, _, _, ⟨-, hwindow, hexception⟩, -⟩
    · exact heq
    · exact absurd hstands (not_or.mpr ⟨hwindow, hexception⟩)
  have hstands : ∀ p ∈ (observedById observation.windows).toList, p ≠ (entry.window, entry) →
      p.1 ∈ classified.windows ∨ p.1 ∈ classified.exceptions := by
    intro p hp hne
    obtain ⟨he, hwindow⟩ := hentry p hp
    exact hwindow ▸ hplaced p.2 he (hwindow ▸ hother p hp hne)
  have hstep := (folded_of_foldlM_ok hadmit).once (List.Nodup.of_map _ (nodup_entries _)) hmem
    (fun p hp hne a' ha => hskip (hstands p hp hne) ha) fun a₁ ha₁ p hp hne a₂ ha₂ => by
      refine hskip ?_ ha₂
      rcases admitStep_cases ha₁ with ⟨-, rfl⟩ | ⟨_, _, _, _, -, -, hworld, -⟩
      · exact hstands p hp hne
      · rw [hworld]
        exact (hstands p hp hne).imp
          (fun hin => Std.ExtTreeMap.mem_insert.mpr (.inr hin)) id
  have hplain : entry.floating = false := congrArg ExceptionFlags.floating h.plain
  have huntiled : classified.windows.contains entry.window = false := by
    rw [hsameWindows]
    exact contains_eq_false.mpr h.untiled
  unfold admitStep at hstep
  rw [if_neg (by simp [hplain, huntiled, hfree])] at hstep
  simp only [bind_eq_ok, okOr_eq_ok, pure_eq_ok, hsameTrees, hsameWindows, hhome, admissionFocus_eq]
    at hstep
  obtain ⟨d, hd, ⟨next, ids⟩, hinsert, rfl⟩ := hstep
  obtain ⟨hdmem, hdkey⟩ := domainAt_eq_some hd
  obtain rfl : d = domain := List.inj_on_of_nodup_map hs.keys_nodup hdmem hdomain hdkey
  obtain ⟨hid, hworkspace⟩ := DomainKey.ext_iff.mp hhome
  refine follows_of_insertTiled hinsert ?_ ?_
  · rw [hwindows, heq, lookup_insert, if_pos rfl]
    exact congrArg some (congrArg₂ (WindowLink.mk _ _) hid hworkspace)
  · rw [htrees, heq, treeAt_insert, if_pos rfl]

end

/-! ## Every route -/

/-- The three ways a window becomes a tile of a domain, each carried through:
an admission on the seed target's rectangle of a window that is no fixed-size
float, a convergence on that tile alone, and the unfloat of an exception. -/
inductive Tiles (s : Session) (domain : OutputDomain) (w : WindowId) : Session → Prop
  | admitted {c : AdmitCommand} {observed : SessionObservation} {id : CorrelationId}
      {capabilities : LifecycleCapabilities} {ack : AdapterAck} {v : Verification} {s' : Session}
      (hwindow : c.window = w) (hhome : c.key = domain.key) (hplain : c.exceptions = .none)
      (hbounds : c.placementBounds = s.seedTargetBounds domain)
      (hfree : ∀ entry ∈ observed.windows, entry.window = w → s.fixedFloatsAtAdmit entry = false)
      (h : s.commitPlan (.command (.admitWindow c) observed id capabilities) ack v = some s') :
      Tiles s domain w s'
  | converged {observation : SessionObservation} {observedFocus : Option WindowId}
      {entry : ObservedWindow} {counts : ObservationConvergence} (hwindow : entry.window = w)
      (hhome : entry.key = domain.key) (hnew : s.NewTile observation.windows entry)
      (h : (s.convergeObservation observation observedFocus).2 = .ok counts) :
      Tiles s domain w (s.convergeObservation observation observedFocus).1
  | unfloated {rect : Option Rect} {record : ExceptionRecord} {observed : SessionObservation}
      {id : CorrelationId} {capabilities : LifecycleCapabilities} {ack : AdapterAck}
      {v : Verification} {s' : Session} (hrecord : s.exceptions[w]? = some record)
      (hhome : record.key = domain.key)
      (h : s.commitPlan (.command (.toggleFloat w rect) observed id capabilities) ack v = some s') :
      Tiles s domain w s'

section
variable {s s' s₁ s₂ : Session} {domain : OutputDomain} {w w₁ w₂ : WindowId}
  {desired : PendingDesired} {observed : SessionObservation} {id : CorrelationId}
  {capabilities : LifecycleCapabilities}

theorem Plans.admission {c : AdmitCommand}
    (h : s.Plans (.command (.admitWindow c) observed id capabilities) desired) :
    ∃ staging, s.planAdmit c observed = .ok staging ∧ desired = staging.desired := by
  generalize hp : Proposal.command (.admitWindow c) observed id capabilities = p at h
  cases h with
  | admits h =>
    cases hp
    exact ⟨_, h, rfl⟩
  | send _ | crossOutputFocus _ => split at hp <;> cases hp
  | orientation hp' _ => rcases hp' with rfl | rfl <;> cases hp
  | _ => cases hp

theorem Plans.unfloating {rect : Option Rect} {record : ExceptionRecord}
    (hrecord : s.exceptions[w]? = some record)
    (h : s.Plans (.command (.toggleFloat w rect) observed id capabilities) desired) :
    ∃ candidate c staging, s.planUnfloat w record rect observed = .ok (candidate, c) ∧
      candidate.planAdmit c (observed.settled w) = .ok staging ∧ desired = staging.desired := by
  generalize hp : Proposal.command (.toggleFloat w rect) observed id capabilities = p at h
  cases h with
  | unfloat hrecord' hplan h =>
    cases hp
    obtain rfl := Option.some.inj (hrecord'.symm.trans hrecord)
    exact ⟨_, _, _, hplan, h, rfl⟩
  | float hnone _ _ =>
    cases hp
    rw [hrecord] at hnone
    cases hnone
  | send _ | crossOutputFocus _ => split at hp <;> cases hp
  | orientation hp' _ => rcases hp' with rfl | rfl <;> cases hp
  | _ => cases hp

/-- Every route follows the rule. -/
theorem Tiles.follows (hs : Reachable s) (hdomain : domain ∈ s.domains)
    (h : s.Tiles domain w s') : ∃ leaf group, s.Follows domain w s' leaf group := by
  have hvalid : s.Valid := (reachable_worldsOk hs).1.2
  cases h with
  | @admitted c observed _ _ _ _ _ hwindow hhome hplain hbounds hfree h =>
    obtain ⟨desired, hplans, -, hlands⟩ := commitPlan_lands h
    obtain ⟨staging, hplan, rfl⟩ := hplans.admission
    subst hwindow
    refine planAdmit_follows hplain (fun entry hentry hnamed => ?_) hhome
      (hbounds.trans (seedTargetBounds_eq hvalid)) hplan hlands.trees hlands.windows
    have hfixed := hfree entry hentry hnamed
    rw [fixedFloatsAtAdmit, hnamed] at hfixed
    rw [floatsFixed]
    grind
  | @converged observation observedFocus entry counts hwindow hhome hnew h =>
    obtain ⟨c, -, -, -, hworld, hadopts⟩ := convergeObservation_adopts h
    exact hwindow ▸ hnew.follows hvalid hdomain hhome hworld hadopts.trees hadopts.windows
  | unfloated hrecord hhome h =>
    obtain ⟨desired, hplans, -, hlands⟩ := commitPlan_lands h
    obtain ⟨candidate, c, staging, hplan, hadmit, rfl⟩ := hplans.unfloating hrecord
    exact planUnfloat_follows hvalid hdomain hhome hplan hadmit hlands.trees hlands.windows

/-- Whatever way windows become tiles of a domain from one session, the trees
differ by the ids of the new leaf and its group alone. -/
theorem tiles_agree (hs : Reachable s) (hdomain : domain ∈ s.domains)
    (h₁ : s.Tiles domain w₁ s₁) (h₂ : s.Tiles domain w₂ s₂) :
    ∃ (f : NodeId → NodeId) (leaf₁ leaf₂ : NodeId) (n : Node),
      s₁.windows[w₁]? = some ⟨w₁, leaf₁, domain.id, domain.workspace⟩ ∧
      s₂.windows[w₂]? = some ⟨w₂, leaf₂, domain.id, domain.workspace⟩ ∧
      (∀ i ∈ s.allNodeIds, f i = i) ∧ f leaf₁ = leaf₂ ∧
      treeAt s₁.trees domain.key = some n ∧ treeAt s₂.trees domain.key = some (n.rename f) := by
  have hvalid : s.Valid := (reachable_worldsOk hs).1.2
  obtain ⟨leaf₁, group₁, hfollows₁⟩ := h₁.follows hs hdomain
  obtain ⟨leaf₂, group₂, hfollows₂⟩ := h₂.follows hs hdomain
  obtain ⟨n₁, hrule₁, htree₁⟩ := hfollows₁.tree
  obtain ⟨n₂, hrule₂, htree₂⟩ := hfollows₂.tree
  let f : NodeId → NodeId := fun i => if i = leaf₁ then leaf₂ else if i = group₁ then group₂ else i
  have hfixed : ∀ i ∈ s.allNodeIds, f i = i := by
    intro i hi
    have hleaf : i ≠ leaf₁ := fun heq => hfollows₁.leaf_fresh (heq ▸ hi)
    have hgroup : i ≠ group₁ := fun heq => hfollows₁.group_fresh (heq ▸ hi)
    simp only [f, if_neg hleaf, if_neg hgroup]
  have hleaf : f leaf₁ = leaf₂ := if_pos rfl
  have hgroup : f group₁ = group₂ := (if_neg hfollows₁.group_ne).trans (if_pos rfl)
  have hrenamed := admissionTree_rename (f := f) (fun t ht => (hvalid.tree_ok ht).nodup)
    (fun t ht i hi => hfixed i (mem_allNodeIds ht hi)) hrule₁
  rw [hleaf, hgroup, hrule₂] at hrenamed
  exact ⟨f, leaf₁, leaf₂, n₁, hfollows₁.link, hfollows₂.link, hfixed, hleaf, htree₁,
    htree₂.trans hrenamed⟩

end

end Session

/-! ## A float taken back -/

namespace Sample

/-- A focused tile and a floating window. -/
def beside : Session :=
  Session.machine.run empty
    [.convergeObservation (observation 0 [window "v", { window "w" with floating := true }])
      (some ⟨"v"⟩)]

def besideUnfloat : Proposal :=
  .command (.toggleFloat ⟨"w"⟩ none)
    (observation 1 [window "v", { window "w" with floating := true }]) correlationId lifecycle

def besideAck : AdapterAck := ⟨correlationId, owner, generation, 1, .accepted⟩

def besidePost : LifecyclePostObservation :=
  { admissionPost with observation := ⟨owner, generation, 1, 1⟩ }

end Sample

namespace Session

/-- The float unfloated, and observed as a tile. -/
theorem tiles_agree_beside : ∃ s₁ s₂ f n,
    Sample.beside.commitPlan Sample.besideUnfloat Sample.besideAck (.lifecycle Sample.besidePost) =
        some s₁ ∧
      s₂ = (Sample.beside.convergeObservation
        (Sample.observation 1 [Sample.window "v", Sample.window "w"]) (some ⟨"v"⟩)).1 ∧
      treeAt s₁.trees ⟨⟨"A"⟩, ⟨"1"⟩⟩ = some n ∧
      treeAt s₂.trees ⟨⟨"A"⟩, ⟨"1"⟩⟩ = some (n.rename f) := by
  have hcommits : (Sample.beside.commitPlan Sample.besideUnfloat Sample.besideAck
      (.lifecycle Sample.besidePost)).isSome = true := by decide +kernel
  obtain ⟨s₁, hs₁⟩ := Option.isSome_iff_exists.mp hcommits
  have hrecord : Sample.beside.exceptions[(⟨"w"⟩ : WindowId)]? =
      some ⟨⟨"w"⟩, ⟨"A"⟩, ⟨"1"⟩, .plainFloat, none⟩ := by decide +kernel
  have hnew : Sample.beside.NewTile [Sample.window "v", Sample.window "w"] (Sample.window "w") :=
    ⟨by decide +kernel, by decide +kernel, by decide +kernel, by decide +kernel,
      by decide +kernel, by decide +kernel, by decide +kernel⟩
  have hconverges : (Sample.beside.convergeObservation
      (Sample.observation 1 [Sample.window "v", Sample.window "w"]) (some ⟨"v"⟩)).2 =
        .ok ⟨0, 0, 1⟩ := by decide +kernel
  obtain ⟨f, _, _, n, -, -, -, -, htree₁, htree₂⟩ := @tiles_agree Sample.beside s₁ _
    (Sample.domain "A" "1") ⟨"w"⟩ ⟨"w"⟩ (Sample.session_reachable _ _) (by decide +kernel)
    (.unfloated hrecord rfl hs₁) (.converged rfl rfl hnew hconverges)
  exact ⟨s₁, _, f, n, hs₁, rfl, htree₁, htree₂⟩

end Session

end PlasmaTiler
