import PlasmaTiler.Classification
import PlasmaTiler.Rearrange
import PlasmaTiler.WorldInvariant

/-!
# Convergence reaches the observed membership

After a convergence the session should know exactly the observed windows,
each as a tile or as an exception, and tiles that were tiles before should be
where they were. Membership is read off `Stance.settle`.

What the trees keep is an invariant of the passes (`Survives`): a window
tiled before is linked as before or not at all, and then it is observed
floating if at all; the leaves of the windows still linked are in the order
they had. The removing passes also keep the links a part of the accepted ones
and the trees valid (`Thins`), which the order needs, for in a valid tree
removing one leaf leaves the others in their order. The later passes only
graft.

`Reaches` states the result over all windows and domains, retained rectangles
and the revision included, and `convergeObservation_reaches` that a
convergence which succeeds leaves it, and one that is refused leaves the
session as it was.
-/

namespace PlasmaTiler

/-- The leaves of a domain, left to right. -/
def leavesAt (trees : Trees) (key : DomainKey) : List NodeId :=
  ((treeAt trees key).map Node.leaves).getD []

theorem leavesAt_insert {trees : Trees} {key k : DomainKey} {value : Option Node} :
    leavesAt (trees.insert key value) k =
      if key = k then (value.map Node.leaves).getD [] else leavesAt trees k := by
  unfold leavesAt
  rw [treeAt_insert]
  split <;> rfl

/-- Removing a leaf from the tree of a domain, whether or not it is there. -/
theorem removeLeafFromTree_leaves {tree : Option Node} {leaf : NodeId}
    (hok : ∀ n, tree = some n → TreeOk n) :
    ((removeLeafFromTree tree leaf).map Node.leaves).getD [] =
        ((tree.map Node.leaves).getD []).filter (· ≠ leaf) ∧
      ∀ n', removeLeafFromTree tree leaf = some n' → TreeOk n' := by
  cases tree with
  | none => exact ⟨rfl, nofun⟩
  | some n =>
    have hn := hok n rfl
    by_cases hleaf : leaf ∈ n.leaves
    · cases hremove : removeNode leaf n with
      | none =>
        rcases removeNode_of_mem hn.wellFormed hn.nodup hleaf with rfl | ⟨_, _, _, -, -, hsome⟩
        · refine ⟨by simp [removeLeafFromTree, hremove], ?_⟩
          intro n' h
          rw [removeLeafFromTree, Option.bind_some, hremove] at h
          cases h
        · rw [hremove] at hsome
          cases hsome
      | some n' =>
        have hremoved := removeNode_removed hn.wellFormed hn.nodup hleaf hremove
        refine ⟨by simp [removeLeafFromTree, hremove, hremoved.leaves], ?_⟩
        intro n'' h
        rw [removeLeafFromTree, Option.bind_some, hremove] at h
        cases h
        exact treeOk_of_removed hn hremoved
    · have hremove := removeNode_of_not_mem hleaf
      refine ⟨?_, ?_⟩
      · have hkeep : n.leaves.filter (· ≠ leaf) = n.leaves :=
          List.filter_eq_self.mpr fun x hx => by
            simpa using fun heq : x = leaf => hleaf (heq ▸ hx)
        simp only [removeLeafFromTree, Option.bind_some, hremove, Option.map_some, Option.getD_some,
          hkeep]
      · intro n' h
        rw [removeLeafFromTree, Option.bind_some, hremove] at h
        cases h
        exact hn

namespace Session

variable {s : Session} {observed : BTreeMap WindowId ObservedWindow} {baseRevision : Nat}
  {c c' : Converging} {w : WindowId} {key : DomainKey}

/-- The leaves of a domain whose windows are still tiled. -/
def survivingLeaves (s : Session) (windows : Links) (key : DomainKey) : List NodeId :=
  (leavesAt s.trees key).filter fun leaf => s.windows.toList.any fun (w, link) =>
    link.leaf == leaf && link.key == key && windows.contains w

/-! ## What the passes keep -/

/-- What a pass leaves of the tiles there were. A tile keeps its link, or
loses it because it is gone or observed floating; those that remain keep their
order in every tree. -/
structure Survives (s : Session) (observed : BTreeMap WindowId ObservedWindow) (c : Converging) :
    Prop where
  kept : ∀ {w : WindowId} {link : WindowLink}, s.windows[w]? = some link →
    c.windows[w]? = some link ∨
      c.windows[w]? = none ∧ ∀ e, observed[w]? = some e → e.floating = true
  order : ∀ key, (s.survivingLeaves c.windows key).Sublist (leavesAt c.trees key)

/-- While tiles only leave, the links are a part of the accepted ones and the
trees stay valid. The later passes add tiles and need neither. -/
structure Thins (s : Session) (observed : BTreeMap WindowId ObservedWindow) (c : Converging) :
    Prop extends Survives s observed c where
  part : ∀ {w : WindowId} {link : WindowLink}, c.windows[w]? = some link →
    s.windows[w]? = some link
  trees : ∀ {key tree}, treeAt c.trees key = some tree → TreeOk tree

theorem mem_survivingLeaves {windows : Links} {leaf : NodeId} :
    leaf ∈ s.survivingLeaves windows key ↔ leaf ∈ leavesAt s.trees key ∧
      ∃ (w : WindowId) (link : WindowLink), s.windows[w]? = some link ∧ link.leaf = leaf ∧
        link.key = key ∧ w ∈ windows := by
  simp only [survivingLeaves, List.mem_filter, List.any_eq_true, Prod.exists,
    Std.ExtTreeMap.mem_toList_iff_getElem?_eq_some, Bool.and_eq_true, beq_iff_eq,
    Std.ExtTreeMap.contains_iff_mem, and_assoc]

theorem thins_converging (hs : s.Valid) : Thins s observed s.converging where
  kept h := .inl h
  order _ := List.filter_sublist
  part h := h
  trees h := hs.tree_ok h

/-- Taking a tile out that is not observed, or observed floating, leaves the
world thinned: one link less, and its leaf gone from its tree. -/
theorem Thins.untile (hs : s.Valid) (h : Thins s observed c) {link : WindowLink}
    (hlink : c.windows[w]? = some link)
    (hfloating : ∀ e, observed[w]? = some e → e.floating = true) :
    Thins s observed (c.untile w link) := by
  have haccepted := h.part hlink
  obtain ⟨hleaves, hok⟩ := @removeLeafFromTree_leaves (treeAt c.trees link.key) link.leaf
    fun n hn => h.trees hn
  refine ⟨⟨?_, ?_⟩, ?_, ?_⟩
  · intro v link' hv
    simp only [Converging.untile, lookup_erase]
    split
    · rename_i heq
      subst heq
      exact .inr ⟨rfl, hfloating⟩
    · exact h.kept hv
  · intro key
    have hsub : (s.survivingLeaves (c.windows.erase w) key).Sublist
        (s.survivingLeaves c.windows key) := by
      refine List.monotone_filter_right _ fun leaf hleaf => ?_
      simp only [List.any_eq_true, Bool.and_eq_true, Std.ExtTreeMap.contains_iff_mem] at hleaf ⊢
      obtain ⟨p, hp, hmatch, hmem⟩ := hleaf
      exact ⟨p, hp, hmatch, Std.ExtTreeMap.mem_of_mem_erase hmem⟩
    have hbefore := hsub.trans (h.order key)
    simp only [Converging.untile, leavesAt_insert]
    split
    · rename_i hkey
      subst hkey
      rw [hleaves]
      -- no surviving leaf is the removed one: the accepted links tell leaves apart
      have hne : ∀ leaf ∈ s.survivingLeaves (c.windows.erase w) link.key, leaf ≠ link.leaf := by
        rintro leaf hleaf rfl
        obtain ⟨-, v, link', hv, hsame, -, hmem⟩ := mem_survivingLeaves.mp hleaf
        obtain rfl := hs.leaf_inj hv haccepted hsame
        rw [mem_iff_lookup, lookup_erase, if_pos rfl] at hmem
        obtain ⟨_, hnone⟩ := hmem
        cases hnone
      have hfilter := hbefore.filter (fun leaf => decide (leaf ≠ link.leaf))
      rwa [List.filter_eq_self.mpr (by simpa using hne)] at hfilter
    · exact hbefore
  · intro v link' hv
    simp only [Converging.untile, lookup_erase] at hv
    split at hv
    · cases hv
    · exact h.part hv
  · intro key tree htree
    simp only [Converging.untile, treeAt_insert] at htree
    split at htree
    · exact hok tree htree
    · exact h.trees htree

theorem Thins.congr (h : Thins s observed c) (hwindows : c'.windows = c.windows)
    (htrees : c'.trees = c.trees) : Thins s observed c' := by
  obtain ⟨⟨hkept, horder⟩, hpart, hok⟩ := h
  constructor
  · constructor
    · rwa [hwindows]
    · rwa [hwindows, htrees]
  · rwa [hwindows]
  · rwa [htrees]

theorem Survives.congr (h : Survives s observed c) (hwindows : c'.windows = c.windows)
    (htrees : c'.trees = c.trees) : Survives s observed c' := by
  obtain ⟨hkept, horder⟩ := h
  constructor
  · rwa [hwindows]
  · rwa [hwindows, htrees]

theorem Thins.removeStep (hs : s.Valid) (h : Thins s observed c)
    (hstep : removeStep observed c w = some c') : Thins s observed c' := by
  unfold Session.removeStep at hstep
  split at hstep
  · cases hstep
    exact h
  · rename_i hobserved
    split at hstep
    · rename_i link hlink
      cases hstep
      refine (h.untile hs hlink fun e he => absurd ?_ hobserved).congr rfl rfl
      exact Std.ExtTreeMap.contains_iff_mem.mpr (mem_iff_lookup.mpr ⟨e, he⟩)
    · split at hstep
      · cases hstep
        exact h.congr rfl rfl
      · cases hstep

theorem Thins.floatStep (hs : s.Valid) (h : Thins s observed c) {e : ObservedWindow}
    (he : observed[w]? = some e) : Thins s observed (s.floatStep c (w, e)) := by
  unfold Session.floatStep
  split
  · exact h
  · rename_i hfloating
    split
    · exact h
    · rename_i link hlink
      refine (h.untile hs hlink fun e' he' => ?_).congr rfl rfl
      obtain rfl : e = e' := Option.some.inj (he.symm.trans he')
      simpa using hfloating

/-- The classifying passes touch neither links nor trees. They sort observed
windows into records, and the admissions that follow read these. -/
theorem classify_frame : (s.classify observed c).windows = c.windows ∧
    (s.classify observed c).trees = c.trees := by
  have hretile : ∀ c id, (s.retileStep observed c id).windows = c.windows ∧
      (s.retileStep observed c id).trees = c.trees := by
    intro c id
    unfold retileStep
    split
    · exact ⟨rfl, rfl⟩
    · dsimp only
      repeat' split
      all_goals exact ⟨rfl, rfl⟩
  have hsticky : ∀ c p, (stickyStep c p).windows = c.windows ∧
      (stickyStep c p).trees = c.trees := by
    intro c p
    unfold stickyStep
    split <;> exact ⟨rfl, rfl⟩
  have horigin : ∀ c p, (s.originStep c p).windows = c.windows ∧
      (s.originStep c p).trees = c.trees := by
    intro c p
    unfold originStep
    split <;> exact ⟨rfl, rfl⟩
  have hnew : ∀ c p, (s.newFloatStep c p).windows = c.windows ∧
      (s.newFloatStep c p).trees = c.trees := by
    intro c p
    unfold newFloatStep
    split
    · split <;> exact ⟨rfl, rfl⟩
    · exact ⟨rfl, rfl⟩
  have hheld : ∀ c p, (s.fullscreenStep c p).windows = c.windows ∧
      (s.fullscreenStep c p).trees = c.trees := by
    intro c p
    unfold fullscreenStep
    split <;> exact ⟨rfl, rfl⟩
  have hfixed : ∀ c p, (s.fixedStep c p).windows = c.windows ∧
      (s.fixedStep c p).trees = c.trees := by
    intro c p
    unfold fixedStep
    split <;> exact ⟨rfl, rfl⟩
  -- each pass keeps what all its steps keep
  have hpass : ∀ {ι : Type} {l : List ι} {f : Converging → ι → Converging} {c₀ : Converging},
      (∀ c i, (f c i).windows = c.windows ∧ (f c i).trees = c.trees) →
      c₀.windows = c.windows ∧ c₀.trees = c.trees →
      (l.foldl f c₀).windows = c.windows ∧ (l.foldl f c₀).trees = c.trees := by
    intro ι l f c₀ hf hc₀
    refine foldl_keeps
      (P := fun c' : Converging => c'.windows = c.windows ∧ c'.trees = c.trees)
      (fun c' i _ hc' => ?_) hc₀
    exact ⟨(hf c' i).1.trans hc'.1, (hf c' i).2.trans hc'.2⟩
  exact hpass hfixed (hpass hheld (hpass hnew (hpass horigin (hpass hsticky (hpass hretile
    ⟨rfl, rfl⟩)))))

theorem Survives.admitStep {toTile : List WindowId} {a a' : Admitting} {e : ObservedWindow}
    (h : Survives s observed a.world) (he : observed[w]? = some e)
    (hstep : s.admitStep baseRevision toTile a (w, e) = .ok a') : Survives s observed a'.world := by
  rcases admitStep_cases hstep with ⟨-, rfl⟩ | ⟨eligible, axis, next, ids, ⟨hfloating, htiled, -⟩,
    hinsert, hworld, -⟩
  · exact h
  · rw [hworld]
    -- a window observed tiled that has no link was not tiled before either
    have hnew : s.windows[w]? = none := by
      cases hlink : s.windows[w]? with
      | none => rfl
      | some link =>
        rcases h.kept hlink with hsome | ⟨-, hall⟩
        · exact absurd (mem_iff_lookup.mpr ⟨link, hsome⟩) htiled
        · rw [hall e he] at hfloating
          cases hfloating
    have hsurvivors : ∀ key, s.survivingLeaves
        (a.world.windows.insert w ⟨w, generateLeafId w a.ids, e.output, e.workspace⟩) key =
          s.survivingLeaves a.world.windows key := by
      intro key
      refine List.filter_congr fun leaf _ => ?_
      rw [Bool.eq_iff_iff]
      simp only [List.any_eq_true, Prod.exists, Std.ExtTreeMap.mem_toList_iff_getElem?_eq_some,
        Bool.and_eq_true, Std.ExtTreeMap.contains_iff_mem, mem_iff_lookup, lookup_insert]
      constructor
      · rintro ⟨v, link, hv, hmatch, hmem⟩
        have hne : w ≠ v := by
          rintro rfl
          rw [hnew] at hv
          cases hv
        rw [if_neg hne] at hmem
        exact ⟨v, link, hv, hmatch, hmem⟩
      · rintro ⟨v, link, hv, hmatch, hmem⟩
        have hne : w ≠ v := by
          rintro rfl
          rw [hnew] at hv
          cases hv
        exact ⟨v, link, hv, hmatch, by rwa [if_neg hne]⟩
    refine ⟨?_, fun key => ?_⟩
    · intro v link hv
      simp only [Converging.tiled, lookup_insert]
      split
      · rename_i heq
        subst heq
        rw [hnew] at hv
        cases hv
      · exact h.kept hv
    · have hbefore := h.order key
      simp only [Converging.tiled, leavesAt_insert, hsurvivors]
      split
      · rename_i hkey
        subst hkey
        refine hbefore.trans ?_
        unfold leavesAt
        cases htree : treeAt a.world.trees e.key with
        | none => exact List.nil_sublist _
        | some tree =>
          rw [htree] at hinsert
          exact (insertTiled_grafted hinsert).1.order
      · exact hbefore

/-- The passes keep links and order. -/
theorem convergePasses_survives (hs : s.Valid)
    (h : s.convergePasses observed baseRevision = .ok c) : Survives s observed c := by
  obtain ⟨present, a, hpresent, hadmit, rfl⟩ := convergePasses_ok h
  have hentry : ∀ {p : WindowId × ObservedWindow}, p ∈ observed.toList →
      observed[p.1]? = some p.2 := Std.ExtTreeMap.mem_toList_iff_getElem?_eq_some.mp
  have hremoved : Thins s observed present :=
    (folded_of_foldlM_some hpresent).preserves
      (fun _ _ _ _ hstep hthins => hthins.removeStep hs hstep) (thins_converging hs)
  have hfloated : Thins s observed (observed.toList.foldl s.floatStep present) :=
    foldl_keeps (fun _ _ hp hthins => hthins.floatStep hs (hentry hp)) hremoved
  have hclassified := hfloated.toSurvives.congr (@classify_frame s observed _).1
    (@classify_frame s observed _).2
  exact (folded_of_foldlM_ok hadmit).preserves (P := fun a => Survives s observed a.world)
    (fun _ p _ hp hstep hsurvives => hsurvives.admitStep (hentry hp) hstep) hclassified

/-! ## The observed windows by id -/

theorem lookup_observedById {windows : List ObservedWindow}
    (hnodup : (windows.map ObservedWindow.window).Nodup) {w : WindowId} {e : ObservedWindow} :
    (observedById windows)[w]? = some e ↔ e ∈ windows ∧ e.window = w := by
  have hlocal : Local (fun m e m' => m.insert e.window e = m') windows
      (fun (m : BTreeMap WindowId ObservedWindow) (w : WindowId) => m[w]?)
      ObservedWindow.window fun e _ => some e := by
    rintro e _ m m' rfl
    refine ⟨lookup_insert.trans (if_pos rfl), fun k hk => lookup_insert.trans (if_neg hk)⟩
  have hpass := @folded_foldl (BTreeMap WindowId ObservedWindow) ObservedWindow ∅ windows
    fun m e => m.insert e.window e
  constructor
  · intro h
    by_cases hmem : ∃ e' ∈ windows, e'.window = w
    · obtain ⟨e', he', rfl⟩ := hmem
      have hview := hpass.view_of_mem hlocal hnodup he'
      obtain rfl : e' = e := Option.some.inj (hview.symm.trans h)
      exact ⟨he', rfl⟩
    · have hview := hpass.view_of_not_mem hlocal (k := w)
        fun e' he' heq => hmem ⟨e', he', heq⟩
      have hnone : (∅ : BTreeMap WindowId ObservedWindow)[w]? = some e := hview.symm.trans h
      simp at hnone
  · rintro ⟨he, rfl⟩
    exact hpass.view_of_mem hlocal hnodup he

theorem observedById_isSome {windows : List ObservedWindow}
    (hnodup : (windows.map ObservedWindow.window).Nodup) {w : WindowId} :
    (∃ e, (observedById windows)[w]? = some e) ↔ w ∈ observedIds windows := by
  simp only [lookup_observedById hnodup, observedIds, Std.ExtTreeSet.mem_ofList, List.contains_eq_mem,
    List.mem_map, decide_eq_true_eq]

theorem nodup_of_shapes {windows : List ObservedWindow} (h : validObservedShapes windows = true) :
    (windows.map ObservedWindow.window).Nodup :=
  of_decide_eq_true (Bool.and_eq_true_iff.mp h).2

/-! ## What a successful convergence leaves -/

/-- The two sessions have the same trees, links, exceptions and marks. A
convergence that leaves this commits no revision. -/
structure SameWorld (s s' : Session) : Prop where
  trees : s'.trees = s.trees
  windows : s'.windows = s.windows
  exceptions : s'.exceptions = s.exceptions
  automaticFixed : s'.automaticFixed = s.automaticFixed
  fixedTileOverride : s'.fixedTileOverride = s.fixedTileOverride

/-- The session after a convergence that planned `c`. It has the planned world
and focus, keeps its identity, domains and settings, and counts a revision
just when the world has changed. -/
structure Adopts (s s' : Session) (c : Converged) : Prop where
  trees : s'.trees = c.world.trees
  windows : s'.windows = c.world.windows
  exceptions : s'.exceptions = c.world.exceptions
  automaticFixed : s'.automaticFixed = c.world.automatic
  fixedTileOverride : s'.fixedTileOverride = c.world.tileOverride
  focus : (s'.focusedDomain, s'.focusedLeaf) = c.focus
  owner : s'.owner = s.owner
  generation : s'.generation = s.generation
  domains : s'.domains = s.domains
  fixedAdmission : s'.fixedAdmission = s.fixedAdmission
  fixedPredicate : s'.fixedPredicate = s.fixedPredicate
  retained : s'.retainedFloatGeometry = s.retainedFloatGeometry
  settled : s'.settledWorld = true
  revision : (s'.acceptedRevision = s.acceptedRevision + 1 ∧
      s.acceptedRevision < maxRevision ∧ ¬SameWorld s s') ∨
    (s'.acceptedRevision = s.acceptedRevision ∧ SameWorld s s')

variable {s' : Session} {observation : SessionObservation} {observedFocus : Option WindowId}
  {counts : ObservationConvergence}

/-- A successful convergence adopts the world it planned. -/
theorem convergeObservation_adopts
    (h : (s.convergeObservation observation observedFocus).2 = .ok counts) :
    ∃ c, s.settledWorld = true ∧ s.Valid ∧ s.convergenceFault observation.observation = none ∧
      s.ConvergedWorld observation observedFocus c ∧
      Adopts s (s.convergeObservation observation observedFocus).1 c := by
  have hanswer := @convergeObservation_convergence s observation observedFocus
  rw [h] at hanswer
  generalize (s.convergeObservation observation observedFocus).1 = s' at hanswer ⊢
  cases hanswer with
  | @refocused c hsettled hvalid hbound hplan hchanged =>
    obtain ⟨htrees, hwindows, hexceptions, hautomatic, hoverride⟩ :=
      convergenceChanged_eq_false.mp hchanged
    refine ⟨c, hsettled, validateCurrentTopology_iff.mp hvalid, hbound, planConvergence_ok hplan, ?_⟩
    exact ⟨htrees.symm, hwindows.symm, hexceptions.symm, hautomatic.symm, hoverride.symm, rfl, rfl,
      rfl, rfl, rfl, rfl, rfl, hsettled, .inr ⟨rfl, rfl, rfl, rfl, rfl, rfl⟩⟩
  | @converged c hsettled hvalid hbound hplan hchanged hrevision =>
    refine ⟨c, hsettled, validateCurrentTopology_iff.mp hvalid, hbound, planConvergence_ok hplan, ?_⟩
    refine ⟨rfl, rfl, rfl, rfl, rfl, rfl, rfl, rfl, rfl, rfl, rfl, rfl, hsettled,
      .inl ⟨rfl, hrevision, fun hsame => ?_⟩⟩
    have hunchanged : s.convergenceChanged c.world = false :=
      convergenceChanged_eq_false.mpr ⟨hsame.trees, hsame.windows, hsame.exceptions,
        hsame.automaticFixed, hsame.fixedTileOverride⟩
    rw [hunchanged] at hchanged
    cases hchanged

/-- The world of an observation: its windows, each in one membership, the
tiles that stay at their leaves and in their order. -/
structure Reaches (s s' : Session) (windows : List ObservedWindow) : Prop where
  disjoint : ∀ {w : WindowId}, w ∈ s'.windows → w ∉ s'.exceptions
  membership : ∀ {w : WindowId}, w ∈ s'.windows ∨ w ∈ s'.exceptions ↔ w ∈ observedIds windows
  kept : ∀ {w : WindowId} {link link' : WindowLink}, s.windows[w]? = some link →
    s'.windows[w]? = some link' → link' = link
  order : ∀ key, (s.survivingLeaves s'.windows key).Sublist (leavesAt s'.trees key)
  retained : s'.retainedFloatGeometry = s.retainedFloatGeometry
  revision : (s'.acceptedRevision = s.acceptedRevision + 1 ∧ ¬SameWorld s s') ∨
    (s'.acceptedRevision = s.acceptedRevision ∧ SameWorld s s')

theorem ConvergedWorld.reaches {c : Converged} (hs : s.Valid)
    (hplan : s.ConvergedWorld observation observedFocus c) (h : Adopts s s' c) :
    Reaches s s' observation.windows := by
  obtain ⟨world, hpasses, hworld⟩ := hplan.passes
  have hnodup := nodup_of_shapes hplan.shapes
  have hnamed : ∀ (w : WindowId) (e : ObservedWindow),
      (observedById observation.windows)[w]? = some e → e.window = w :=
    fun w e he => ((lookup_observedById hnodup).mp he).2
  have hwindows : s'.windows = world.windows := by rw [h.windows, hworld]
  have hexceptions : s'.exceptions = world.exceptions := by rw [h.exceptions, hworld]
  have htrees : s'.trees = world.trees := by rw [h.trees, hworld]
  have hsurvives := convergePasses_survives hs hpasses
  have hstance : ∀ w, (world.stance w).known = true ↔ w ∈ s'.windows ∨ w ∈ s'.exceptions := by
    intro w
    rw [hwindows, hexceptions, ← Std.ExtTreeMap.contains_iff_mem, ← Std.ExtTreeMap.contains_iff_mem,
      ← Bool.or_eq_true]
    rfl
  refine ⟨?_, ?_, ?_, ?_, h.retained, ?_⟩
  · have hvalid := hplan.valid
    rw [← h.windows, ← h.exceptions] at hvalid
    exact fun {w} => hvalid.disjoint
  · intro w
    rw [← hstance, ← observedById_isSome hnodup]
    cases he : (observedById observation.windows)[w]? with
    | none =>
      rw [convergePasses_stance_unobserved hs.disjoint hnamed hpasses he]
      simp
    | some e =>
      rw [convergePasses_stance hs.disjoint hnamed hpasses he]
      have hplaced := Stance.settle_placed (g := s.signals e) (@stance_disjoint s w hs.disjoint)
      exact iff_of_true (Bool.and_eq_true_iff.mp hplaced).2 ⟨e, rfl⟩
  · intro w link link' hbefore hafter
    rw [hwindows] at hafter
    rcases hsurvives.kept hbefore with hkept | ⟨hgone, -⟩
    · exact Option.some.inj (hafter.symm.trans hkept)
    · rw [hgone] at hafter
      cases hafter
  · intro key
    rw [hwindows, htrees]
    exact hsurvives.order key
  · rcases h.revision with ⟨hnext, -, hchanged⟩ | hsame
    · exact .inl ⟨hnext, hchanged⟩
    · exact .inr hsame

/-- Convergence on a complete observation reaches exactly the observed
membership, and a refused one leaves the session as it was. -/
theorem convergeObservation_reaches (h : Reachable s) :
    (∀ counts, (s.convergeObservation observation observedFocus).2 = .ok counts →
      Reaches s (s.convergeObservation observation observedFocus).1 observation.windows) ∧
    ∀ e, (s.convergeObservation observation observedFocus).2 = .error e →
      (∀ reason, e ≠ .diverged reason) →
      (s.convergeObservation observation observedFocus).1 = s := by
  constructor
  · intro counts hok
    obtain ⟨c, -, -, -, hplan, hadopts⟩ := convergeObservation_adopts hok
    exact hplan.reaches (worldsOk_invariant.reachable h).accepted hadopts
  · intro e herror hrefusal
    have hanswer := @convergeObservation_convergence s observation observedFocus
    rw [herror] at hanswer
    generalize (s.convergeObservation observation observedFocus).1 = s' at hanswer ⊢
    cases hanswer with
    | unchanged => rfl
    | halted _ => exact absurd rfl (hrefusal _)

/-- Three tiles and a float over two workspaces converge with what has become
of them. -/
theorem reaches_restocked :
    Reaches Sample.stocked (Sample.stocked.convergeObservation Sample.restocked none).1
      Sample.restocked.windows :=
  (convergeObservation_reaches (Sample.session_reachable _ _)).1 ⟨1, 1, 1⟩ (by decide +kernel)

end Session

end PlasmaTiler
