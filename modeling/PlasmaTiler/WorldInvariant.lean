import PlasmaTiler.Planned
import PlasmaTiler.Steps
import PlasmaTiler.Withdrawal

/-!
# The world invariant

Every reachable session has a valid accepted world, and so has the desired
world of its pending plan. Valid means what the topology check of the code
means by it: distinct node ids over all domains, groups of at least two
children with a positive share each, no group inside one of its own axis, and
a link for every leaf and a leaf for every link.

Most plan families validate what they stage and need no argument. The ones
that do not change only the exceptions or the focus, and for these it is
argued here that such a change keeps a valid world valid. A commit adopts the
staged world, and the calls outside the transaction (relocation, work areas,
convergence) validate their own result or change nothing the rules read.

The invariant has to speak of both worlds, or the commit would not preserve
it. `WorldsOk.step` goes by the classification of calls (`Step`), one case
for each kind of answer rather than one for each of the thirty calls, and
`reachable_worldsOk` is the run.
-/

namespace PlasmaTiler

/-! ## Small changes of a valid world -/

section
variable {domains : List OutputDomain} {trees : Trees} {windows : Links} {exceptions : Exceptions}
  {focusedDomain newDomain : Option DomainKey} {focusedLeaf newLeaf : Option NodeId}
  {window : WindowId} {record : ExceptionRecord}

theorem WorldOk.withFocus
    (h : WorldOk domains trees windows exceptions focusedDomain focusedLeaf)
    (hfocus : validFocus trees windows newDomain newLeaf = true) :
    WorldOk domains trees windows exceptions newDomain newLeaf :=
  { h with focus := hfocus }

theorem WorldOk.eraseException
    (h : WorldOk domains trees windows exceptions focusedDomain focusedLeaf) :
    WorldOk domains trees windows (exceptions.erase window) focusedDomain focusedLeaf :=
  { h with
    disjoint := fun hw hmem => h.disjoint hw (Std.ExtTreeMap.mem_of_mem_erase hmem)
    exception_valid := fun {w r} hr => by
      rw [lookup_erase] at hr
      split at hr
      · cases hr
      · exact h.exception_valid hr }

theorem WorldOk.insertException
    (h : WorldOk domains trees windows exceptions focusedDomain focusedLeaf)
    (hwindow : window ∉ windows) (hrecord : validException domains record = true) :
    WorldOk domains trees windows (exceptions.insert window record) focusedDomain focusedLeaf :=
  { h with
    disjoint := fun {w} hw hmem => by
      rcases Std.ExtTreeMap.mem_insert.mp hmem with heq | hmem
      · exact hwindow (Std.LawfulEqOrd.compare_eq_iff_eq.mp heq ▸ hw)
      · exact h.disjoint hw hmem
    exception_valid := fun {w r} hr => by
      rw [lookup_insert] at hr
      split at hr
      · exact Option.some.inj hr ▸ hrecord
      · exact h.exception_valid hr }

end

namespace Session

section
variable {s : Session} {desired : PendingDesired} {observed : SessionObservation}
  {window : WindowId} {staging : Staging LifecyclePlan}

/-! ## What is staged is valid -/

theorem validException_of {r : ExceptionRecord}
    (hids : (!r.window.isEmpty && !r.output.isEmpty && !r.workspace.isEmpty) = true)
    (hdomain : (s.domainFor r.output r.workspace).isSome = true) :
    validException s.domains r = true := by
  obtain ⟨d, hd, hid, hworkspace⟩ := domainFor_isSome.mp hdomain
  simp only [validException, hids, Bool.true_and, List.any_eq_true, Bool.and_eq_true, beq_iff_eq]
  exact ⟨d, hd, hid, hworkspace⟩

theorem planAdmit_valid {c : AdmitCommand} (hs : s.Valid)
    (hids : (!c.window.isEmpty && !c.output.isEmpty && !c.workspace.isEmpty) = true)
    (hdomain : (s.domainFor c.output c.workspace).isSome = true)
    (h : s.planAdmit c observed = .ok staging) : s.ValidDesired staging.desired := by
  obtain ⟨⟨hwindow, -⟩, ⟨flags, automatic, hdeferred⟩ | htiled⟩ := planAdmit_ok h
  · rw [hdeferred]
    exact hs.insertException hwindow (validException_of hids hdomain)
  · exact htiled.valid

theorem removeDeferred_valid {record : ExceptionRecord} (hs : s.Valid) :
    s.ValidDesired (s.removeDeferred window record).desired := by
  have hfocus := hs.focus
  simp only [removeDeferred, hfocus, if_true]
  exact hs.eraseException

theorem planRemove_valid (hs : s.Valid)
    (h : s.planRemove window observed = .ok staging) : s.ValidDesired staging.desired := by
  rcases planRemove_cases h with ⟨record, -, -, rfl⟩ | ⟨link, -, -, htiled⟩
  · exact removeDeferred_valid hs
  · exact (planRemoveTiled_ok htiled).2

theorem float_valid {rect : Option Rect} {target : ObservedWindow} {effective : Rect}
    (hwindow : (!window.isEmpty) = true)
    (hshapes : validObservedShapes observed.windows = true)
    (hhomed : s.observedHomed observed.windows = true)
    (hfloat : s.planFloat window rect observed = .ok (target, effective))
    (h : s.planRemove window observed = .ok staging) :
    s.ValidDesired (staging.desired.floated target window effective) := by
  obtain ⟨htarget, htiled⟩ := planFloat_ok hfloat
  have hmem := List.mem_of_find?_eq_some htarget
  have hids := List.all_eq_true.mp (Bool.and_eq_true_iff.mp hshapes).1 target hmem
  have hhome := List.all_eq_true.mp hhomed target hmem
  simp only [Bool.and_eq_true] at hids
  have hrecord : validException s.domains
      ⟨window, target.output, target.workspace, .plainFloat, some effective⟩ = true :=
    validException_of (by rw [hwindow, hids.1.2, hids.2]; rfl) hhome
  rcases planRemove_cases h with ⟨record, -, hnone, -⟩ | ⟨link, -, -, hremove⟩
  · rw [Std.ExtTreeMap.contains_iff_mem, mem_iff_lookup, hnone] at htiled
    obtain ⟨_, hsome⟩ := htiled
    cases hsome
  · obtain ⟨hdesired, hvalid⟩ := planRemoveTiled_ok hremove
    have hgone : window ∉ s.windows.erase window := by
      rw [mem_iff_lookup, lookup_erase, if_pos rfl]
      exact nofun
    refine WorldOk.insertException hvalid ?_ hrecord
    rw [hdesired]
    exact hgone

theorem refocused_valid {key : DomainKey} {leaf : NodeId} (hs : s.Valid)
    (hfocus : validFocus s.trees s.windows (some key) (some leaf) = true) :
    s.ValidDesired (s.refocused key leaf) :=
  hs.withFocus hfocus

/-- Over a valid session every plan stages a valid world. -/
theorem Stages.valid {revision : Nat} (hs : s.Valid) (h : Stages s revision desired) :
    s.ValidDesired desired := by
  cases h with
  | admission hshape hdomain _ h => exact planAdmit_valid hs hshape hdomain h
  | remove h => exact planRemove_valid hs h
  | float hwindow hshapes hhomed hfloat h => exact float_valid hwindow hshapes hhomed hfloat h
  | toggleOrientation h =>
    obtain ⟨_, _, _, _, _, -, -, -, -, -, hvalid⟩ := planToggleOrientation_ok h
    exact hvalid
  | send _ h => exact (planSend_ok h).valid
  | fittedAdmit h =>
    obtain ⟨_, -, -, -, -, hvalid⟩ := planFittedAdmit_ok h
    exact hvalid
  | move _ h =>
    obtain ⟨_, _, _, -, -, -, -, -, -, hvalid⟩ := planMoveWithSameAxis_ok h
    exact hvalid
  | focus h =>
    obtain ⟨leaf, hdesired, hfocus⟩ := planFocusIn_ok hs h
    exact hdesired ▸ refocused_valid hs hfocus
  | crossOutputFocus h =>
    obtain ⟨key, leaf, hdesired, hfocus⟩ := planCrossOutputFocus_ok h
    exact hdesired ▸ refocused_valid hs hfocus
  | resize h => exact (planKeyboardResize_ok h).valid
  | pointerResize h => exact (planPointerResize_ok h).valid
  | pointerResizeCorner h => exact (planPointerResizeCorner_ok h).valid
  | drop hdrag h => exact (planDrop_ok hdrag h).valid

/-- The copy an unfloat plans on is valid as well. -/
theorem Basis.valid {p : Proposal} {basis : Session} (hs : s.Valid) (h : Basis s p basis) :
    basis.Valid ∧ basis.domains = s.domains := by
  cases h with
  | self _ => exact ⟨hs, rfl⟩
  | unfloated _ _ hplan =>
    obtain ⟨-, -, -, -, -, rfl, -⟩ := planUnfloat_ok hplan
    exact ⟨hs.eraseException, rfl⟩

/-! ## New sessions -/

theorem lookup_slots {domains : List OutputDomain} {trees : Trees} {key : DomainKey} :
    (domains.foldl (fun (trees : Trees) d => trees.insert d.key none) trees)[key]? =
      if key ∈ domains.map OutputDomain.key then some none else trees[key]? := by
  induction domains generalizing trees with
  | nil => simp
  | cons d domains ih =>
    rw [List.foldl_cons, ih, lookup_insert, List.map_cons]
    by_cases hkey : d.key = key
    · simp [hkey]
    · simp [hkey, Ne.symm hkey]

theorem size_slots {domains : List OutputDomain} {trees : Trees}
    (hnodup : (domains.map OutputDomain.key).Nodup) (hfresh : ∀ d ∈ domains, d.key ∉ trees) :
    (domains.foldl (fun (trees : Trees) d => trees.insert d.key none) trees).size =
      trees.size + domains.length := by
  induction domains generalizing trees with
  | nil => rfl
  | cons d domains ih =>
    rw [List.map_cons, List.nodup_cons] at hnodup
    have hrest : ∀ e ∈ domains, e.key ∉ trees.insert d.key none := by
      intro e he hmem
      rcases Std.ExtTreeMap.mem_insert.mp hmem with heq | hmem
      · have hkey := Std.LawfulEqOrd.compare_eq_iff_eq.mp heq
        exact hnodup.1 (hkey ▸ List.mem_map_of_mem he)
      · exact hfresh e (List.mem_cons_of_mem _ he) hmem
    rw [List.foldl_cons, ih hnodup.2 hrest, Std.ExtTreeMap.size_insert,
      contains_eq_false.mpr (hfresh d List.mem_cons_self), if_neg (by simp), List.length_cons]
    omega

theorem Blank.valid (h : Blank s) : s.Valid := by
  have hslot : ∀ key, s.trees[key]? =
      if key ∈ s.domains.map OutputDomain.key then some none else none := by
    intro key
    rw [h.trees, lookup_slots]
    simp
  have hnone : ∀ {key tree}, treeAt s.trees key ≠ some tree := by
    intro key tree htree
    rw [treeAt_eq_some, hslot key] at htree
    split at htree <;> cases htree
  have hnoLink : ∀ {w : WindowId} {l : WindowLink}, s.windows[w]? ≠ some l := by
    simp [h.windows]
  have hnoRecord : ∀ {w : WindowId} {r : ExceptionRecord}, s.exceptions[w]? ≠ some r := by
    simp [h.exceptions]
  exact {
    domains_ne := h.domains_ne
    slot_count := by
      rw [h.trees, size_slots h.keys_nodup (by simp)]
      simp
    domain_valid := h.domain_valid
    slot_of_domain := fun d hd => mem_iff_lookup.mpr
      ⟨none, by rw [hslot, if_pos (List.mem_map_of_mem hd)]⟩
    domain_of_slot := fun key hkey => by
      obtain ⟨value, hvalue⟩ := mem_iff_lookup.mp hkey
      rw [hslot] at hvalue
      split at hvalue
      · rename_i hmem
        obtain ⟨d, hd, hdkey⟩ := List.mem_map.mp hmem
        exact ⟨d, hd, hdkey⟩
      · cases hvalue
    tree_ok := fun htree => absurd htree hnone
    disjoint := fun {w} hw => by simp [h.windows] at hw
    exception_valid := fun hr => absurd hr hnoRecord
    link_valid := fun hl => absurd hl hnoLink
    leaf_inj := fun hl => absurd hl hnoLink
    leaf_linked := fun htree => absurd htree hnone
    focus := by rw [h.focusedDomain, h.focusedLeaf]; rfl }

/-! ## Every reachable session -/

/-- The accepted world is valid, and so is the one a pending plan stages,
which a commit would accept without another check. -/
structure WorldsOk (s : Session) : Prop where
  accepted : s.Valid
  desired : ∀ desired, s.pendingDesired = some desired → s.ValidDesired desired

/-- Every call keeps both worlds valid. -/
theorem WorldsOk.step {s' : Session} (h : s.WorldsOk) (hstep : Step s s') : s'.WorldsOk := by
  have hsettled : s.settledWorld = true → s.pendingDesired = none := fun hsettled =>
    (settledWorld_iff.mp hsettled).2.2.1
  cases hstep with
  | same | withDrag _ | acked _ _ | bare _ _ _ | settings => exact ⟨h.accepted, h.desired⟩
  | cleared _ | halted _ | cancelled _ => exact ⟨h.accepted, nofun⟩
  | staged hbasis hstages _ _ =>
    obtain ⟨hbasisValid, -⟩ := Basis.valid h.accepted hbasis
    refine ⟨hbasisValid, fun desired hdesired => ?_⟩
    cases hdesired
    have hvalid := hstages.valid hbasisValid
    exact hvalid
  | committed _ _ hdesired _ => exact ⟨h.desired _ hdesired, nofun⟩
  | refocused hworld hplan hchanged =>
    obtain ⟨htrees, hwindows, hexceptions, -, -⟩ := convergenceChanged_eq_false.mp hchanged
    have hvalid := (planConvergence_ok hplan).valid
    rw [htrees, hwindows, hexceptions] at hvalid
    exact ⟨hvalid, fun desired hdesired => h.desired desired hdesired⟩
  | converged hworld _ hplan =>
    refine ⟨(planConvergence_ok hplan).valid, fun desired hdesired => ?_⟩
    exact h.desired desired hdesired
  | gaps hworld hvalid | relocated hworld _ _ _ hvalid =>
    refine ⟨validateCurrentTopology_iff.mp hvalid, fun desired hdesired => ?_⟩
    exact absurd ((hsettled hworld).symm.trans hdesired) nofun
  | synced _ _ _ hlink hleaf =>
    obtain ⟨w, hw⟩ := mem_values.mp hlink
    exact ⟨h.accepted.withFocus (validFocus_of_link h.accepted hw), h.desired⟩

theorem worldsOk_invariant : machine.Invariant WorldsOk where
  initial s hs := ⟨hs.blank.valid, fun desired h => by
    rw [hs.blank.desired] at h
    cases h⟩
  preserved _ op h := h.step (next_step op)

/-- In every reachable session the topology check accepts the accepted world
and the desired world of a pending plan; both are valid, rule by rule. -/
theorem reachable_worldsOk (h : Reachable s) :
    (s.validateCurrentTopology = true ∧ s.Valid) ∧
      ∀ desired, s.pendingDesired = some desired →
        validateTopology s.domains desired.trees desired.windows desired.exceptions
          desired.focusedDomain desired.focusedLeaf = true ∧ s.ValidDesired desired := by
  have hworlds := worldsOk_invariant.reachable h
  refine ⟨⟨validateCurrentTopology_iff.mpr hworlds.accepted, hworlds.accepted⟩,
    fun desired hdesired => ?_⟩
  have hvalid := hworlds.desired desired hdesired
  exact ⟨validateTopology_iff.mpr hvalid, hvalid⟩

/-- A pending admission beside other windows. -/
theorem worldsOk_admission :
    let s := Session.machine.run Sample.stocked [.propose Sample.admission]
    s.Valid ∧ ∃ desired, s.pendingDesired = some desired ∧ s.ValidDesired desired ∧
      desired.focusedLeaf = some ⟨"leaf-w"⟩ := by
  intro s
  have hreached : Reachable s := Machine.Reachable.run (Sample.session_reachable _ _) _
  obtain ⟨hvalid, hdesired⟩ := reachable_worldsOk hreached
  have hstaged : s.pendingDesired.any (fun desired => desired.focusedLeaf == some ⟨"leaf-w"⟩) =
      true := by decide +kernel
  obtain ⟨desired, hsome, hfocus⟩ := (Option.any_eq_true _ _).mp hstaged
  exact ⟨hvalid.2, desired, hsome, (hdesired desired hsome).2, beq_iff_eq.mp hfocus⟩

end

end Session

end PlasmaTiler
