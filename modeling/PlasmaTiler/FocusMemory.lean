import PlasmaTiler.Agreed
import PlasmaTiler.FocusStacks

/-!
# What is remembered of the focus

Two invariants of a session's memory. Last active leaves may be gone, but the
domains they are remembered for are the session's. And over a single domain a
session without focus remembers no leaf at all: a focus is given up only when
the stack of its domain is exhausted.

The second is needed for pairs. A pair has one focus, and a half without it
takes the top of its stack; had a session given up its focus while there was
something on the stack, it would come back from a pair focused.
-/

namespace PlasmaTiler

namespace Session

section
variable {s s' : Session} {trees : Trees} {windows : Links} {exceptions : Exceptions}
  {domains : List OutputDomain} {focusDomain : Option DomainKey} {focusLeaf : Option NodeId}
  {key : DomainKey} {leaf : NodeId} {desired : PendingDesired} {revision : Nat} {window : WindowId}
  {observed : SessionObservation}

/-! ## Last active leaves -/

/-- Leaves are remembered for known domains. -/
def ActiveAt (domains : List OutputDomain) (lastActive : BTreeMap DomainKey NodeId) : Prop :=
  ∀ ⦃key : DomainKey⦄ ⦃leaf : NodeId⦄, lastActive[key]? = some leaf → ∃ d ∈ domains, d.key = key

/-- A focus that resolves is in a known domain. -/
theorem domain_of_focus (hw : WorldOk domains trees windows exceptions focusDomain focusLeaf)
    (h : validFocus trees windows (some key) (some leaf) = true) : ∃ d ∈ domains, d.key = key := by
  obtain ⟨n, hn, -⟩ := hasLeaf_iff.mp (validFocus_some.mp h).1
  exact hw.domain_of_slot key (mem_of_treeAt hn)

theorem ActiveAt.updated {d : Option DomainKey} {l : Option NodeId}
    (h : ActiveAt s.domains s.lastActive)
    (hw : WorldOk s.domains trees windows exceptions focusDomain focusLeaf) :
    ActiveAt s.domains (s.updatedLastActive d l trees windows) := by
  intro key leaf hlookup
  unfold updatedLastActive at hlookup
  split at hlookup
  · split at hlookup
    · rename_i hvalid
      rw [lookup_insert] at hlookup
      split at hlookup
      · rename_i heq
        exact heq ▸ domain_of_focus hw hvalid
      · exact h hlookup
    · exact h hlookup
  · exact h hlookup

theorem planAdmit_active {c : AdmitCommand} {staging : Staging LifecyclePlan}
    (h : ActiveAt s.domains s.lastActive) (hplan : s.planAdmit c observed = .ok staging) :
    ActiveAt s.domains staging.desired.lastActive := by
  simp only [planAdmit, bind_eq_ok, refuseUnless, ensure_eq_ok, okOr_eq_ok] at hplan
  obtain ⟨_, -, _, -, entry, -, _, -, _, -, _, -, _, -, _, -, hplan⟩ := hplan
  split at hplan
  · simp only [planAdmitDeferred, bind_eq_ok, refuseUnless, ensure_eq_ok, pure_eq_ok] at hplan
    obtain ⟨_, -, rfl⟩ := hplan
    exact h
  · split at hplan
    · cases hplan
      exact h
    · have hvalid := (planAdmitTiled_ok hplan).valid
      simp only [planAdmitTiled, bind_eq_ok, refuseUnless, ensure_eq_ok, pure_eq_ok] at hplan
      obtain ⟨_, -, _, -, _, -, _, -, _, -, rfl⟩ := hplan
      exact h.updated hvalid

theorem planRemove_active {staging : Staging LifecyclePlan} (hs : s.Valid)
    (h : ActiveAt s.domains s.lastActive) (hplan : s.planRemove window observed = .ok staging) :
    ActiveAt s.domains staging.desired.lastActive := by
  rcases planRemove_cases hplan with ⟨record, -, -, rfl⟩ | ⟨link, -, -, htiled⟩
  · exact h.updated hs
  · obtain ⟨hdesired, hvalid⟩ := planRemoveTiled_ok htiled
    rw [hdesired] at hvalid ⊢
    exact h.updated hvalid

/-- A plan remembers last-active leaves for known domains only, as the session
did: what it adds is the focus it sets. -/
theorem Stages.active (hs : s.Valid) (h : ActiveAt s.domains s.lastActive)
    (hstages : Stages s revision desired) : ActiveAt s.domains desired.lastActive := by
  cases hstages with
  | admission _ _ _ hplan => exact planAdmit_active h hplan
  | remove hplan => exact planRemove_active hs h hplan
  | float _ _ _ _ hplan => exact planRemove_active hs h hplan
  | toggleOrientation hplan =>
    obtain ⟨_, _, _, _, _, -, -, -, -, hdesired, -⟩ := planToggleOrientation_ok hplan
    rw [hdesired]
    exact h.updated hs
  | send _ hplan =>
    have hsent := planSend_ok hplan
    rw [hsent.lastActive]
    exact h.updated hsent.valid
  | fittedAdmit hplan =>
    obtain ⟨_, -, -, -, hdesired, hvalid⟩ := planFittedAdmit_ok hplan
    rw [hdesired] at hvalid ⊢
    exact h.updated hvalid
  | move _ hplan =>
    obtain ⟨_, _, _, -, -, -, -, -, hdesired, hvalid⟩ := planMoveWithSameAxis_ok hplan
    rw [hdesired] at hvalid ⊢
    exact h.updated hvalid
  | focus hplan =>
    obtain ⟨_, hdesired, -⟩ := planFocusIn_ok hs hplan
    rw [hdesired]
    exact h.updated hs
  | crossOutputFocus hplan =>
    obtain ⟨_, _, hdesired, -⟩ := planCrossOutputFocus_ok hplan
    rw [hdesired]
    exact h.updated hs
  | resize hplan =>
    obtain ⟨_, _, _, _, -, -, -, -, hdesired⟩ := (planKeyboardResize_ok hplan).resized
    rw [hdesired]
    exact h
  | pointerResize hplan =>
    obtain ⟨_, _, _, _, -, -, -, -, hdesired⟩ := (planPointerResize_ok hplan).resized
    rw [hdesired]
    exact h
  | pointerResizeCorner hplan =>
    obtain ⟨_, _, _, _, -, -, -, -, hdesired⟩ := (planPointerResizeCorner_ok hplan).resized
    rw [hdesired]
    exact h
  | drop hdrag hplan =>
    obtain ⟨_, _, _, _, _, _, -, -, -, -, hdesired⟩ := (planDrop_ok hdrag hplan).dropped
    rw [hdesired]
    exact h

/-! ## Giving up the focus -/

/-- No leaf is left on any stack. -/
def Forgets (s : Session) (trees : Trees) (windows : Links) : Prop :=
  ∀ key, s.liveStack trees windows key = none

theorem forgets_of_empty (h : ∀ key : DomainKey, s.focusStack[key]? = none) :
    s.Forgets trees windows := by
  intro key
  rw [liveStack, h key]
  rfl

/-- The only domain there is. -/
theorem domain_unique (hone : s.domains.length = 1) {d e : OutputDomain} (hd : d ∈ s.domains)
    (he : e ∈ s.domains) : d = e := by
  obtain ⟨x, hx⟩ := List.length_eq_one_iff.mp hone
  rw [hx, List.mem_singleton] at hd he
  rw [hd, he]

/-- Over one domain nothing is left once its stack is exhausted. -/
theorem Stacked.forgets (h : s.Stacked) (hs : s.Valid) (hone : s.domains.length = 1)
    (hkey : ∃ d ∈ s.domains, d.key = key) (hnone : s.focusStackFallback key trees windows = none) :
    s.Forgets trees windows := by
  obtain ⟨d, hd, rfl⟩ := hkey
  intro k
  unfold liveStack
  cases hstack : s.focusStack[k]? with
  | none => rfl
  | some leaves =>
    -- a stack is never empty, so its domain is known
    obtain ⟨hnonempty, -, hlive⟩ := h.live hstack
    obtain ⟨x, hx⟩ := List.exists_mem_of_ne_nil leaves hnonempty
    obtain ⟨e, he, rfl⟩ := domain_of_focus hs (hlive x hx)
    obtain rfl := domain_unique hone hd he
    rw [focusStackFallback, hstack, Option.bind_some, List.find?_eq_none] at hnone
    have hkept : (leaves.filter fun leaf => validFocus trees windows (some d.key) (some leaf)) = [] := by
      rw [List.filter_eq_nil_iff]
      exact fun leaf hleaf => hnone leaf (List.mem_reverse.mpr hleaf)
    rw [Option.bind_some, hkept]
    rfl

/-- A focus survives the removal of another tile: its link is kept, and the
removal takes no leaf but the one it names out of the tree. -/
theorem validFocus_removed {link : WindowLink} (hs : s.Valid) (hlink : s.windows[window]? = some link)
    (hfocus : validFocus s.trees s.windows (some key) (some leaf) = true)
    (hother : ¬(leaf = link.leaf ∧ key = link.key)) :
    validFocus (s.removedWorld window link).trees (s.removedWorld window link).windows (some key)
      (some leaf) = true := by
  obtain ⟨htree, hlinked⟩ := validFocus_some.mp hfocus
  obtain ⟨n, hn, hleaf⟩ := hasLeaf_iff.mp htree
  obtain ⟨w, l, hl, rfl, rfl⟩ := linkedAt_iff.mp hlinked
  have hwindow : window ≠ w := by
    rintro rfl
    obtain rfl := Option.some.inj (hl.symm.trans hlink)
    exact hother ⟨rfl, rfl⟩
  have hkept : (s.removedWorld window link).windows[w]? = some l :=
    lookup_erase.trans ((if_neg hwindow).trans hl)
  refine validFocus_some.mpr ⟨hasLeaf_iff.mpr ?_, linkedAt_iff.mpr ⟨w, l, hkept, rfl, rfl⟩⟩
  by_cases hkey : link.key = l.key
  · have hne : l.leaf ≠ link.leaf := fun heq => hother ⟨heq, hkey.symm⟩
    have hleaves := (@removeLeafFromTree_leaves (treeAt s.trees link.key) link.leaf
      fun m hm => hs.tree_ok hm).1
    rw [hkey, hn, Option.map_some, Option.getD_some] at hleaves
    have hin : l.leaf ∈ n.leaves.filter (· ≠ link.leaf) :=
      List.mem_filter.mpr ⟨hleaf, by simpa using hne⟩
    rw [← hleaves] at hin
    cases hrest : removeLeafFromTree (some n) link.leaf with
    | none =>
      rw [hrest] at hin
      cases hin
    | some m =>
      rw [hrest] at hin
      refine ⟨m, ?_, hin⟩
      show treeAt (s.trees.insert link.key _) l.key = some m
      rw [treeAt_insert, if_pos hkey, hkey, hn, hrest]
  · refine ⟨n, ?_, hleaf⟩
    show treeAt (s.trees.insert link.key _) l.key = some n
    rw [treeAt_insert, if_neg hkey, hn]

theorem removedWorld_forgets {link : WindowLink} (h : s.Stacked) (hs : s.Valid)
    (hone : s.domains.length = 1)
    (hbefore : s.focusedDomain = none → ∀ key : DomainKey, s.focusStack[key]? = none)
    (hlink : s.windows[window]? = some link)
    (hnone : (s.removedWorld window link).focusedDomain = none) :
    s.Forgets (s.removedWorld window link).trees (s.removedWorld window link).windows := by
  have hfocus : (s.focusAfterRemoval link (s.removedWorld window link).trees
      (s.removedWorld window link).windows).1 = none := hnone
  unfold focusAfterRemoval at hfocus
  split at hfocus
  · split at hfocus
    · cases hfocus
    · rename_i hfallback
      exact h.forgets hs hone (domain_of_focus hs (validFocus_of_link hs hlink)) hfallback
  · rename_i hother
    rcases validFocus_cases hs.focus with ⟨hunfocused, -⟩ | ⟨d, leaf, hd, hleaf, hvalid⟩
    · exact forgets_of_empty (hbefore hunfocused)
    · have hstill := validFocus_removed hs hlink hvalid fun ⟨hl, hk⟩ => hother
        ⟨hleaf.trans (congrArg some hl), hd.trans (congrArg some hk)⟩
      rw [hd, hleaf, if_pos hstill] at hfocus
      cases hfocus

/-- Over one domain a plan gives up the focus only when nothing is left to be
focused: what takes a tile out falls back on the stack first. -/
theorem Stages.forgets (hs : s.Valid) (h : s.Stacked) (hone : s.domains.length = 1)
    (hbefore : s.focusedDomain = none → ∀ key : DomainKey, s.focusStack[key]? = none)
    (hstages : Stages s revision desired) (hnone : desired.focusedDomain = none) :
    s.Forgets desired.trees desired.windows := by
  have hremove : ∀ {window : WindowId} {observed : SessionObservation}
      {staging : Staging LifecyclePlan}, s.planRemove window observed = .ok staging →
      staging.desired.focusedDomain = none → s.Forgets staging.desired.trees staging.desired.windows := by
    intro window observed staging hplan hnone
    rcases planRemove_cases hplan with ⟨record, -, -, rfl⟩ | ⟨link, -, hlink, htiled⟩
    · simp only [removeDeferred, hs.focus, if_true] at hnone
      exact forgets_of_empty (hbefore hnone)
    · obtain ⟨hdesired, -⟩ := planRemoveTiled_ok htiled
      rw [hdesired] at hnone ⊢
      exact removedWorld_forgets h hs hone hbefore hlink hnone
  cases hstages with
  | admission _ _ _ hplan =>
    obtain ⟨-, ⟨_, _, hdeferred⟩ | htiled⟩ := planAdmit_ok hplan
    · rw [hdeferred] at hnone
      exact forgets_of_empty (hbefore hnone)
    · rw [htiled.focusedDomain] at hnone
      cases hnone
  | remove hplan => exact hremove hplan hnone
  | float _ _ _ _ hplan => exact hremove hplan hnone
  | toggleOrientation hplan =>
    obtain ⟨_, _, _, _, _, -, -, -, -, hdesired, -⟩ := planToggleOrientation_ok hplan
    rw [hdesired] at hnone
    cases hnone
  | send _ hplan =>
    -- a send needs a second domain
    obtain ⟨link, _, _, _, _, hlink, hne, hdomain, -⟩ := (planSend_ok hplan).moved
    obtain ⟨d, hd⟩ := Option.isSome_iff_exists.mp hdomain
    obtain ⟨hdmem, hdkey⟩ := domainAt_eq_some hd
    obtain ⟨e, he, hekey⟩ := domain_of_focus hs (validFocus_of_link hs hlink)
    obtain rfl := domain_unique hone hdmem he
    exact absurd (hekey.symm.trans hdkey) hne
  | fittedAdmit hplan =>
    obtain ⟨_, -, -, -, hdesired, -⟩ := planFittedAdmit_ok hplan
    rw [hdesired] at hnone
    cases hnone
  | move _ hplan =>
    obtain ⟨_, _, _, -, -, -, -, -, hdesired, -⟩ := planMoveWithSameAxis_ok hplan
    rw [hdesired] at hnone
    cases hnone
  | focus hplan =>
    obtain ⟨_, hdesired, -⟩ := planFocusIn_ok hs hplan
    rw [hdesired] at hnone
    cases hnone
  | crossOutputFocus hplan =>
    obtain ⟨_, _, hdesired, -⟩ := planCrossOutputFocus_ok hplan
    rw [hdesired] at hnone
    cases hnone
  | resize hplan =>
    obtain ⟨_, _, _, _, hdomain, -, -, -, hdesired⟩ := (planKeyboardResize_ok hplan).resized
    rw [hdesired] at hnone
    cases hnone
  | pointerResize hplan =>
    obtain ⟨_, _, _, _, hdomain, -, -, -, hdesired⟩ := (planPointerResize_ok hplan).resized
    rw [hdesired] at hnone
    cases hnone
  | pointerResizeCorner hplan =>
    obtain ⟨_, _, _, _, hdomain, -, -, -, hdesired⟩ := (planPointerResizeCorner_ok hplan).resized
    rw [hdesired] at hnone
    cases hnone
  | drop hdrag hplan =>
    obtain ⟨_, _, _, _, _, _, -, -, -, -, hdesired⟩ := (planDrop_ok hdrag hplan).dropped
    rw [hdesired] at hnone
    cases hnone

theorem convergedFocus_forgets {observedFocus : Option WindowId} (h : s.Stacked) (hs : s.Valid)
    (hone : s.domains.length = 1)
    (hbefore : s.focusedDomain = none → ∀ key : DomainKey, s.focusStack[key]? = none)
    (hnone : (s.convergedFocus observedFocus trees windows).1 = none) : s.Forgets trees windows := by
  unfold convergedFocus at hnone
  split at hnone
  · cases hnone
  · split at hnone
    · exact forgets_of_empty (hbefore hnone)
    · split at hnone
      · cases hnone
      · rename_i hfallback
        rcases validFocus_cases hs.focus with ⟨hunfocused, -⟩ | ⟨d, leaf, hd, -, hvalid⟩
        · exact forgets_of_empty (hbefore hunfocused)
        · rw [hd, Option.bind_some, Option.map_eq_none_iff] at hfallback
          exact h.forgets hs hone (domain_of_focus hs hvalid) hfallback

/-! ## Over a run -/

/-- What a session remembers, and what the plan it has staged will. Last
active leaves are of known domains; and over a single domain, without focus
nothing is left on a stack. -/
structure Remembers (s : Session) : Prop where
  active : ActiveAt s.domains s.lastActive
  unfocused : s.domains.length = 1 → s.focusedDomain = none →
    ∀ key : DomainKey, s.focusStack[key]? = none
  pending : ∀ desired, s.pendingDesired = some desired → s.hasPending = true ∧
    ActiveAt s.domains desired.lastActive ∧
      (s.domains.length = 1 → desired.focusedDomain = none → s.Forgets desired.trees desired.windows)

/-- A next world without focus, over what its plan leaves on the stacks. -/
theorem empty_of_forgets (hfocus : validFocus trees windows focusDomain focusLeaf = true)
    (hnone : focusDomain = none) (h : s.Forgets trees windows) (key : DomainKey) :
    (s.updatedFocusStack focusDomain focusLeaf trees windows)[key]? = none := by
  rcases validFocus_cases hfocus with ⟨rfl, rfl⟩ | ⟨d, leaf, rfl, -, -⟩
  · rw [updatedFocusStack_of_none]
    exact h key
  · cases hnone

theorem length_updateDomain {f : OutputDomain → OutputDomain} :
    (updateDomain domains key f).length = domains.length := by
  induction domains with
  | nil => rfl
  | cons d domains ih =>
    rw [updateDomain]
    split
    · rfl
    · rw [List.length_cons, List.length_cons, ih]

/-- The copy an unfloat plans on remembers the same. -/
theorem Basis.remembers {p : Proposal} {basis : Session} (hstacked : s.Stacked) (h : s.Remembers)
    (hbasis : Basis s p basis) : basis.Stacked ∧ ActiveAt basis.domains basis.lastActive ∧
      (basis.domains.length = 1 → basis.focusedDomain = none →
        ∀ key : DomainKey, basis.focusStack[key]? = none) := by
  cases hbasis with
  | self _ => exact ⟨hstacked, h.active, h.unfocused⟩
  | unfloated _ _ hplan =>
    obtain ⟨-, _, -, -, -, rfl, -⟩ := planUnfloat_ok hplan
    exact ⟨hstacked.congr rfl rfl rfl rfl rfl, h.active, h.unfocused⟩

/-- A domain takes its last active leaf along to another output. -/
theorem ActiveAt.relocated {source target : DomainKey} {bounds : Rect} {gap : Int}
    (h : ActiveAt s.domains s.lastActive) (hs : s.Valid) (htarget : target ∉ s.trees)
    (hnext : (s.relocated source target bounds gap).Valid) :
    ActiveAt (s.relocated source target bounds gap).domains
      (s.relocated source target bounds gap).lastActive := by
  have hslot : ∀ {key : DomainKey} {leaf : NodeId}, s.lastActive[key]? = some leaf → ∃ slot, s.trees[key]? = some slot := by
    intro key leaf hleaf
    obtain ⟨d, hd, rfl⟩ := h hleaf
    exact mem_iff_lookup.mp (hs.slot_of_domain d hd)
  have hfresh : s.lastActive[target]? = none := by
    rw [Option.eq_none_iff_forall_ne_some]
    intro leaf hleaf
    exact htarget (mem_iff_lookup.mpr (hslot hleaf))
  have htrees : ∀ key, (s.relocated source target bounds gap).trees[key]? =
      if target = key then s.trees[source]? else if source = key then none
      else s.trees[key]? := fun key => moveKey_lookup (Std.ExtTreeMap.getElem?_eq_none htarget)
  intro key leaf hleaf
  have hleaf : (moveKey s.lastActive source target)[key]? = some leaf := hleaf
  rw [moveKey_lookup hfresh] at hleaf
  refine hnext.domain_of_slot key (mem_iff_lookup.mpr ?_)
  rw [htrees]
  split at hleaf
  · rename_i heq
    rw [if_pos heq]
    exact hslot hleaf
  · rename_i hne
    split at hleaf
    · cases hleaf
    · rename_i hsource
      rw [if_neg hne, if_neg hsource]
      exact hslot hleaf

theorem relocated_forgotten {source target : DomainKey} {bounds : Rect} {gap : Int}
    (h : ∀ key : DomainKey, s.focusStack[key]? = none) (key : DomainKey) :
    (s.relocated source target bounds gap).focusStack[key]? = none := by
  have hlookup : (moveKey s.focusStack source target)[key]? = none := by
    rw [moveKey_lookup (h target), h source, h key, ite_self, ite_self]
  exact hlookup

theorem Remembers.step (h : s.Remembers) (hworlds : s.WorldsOk) (hstacked : s.Stacked)
    (hstep : Step s s') : s'.Remembers := by
  have hidle : s.settledWorld = true → ∀ desired, s.pendingDesired ≠ some desired := by
    intro hsettled desired hdesired
    rw [(settledWorld_iff.mp hsettled).2.2.1] at hdesired
    cases hdesired
  have hvalid := hworlds.accepted
  cases hstep with
  | same | withDrag _ | settings => exact ⟨h.active, h.unfocused, h.pending⟩
  | cleared _ | halted _ | cancelled _ => exact ⟨h.active, h.unfocused, nofun⟩
  | acked _ _ => exact ⟨h.active, h.unfocused, fun desired hdesired => ⟨rfl, (h.pending desired hdesired).2⟩⟩
  | bare _ _ hnone =>
    refine ⟨h.active, h.unfocused, fun desired hdesired => ?_⟩
    rw [show _ = none from hnone] at hdesired
    cases hdesired
  | staged hbasis hstages _ _ =>
    obtain ⟨hbasisValid, -⟩ := Basis.valid hvalid hbasis
    obtain ⟨hbasisStacked, hactive, hunfocused⟩ := Basis.remembers hstacked h hbasis
    have hactiveNext := hstages.active hbasisValid hactive
    have hforgets := fun hone => hstages.forgets hbasisValid hbasisStacked hone (hunfocused hone)
    refine ⟨hactive, hunfocused, fun desired hdesired => ?_⟩
    cases hdesired
    exact ⟨rfl, hactiveNext, hforgets⟩
  | committed _ _ hdesired hlast =>
    obtain ⟨-, hactive, hforgets⟩ := h.pending _ hdesired
    refine ⟨?_, fun hone hnone => ?_, nofun⟩
    · rcases hlast with rfl | rfl
      · exact hactive
      · exact h.active
    · exact empty_of_forgets (hworlds.desired _ hdesired).focus hnone (hforgets hone hnone)
  | refocused hsettled hplan hchanged =>
    obtain ⟨htrees, hwindows, -, -, -⟩ := convergenceChanged_eq_false.mp hchanged
    have hconverged := planConvergence_ok hplan
    have hfocus := hconverged.valid.focus
    have hwhere := hconverged.focus
    rw [htrees, hwindows] at hfocus hwhere
    refine ⟨h.active.updated hvalid, fun hone hnone => ?_,
      fun desired hdesired => absurd hdesired (hidle hsettled desired)⟩
    have hnone' : (s.convergedFocus _ s.trees s.windows).1 = none := hwhere ▸ hnone
    exact empty_of_forgets hfocus hnone
      (convergedFocus_forgets hstacked hvalid hone (h.unfocused hone) hnone')
  | converged hsettled _ hplan =>
    have hconverged := planConvergence_ok hplan
    refine ⟨h.active.updated hconverged.valid, fun hone hnone => ?_,
      fun desired hdesired => absurd hdesired (hidle hsettled desired)⟩
    have hnone' : (s.convergedFocus _ _ _).1 = none := (congrArg Prod.fst hconverged.focus).symm.trans hnone
    exact empty_of_forgets (s := s) hconverged.valid.focus hnone
      (convergedFocus_forgets hstacked hvalid hone (h.unfocused hone) hnone')
  | gaps hsettled hnext =>
    have hnext := validateCurrentTopology_iff.mp hnext
    refine ⟨fun key leaf hleaf => ?_, fun hone hnone => ?_,
      fun desired hdesired => absurd hdesired (hidle hsettled desired)⟩
    · obtain ⟨d, hd, rfl⟩ := h.active hleaf
      exact hnext.domain_of_slot _ (hvalid.slot_of_domain d hd)
    · exact h.unfocused (length_updateDomain.symm.trans hone) hnone
  | relocated hsettled _ htarget _ hnext =>
    exact ⟨h.active.relocated hvalid htarget (validateCurrentTopology_iff.mp hnext),
      fun hone hnone key => relocated_forgotten (h.unfocused (length_updateDomain.symm.trans hone)
        (Option.map_eq_none_iff.mp hnone)) key,
      fun desired hdesired => absurd hdesired (hidle hsettled desired)⟩
  | synced _ hpending _ _ _ =>
    refine ⟨h.active, nofun, fun desired hdesired => ?_⟩
    have hsome := (h.pending desired hdesired).1
    rw [hpending] at hsome
    cases hsome

theorem Blank.remembers (h : Blank s) : s.Remembers := by
  refine ⟨fun key leaf hleaf => ?_, fun _ _ key => ?_, fun desired hdesired => ?_⟩
  · rw [h.lastActive, Std.ExtTreeMap.getElem?_empty] at hleaf
    cases hleaf
  · rw [h.focusStack, Std.ExtTreeMap.getElem?_empty]
  · rw [h.desired] at hdesired
    cases hdesired

end

end Session

end PlasmaTiler
