import PlasmaTiler.Frames
import PlasmaTiler.SessionIds

/-!
# Accounting for the windows

No operation loses a window or makes one up. That is a statement about the
session: what it knows once the operation is committed, tiled or recorded as
an exception and in whatever domain, is what it knew before, with the window an
admission brings and without the one a removal names (`Session.balance`).

Two things have to be shown, and they are shown apart. The session's books are
balanced by the operation itself: the world that lands has the links and
exceptions of the old one but for the window that comes or goes
(`Plans.balanced`). The books agree with the screen: the operation was refused
unless the windows shown with it are the known ones, an admission's with the
one window more (`Plans.shown`). So what is known afterwards is also exactly
what was shown, less what was removed (`Proposal.accounted`), which is how the
engine uses it.

A fitted admission takes an empty session over, with all its windows at once;
it is the one operation that brings more than a window.
-/

namespace PlasmaTiler

/-- The observation of a proposal, with its windows. -/
def Proposal.observed : Proposal → SessionObservation
  | .command _ observed .. | .toggleOrientation _ observed .. | .fittedAdmit _ observed ..
  | .move _ _ _ observed .. | .focus _ _ _ observed .. | .crossOutputFocus _ _ _ observed ..
  | .floatCrossOutputFocus _ _ _ observed .. | .resize _ _ _ _ _ observed ..
  | .pointerResize _ _ _ _ observed .. | .pointerResizeCorner _ _ _ _ _ _ observed ..
  | .dropDrag _ _ observed .. => observed

/-- The windows a plan was shown, less the one it removes. -/
def Proposal.accounted : Proposal → BTreeSet WindowId
  | .command (.remove window) observed .. => (observedIds observed.windows).erase window
  | p => observedIds p.observed.windows

namespace Session

/-- The windows known before an operation, with those it brings and without
the one it removes. -/
def balance (s : Session) : Proposal → BTreeSet WindowId
  | .command (.admitWindow c) .. => s.knownWindows.insert c.window
  | .command (.remove window) .. => s.knownWindows.erase window
  | .fittedAdmit f .. => s.knownWindows.insertMany (f.links.map WindowLink.window)
  | _ => s.knownWindows

variable {s s' : Session} {p : Proposal} {desired : PendingDesired} {window w : WindowId}
  {observed : SessionObservation}

/-! ## Known windows -/

theorem mem_knownWindows : w ∈ s.knownWindows ↔ s.isKnown w = true := by
  simp only [knownWindows, isKnown, Std.ExtTreeSet.mem_ofList, List.contains_eq_mem,
    List.mem_append, Std.ExtTreeMap.mem_keys, decide_eq_true_eq, Bool.or_eq_true,
    Std.ExtTreeMap.contains_iff_mem]

theorem knownWindows_congr (h : ∀ w, s'.isKnown w = s.isKnown w) :
    s'.knownWindows = s.knownWindows :=
  Std.ExtTreeSet.ext_mem fun w => by rw [mem_knownWindows, mem_knownWindows, h]

theorem KeepsWindows.known (h : s.KeepsWindows s') : s'.knownWindows = s.knownWindows :=
  knownWindows_congr fun w => by rw [isKnown, isKnown, h.windows, h.exceptions]

/-- A window that changes its domain stays known. -/
theorem KeepsMembership.known (h : s.KeepsMembership s' window) :
    s'.knownWindows = s.knownWindows := by
  refine knownWindows_congr fun w => ?_
  have hleaf := h.leaves w
  have hwindows : s'.windows.contains w = s.windows.contains w := by
    rw [Std.ExtTreeMap.contains_eq_isSome_getElem?, Std.ExtTreeMap.contains_eq_isSome_getElem?,
      ← Option.isSome_map (f := WindowLink.leaf), hleaf, Option.isSome_map]
  rw [isKnown, isKnown, hwindows, h.exceptions]

theorem KeepsOthers.known (h : s.KeepsOthers s' window) (hne : w ≠ window) :
    s'.isKnown w = s.isKnown w := by
  rw [isKnown, isKnown, Std.ExtTreeMap.contains_eq_isSome_getElem?,
    Std.ExtTreeMap.contains_eq_isSome_getElem?, Std.ExtTreeMap.contains_eq_isSome_getElem?,
    Std.ExtTreeMap.contains_eq_isSome_getElem?, h.links w hne, h.records w hne]

theorem KeepsOthers.known_insert (h : s.KeepsOthers s' window) (hknown : s'.isKnown window = true) :
    s'.knownWindows = s.knownWindows.insert window := by
  refine Std.ExtTreeSet.ext_mem fun w => ?_
  rw [mem_set_insert, mem_knownWindows, mem_knownWindows]
  by_cases hw : window = w
  · rw [← hw]
    exact iff_of_true hknown (.inl rfl)
  · rw [h.known (Ne.symm hw)]
    exact ⟨.inr, fun h => h.resolve_left hw⟩

theorem KeepsOthers.known_erase (h : s.KeepsOthers s' window)
    (hunknown : s'.isKnown window = false) : s'.knownWindows = s.knownWindows.erase window := by
  refine Std.ExtTreeSet.ext_mem fun w => ?_
  rw [mem_set_erase, mem_knownWindows, mem_knownWindows]
  by_cases hw : window = w
  · rw [← hw, hunknown]
    exact iff_of_false Bool.false_ne_true fun h => h.1 rfl
  · rw [h.known (Ne.symm hw)]
    exact ⟨fun h => ⟨hw, h⟩, And.right⟩

/-! ## What a plan is shown -/

theorem checkComplete_ok {windows : List ObservedWindow} {u : Unit}
    (h : s.checkComplete windows = .ok u) : observedIds windows = s.knownWindows := by
  simp only [checkComplete, bind_eq_ok, refuseUnless, ensure_eq_ok, decide_eq_true_eq] at h
  obtain ⟨_, hcomplete, -⟩ := h
  exact hcomplete

theorem planAdmit_shown {c : AdmitCommand} {staging : Staging LifecyclePlan}
    (h : s.planAdmit c observed = .ok staging) :
    observedIds observed.windows = s.knownWindows.insert c.window := by
  simp only [planAdmit, bind_eq_ok, refuseUnless, ensure_eq_ok, decide_eq_true_eq] at h
  obtain ⟨_, -, _, hcomplete, -⟩ := h
  exact hcomplete

theorem planRemove_shown {staging : Staging LifecyclePlan}
    (h : s.planRemove window observed = .ok staging) :
    observedIds observed.windows = s.knownWindows := by
  simp only [planRemove, bind_eq_ok] at h
  obtain ⟨_, -, _, -, _, hcomplete, -⟩ := h
  exact checkComplete_ok hcomplete

/-- Only flags of the window are settled, so the same windows are shown. -/
theorem observedIds_settled : observedIds (observed.settled window).windows =
    observedIds observed.windows := by
  have hsame : (observed.settled window).windows.map ObservedWindow.window =
      observed.windows.map ObservedWindow.window := by
    rw [SessionObservation.settled, List.map_map]
    refine List.map_congr_left fun entry _ => ?_
    rw [Function.comp]
    split
    · rfl
    · rfl
  rw [observedIds, observedIds, hsame]

/-- An unfloat admits the window to a copy that does not know it. -/
theorem planUnfloat_shown {rect : Option Rect} {record : ExceptionRecord} {candidate : Session}
    {c : AdmitCommand} {staging : Staging LifecyclePlan}
    (hrecord : s.exceptions[window]? = some record)
    (hplan : s.planUnfloat window record rect observed = .ok (candidate, c))
    (h : candidate.planAdmit c (observed.settled window) = .ok staging) :
    observedIds observed.windows = s.knownWindows := by
  obtain ⟨_, retained, -, -, -, rfl, hwindow, -⟩ := planUnfloat_ok hplan
  rw [← @observedIds_settled window, planAdmit_shown h, hwindow]
  refine Std.ExtTreeSet.ext_mem fun w => ?_
  rw [mem_set_insert, mem_knownWindows, mem_knownWindows, isKnown_iff, isKnown_iff]
  have hexceptions : w ∈ (s.unfloated window retained).exceptions ↔
      window ≠ w ∧ w ∈ s.exceptions := by
    have herased : (s.unfloated window retained).exceptions = s.exceptions.erase window := rfl
    rw [herased, Std.ExtTreeMap.mem_erase, ne_eq, Std.LawfulEqOrd.compare_eq_iff_eq]
  have hwindows : (s.unfloated window retained).windows = s.windows := rfl
  rw [hexceptions, hwindows]
  by_cases hw : window = w
  · rw [← hw]
    exact iff_of_true (.inl rfl) (.inr (mem_iff_lookup.mpr ⟨record, hrecord⟩))
  · simp only [hw, false_or, ne_eq, not_false_eq_true, true_and]

theorem checkFocusRequest_shown {domain : DomainKey} {windows : List ObservedWindow} {u : Unit}
    (h : s.checkFocusRequest domain window windows = .ok u) :
    observedIds windows = s.knownWindows := by
  simp only [checkFocusRequest, bind_eq_ok] at h
  obtain ⟨_, -, _, -, _, -, _, -, _, hcomplete, -⟩ := h
  exact checkComplete_ok hcomplete

theorem checkPointerRequest_shown {domain : DomainKey} {windows : List ObservedWindow}
    {capabilities : ResizeCapabilities} {request : PointerRequest}
    (h : s.checkPointerRequest domain window windows capabilities = .ok request) :
    observedIds windows = s.knownWindows := by
  simp only [checkPointerRequest, bind_eq_ok, refuseUnless, ensure_eq_ok, decide_eq_true_eq] at h
  obtain ⟨_, -, _, -, _, -, _, -, _, hcomplete, -⟩ := h
  exact hcomplete

/-! ## Fitted admissions -/

/-- The links collected are those of the list. -/
theorem mem_fittedLinks {key : DomainKey} {links : List WindowLink} {windows fitted : Links}
    (h : fittedLinks key links windows = .ok fitted) :
    w ∈ fitted ↔ w ∈ windows ∨ w ∈ links.map WindowLink.window := by
  induction links generalizing windows with
  | nil =>
    cases h
    simp only [List.map_nil, List.not_mem_nil, or_false]
  | cons link links ih =>
    simp only [fittedLinks, bind_eq_ok] at h
    obtain ⟨_, -, _, -, _, -, h⟩ := h
    rw [ih h, List.map_cons, List.mem_cons, Std.ExtTreeMap.mem_insert, Std.LawfulEqOrd.compare_eq_iff_eq]
    constructor
    · rintro ((heq | hw) | hw)
      · exact .inr (.inl heq.symm)
      · exact .inl hw
      · exact .inr (.inr hw)
    · rintro (hw | heq | hw)
      · exact .inl (.inr hw)
      · exact .inl (.inl heq.symm)
      · exact .inr hw

theorem planFittedAdmit_unknown {f : FittedAdmit} {staging : Staging LifecyclePlan}
    (h : s.planFittedAdmit f observed = .ok staging) : w ∉ s.knownWindows := by
  obtain ⟨_, -, -, hexceptions, -⟩ := planFittedAdmit_ok h
  rw [mem_knownWindows, isKnown_iff, mem_iff_lookup, mem_iff_lookup]
  rintro (⟨link, hlink⟩ | ⟨record, hrecord⟩)
  · rw [isEmpty_iff_lookup.mp (planFittedAdmit_empty h) w] at hlink
    cases hlink
  · rw [isEmpty_iff_lookup.mp hexceptions w] at hrecord
    cases hrecord

theorem planFittedAdmit_balanced {f : FittedAdmit} {staging : Staging LifecyclePlan}
    (h : s.planFittedAdmit f observed = .ok staging) (hlands : s.Lands staging.desired s') :
    s'.knownWindows = s.knownWindows.insertMany (f.links.map WindowLink.window) := by
  obtain ⟨fitted, -, hfitted, hexceptions, hdesired, -⟩ := planFittedAdmit_ok h
  refine Std.ExtTreeSet.ext_mem fun w => ?_
  rw [Std.ExtTreeSet.mem_insertMany_list, List.contains_iff_mem, mem_knownWindows, isKnown_iff,
    hlands.windows, hlands.exceptions, hdesired]
  have hnone : w ∉ s.exceptions := by
    rw [mem_iff_lookup]
    rintro ⟨record, hrecord⟩
    rw [isEmpty_iff_lookup.mp hexceptions w] at hrecord
    cases hrecord
  have hlinks : w ∈ fitted ↔ w ∈ f.links.map WindowLink.window := by
    rw [mem_fittedLinks hfitted]
    exact or_iff_right Std.ExtTreeMap.not_mem_empty
  rw [or_iff_right (planFittedAdmit_unknown h), ← hlinks]
  exact or_iff_left hnone

/-- A fit is shown the windows it links. -/
theorem planFittedAdmit_shown {f : FittedAdmit} {staging : Staging LifecyclePlan}
    (h : s.planFittedAdmit f observed = .ok staging) : observedIds observed.windows =
      s.knownWindows.insertMany (f.links.map WindowLink.window) := by
  have hunknown : ∀ w, w ∉ s.knownWindows := fun w => planFittedAdmit_unknown h
  simp only [planFittedAdmit, bind_eq_ok, refuseUnless, ensure_eq_ok, decide_eq_true_eq] at h
  obtain ⟨_, -, _, -, _, -, _, -, _, -, _, -, _, -, _, -, windows, hlinks, _, -, _, -, _,
    hcomplete, -⟩ := h
  rw [hcomplete]
  refine Std.ExtTreeSet.ext_mem fun w => ?_
  rw [Std.ExtTreeSet.mem_insertMany_list, List.contains_iff_mem, or_iff_right (hunknown w),
    Std.ExtTreeSet.mem_ofList, List.contains_iff_mem, Std.ExtTreeMap.mem_keys,
    mem_fittedLinks hlinks]
  exact or_iff_right Std.ExtTreeMap.not_mem_empty

/-! ## Balances -/

/-- A window that is floated or unfloated stays known. -/
theorem toggled_known (h : s.KeepsOthers s' window)
    (hwindows : s'.windows.contains window = s.exceptions.contains window)
    (hexceptions : s'.exceptions.contains window = s.windows.contains window) :
    s'.knownWindows = s.knownWindows := by
  refine knownWindows_congr fun w => ?_
  by_cases hw : w = window
  · rw [hw, isKnown, isKnown, hwindows, hexceptions, Bool.or_comm]
  · exact h.known hw

/-- Whatever is planned, its commit leaves the windows known that were known,
more by those it brings and less by one it removes. -/
theorem Plans.balanced (hs : s.Valid) (hkeyed : Keyed s.windows) (h : s.Plans p desired)
    (hlands : s.Lands desired s') : s'.knownWindows = s.balance p := by
  have hkeeps := h.keeps hs hkeyed hlands
  cases h with
  | admits h =>
    obtain ⟨hothers, -, hknown⟩ := hkeeps
    exact hothers.known_insert hknown
  | remove h =>
    obtain ⟨hothers, -, hunknown⟩ := hkeeps
    exact hothers.known_erase hunknown
  | unfloat _ _ h | float _ _ h =>
    obtain ⟨hothers, -, hwindows, hexceptions⟩ := hkeeps
    exact toggled_known hothers hwindows hexceptions
  | @send window target follow outputSend observed id capabilities staging trace h =>
    cases outputSend with
    | true =>
      have hmembers : s.KeepsMembership s' window := hkeeps
      exact hmembers.known
    | false =>
      have hmembers : s.KeepsMembership s' window := hkeeps
      exact hmembers.known
  | orientation hp h =>
    rcases hp with rfl | rfl
    · have hwindows : s.KeepsWindows s' := hkeeps
      exact hwindows.known
    · have hwindows : s.KeepsWindows s' := hkeeps
      exact hwindows.known
  | fittedAdmit h => exact planFittedAdmit_balanced h hlands
  | move h =>
    have hmembers : s.KeepsMembership s' _ := hkeeps
    exact hmembers.known
  | @crossOutputFocus domain window direction observed id capabilities floatSubject staging h =>
    cases floatSubject with
    | true => exact hkeeps.1.known
    | false => exact hkeeps.1.known
  | focus h | resize h | pointerResize h | pointerResizeCorner h => exact hkeeps.1.known
  | drop _ h =>
    have hwindows : s.KeepsWindows s' := hkeeps
    exact hwindows.known

/-- Whatever is planned, the windows it was shown are the known ones, more by
those it brings. -/
theorem Plans.shown (h : s.Plans p desired) : p.accounted = s.balance p := by
  cases h with
  | admits h => exact planAdmit_shown h
  | remove h => rw [Proposal.accounted, balance, planRemove_shown h]
  | unfloat hrecord hplan h => exact planUnfloat_shown hrecord hplan h
  | float _ _ h => exact planRemove_shown h
  | @send window target follow outputSend observed id capabilities staging trace h =>
    simp only [planSend, bind_eq_ok] at h
    obtain ⟨_, hcomplete, -⟩ := h
    cases outputSend with
    | true => exact checkComplete_ok hcomplete
    | false => exact checkComplete_ok hcomplete
  | orientation hp h =>
    simp only [planToggleOrientation, bind_eq_ok] at h
    obtain ⟨_, -, _, -, _, -, _, -, _, hcomplete, -⟩ := h
    rcases hp with rfl | rfl
    · exact checkComplete_ok hcomplete
    · exact checkComplete_ok hcomplete
  | fittedAdmit h => exact planFittedAdmit_shown h
  | move h =>
    simp only [planMoveWithSameAxis, bind_eq_ok] at h
    obtain ⟨_, -, _, -, _, -, _, -, _, hcomplete, -⟩ := h
    exact checkComplete_ok hcomplete
  | focus h =>
    simp only [planFocusIn, bind_eq_ok] at h
    obtain ⟨_, -, _, hrequest, -⟩ := h
    exact checkFocusRequest_shown hrequest
  | @crossOutputFocus domain window direction observed id capabilities floatSubject staging h =>
    simp only [planCrossOutputFocus, bind_eq_ok] at h
    obtain ⟨_, -, _, -, _, hrequest, -⟩ := h
    cases floatSubject with
    | true => exact checkFocusRequest_shown hrequest
    | false => exact checkFocusRequest_shown hrequest
  | resize h =>
    simp only [planKeyboardResize, bind_eq_ok] at h
    obtain ⟨_, -, _, hrequest, -⟩ := h
    exact checkFocusRequest_shown hrequest
  | pointerResize h =>
    simp only [planPointerResize, bind_eq_ok] at h
    obtain ⟨_, -, request, hrequest, -⟩ := h
    exact checkPointerRequest_shown hrequest
  | pointerResizeCorner h =>
    simp only [planPointerResizeCorner, bind_eq_ok] at h
    obtain ⟨_, -, _, -, request, hrequest, -⟩ := h
    exact checkPointerRequest_shown hrequest
  | drop _ h =>
    simp only [planDrop, bind_eq_ok, snapUnless, ensure_eq_ok, decide_eq_true_eq] at h
    obtain ⟨_, -, _, -, _, hcomplete, -⟩ := h
    exact hcomplete

theorem Plans.accounts (hs : s.Valid) (hkeyed : Keyed s.windows) (h : s.Plans p desired)
    (hlands : s.Lands desired s') : s'.knownWindows = p.accounted :=
  (h.balanced hs hkeyed hlands).trans h.shown.symm

/-- From whatever reachable session a plan is committed, it leaves exactly the
windows known that were known before, with those it brings and without the one
it removes; and those are the windows it was shown, less the removed one. -/
theorem commitPlan_accounts {ack : AdapterAck} {v : Verification} (hs : Reachable s)
    (h : s.commitPlan p ack v = some s') :
    s'.knownWindows = s.balance p ∧ p.accounted = s.balance p := by
  obtain ⟨desired, hplans, -, hlands⟩ := commitPlan_lands h
  exact ⟨hplans.balanced (reachable_worldsOk hs).1.2 (reachable_keyed hs) hlands, hplans.shown⟩

/-- A window is admitted next to three tiles and a float over two workspaces. -/
theorem commitPlan_accounts_admission :
    ∃ s', Sample.stocked.commitPlan Sample.admission Sample.stockedAck
        (.lifecycle Sample.stockedPost) = some s' ∧
      s'.knownWindows = Sample.stocked.balance Sample.admission ∧
      Sample.admission.accounted = Sample.stocked.balance Sample.admission := by
  have hcommits : (Sample.stocked.commitPlan Sample.admission Sample.stockedAck
      (.lifecycle Sample.stockedPost)).isSome = true := by decide +kernel
  obtain ⟨s', hs'⟩ := Option.isSome_iff_exists.mp hcommits
  exact ⟨s', hs', commitPlan_accounts (Sample.session_reachable _ _) hs'⟩

end Session

end PlasmaTiler
