import PlasmaTiler.Membership

/-!
# What links and captures name

Two invariants of every reachable session that look too obvious to be stated
and are needed everywhere. A link is stored under the window it names, in the
accepted world and in the desired world of a pending plan; every operation
that writes a link writes it under its own window, and a move rewrites the
mover's link in place. Without it looking a window up by its leaf and then by
its id could give two different windows.

A capture names a link of the world it was taken in (`DragState.Named`), so
that a drag that is not stale names one of the accepted world. Calls leave
the capture as it was but for the hover, take a new one, or drop it
(`next_capture`), which is the whole step.
-/

namespace PlasmaTiler

/-! ## Links -/

/-- Every link names the window it is stored under. -/
def Keyed (windows : Links) : Prop :=
  ∀ ⦃w : WindowId⦄ ⦃l : WindowLink⦄, windows[w]? = some l → l.window = w

section
variable {windows : Links} {w : WindowId} {l : WindowLink}

theorem keyed_empty : Keyed ∅ := by
  intro w l h
  simp at h

theorem Keyed.insert (h : Keyed windows) (hl : l.window = w) : Keyed (windows.insert w l) := by
  intro v k hk
  rw [lookup_insert] at hk
  split at hk
  · rename_i heq
    cases hk
    exact hl.trans heq
  · exact h hk

theorem Keyed.erase (h : Keyed windows) : Keyed (windows.erase w) := by
  intro v k hk
  rw [lookup_erase] at hk
  split at hk
  · cases hk
  · exact h hk

/-- Rewriting the links in place keeps what they name. -/
theorem Keyed.map (h : Keyed windows) {f : WindowId → WindowLink → WindowLink}
    (hf : ∀ w l, (f w l).window = l.window) : Keyed (windows.map f) := by
  intro v k hk
  rw [Std.ExtTreeMap.getElem?_map] at hk
  obtain ⟨link, hlink, rfl⟩ := Option.map_eq_some_iff.mp hk
  rw [hf]
  exact h hlink

/-- The link of the leaf a window is looked up by. -/
theorem Keyed.windowAt (h : Keyed windows) {key : DomainKey} {leaf : NodeId}
    (hwindow : windowAt windows key leaf = some w) :
    ∃ link, windows[w]? = some link ∧ link.leaf = leaf ∧ link.key = key := by
  obtain ⟨link, hfind, rfl⟩ := Option.map_eq_some_iff.mp hwindow
  obtain ⟨v, hlink⟩ := mem_values.mp (List.mem_of_find?_eq_some hfind)
  have hmatch := List.find?_some hfind
  simp only [Bool.and_eq_true, beq_iff_eq] at hmatch
  obtain rfl := h hlink
  exact ⟨link, hlink, hmatch.1.1, DomainKey.ext hmatch.1.2 hmatch.2⟩

end

/-- The capture names a link of the world it was taken in: the window is
linked there, to the captured leaf and in the captured domain. -/
def DragState.Named (capture : DragState) : Prop :=
  capture.sourceWindow.isEmpty = false ∧
    ∃ link, capture.windows[capture.sourceWindow]? = some link ∧
      link.leaf = capture.sourceLeaf ∧ link.key = capture.domain

namespace Session

section
variable {s s' : Session} {desired : PendingDesired} {observed : SessionObservation}
  {window : WindowId} {capture : DragState}

/-! ## What is staged -/

theorem planAdmit_keyed {c : AdmitCommand} {staging : Staging LifecyclePlan}
    (hs : Keyed s.windows) (h : s.planAdmit c observed = .ok staging) :
    Keyed staging.desired.windows := by
  obtain ⟨-, ⟨_, _, hdeferred⟩ | htiled⟩ := planAdmit_ok h
  · rw [hdeferred]
    exact hs
  · rw [htiled.windows]
    exact hs.insert rfl

theorem planRemove_keyed {staging : Staging LifecyclePlan} (hs : Keyed s.windows)
    (h : s.planRemove window observed = .ok staging) : Keyed staging.desired.windows := by
  rcases planRemove_cases h with ⟨record, -, -, rfl⟩ | ⟨link, -, -, htiled⟩
  · exact hs
  · rw [(planRemoveTiled_ok htiled).1]
    exact hs.erase

theorem fittedLinks_keyed {key : DomainKey} {links : List WindowLink} {windows fitted : Links}
    (hs : Keyed windows) (h : fittedLinks key links windows = .ok fitted) : Keyed fitted := by
  induction links generalizing windows with
  | nil =>
    cases h
    exact hs
  | cons link links ih =>
    simp only [fittedLinks, bind_eq_ok] at h
    obtain ⟨_, -, _, -, _, -, h⟩ := h
    exact ih (hs.insert rfl) h

/-- A move rewrites the mover's link or none. -/
theorem applyMoveOperation_keyed {trees : Trees} {windows : Links} {domains : List OutputDomain}
    {source : DomainKey} {leaf : NodeId} {direction : Direction} {plan : MovePlan}
    {baseRevision : Nat} {targetFocus : Option NodeId} {applied : AppliedMove}
    (hs : Keyed windows)
    (h : applyMoveOperation trees windows domains source leaf direction plan baseRevision
      targetFocus = some applied) : Keyed applied.windows := by
  simp only [applyMoveOperation, Option.bind_eq_bind, Option.bind_eq_some_iff] at h
  obtain ⟨_, -, mover, -, _, -, h⟩ := h
  split at h
  · simp only [applyCrossOutput, Option.bind_eq_bind, Option.bind_eq_some_iff] at h
    obtain ⟨_, -, _, -, _, -, _, -, _, -, _, -, _, -, _, -, h⟩ := h
    cases h
    exact hs.insert rfl
  · simp only [Option.bind_eq_some_iff] at h
    obtain ⟨_, -, _, -, h⟩ := h
    cases h
    exact hs

/-- Over keyed links every plan stages keyed links: each link that is written
is written under its own window. -/
theorem Stages.keyed {revision : Nat} (hvalid : s.Valid) (hs : Keyed s.windows)
    (h : Stages s revision desired) : Keyed desired.windows := by
  cases h with
  | admission _ _ _ h => exact planAdmit_keyed hs h
  | remove h => exact planRemove_keyed hs h
  | float _ _ _ _ h => exact planRemove_keyed hs h
  | toggleOrientation h =>
    obtain ⟨_, _, _, _, _, -, -, -, -, hdesired, -⟩ := planToggleOrientation_ok h
    rw [hdesired]
    exact hs
  | send _ h =>
    obtain ⟨_, _, _, _, _, -, -, -, -, -, -, -, hwindows, -⟩ := (planSend_ok h).moved
    rw [hwindows]
    exact hs.insert rfl
  | fittedAdmit h =>
    obtain ⟨_, -, hlinks, -, hdesired, -⟩ := planFittedAdmit_ok h
    rw [hdesired]
    exact fittedLinks_keyed keyed_empty hlinks
  | move _ h =>
    obtain ⟨_, _, _, -, -, -, happlied, -, hdesired, -⟩ := planMoveWithSameAxis_ok h
    rw [hdesired]
    exact applyMoveOperation_keyed hs happlied
  | focus h =>
    obtain ⟨_, hdesired, -⟩ := planFocusIn_ok hvalid h
    rw [hdesired]
    exact hs
  | crossOutputFocus h =>
    obtain ⟨_, _, hdesired, -⟩ := planCrossOutputFocus_ok h
    rw [hdesired]
    exact hs
  | resize h =>
    obtain ⟨_, _, _, _, -, -, -, -, hdesired⟩ := (planKeyboardResize_ok h).resized
    rw [hdesired]
    exact hs
  | pointerResize h =>
    obtain ⟨_, _, _, _, -, -, -, -, hdesired⟩ := (planPointerResize_ok h).resized
    rw [hdesired]
    exact hs
  | pointerResizeCorner h =>
    obtain ⟨_, _, _, _, -, -, -, -, hdesired⟩ := (planPointerResizeCorner_ok h).resized
    rw [hdesired]
    exact hs
  | drop hdrag h =>
    obtain ⟨_, _, _, _, _, _, -, -, -, -, hdesired⟩ := (planDrop_ok hdrag h).dropped
    rw [hdesired]
    exact hs

theorem Basis.windows_eq {p : Proposal} {basis : Session} (h : Basis s p basis) :
    basis.windows = s.windows := by
  cases h with
  | self _ => rfl
  | unfloated _ _ hplan =>
    obtain ⟨_, _, -, -, -, rfl, -⟩ := planUnfloat_ok hplan
    rfl

/-! ## Convergence -/

theorem removeStep_keyed {observed : BTreeMap WindowId ObservedWindow} {c c' : Converging}
    (hc : Keyed c.windows) (h : removeStep observed c window = some c') : Keyed c'.windows := by
  unfold removeStep at h
  split at h
  · cases h
    exact hc
  · split at h
    · cases h
      exact hc.erase
    · split at h
      · cases h
        exact hc
      · cases h

theorem floatStep_keyed {c : Converging} {p : WindowId × ObservedWindow} (hc : Keyed c.windows) :
    Keyed (s.floatStep c p).windows := by
  unfold floatStep
  split
  · exact hc
  · split
    · exact hc
    · exact hc.erase

theorem admitStep_keyed {baseRevision : Nat} {toTile : List WindowId} {a a' : Admitting}
    {p : WindowId × ObservedWindow} (ha : Keyed a.world.windows)
    (h : s.admitStep baseRevision toTile a p = .ok a') : Keyed a'.world.windows := by
  rcases admitStep_cases h with ⟨-, rfl⟩ | ⟨_, _, next, ids, -, -, hworld, -⟩
  · exact ha
  · rw [hworld]
    exact ha.insert rfl

theorem convergePasses_keyed {observed : BTreeMap WindowId ObservedWindow} {baseRevision : Nat}
    {c : Converging} (hs : Keyed s.windows) (h : s.convergePasses observed baseRevision = .ok c) :
    Keyed c.windows := by
  obtain ⟨present, a, hpresent, hadmit, rfl⟩ := convergePasses_ok h
  have hremoved : Keyed present.windows :=
    (folded_of_foldlM_some hpresent).preserves (P := fun c => Keyed c.windows)
      (fun _ _ _ _ hstep hc => removeStep_keyed hc hstep) hs
  have hfloated : Keyed (observed.toList.foldl s.floatStep present).windows :=
    foldl_keeps (P := fun c : Converging => Keyed c.windows) (fun _ _ _ hc => floatStep_keyed hc)
      hremoved
  rw [← (@classify_frame s observed _).1] at hfloated
  exact (folded_of_foldlM_ok hadmit).preserves (P := fun a => Keyed a.world.windows)
    (fun _ _ _ _ hstep ha => admitStep_keyed ha hstep) hfloated

theorem planConvergence_keyed {observedFocus : Option WindowId} {c : Converged}
    (hs : Keyed s.windows) (h : s.planConvergence observed observedFocus = .ok c) :
    Keyed c.world.windows := by
  obtain ⟨world, hpasses, hworld⟩ := (planConvergence_ok h).passes
  have hkeyed := convergePasses_keyed hs hpasses
  rw [hworld]
  exact hkeyed

/-! ## Every reachable session -/

/-- Both worlds have keyed links, the accepted one and the one a pending plan
has staged. A commit makes the second the first. -/
structure LinksKeyed (s : Session) : Prop where
  accepted : Keyed s.windows
  desired : ∀ desired, s.pendingDesired = some desired → Keyed desired.windows

theorem LinksKeyed.step (hvalid : s.Valid) (h : s.LinksKeyed) (hstep : Step s s') :
    s'.LinksKeyed := by
  cases hstep with
  | same | withDrag _ | acked _ _ | bare _ _ _ | settings | synced _ _ _ _ _ | gaps _ _
  | refocused _ _ _ => exact ⟨h.accepted, h.desired⟩
  | cleared _ | halted _ | cancelled _ => exact ⟨h.accepted, nofun⟩
  | @staged _ basis _ _ _ _ hbasis hstages _ _ =>
    have hkeyed : Keyed basis.windows := by
      rw [hbasis.windows_eq]
      exact h.accepted
    refine ⟨hkeyed, fun desired hdesired => ?_⟩
    cases hdesired
    exact hstages.keyed (Basis.valid hvalid hbasis).1 hkeyed
  | committed _ _ hdesired _ => exact ⟨h.desired _ hdesired, nofun⟩
  | converged _ _ hplan => exact ⟨planConvergence_keyed h.accepted hplan, h.desired⟩
  | relocated _ _ _ _ _ =>
    refine ⟨h.accepted.map fun w l => ?_, h.desired⟩
    split <;> rfl

theorem linksKeyed_invariant : machine.Invariant fun s => WorldsOk s ∧ LinksKeyed s :=
  worldsOk_invariant.strengthen
    (fun s hs => ⟨by
      rw [hs.blank.windows]
      exact keyed_empty, fun desired hdesired => by
      rw [hs.blank.desired] at hdesired
      cases hdesired⟩)
    fun _ op hworlds h => h.step hworlds.accepted (next_step op)

theorem reachable_keyed (h : Reachable s) : Keyed s.windows :=
  (linksKeyed_invariant.reachable h).2.accepted

/-! ## Captures -/

/-- The drag goes on as it was or is over. No call but those of the drag
itself does more. -/
def KeepsDrag (s s' : Session) : Prop := s'.drag = s.drag ∨ s'.drag = none

theorem Effect.keepsDrag {p : Proposal} {result : Except ProposeError (Option PlanBinding)}
    (h : Effect s p s' result) : s.KeepsDrag s' := by
  cases h with
  | unchanged _ => exact .inl rfl
  | cleared _ | halted _ _ | snappedBack | unsupported | staged _ _ _ _ => exact .inr rfl

theorem Acknowledged.keepsDrag {result : Except AckError AckApplied}
    (h : Acknowledged s s' result) : s.KeepsDrag s' := by
  cases h with
  | unchanged _ _ | acked _ _ => exact .inl rfl
  | cleared _ | halted _ => exact .inr rfl

theorem Verified.keepsDrag {result : Except VerifyError Commit} (h : Verified s s' result) :
    s.KeepsDrag s' := by
  cases h with
  | unchanged _ _ | bare _ _ _ | committed _ _ _ => exact .inl rfl
  | cleared _ | halted _ => exact .inr rfl

theorem verification_keepsDrag {v : Verification} : s.KeepsDrag (s.verification v).1 := by
  rcases @verification_verified s v with hanswer | ⟨s', commit, hanswer, heq⟩
  · exact hanswer.keepsDrag
  · rw [heq]
    exact hanswer.keepsDrag

theorem Convergence.keepsDrag {observedFocus : Option WindowId}
    {result : Except ProposeError ObservationConvergence}
    (h : Convergence s observed observedFocus s' result) : s.KeepsDrag s' := by
  cases h with
  | unchanged | refocused _ _ _ _ _ | converged _ _ _ _ _ _ => exact .inl rfl
  | halted _ => exact .inr rfl

theorem noted_keepsDrag {reason : DivergenceKind}
    (h : s' = { s with reconciler := (s.reconciler.divergeConvergence reason).1
                       pendingDesired := none, drag := none }) : s.KeepsDrag s' := by
  rw [h]
  exact .inr rfl

/-- A world operation that applies or not keeps the drag. -/
theorem applied_keepsDrag {c : Prop} [Decidable c] {answer answer' : Session × Bool}
    (h : s.KeepsDrag answer.1) (h' : s.KeepsDrag answer'.1) :
    s.KeepsDrag (if c then answer else answer').1 := by
  split
  · exact h
  · exact h'

theorem updateDomainGaps_keepsDrag {key : DomainKey} {bounds : Rect} {gap : Int} :
    s.KeepsDrag (s.updateDomainGaps key bounds gap).1 :=
  applied_keepsDrag (.inl rfl) (applied_keepsDrag (.inl rfl) (.inl rfl))

theorem relocateDomain_keepsDrag {source target : DomainKey} {bounds : Rect} {gap : Int} :
    s.KeepsDrag (s.relocateDomain source target bounds gap).1 :=
  applied_keepsDrag (.inl rfl) (applied_keepsDrag (.inl rfl) (.inl rfl))

theorem syncFocusFromWindow_keepsDrag {domain : DomainKey} :
    s.KeepsDrag (s.syncFocusFromWindow domain window).1 := by
  unfold syncFocusFromWindow
  split
  · exact .inl rfl
  · split
    · exact .inl rfl
    · split
      · exact .inl rfl
      · exact .inl rfl

theorem cancelUnackedPending_keepsDrag {correlationId : CorrelationId} {baseRevision : Nat} :
    s.KeepsDrag (s.cancelUnackedPending correlationId baseRevision).1 := by
  rcases @cancelUnackedPending_cases s correlationId baseRevision with heq | ⟨-, heq⟩
  · rw [heq]
    exact .inl rfl
  · rw [heq]
    exact .inl rfl

/-- The same capture, up to its hover, which previews update and carries
replace. -/
def SameCapture (before after : DragState) : Prop := after = { before with prior := after.prior }

theorem KeepsDrag.captured (h : s.KeepsDrag s') (hdrag : s'.drag = some capture) :
    ∃ before, s.drag = some before ∧ SameCapture before capture := by
  rcases h with heq | heq
  · exact ⟨capture, heq ▸ hdrag, rfl⟩
  · rw [heq] at hdrag
    cases hdrag

theorem carryDragPrior_capture {carried : DragHoverPrior}
    (h : (s.carryDragPrior carried).1.drag = some capture) :
    ∃ before, s.drag = some before ∧ SameCapture before capture := by
  unfold carryDragPrior at h
  split at h
  · exact ⟨capture, h, rfl⟩
  · rename_i drag hdrag
    split at h
    · exact ⟨capture, h, rfl⟩
    · cases h
      exact ⟨drag, hdrag, rfl⟩

theorem hovering_capture {prior : Option PriorGroupEdge} (h : (s.hovering prior).drag = some capture) :
    ∃ before, s.drag = some before ∧ SameCapture before capture := by
  obtain ⟨before, hdrag, rfl⟩ := Option.map_eq_some_iff.mp h
  exact ⟨before, hdrag, rfl⟩

theorem previewDrag_capture {x y : Int} {windows : List ObservedWindow}
    (h : (s.previewDrag x y windows).1.drag = some capture) :
    ∃ before, s.drag = some before ∧ SameCapture before capture := by
  have hsame : ∀ {c}, s.drag = some c → ∃ before, s.drag = some before ∧ SameCapture before c :=
    fun hc => ⟨_, hc, rfl⟩
  unfold previewDrag at h
  split at h
  · exact hsame h
  · split at h
    · exact hsame h
    · split at h
      · exact hsame h
      · split at h
        · exact hsame h
        · split at h
          · exact hovering_capture h
          · exact hovering_capture h

/-- Every call leaves the capture as it was but for the hover, takes one, or
drops it. -/
theorem next_capture {op : SessionOp} (h : (s.next op).drag = some capture) :
    (∃ before, s.drag = some before ∧ SameCapture before capture) ∨
      ∃ window observed, s.planBeginDrag window observed = .ok capture := by
  cases op with
  | propose p => exact .inl (proposal_effect.keepsDrag.captured h)
  | acknowledge ack => exact .inl (acknowledge_acknowledged.keepsDrag.captured h)
  | verify v => exact .inl (verification_keepsDrag.captured h)
  | cancelUnackedPending correlationId baseRevision =>
    exact .inl (cancelUnackedPending_keepsDrag.captured h)
  | noteAdapterLoss => exact .inl ((noted_keepsDrag rfl).captured h)
  | notePostconditionMismatch => exact .inl ((noted_keepsDrag rfl).captured h)
  | convergeObservation observation observedFocus =>
    exact .inl (convergeObservation_convergence.keepsDrag.captured h)
  | updateDomainGaps key bounds gap => exact .inl (updateDomainGaps_keepsDrag.captured h)
  | relocateDomain source target bounds gap => exact .inl (relocateDomain_keepsDrag.captured h)
  | syncFocusFromWindow domain window => exact .inl (syncFocusFromWindow_keepsDrag.captured h)
  | beginDrag window observed =>
    have hbegin : (s.beginDrag window observed).1.drag = some capture := h
    unfold beginDrag attempt at hbegin
    cases hplan : s.planBeginDrag window observed with
    | error e =>
      rw [hplan] at hbegin
      exact .inl ⟨capture, hbegin, rfl⟩
    | ok drag =>
      rw [hplan] at hbegin
      cases hbegin
      exact .inr ⟨window, observed, hplan⟩
  | carryDragPrior carried => exact .inl (carryDragPrior_capture h)
  | previewDrag x y observed => exact .inl (previewDrag_capture h)
  | cancelDrag =>
    rw [show s.next .cancelDrag = s.withDrag none from cancelDrag_withDrag] at h
    cases h
  | setFixedSizeAdmission enabled | setMaximizedFocusFence enabled | setFixedSizePredicate predicate =>
    exact .inl ⟨capture, h, rfl⟩

/-- A live capture is a named one. -/
def DragNamed (s : Session) : Prop := ∀ capture, s.drag = some capture → capture.Named

theorem planBeginDrag_named (h : s.planBeginDrag window observed = .ok capture) : capture.Named := by
  simp only [planBeginDrag, bind_eq_ok, refuseUnless, ensure_eq_ok, okOr_eq_ok, pure_eq_ok,
    Bool.not_eq_true'] at h
  obtain ⟨_, -, _, -, _, hwindow, _, -, _, -, _, -, _, -, link, hlink, _, -, _, -, _, -, _, -,
    source, -, rfl⟩ := h
  exact ⟨hwindow, link, hlink, rfl, rfl⟩

/-- A hover changes nothing a capture names. -/
theorem SameCapture.named {before after : DragState} (h : SameCapture before after)
    (hnamed : before.Named) : after.Named := by
  rw [h]
  exact hnamed

theorem hover_named {prior : Option PriorGroupEdge} (h : s.DragNamed) :
    (s.hovering prior).DragNamed := by
  intro capture hcapture
  obtain ⟨before, hbefore, hsame⟩ := hovering_capture hcapture
  exact hsame.named (h before hbefore)

theorem DragNamed.next (h : s.DragNamed) (op : SessionOp) : (s.next op).DragNamed := by
  intro capture hcapture
  rcases next_capture hcapture with ⟨before, hbefore, hsame⟩ | ⟨window, observed, hbegin⟩
  · exact hsame.named (h before hbefore)
  · exact planBeginDrag_named hbegin

theorem dragNamed_invariant : machine.Invariant DragNamed where
  initial s hs capture hdrag := by
    rw [hs.blank.drag] at hdrag
    cases hdrag
  preserved _ op h := h.next op

theorem reachable_dragNamed (h : Reachable s) : s.DragNamed := dragNamed_invariant.reachable h

end

end Session

end PlasmaTiler
