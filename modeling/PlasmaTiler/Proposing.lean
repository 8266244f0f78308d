import PlasmaTiler.Calls

/-!
# What a proposal does

The reconciler's answer to any proposal is one of four (`Reconciler.Verdict`),
and the session's answer one of six (`Session.Effect`): untouched, cleared,
halted, snapped back, unsupported, or staged. Which desired worlds can be
staged is `Session.Stages`, one constructor per plan family, and the session
a plan is staged over is its `Basis`: the session itself, or the copy an
unfloat plans on.

Everything that holds of all proposals is proved from these relations. They
are kept apart from the proof that the proposals satisfy them, so that this
module can be read as the summary of what a proposal may do.
-/

namespace PlasmaTiler

/-! ## The reconciler's verdict -/

namespace Reconciler

/-- The reconciler with a plan opened. -/
def opened (r : Reconciler) (correlationId : CorrelationId) (kind : PendingKind) : Reconciler :=
  { r with pending := some ⟨correlationId, r.verifiedRevision, false, kind⟩ }

/-- The answers of the reconciler to a proposal, by the state they are given
in: it is diverged or busy and stays as it was, a binding fault ends it, or
the plan is opened on the verified revision. -/
inductive Verdict (r : Reconciler) (observation : Observation) (correlationId : CorrelationId) :
    Reconciler → Except ProposeError PlanBinding → Prop
  | halted {reason : DivergenceKind} (h : r.diverged = some reason) :
      Verdict r observation correlationId r (.error (.diverged reason))
  | busy (h : r.pending.isSome) : Verdict r observation correlationId r (.error .pendingExists)
  | diverged {reason : DivergenceKind} (h : r.diverged = none) :
      Verdict r observation correlationId (r.diverge reason) (.error (.diverged reason))
  | opened {kind : PendingKind} (hdiverged : r.diverged = none) (hpending : r.pending = none)
      (hrevision : observation.revision = r.verifiedRevision) :
      Verdict r observation correlationId (r.opened correlationId kind)
        (.ok ⟨correlationId, r.verifiedRevision⟩)

theorem firstFault_eq_none {faults : List (Bool × DivergenceKind)} :
    firstFault faults = none ↔ ∀ fault ∈ faults, fault.1 = false := by
  induction faults with
  | nil => simp [firstFault]
  | cons fault faults ih =>
    obtain ⟨c, reason⟩ := fault
    cases c <;> simp [firstFault, ih]

theorem firstFault_append {faults more : List (Bool × DivergenceKind)} :
    firstFault (faults ++ more) = (firstFault faults <|> firstFault more) := by
  induction faults with
  | nil => rfl
  | cons fault faults ih =>
    obtain ⟨c, reason⟩ := fault
    cases c <;> simp [firstFault, ih]

variable {D : Type} {r : Reconciler} {observation : Observation} {correlationId : CorrelationId}
  {faults : List (Bool × DivergenceKind)} {kind : PendingKind} {dispatch : D}
  {binding : D → PlanBinding}

/-- The skeleton of all proposals answers with a verdict. -/
theorem proposeWith_verdict (h : binding dispatch = ⟨correlationId, r.verifiedRevision⟩) :
    Verdict r observation correlationId (r.proposeWith observation correlationId faults kind).1
      (((r.proposeWith observation correlationId faults kind).2.map fun _ => dispatch).map
        binding) := by
  unfold proposeWith
  split
  · exact .halted ‹_›
  · rename_i hdiverged
    by_cases hpending : r.pending.isSome
    · rw [if_pos hpending]
      exact .busy hpending
    · rw [if_neg hpending]
      split
      · exact .diverged hdiverged
      · rename_i hfault
        have hbinding : r.bindingFault observation correlationId = none := by
          cases hb : r.bindingFault observation correlationId with
          | none => rfl
          | some reason => rw [hb] at hfault; cases hfault
        have hrevision : observation.revision = r.verifiedRevision := by
          have := firstFault_eq_none.mp hbinding (observation.revision != r.verifiedRevision,
            .staleRevision) (by simp)
          simpa using this
        have hnone : r.pending = none := by simpa using hpending
        have hok : Verdict r observation correlationId (r.opened correlationId kind) _ :=
          .opened hdiverged hnone hrevision
        rw [← h] at hok
        exact hok

end Reconciler

namespace Session

/-! ## Errors of a plan -/

/-- A computation that reports a divergence only where the session has
recorded it. Proposals made of such computations never report one of their own
making. -/
def Faithful {α : Type} (s : Session) (x : Except ProposeError α) : Prop :=
  ∀ reason, x = .error (.diverged reason) → s.divergence = some reason

section
variable {α β ε : Type} {s : Session} {x y : Except ProposeError α}
  {f : α → Except ProposeError β} {kind : RefusalKind} {c : Prop} [Decidable c]

@[simp] theorem faithful_ok (a : α) : s.Faithful (.ok a) := nofun

@[simp] theorem faithful_pure (a : α) : s.Faithful (pure a) := nofun

@[simp] theorem faithful_refused : s.Faithful (.error (.refused kind) : Except ProposeError α) :=
  nofun

@[simp] theorem faithful_bind :
    s.Faithful (x >>= f) ↔ s.Faithful x ∧ ∀ a, x = .ok a → s.Faithful (f a) := by
  cases x <;> simp [Faithful, bind, Except.bind]

@[simp] theorem faithful_map (g : α → β) : s.Faithful (g <$> x) ↔ s.Faithful x := by
  cases x <;> simp [Functor.map, Except.map, Faithful]

@[simp] theorem faithful_mapOk (g : α → β) : s.Faithful (x.map g) ↔ s.Faithful x :=
  faithful_map g

@[simp] theorem faithful_ite :
    s.Faithful (if c then x else y) ↔ (c → s.Faithful x) ∧ (¬c → s.Faithful y) := by
  split <;> simp_all

@[simp] theorem faithful_refuseUnless (b : Bool) : s.Faithful (refuseUnless b kind) := by
  cases b <;> simp [refuseUnless]

@[simp] theorem faithful_okOr (o : Option α) : s.Faithful (okOr (.refused kind) o) := by
  cases o <;> simp

@[simp] theorem faithful_mapError (z : Except ε α) :
    s.Faithful (z.mapError fun _ => .refused kind) := by
  cases z <;> simp [Except.mapError]

end

section
variable {s : Session} {observed : SessionObservation} {window : WindowId}

@[simp] theorem faithful_checkIdle : s.Faithful s.checkIdle := by
  unfold checkIdle
  split
  · rintro reason ⟨⟩
    assumption
  · unfold ensure
    split <;> exact nofun

@[simp] theorem faithful_checkSettled : s.Faithful s.checkSettled := by
  unfold checkSettled
  split
  · rintro reason ⟨⟩
    assumption
  · unfold ensure
    split <;> exact nofun

@[simp] theorem faithful_checkComplete (l : List ObservedWindow) :
    s.Faithful (s.checkComplete l) := by
  simp [checkComplete]

@[simp] theorem faithful_checkObserved (l : List ObservedWindow) :
    s.Faithful (s.checkObserved l) := by
  simp [checkObserved]

@[simp] theorem faithful_checkTiled : s.Faithful (s.checkTiled window) := by
  simp [checkTiled]

@[simp] theorem faithful_requestedRect (rect : Option Rect) : s.Faithful (requestedRect rect) := by
  cases rect <;> simp [requestedRect]

@[simp] theorem faithful_checkFocusIs (domain : DomainKey) (refuseException : Bool) :
    s.Faithful (s.checkFocusIs domain window refuseException) := by
  simp [checkFocusIs]

@[simp] theorem faithful_checkFocusRequest (domain : DomainKey) (l : List ObservedWindow) :
    s.Faithful (s.checkFocusRequest domain window l) := by
  simp [checkFocusRequest]

@[simp] theorem faithful_currentGeometry (affected : List DomainKey) (l : List ObservedWindow) :
    s.Faithful (s.currentGeometry affected l) := by
  simp [currentGeometry]

@[simp] theorem faithful_focusedTile : s.Faithful s.focusedTile := by
  simp [focusedTile]

theorem planAdmit_faithful {c : AdmitCommand} : s.Faithful (s.planAdmit c observed) := by
  simp [planAdmit, planAdmitDeferred, planAdmitTiled]

theorem planRemove_faithful : s.Faithful (s.planRemove window observed) := by
  simp only [planRemove, planRemoveTiled, faithful_bind, faithful_refuseUnless, true_and,
    faithful_checkComplete]
  intros
  split
  · simp
  · simp only [faithful_bind, faithful_refuseUnless, true_and]
    intros
    split <;> simp
  · simp

theorem planUnfloat_faithful {record : ExceptionRecord} {rect : Option Rect} :
    s.Faithful (s.planUnfloat window record rect observed) := by
  simp [planUnfloat]

theorem planFloat_faithful {rect : Option Rect} :
    s.Faithful (s.planFloat window rect observed) := by
  simp only [planFloat, faithful_bind, faithful_okOr, faithful_refuseUnless, true_and,
    faithful_requestedRect]
  intros
  split <;> simp

theorem planToggleOrientation_faithful :
    s.Faithful (s.planToggleOrientation window observed) := by
  simp [planToggleOrientation]

theorem planSend_faithful {target : DomainKey} {follow cross : Bool} :
    s.Faithful (s.planSend window target follow cross observed) := by
  simp [planSend, checkSendTarget]

theorem checkCommand_faithful {command : SessionCommand} {l : List ObservedWindow} :
    s.Faithful (s.checkCommand command l) := by
  simp [checkCommand]

theorem checkFittedObserved_faithful {key : DomainKey} {l : List ObservedWindow} :
    s.Faithful (checkFittedObserved key l) := by
  induction l with
  | nil => exact faithful_ok ()
  | cons e l ih => simp [checkFittedObserved, ih]

theorem fittedLinks_faithful {key : DomainKey} {l : List WindowLink} {windows : Links} :
    s.Faithful (fittedLinks key l windows) := by
  induction l generalizing windows with
  | nil => exact faithful_ok windows
  | cons e l ih => simp [fittedLinks, ih]

theorem planFittedAdmit_faithful {f : FittedAdmit} :
    s.Faithful (s.planFittedAdmit f observed) := by
  simp [planFittedAdmit, checkFittedObserved_faithful, fittedLinks_faithful]

theorem plannedMove_faithful {outcome : MoveOutcome} : s.Faithful (plannedMove outcome) := by
  cases outcome <;> simp [plannedMove]

theorem planMoveWithSameAxis_faithful {domain : DomainKey} {direction : Direction}
    {capabilities : Capabilities} {sameAxisMove : SameAxisMove} :
    s.Faithful (s.planMoveWithSameAxis domain window direction observed capabilities
      sameAxisMove) := by
  simp [planMoveWithSameAxis, plannedMove_faithful]

theorem planFocusIn_faithful {domain : DomainKey} {direction : Direction}
    {capabilities : FocusCapabilities} :
    s.Faithful (s.planFocusIn domain window direction observed capabilities) := by
  simp only [planFocusIn, faithful_bind, faithful_checkIdle, faithful_checkFocusRequest,
    faithful_refuseUnless, faithful_checkFocusIs, faithful_okOr, true_and]
  intros
  split <;> simp

theorem planCrossOutputFocus_faithful {domain : DomainKey} {direction : Direction}
    {capabilities : FocusCapabilities} {floatSubject : Bool} :
    s.Faithful (s.planCrossOutputFocus domain window direction observed capabilities
      floatSubject) := by
  simp [planCrossOutputFocus, checkFloatSubject, checkEdgeSubject]

theorem pointerDerive_faithful {tree : Node} {geometry : List DesiredGeometry}
    {request : PointerRequest} {direction : Direction} {boundary : Int} :
    s.Faithful (pointerDerive tree geometry request direction boundary) := by
  simp only [pointerDerive, faithful_bind, faithful_okOr, true_and]
  intros
  split <;> simp

@[simp] theorem faithful_acceptedGeometry {domain : OutputDomain} {tree : Node}
    {l : List ObservedWindow} : s.Faithful (s.acceptedGeometry domain tree l) := by
  simp [acceptedGeometry]

@[simp] theorem faithful_treesGeometry {trees : Trees} {key : DomainKey}
    {l : List ObservedWindow} : s.Faithful (s.treesGeometry trees key l) := by
  simp [treesGeometry]

@[simp] theorem faithful_resizedTrees {key : DomainKey} {leaf : NodeId} {updated : Node}
    {l : List ObservedWindow} : s.Faithful (s.resizedTrees key leaf updated l) := by
  simp [resizedTrees]

theorem planKeyboardResize_faithful {domain : DomainKey} {direction : Direction}
    {mode : ResizeMode} {pressIndex : Nat} {capabilities : ResizeCapabilities} :
    s.Faithful (s.planKeyboardResize domain window direction mode pressIndex observed
      capabilities) := by
  simp only [planKeyboardResize, faithful_bind, faithful_checkIdle, faithful_checkFocusRequest,
    faithful_refuseUnless, faithful_checkFocusIs, faithful_okOr, faithful_acceptedGeometry,
    true_and]
  intros
  split <;> simp

@[simp] theorem faithful_checkPointerRequest {domain : DomainKey} {l : List ObservedWindow}
    {capabilities : ResizeCapabilities} :
    s.Faithful (s.checkPointerRequest domain window l capabilities) := by
  simp [checkPointerRequest]

@[simp] theorem faithful_pointerTree {domain : DomainKey} {request : PointerRequest}
    {l : List ObservedWindow} : s.Faithful (s.pointerTree domain request l) := by
  simp [pointerTree]

theorem planPointerResize_faithful {domain : DomainKey} {direction : Direction} {boundary : Int}
    {capabilities : ResizeCapabilities} :
    s.Faithful (s.planPointerResize domain window direction boundary observed capabilities) := by
  simp [planPointerResize, pointerDerive_faithful]

theorem planPointerResizeCorner_faithful {domain : DomainKey} {directionH directionV : Direction}
    {boundaryH boundaryV : Int} {capabilities : ResizeCapabilities} :
    s.Faithful (s.planPointerResizeCorner domain window directionH boundaryH directionV boundaryV
      observed capabilities) := by
  simp [planPointerResizeCorner, pointerDerive_faithful]

end

/-! ## Staged worlds -/

/-- The worlds a plan may stage against an observation of this revision, one
constructor per plan family. -/
inductive Stages (s : Session) (revision : Nat) : PendingDesired → Prop
  | admission {c : AdmitCommand} {observed : SessionObservation} {staging : Staging LifecyclePlan}
      (hshape : !c.window.isEmpty && !c.output.isEmpty && !c.workspace.isEmpty)
      (hdomain : (s.domainFor c.output c.workspace).isSome)
      (hrevision : observed.observation.revision = revision)
      (h : s.planAdmit c observed = .ok staging) : Stages s revision staging.desired
  | remove {window : WindowId} {observed : SessionObservation} {staging : Staging LifecyclePlan}
      (h : s.planRemove window observed = .ok staging) : Stages s revision staging.desired
  | float {window : WindowId} {rect : Option Rect} {observed : SessionObservation}
      {target : ObservedWindow} {effective : Rect} {staging : Staging LifecyclePlan}
      (hwindow : !window.isEmpty) (hshapes : validObservedShapes observed.windows)
      (hhomed : s.observedHomed observed.windows)
      (hfloat : s.planFloat window rect observed = .ok (target, effective))
      (h : s.planRemove window observed = .ok staging) :
      Stages s revision (staging.desired.floated target window effective)
  | toggleOrientation {window : WindowId} {observed : SessionObservation}
      {staging : Staging LifecyclePlan}
      (h : s.planToggleOrientation window observed = .ok staging) :
      Stages s revision staging.desired
  | send {window : WindowId} {target : DomainKey} {follow cross : Bool}
      {observed : SessionObservation} {staging : Staging LifecyclePlan} {trace : SendPlacementTrace}
      (hrevision : observed.observation.revision = revision)
      (h : s.planSend window target follow cross observed = .ok (staging, trace)) :
      Stages s revision staging.desired
  | fittedAdmit {f : FittedAdmit} {observed : SessionObservation} {staging : Staging LifecyclePlan}
      (h : s.planFittedAdmit f observed = .ok staging) : Stages s revision staging.desired
  | move {domain : DomainKey} {window : WindowId} {direction : Direction}
      {observed : SessionObservation} {capabilities : Capabilities} {sameAxisMove : SameAxisMove}
      {staging : Staging MovePlan} (hrevision : observed.observation.revision = revision)
      (h : s.planMoveWithSameAxis domain window direction observed capabilities sameAxisMove =
        .ok staging) : Stages s revision staging.desired
  | focus {domain : DomainKey} {window : WindowId} {direction : Direction}
      {observed : SessionObservation} {capabilities : FocusCapabilities}
      {staging : Staging (FocusPlanContract × FocusPlan)}
      (h : s.planFocusIn domain window direction observed capabilities = .ok staging) :
      Stages s revision staging.desired
  | crossOutputFocus {domain : DomainKey} {window : WindowId} {direction : Direction}
      {observed : SessionObservation} {capabilities : FocusCapabilities} {floatSubject : Bool}
      {staging : Staging (FocusPlanContract × FocusPlan)}
      (h : s.planCrossOutputFocus domain window direction observed capabilities floatSubject =
        .ok staging) : Stages s revision staging.desired
  | resize {domain : DomainKey} {window : WindowId} {direction : Direction} {mode : ResizeMode}
      {pressIndex : Nat} {observed : SessionObservation} {capabilities : ResizeCapabilities}
      {staging : ResizeStaging}
      (h : s.planKeyboardResize domain window direction mode pressIndex observed capabilities =
        .ok staging) : Stages s revision staging.desired
  | pointerResize {domain : DomainKey} {window : WindowId} {direction : Direction}
      {boundary : Int} {observed : SessionObservation} {capabilities : ResizeCapabilities}
      {staging : ResizeStaging}
      (h : s.planPointerResize domain window direction boundary observed capabilities =
        .ok staging) : Stages s revision staging.desired
  | pointerResizeCorner {domain : DomainKey} {window : WindowId}
      {directionH directionV : Direction} {boundaryH boundaryV : Int}
      {observed : SessionObservation} {capabilities : ResizeCapabilities} {staging : ResizeStaging}
      (h : s.planPointerResizeCorner domain window directionH boundaryH directionV boundaryV
        observed capabilities = .ok staging) : Stages s revision staging.desired
  | drop {capture : DragState} {x y : Int} {observed : SessionObservation}
      {capabilities : DragCapabilities} {staging : Staging DragPlan}
      {prior : Option PriorGroupEdge} (hdrag : s.drag = some capture)
      (h : s.planDrop capture x y observed capabilities = .ok (staging, prior)) :
      Stages s revision staging.desired

/-! ## The session's answer -/

/-- The session with a plan staged. -/
def staged (s : Session) (correlationId : CorrelationId) (kind : PendingKind)
    (desired : PendingDesired) (trace : Option SendPlacementTrace) : Session :=
  { s with
    reconciler := s.reconciler.opened correlationId kind
    pendingDesired := some desired
    drag := none
    lastSendPlacement := trace }

/-- The session with a divergence recorded. -/
def halted (s : Session) (reason : DivergenceKind) : Session :=
  { s with reconciler := s.reconciler.diverge reason, pendingDesired := none, drag := none }

/-- Everything transient but the reconciler's state discarded. -/
def cleared (s : Session) : Session := { s with pendingDesired := none, drag := none }

/-- A toggle that tiles an exception again. It is planned on a copy of the
session, so a divergence it reports is not recorded, and a plan it opens has
forgotten the float record. -/
def unfloats (s : Session) : Proposal → Bool
  | .command (.toggleFloat window _) .. => s.exceptions.contains window
  | _ => false

/-- The session a plan is staged over: the session itself, or the copy an
unfloat plans on. -/
inductive Basis (s : Session) (p : Proposal) : Session → Prop
  | self (h : s.unfloats p = false) : Basis s p s
  | unfloated {window : WindowId} {record : ExceptionRecord} {rect : Option Rect}
      {observed : SessionObservation} {candidate : Session} {command : AdmitCommand}
      (h : s.unfloats p = true) (hrecord : s.exceptions[window]? = some record)
      (hplan : s.planUnfloat window record rect observed = .ok (candidate, command)) :
      Basis s p candidate

/-- The answers of a session to any proposal: the session is as before, or
cleared or halted by a divergence, or without its drag, or it has staged a
world over its basis. -/
inductive Effect (s : Session) (p : Proposal) :
    Session → Except ProposeError (Option PlanBinding) → Prop
  | unchanged {e : ProposeError}
      (h : ∀ reason, e = .diverged reason → s.divergence = some reason ∨ s.unfloats p = true) :
      Effect s p s (.error e)
  | cleared {reason : DivergenceKind} (h : s.divergence = some reason) :
      Effect s p s.cleared (.error (.diverged reason))
  | halted {reason : DivergenceKind} (hp : s.unfloats p = false) (h : s.divergence = none) :
      Effect s p (s.halted reason) (.error (.diverged reason))
  | snappedBack : Effect s p { s with drag := none } (.ok none)
  | unsupported : Effect s p { s with drag := none } (.error (.refused .unsupportedCapability))
  | staged {basis : Session} {desired : PendingDesired} {correlationId : CorrelationId}
      {kind : PendingKind} {trace : Option SendPlacementTrace} (hbasis : Basis s p basis)
      (hstages : Stages basis s.acceptedRevision desired) (hdiverged : s.divergence = none)
      (hpending : s.hasPending = false) :
      Effect s p (basis.staged correlationId kind desired trace)
        (.ok (some ⟨correlationId, s.acceptedRevision⟩))

end Session

end PlasmaTiler
