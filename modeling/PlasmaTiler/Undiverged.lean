import PlasmaTiler.Boundary
import PlasmaTiler.Divergence
import PlasmaTiler.Planned

/-!
# Plans the reconciler accepts

The session derives a plan, and the reconciler checks it again on its own
terms; a plan it rejects is taken for a divergence and ends the session. The
two checks were written apart, so it is not obvious that they agree. Every
family passes but one: a keyboard resize whose pixel step asks the shares to
move against its mode. That happens where projected sizes are not what the
shares alone are worth, or where the shrinking child lies below the child
minimum and is clamped up to it.

The condition is read off the state before the step. `keyboardPair` is the
pair of children a keyboard step acts on, `reverses` says that the resize
passes the session's own checks and still moves a boundary against the
shares, and `proposeResize_undiverged_iff` that exactly these diverge.

For the other families each plan is shown to be made for its operation:
capability, preconditions and payload are what the reconciler asks of an
operation of this kind (`planFaults_none`), and failures of a plan are
rejections or blame the snapshot, never the session.
-/

namespace PlasmaTiler

/-! ## The reconciler's answer -/

namespace Reconciler

/-- The answer may be a success or a refusal, but it is no divergence. -/
def Undiverged {D : Type} (result : Except ProposeError D) : Prop :=
  ∀ reason, result ≠ .error (.diverged reason)

/-- An observation that binds the reconciler's state: made by its owner, in
its generation, at its verified revision, and with a revision left to commit
to. -/
structure Bound (r : Reconciler) (observation : Observation) : Prop where
  owner : observation.owner = r.owner
  generation : observation.generation = r.generation
  revision : observation.revision = r.verifiedRevision
  room : r.verifiedRevision < maxRevision

variable {D : Type} {r : Reconciler} {observation : Observation} {correlationId : CorrelationId}
  {faults : List (Bool × DivergenceKind)} {kind : PendingKind}

theorem bindingFault_eq_none (h : r.Bound observation) :
    r.bindingFault observation correlationId = none := by
  have hcorrelation : isCorrelationId correlationId.asStr = true := correlationId.valid_asStr
  have hvalid : observation.validate = true := by
    have howner : isOwnerId observation.owner.asStr = true := observation.owner.valid_asStr
    have hgeneration : isGenerationId observation.generation.asStr = true :=
      observation.generation.valid_asStr
    have hrevision : isRevision observation.revision = true := by
      rw [h.revision, isRevision]
      exact decide_eq_true h.room.le
    simp [Observation.validate, howner, hgeneration, hrevision]
  have hroom : ¬ maxRevision ≤ r.verifiedRevision := Nat.not_le.mpr h.room
  simp [bindingFault, firstFault, hcorrelation, hvalid, h.owner, h.generation, h.revision, hroom]

theorem undiverged_ok {d : D} : Undiverged (.ok d) := by
  rintro _ ⟨⟩

theorem undiverged_map {D' : Type} {f : D → D'} {result : Except ProposeError D} :
    Undiverged (result.map f) ↔ Undiverged result := by
  cases result with
  | ok d => exact iff_of_true undiverged_ok undiverged_ok
  | error e =>
    refine forall_congr' fun reason => not_congr ?_
    simp [Except.map]

theorem proposeWith_undiverged (hlive : r.diverged = none) (hbound : r.Bound observation)
    (hfaults : ∀ fault ∈ faults, fault.1 = false) :
    Undiverged (r.proposeWith observation correlationId faults kind).2 := by
  have hnone : firstFault faults = none := firstFault_eq_none.mpr hfaults
  unfold proposeWith
  rw [hlive]
  dsimp only
  split
  · rintro _ ⟨⟩
  · rw [bindingFault_eq_none hbound, hnone]
    exact undiverged_ok

theorem proposeWith_diverges {reason : DivergenceKind} (hlive : r.diverged = none)
    (hidle : r.pending = none) (hbound : r.Bound observation)
    (hfaults : firstFault faults = some reason) :
    (r.proposeWith observation correlationId faults kind).2 = .error (.diverged reason) := by
  simp [proposeWith, hlive, hidle, bindingFault_eq_none hbound, hfaults]

/-- A plan made for its operation carries that operation's payload. -/
theorem planFaults_none {I O C P : Type} [DecidableEq C] [DecidableEq P] {plan : PlanOf I O C P}
    {required : C} {preconditions : List P} {supported : Bool} {must : P}
    (hrequired : plan.requiredCapability = required) (hpreconditions : plan.preconditions = preconditions)
    (hsupported : supported = true) (hcount : preconditions.length ≤ maxPreconditions)
    (hmust : must ∈ preconditions) :
    ∀ fault ∈ planFaults plan required preconditions supported must, fault.1 = false := by
  subst hrequired hpreconditions hsupported
  simp [planFaults, hcount, hmust]

/-! ## The families -/

variable {capabilities : LifecycleCapabilities}

theorem proposeLifecycle_undiverged (hlive : r.diverged = none) (hbound : r.Bound observation)
    {intent : LifecycleIntent} {operation : LifecycleOperation}
    (hsupported : capabilities.supports operation.requiredCapability = true) :
    Undiverged (r.proposeLifecycle (.forOperation intent operation) observation correlationId
      capabilities).2 := by
  refine undiverged_map.mpr (proposeWith_undiverged hlive hbound ?_)
  refine List.forall_mem_cons.mpr ⟨by simp [LifecyclePlan.forOperation], ?_⟩
  refine planFaults_none rfl rfl hsupported (by simp [LifecycleOperation.preconditions, maxPreconditions]) ?_
  simp [LifecycleOperation.preconditions]

theorem propose_undiverged (hlive : r.diverged = none) (hbound : r.Bound observation)
    {intent : MoveIntent} {operation : MoveOperation} {capabilities : Capabilities}
    (hsupported : capabilities.supports operation.requiredCapability = true) :
    Undiverged (r.propose (.forOperation intent operation) observation correlationId
      capabilities).2 := by
  have hcount : operation.preconditions.length ≤ maxPreconditions := by
    cases operation <;> simp [MoveOperation.preconditions, maxPreconditions]
  have hmust : Precondition.adapterMustVerifyPostconditions ∈ operation.preconditions := by
    simp [MoveOperation.preconditions]
  refine undiverged_map.mpr (proposeWith_undiverged hlive hbound ?_)
  refine List.forall_mem_cons.mpr ⟨by simp [MovePlan.forOperation], ?_⟩
  exact planFaults_none rfl rfl hsupported hcount hmust

theorem proposeFocus_undiverged (hlive : r.diverged = none) (hbound : r.Bound observation)
    {intent : FocusIntent} {operation : FocusOperation} {capabilities : FocusCapabilities}
    (hsupported : capabilities.supports .directionalFocus = true)
    (hmoves : operation.fromLeaf ≠ some operation.toLeaf)
    (hleafless : operation.fromLeaf.isNone = true → operation.isCrossOutput = true)
    (hroute : operation.route ≠ []) :
    Undiverged (r.proposeFocus (.forOperation intent operation) observation correlationId
      capabilities).2 := by
  refine undiverged_map.mpr (proposeWith_undiverged hlive hbound ?_)
  refine List.forall_mem_append.mpr ⟨planFaults_none rfl rfl hsupported ?_ ?_, ?_⟩
  · simp [FocusPlanContract.forOperation, FocusOperation.preconditions, maxPreconditions]
  · simp [FocusPlanContract.forOperation, FocusOperation.preconditions]
  · cases hfrom : operation.fromLeaf.isNone with
    | false => simp [FocusPlanContract.forOperation, hmoves, hroute, hfrom]
    | true => simp [FocusPlanContract.forOperation, hmoves, hroute, hleafless hfrom]

theorem proposePointerResize_undiverged (hlive : r.diverged = none) (hbound : r.Bound observation)
    {key : DomainKey} {leaf : NodeId} {window : WindowId} {direction : Direction}
    {plan : PointerPlan} {capabilities : ResizeCapabilities}
    (hsupported : capabilities.supports .pointerResize = true)
    (hvalid : validFixedShareOperation
      (Session.pointerResizePlan key leaf window direction plan).operation = true) :
    Undiverged (r.proposePointerResize (Session.pointerResizePlan key leaf window direction plan)
      observation correlationId capabilities).2 := by
  refine undiverged_map.mpr (proposeWith_undiverged hlive hbound ?_)
  refine List.forall_mem_append.mpr ⟨planFaults_none rfl rfl hsupported ?_ ?_, ?_⟩
  · simp [ResizeOperation.preconditions, maxPreconditions]
  · simp [ResizeOperation.preconditions]
  · simp only [List.forall_mem_cons, hvalid, Bool.not_true, List.not_mem_nil, false_imp_iff,
      implies_true, and_true]
    simp [resizeIntentBinds, Session.pointerResizePlan, Session.resizeIntent,
      Session.resizeOperation]

theorem proposePointerResizeCorner_undiverged (hlive : r.diverged = none)
    (hbound : r.Bound observation) {key : DomainKey} {leaf : NodeId} {window : WindowId}
    {directionH directionV : Direction} {planH planV : PointerPlan}
    {capabilities : ResizeCapabilities} (hsupported : capabilities.supports .pointerResize = true)
    (haxes : Axis.forDirection directionH ≠ Axis.forDirection directionV)
    (hvalidH : validFixedShareOperation
      (Session.pointerResizePlan key leaf window directionH planH).operation = true)
    (hvalidV : validFixedShareOperation
      (Session.pointerResizePlan key leaf window directionV planV).operation = true) :
    Undiverged (r.proposePointerResizeCorner
      (Session.pointerResizePlan key leaf window directionH planH)
      (Session.pointerResizePlan key leaf window directionV planV) observation correlationId
      capabilities).2 := by
  have hplan : ∀ {direction : Direction} {plan : PointerPlan}, validFixedShareOperation
      (Session.pointerResizePlan key leaf window direction plan).operation = true →
      ∀ fault ∈ cornerPlanFaults (Session.pointerResizePlan key leaf window direction plan),
        fault.1 = false := by
    intro direction plan hvalid
    simp only [cornerPlanFaults, List.forall_mem_cons, hvalid, Bool.not_true, List.not_mem_nil,
      false_imp_iff, implies_true, and_true]
    simp [resizeIntentBinds, Session.pointerResizePlan, Session.resizeIntent,
      Session.resizeOperation]
  refine undiverged_map.mpr (proposeWith_undiverged hlive hbound ?_)
  refine List.forall_mem_append.mpr
    ⟨List.forall_mem_append.mpr ⟨hplan hvalidH, hplan hvalidV⟩, ?_⟩
  simpa [Session.pointerResizePlan, Session.resizeIntent, Session.resizeOperation,
    ResizeOperation.preconditions, maxPreconditions, hsupported] using haxes

theorem proposeDrag_undiverged (hlive : r.diverged = none) (hbound : r.Bound observation)
    {intent : DragIntent} {operation : DragOperation} {capabilities : DragCapabilities}
    (hsupported : capabilities.supports .placeTiled = true)
    (hintent : intent = ⟨operation.domainOutput, operation.domainWorkspace, operation.sourceLeaf,
      operation.sourceWindow, operation.targetLeaf, operation.targetWindow, operation.side⟩)
    (hvalid : validDragOperation operation = true) :
    Undiverged (r.proposeDrag (.forOperation intent operation) observation correlationId
      capabilities).2 := by
  refine undiverged_map.mpr (proposeWith_undiverged hlive hbound ?_)
  refine List.forall_mem_append.mpr ⟨planFaults_none rfl rfl hsupported ?_ ?_, ?_⟩
  · simp [DragOperation.preconditions, maxPreconditions]
  · simp [DragOperation.preconditions]
  · simp [DragPlan.forOperation, hintent, hvalid]

/-- The share checks decide a keyboard proposal: a plan made for its own
operation passes every other check of the reconciler. -/
theorem proposeResize_undiverged_iff (hlive : r.diverged = none) (hidle : r.pending = none)
    (hbound : r.Bound observation) {key : DomainKey} {leaf : NodeId} {window : WindowId}
    {direction : Direction} {mode : ResizeMode} {target : PointerTarget} {newShares : List Nat}
    {capabilities : ResizeCapabilities} (hsupported : capabilities.supports .keyboardResize = true) :
    Undiverged (r.proposeResize
        (.forOperation (Session.resizeIntent key leaf window direction mode)
          (Session.resizeOperation key leaf window direction mode target newShares))
        observation correlationId capabilities).2 ↔
      validResizeOperation
        (Session.resizeOperation key leaf window direction mode target newShares) = true := by
  have hplan : ∀ fault ∈ planFaults (ResizePlan.forOperation
      (Session.resizeIntent key leaf window direction mode)
      (Session.resizeOperation key leaf window direction mode target newShares))
      ResizeCapability.keyboardResize (ResizePlan.forOperation
        (Session.resizeIntent key leaf window direction mode)
        (Session.resizeOperation key leaf window direction mode target newShares)).operation.preconditions
      (capabilities.supports .keyboardResize) ResizePrecondition.adapterMustVerifyPostconditions,
      fault.1 = false :=
    planFaults_none rfl rfl hsupported (by simp [ResizeOperation.preconditions, maxPreconditions])
      (by simp [ResizeOperation.preconditions])
  have hbinds : resizeIntentBinds (ResizePlan.forOperation (Session.resizeIntent key leaf window direction mode)
      (Session.resizeOperation key leaf window direction mode target newShares)) = true := by
    simp [resizeIntentBinds, ResizePlan.forOperation, Session.resizeIntent, Session.resizeOperation]
  constructor
  · intro h
    by_contra hinvalid
    rw [Bool.not_eq_true] at hinvalid
    refine undiverged_map.mp h .postconditionMismatch (proposeWith_diverges hlive hidle hbound ?_)
    rw [firstFault_append, firstFault_eq_none.mpr hplan]
    simp [firstFault, hinvalid, ResizePlan.forOperation]
  · intro hvalid
    refine undiverged_map.mpr (proposeWith_undiverged hlive hbound ?_)
    refine List.forall_mem_append.mpr ⟨hplan, ?_⟩
    simp only [ResizePlan.forOperation, List.forall_mem_cons, hvalid, Bool.not_true,
      Bool.not_eq_false', List.not_mem_nil, false_imp_iff, implies_true, and_true]
    exact hbinds

end Reconciler

/-! ## The session's answer -/

/-- The observation a proposal is made against. It is the only argument the
binding of a plan looks at. -/
def Proposal.observation : Proposal → Observation
  | .command _ observed .. | .toggleOrientation _ observed .. | .fittedAdmit _ observed ..
  | .move _ _ _ observed .. | .focus _ _ _ observed .. | .crossOutputFocus _ _ _ observed ..
  | .floatCrossOutputFocus _ _ _ observed .. | .resize _ _ _ _ _ observed ..
  | .pointerResize _ _ _ _ observed .. | .pointerResizeCorner _ _ _ _ _ _ observed ..
  | .dropDrag _ _ observed .. => observed.observation

namespace Session

variable {s : Session} {p : Proposal} {window : WindowId} {observed : SessionObservation}
  {correlationId : CorrelationId}

/-- The answer may be a success or a refusal, but it is no divergence. -/
def Undiverged {α : Type} (result : Except ProposeError α) : Prop :=
  ∀ reason, result ≠ .error (.diverged reason)

/-- The capability a lifecycle proposal needs; the other families refuse
without theirs. -/
def supported (s : Session) : Proposal → Bool
  | .command (.admitWindow _) _ _ capabilities | .fittedAdmit _ _ _ capabilities =>
      capabilities.supports .admitTiled
  | .command (.remove _) _ _ capabilities => capabilities.supports .removeTiled
  | .command (.moveToWorkspace ..) _ _ capabilities
  | .command (.moveToOutput ..) _ _ capabilities => capabilities.supports .moveTiled
  | .command (.toggleFloat window _) _ _ capabilities =>
      capabilities.supports (if s.exceptions.contains window then .admitTiled else .removeTiled)
  | .command (.toggleOrientation _) _ _ capabilities
  | .toggleOrientation _ _ _ capabilities => capabilities.supports .toggleOrientation
  | _ => true

/-- A proposal against the session's own owner, generation and accepted
revision, with the capability it needs and a revision left. -/
structure Presents (s : Session) (p : Proposal) : Prop where
  owner : p.observation.owner = s.owner
  generation : p.observation.generation = s.generation
  revision : p.observation.revision = s.acceptedRevision
  room : s.acceptedRevision < maxRevision
  supported : s.supported p = true

/-- The reconciler goes by the session's owner and generation, so an
observation bound to one is bound to the other. -/
def OwnReconciler (s : Session) : Prop :=
  s.reconciler.owner = s.owner ∧ s.reconciler.generation = s.generation

theorem Step.ownReconciler {s' : Session} (h : OwnReconciler s) (hstep : Step s s') :
    OwnReconciler s' := by
  cases hstep with
  | staged hbasis _ _ _ =>
    cases hbasis with
    | self _ => exact h
    | unfloated _ _ hplan =>
      obtain ⟨-, -, -, -, -, rfl, -⟩ := planUnfloat_ok hplan
      exact h
  | _ => exact h

theorem ownReconciler_invariant : machine.Invariant OwnReconciler where
  initial s hs := by
    obtain ⟨owner, generation, revision, fingerprint, domains, hnew⟩ := hs
    simp only [new, Reconciler.new, bind_eq_ok, mapError_eq_ok, pure_eq_ok] at hnew
    obtain ⟨_, -, _, -, _, -, _, -, _, -, _, -, r, ⟨_, -, _, -, _, -, rfl⟩, rfl⟩ := hnew
    exact ⟨rfl, rfl⟩
  preserved s op h := Step.ownReconciler h (next_step op)

theorem Presents.bound (h : s.Presents p) (hown : OwnReconciler s) :
    s.reconciler.Bound p.observation :=
  ⟨h.owner.trans hown.1.symm, h.generation.trans hown.2.symm, h.revision, h.room⟩

theorem undiverged_ok {α : Type} {a : α} : Undiverged (.ok a) := by
  rintro _ ⟨⟩

theorem not_live {reason : DivergenceKind} (hlive : s.divergence = none)
    (h : s.divergence = some reason) : False := by
  rw [hlive] at h
  cases h

theorem undiverged_map {α β : Type} {f : α → β} {result : Except ProposeError α} :
    Undiverged (result.map f) ↔ Undiverged result := by
  cases result with
  | ok d => exact iff_of_true undiverged_ok undiverged_ok
  | error e =>
    refine forall_congr' fun reason => not_congr ?_
    simp [Except.map]

theorem stage_undiverged {D : Type} {verdict : Reconciler × Except Reconciler.ProposeError D}
    {desired : PendingDesired} :
    Undiverged (s.stage verdict desired).2 ↔ Reconciler.Undiverged verdict.2 := by
  obtain ⟨r, result⟩ := verdict
  cases result with
  | ok d => exact iff_of_true undiverged_ok Reconciler.undiverged_ok
  | error e =>
    cases e with
    | pendingExists => exact iff_of_true (by rintro _ ⟨⟩) (by rintro _ ⟨⟩)
    | diverged reason => exact iff_of_false (fun h => h reason rfl) fun h => h reason rfl

/-- Staging what was planned diverges exactly when the reconciler does. -/
theorem proposeStaged_undiverged {P D R : Type} {planned : Except ProposeError (Staging P)}
    {verdict : P → Reconciler × Except Reconciler.ProposeError D} {report : D → Staging P → R}
    (hlive : s.divergence = none) (hfaithful : s.Faithful planned) :
    Undiverged (s.proposeStaged planned verdict report).2 ↔
      ∀ staging, planned = .ok staging → Reconciler.Undiverged (verdict staging.plan).2 := by
  cases planned with
  | error e =>
    refine iff_of_true (fun reason h => ?_) (by rintro _ ⟨⟩)
    obtain rfl : e = .diverged reason := Except.error.inj h
    exact (not_live hlive (hfaithful reason rfl)).elim
  | ok staging =>
    have hsame : Undiverged (s.proposeStaged (.ok staging) verdict report).2 ↔
        Reconciler.Undiverged (verdict staging.plan).2 :=
      undiverged_map.trans stage_undiverged
    rw [hsame]
    constructor
    · rintro h _ ⟨⟩
      exact h
    · exact fun h => h staging rfl

/-! ## The lifecycle family -/

/-- The plan is made for an operation, and the capability that operation asks
for is this one. -/
def Needs (capability : LifecycleCapability) (plan : LifecyclePlan) : Prop :=
  ∃ intent operation, plan = .forOperation intent operation ∧
    operation.requiredCapability = capability

section
variable {staging : Staging LifecyclePlan}

theorem planAdmit_needs {c : AdmitCommand} (h : s.planAdmit c observed = .ok staging) :
    Needs .admitTiled staging.plan := by
  simp only [planAdmit, bind_eq_ok, refuseUnless, ensure_eq_ok, okOr_eq_ok] at h
  obtain ⟨_, -, _, -, entry, -, _, -, _, -, _, -, _, -, _, -, h⟩ := h
  split at h
  · simp only [planAdmitDeferred, bind_eq_ok, refuseUnless, ensure_eq_ok, pure_eq_ok] at h
    obtain ⟨_, -, rfl⟩ := h
    exact ⟨_, _, rfl, rfl⟩
  · split at h
    · cases h
      exact ⟨_, _, rfl, rfl⟩
    · simp only [planAdmitTiled, bind_eq_ok, refuseUnless, ensure_eq_ok, pure_eq_ok] at h
      obtain ⟨_, -, _, -, _, -, _, -, _, -, rfl⟩ := h
      exact ⟨_, _, rfl, rfl⟩

theorem planRemove_needs (h : s.planRemove window observed = .ok staging) :
    Needs .removeTiled staging.plan := by
  simp only [planRemove, bind_eq_ok, refuseUnless, ensure_eq_ok] at h
  obtain ⟨_, -, _, -, _, -, h⟩ := h
  split at h
  · cases h
    exact ⟨_, _, rfl, rfl⟩
  · simp only [planRemoveTiled, bind_eq_ok, refuseUnless, ensure_eq_ok] at h
    obtain ⟨_, -, _, -, h⟩ := h
    split at h
    · simp only [bind_eq_ok, pure_eq_ok] at h
      obtain ⟨_, -, rfl⟩ := h
      exact ⟨_, _, rfl, rfl⟩
    · simp only [bind_eq_ok, pure_eq_ok] at h
      obtain ⟨_, -, rfl⟩ := h
      exact ⟨_, _, rfl, rfl⟩
  · cases h

theorem planSend_needs {target : DomainKey} {follow cross : Bool} {trace : SendPlacementTrace}
    (h : s.planSend window target follow cross observed = .ok (staging, trace)) :
    Needs .moveTiled staging.plan := by
  simp only [planSend, bind_eq_ok, refuseUnless, ensure_eq_ok, okOr_eq_ok, pure_eq_ok,
    Prod.mk.injEq] at h
  obtain ⟨_, -, _, -, link, -, domain, -, leaf, -, _, -, _, -, _, -, _, -, d, -, _, -, _, -,
    ⟨n, ids⟩, -, _, -, _, -, _, -, _, -, rfl, -⟩ := h
  exact ⟨_, _, rfl, rfl⟩

theorem planToggleOrientation_needs (h : s.planToggleOrientation window observed = .ok staging) :
    Needs .toggleOrientation staging.plan := by
  simp only [planToggleOrientation, focusedTile, bind_eq_ok, refuseUnless, ensure_eq_ok,
    okOr_eq_ok, pure_eq_ok] at h
  obtain ⟨_, -, _, -, _, -, _, -, _, -, _, -, _, ⟨domain, -, leaf, -, _, -, rfl⟩, _, -, _, -,
    _, -, tree, -, parent, -, flipped, -, _, -, _, -, rfl⟩ := h
  exact ⟨_, _, rfl, rfl⟩

theorem planFittedAdmit_needs {f : FittedAdmit} (h : s.planFittedAdmit f observed = .ok staging) :
    Needs .admitTiled staging.plan := by
  simp only [planFittedAdmit, bind_eq_ok, refuseUnless, ensure_eq_ok, okOr_eq_ok, pure_eq_ok] at h
  obtain ⟨_, -, _, -, _, -, _, -, _, -, domain, -, _, -, _, -, windows, -, _, -, _, -, _, -, _, -, _,
    -, _, -, rfl⟩ := h
  exact ⟨_, _, rfl, rfl⟩

end

section
variable {planned : Except ProposeError (Staging LifecyclePlan)} {capability : LifecycleCapability}
  {capabilities : LifecycleCapabilities} {observation : Observation}

theorem proposeLifecyclePlan_undiverged (hlive : s.divergence = none)
    (hbound : s.reconciler.Bound observation) (hfaithful : s.Faithful planned)
    (hneeds : ∀ staging, planned = .ok staging → Needs capability staging.plan)
    (hsupported : capabilities.supports capability = true) :
    Undiverged (s.proposeLifecyclePlan planned observation correlationId capabilities).2 := by
  refine (proposeStaged_undiverged hlive hfaithful).mpr fun staging hplan => ?_
  obtain ⟨intent, operation, hoperation, hrequired⟩ := hneeds staging hplan
  rw [hoperation]
  exact Reconciler.proposeLifecycle_undiverged hlive hbound (by rw [hrequired]; exact hsupported)

theorem proposeSend_undiverged {target : DomainKey} {follow cross : Bool}
    (hlive : s.divergence = none) (hbound : s.reconciler.Bound observed.observation)
    (hsupported : capabilities.supports .moveTiled = true) :
    Undiverged
      (s.proposeSend window target follow cross observed correlationId capabilities).2 := by
  unfold proposeSend attempt
  cases hplan : s.planSend window target follow cross observed with
  | error e =>
    intro reason h
    obtain rfl : e = .diverged reason := Except.error.inj h
    exact (not_live hlive (planSend_faithful reason hplan)).elim
  | ok planned =>
    obtain ⟨staging, trace⟩ := planned
    have hstaged := @proposeLifecyclePlan_undiverged s correlationId (.ok staging) .moveTiled
      capabilities observed.observation hlive hbound (by rintro _ ⟨⟩)
      (by rintro _ ⟨⟩; exact planSend_needs hplan) hsupported
    dsimp only
    generalize s.proposeLifecyclePlan (.ok staging) observed.observation correlationId
      capabilities = answer at hstaged
    obtain ⟨s', result⟩ := answer
    cases result with
    | ok plan => exact undiverged_ok
    | error e => exact hstaged

theorem proposeToggleFloat_undiverged {rect : Option Rect} (hlive : s.divergence = none)
    (hbound : s.reconciler.Bound observed.observation)
    (hsupported : capabilities.supports
      (if s.exceptions.contains window then .admitTiled else .removeTiled) = true) :
    Undiverged (s.proposeToggleFloat window rect observed correlationId capabilities).2 := by
  unfold proposeToggleFloat
  cases hrecord : s.exceptions[window]? with
  | some record =>
    have hcontains : s.exceptions.contains window = true := by
      rw [Std.ExtTreeMap.contains_iff_mem, mem_iff_lookup]
      exact ⟨record, hrecord⟩
    rw [hcontains, if_pos rfl] at hsupported
    dsimp only
    cases hplan : s.planUnfloat window record rect observed with
    | error e =>
      intro reason h
      obtain rfl : e = .diverged reason := Except.error.inj h
      exact (not_live hlive (planUnfloat_faithful reason hplan)).elim
    | ok planned =>
      obtain ⟨candidate, command⟩ := planned
      obtain ⟨-, retained, -, -, -, rfl, -⟩ := planUnfloat_ok hplan
      have hstaged := @proposeLifecyclePlan_undiverged (s.unfloated window retained) correlationId
        ((s.unfloated window retained).planAdmit command (observed.settled window)) .admitTiled
        capabilities (observed.settled window).observation hlive hbound planAdmit_faithful
        (fun _ h => planAdmit_needs h) hsupported
      simp only [attempt, proposeAdmit]
      generalize (s.unfloated window retained).proposeLifecyclePlan _ _ correlationId
        capabilities = answer at hstaged ⊢
      obtain ⟨s', result⟩ := answer
      cases result with
      | ok plan => exact undiverged_ok
      | error e => exact hstaged
  | none =>
    have hcontains : s.exceptions.contains window = false := by
      rw [contains_eq_false, mem_iff_lookup, hrecord]
      simp
    rw [hcontains, if_neg Bool.false_ne_true] at hsupported
    dsimp only
    cases hplan : s.planFloat window rect observed with
    | error e =>
      intro reason h
      obtain rfl : e = .diverged reason := Except.error.inj h
      exact (not_live hlive (planFloat_faithful reason hplan)).elim
    | ok planned =>
      obtain ⟨target, effective⟩ := planned
      have hstaged := @proposeLifecyclePlan_undiverged s correlationId
        (s.planRemove window observed) .removeTiled capabilities observed.observation hlive hbound
        planRemove_faithful (fun _ h => planRemove_needs h) hsupported
      simp only [attempt, proposeRemove]
      generalize s.proposeLifecyclePlan _ _ correlationId capabilities = answer at hstaged ⊢
      obtain ⟨s', result⟩ := answer
      cases result with
      | ok plan =>
        dsimp only
        split <;> rintro _ ⟨⟩
      | error e => exact hstaged

theorem propose_undiverged {command : SessionCommand} (hlive : s.divergence = none)
    (hbound : s.reconciler.Bound observed.observation)
    (hsupported : s.supported (.command command observed correlationId capabilities) = true) :
    Undiverged (s.propose command observed correlationId capabilities).2 := by
  unfold propose
  cases hcheck : s.checkCommand command observed.windows with
  | error e =>
    intro reason h
    obtain rfl : e = .diverged reason := Except.error.inj h
    exact (not_live hlive (checkCommand_faithful reason hcheck)).elim
  | ok u =>
    cases command with
    | admitWindow c =>
      exact proposeLifecyclePlan_undiverged hlive hbound planAdmit_faithful
        (fun _ h => planAdmit_needs h) hsupported
    | remove window =>
      exact proposeLifecyclePlan_undiverged hlive hbound planRemove_faithful
        (fun _ h => planRemove_needs h) hsupported
    | moveToWorkspace window target follow => exact proposeSend_undiverged hlive hbound hsupported
    | moveToOutput window target follow => exact proposeSend_undiverged hlive hbound hsupported
    | toggleFloat window rect => exact proposeToggleFloat_undiverged hlive hbound hsupported
    | toggleOrientation window =>
      exact proposeLifecyclePlan_undiverged hlive hbound planToggleOrientation_faithful
        (fun _ h => planToggleOrientation_needs h) hsupported

end

end Session

/-! ## Moves and focus -/

section
variable {intent : MoveIntent} {source : Output} {snapshot : Snapshot} {plan : MovePlan}
  {capabilities : Capabilities}

theorem planLocal_planned {path : List PathLevel} (h : planLocal intent source path = .planned plan) :
    ∃ operation, plan = .forOperation intent operation := by
  unfold planLocal at h
  split at h
  · cases h
  · simp only [planAtLevel] at h
    repeat' split at h
    all_goals first
      | exact ⟨_, (MoveOutcome.planned.inj h).symm⟩
      | cases h

/-- Whenever validation fails it is with a rejection, not with an unsupported
or a no-op outcome. -/
def Rejects {α : Type} (x : Except MoveOutcome α) : Prop :=
  ∀ outcome, x = .error outcome → ∃ reason, outcome = .rejected reason

/-- The outcome calls the snapshot malformed, or misses the mover in it: both
blame what was shown and not what was asked. -/
def MoveOutcome.Malformed (outcome : MoveOutcome) : Prop :=
  ∃ reason, outcome = .rejected reason ∧
    (reason.kind = .malformedTopology ∨ reason.kind = .focusedLeafNotFound)

theorem malformed_rejected {message : String} :
    (rejected .malformedTopology message).Malformed := ⟨_, rfl, .inl rfl⟩

/-- Whatever fails, it is the snapshot that is blamed, so on a snapshot that
fits nothing fails. -/
def Blames {α : Type} (x : Except MoveOutcome α) : Prop :=
  ∀ outcome, x = .error outcome → outcome.Malformed

theorem Blames.bind {α β : Type} {x : Except MoveOutcome α} {f : α → Except MoveOutcome β}
    (hx : Blames x) (hf : ∀ a, Blames (f a)) : Blames (x >>= f) := by
  intro outcome h
  cases x with
  | error e => exact hx outcome (congrArg Except.error (Except.error.inj h))
  | ok a => exact hf a outcome h

theorem blames_ok {α : Type} {a : α} : Blames (.ok a : Except MoveOutcome α) := by
  intro outcome h
  cases h

theorem blames_malformed {α : Type} {message : String} :
    Blames (.error (rejected .malformedTopology message) : Except MoveOutcome α) := by
  rintro outcome ⟨⟩
  exact malformed_rejected

theorem blames_wellFormedOr {c : Bool} {message : String} : Blames (wellFormedOr c message) := by
  cases c
  · exact blames_malformed
  · exact blames_ok

theorem blames_checkOutputs {outputs : List Output} {seen : BTreeSet OutputId} :
    Blames (checkOutputs outputs seen) := by
  induction outputs generalizing seen with
  | nil => exact blames_ok
  | cons output outputs ih =>
    exact blames_wellFormedOr.bind fun _ => blames_wellFormedOr.bind fun _ => ih

theorem blames_checkLinks {outputs : List Output} {index : TreeIndex} {links : List WindowLink}
    {seen : BTreeSet WindowId} {linked : BTreeSet NodeId} :
    Blames (checkLinks outputs index links seen linked) := by
  induction links generalizing seen linked with
  | nil => exact blames_ok
  | cons link links ih =>
    refine blames_wellFormedOr.bind fun _ => blames_wellFormedOr.bind fun _ =>
      blames_wellFormedOr.bind fun _ => blames_wellFormedOr.bind fun _ => ?_
    split
    · exact blames_malformed
    · exact blames_wellFormedOr.bind fun _ => blames_wellFormedOr.bind fun _ =>
        blames_wellFormedOr.bind fun _ => ih

theorem blames_mapError {α : Type} {x : Except String α} :
    Blames (x.mapError (rejected .malformedTopology)) := by
  cases x with
  | ok a => exact blames_ok
  | error message => exact blames_malformed

theorem blames_validateSnapshot : Blames (validateSnapshot snapshot intent) := by
  refine blames_wellFormedOr.bind fun _ => blames_wellFormedOr.bind fun _ =>
    blames_checkOutputs.bind fun _ => blames_wellFormedOr.bind fun _ => ?_
  split
  · exact blames_malformed
  · refine blames_mapError.bind fun _ => blames_checkLinks.bind fun _ =>
      blames_wellFormedOr.bind fun _ => ?_
    split
    · exact blames_ok
    · split
      · rintro outcome ⟨⟩
        exact ⟨_, rfl, .inr rfl⟩
      · exact blames_malformed

theorem rejects_validateSnapshot : Rejects (validateSnapshot snapshot intent) := by
  intro outcome h
  obtain ⟨reason, houtcome, -⟩ := blames_validateSnapshot outcome h
  exact ⟨reason, houtcome⟩

theorem gate_planned {outcome : MoveOutcome} (h : gate outcome capabilities = .planned plan) :
    outcome = .planned plan ∧ capabilities.supports plan.requiredCapability = true := by
  unfold gate at h
  split at h
  · split at h
    · cases h
      exact ⟨rfl, ‹_›⟩
    · cases h
  · rename_i hother
    exact absurd h (hother _)

/-- A planned move is made for its operation, which the adapter supports:
every branch that plans passes the gate, fallbacks included. -/
theorem planMoveWithCapabilities_planned
    (h : planMoveWithCapabilities snapshot intent capabilities = .planned plan) :
    ∃ operation, plan = .forOperation intent operation ∧
      capabilities.supports operation.requiredCapability = true := by
  have hgated : ∀ {outcome : MoveOutcome}, gate outcome capabilities = .planned plan →
      (∃ operation, outcome = .planned (.forOperation intent operation)) →
      ∃ operation, plan = .forOperation intent operation ∧
        capabilities.supports operation.requiredCapability = true := by
    rintro outcome hgate ⟨operation, rfl⟩
    obtain ⟨hplan, hsupported⟩ := gate_planned hgate
    obtain rfl := MoveOutcome.planned.inj hplan
    exact ⟨operation, rfl, hsupported⟩
  have hcross : ∀ {source : Output} {index : Nat},
      planCross snapshot intent source index capabilities = .planned plan →
      ∃ operation, plan = .forOperation intent operation ∧
        capabilities.supports operation.requiredCapability = true := by
    intro source index h
    unfold planCross at h
    split at h
    · cases h
    · split at h
      · cases h
      · split at h
        · cases h
        · exact hgated h ⟨_, rfl⟩
  unfold planMoveWithCapabilities at h
  split at h
  · rename_i outcome herror
    obtain ⟨reason, rfl⟩ := rejects_validateSnapshot outcome herror
    cases h
  · split at h
    · cases h
    · split at h
      · cases h
      · dsimp only at h
        split at h
        · rename_i local' hlocal
          obtain ⟨operation, rfl⟩ := planLocal_planned hlocal
          rw [hlocal] at h
          exact hgated h ⟨operation, rfl⟩
        · rename_i hother
          split at h
          · exact absurd (gate_planned h).1 (hother _)
          · exact hcross h

end

theorem descendFocusTarget_route {direction : Direction} {n : Node} {leaf : NodeId}
    {route : List NodeId} (h : descendFocusTarget direction n = some (leaf, route)) : route ≠ [] := by
  cases n with
  | leaf id =>
    cases h
    exact List.cons_ne_nil _ _
  | group id axis children shares =>
    rw [descendFocusTarget] at h
    obtain ⟨⟨_, _⟩, -, heq⟩ := Option.map_eq_some_iff.mp h
    cases heq
    exact List.cons_ne_nil _ _

theorem planFocus_route {tree : Node} {focused leaf : NodeId} {direction : Direction}
    {route : List NodeId} (h : planFocus tree focused direction = some (.focused leaf route)) :
    route ≠ [] := by
  unfold planFocus at h
  split at h
  · cases h
  split at h
  · cases h
  obtain ⟨path, -, h⟩ := Option.bind_eq_some_iff.mp h
  split at h
  · cases h
  · obtain ⟨⟨_, _⟩, htarget, heq⟩ := Option.map_eq_some_iff.mp h
    cases heq
    exact descendFocusTarget_route htarget

namespace Session

variable {s : Session} {domain : DomainKey} {window : WindowId} {direction : Direction}
  {observed : SessionObservation} {correlationId : CorrelationId}

theorem domainAt_named (hs : s.Valid) {d : OutputDomain} (h : s.domainAt domain = some d) :
    domain.output.isEmpty = false ∧ domain.workspace.isEmpty = false := by
  obtain ⟨hmem, rfl⟩ := domainAt_eq_some h
  have hvalid := hs.domain_valid d hmem
  simp only [OutputDomain.validate, Bool.and_eq_true, Bool.not_eq_true'] at hvalid
  exact ⟨hvalid.1.1.1.1.1.1.1.1, hvalid.1.1.1.1.1.1.1.2⟩

theorem proposeMove_undiverged {capabilities : Capabilities} {sameAxisMove : SameAxisMove}
    (hlive : s.divergence = none) (hbound : s.reconciler.Bound observed.observation) :
    Undiverged (s.proposeMoveWithSameAxis domain window direction observed correlationId
      capabilities sameAxisMove).2 := by
  refine (proposeStaged_undiverged hlive planMoveWithSameAxis_faithful).mpr fun staging hplan => ?_
  obtain ⟨leaf, snapshot, applied, -, -, hplanned, -⟩ := planMoveWithSameAxis_ok hplan
  obtain ⟨operation, hoperation, hsupported⟩ := planMoveWithCapabilities_planned hplanned
  rw [hoperation]
  exact Reconciler.propose_undiverged hlive hbound hsupported

theorem proposeFocus_undiverged {capabilities : FocusCapabilities} (hlive : s.divergence = none)
    (hbound : s.reconciler.Bound observed.observation) :
    Undiverged
      (s.proposeFocus domain window direction observed correlationId capabilities).2 := by
  refine (proposeStaged_undiverged hlive planFocusIn_faithful).mpr fun staging hplan => ?_
  simp only [planFocusIn, bind_eq_ok, refuseUnless, ensure_eq_ok, okOr_eq_ok] at hplan
  obtain ⟨_, -, _, -, _, -, leaf, -, _, -, tree, -, plan, hfocus, hplan⟩ := hplan
  split at hplan
  · cases hplan
  · simp only [bind_eq_ok, okOr_eq_ok, ensure_eq_ok, pure_eq_ok] at hplan
    obtain ⟨target, -, _, -, _, hmoves, _, hsupported, _, -, rfl⟩ := hplan
    refine Reconciler.proposeFocus_undiverged hlive hbound hsupported ?_ (fun h => ?_)
      (planFocus_route hfocus)
    · exact fun heq => bne_iff_ne.mp hmoves (Option.some.inj heq).symm
    · cases h

/-- The adjacent domain lies on another output. -/
theorem adjacentDomain_ne (hs : s.Valid) {source target : OutputDomain} (hsource : source ∈ s.domains)
    (h : s.adjacentDomain source direction = some target) : source.key ≠ target.key := by
  simp only [adjacentDomain, Option.bind_eq_bind, Option.bind_eq_some_iff] at h
  obtain ⟨output, houtput, h⟩ := h
  split at h
  · rename_i found hfilter
    split at h
    · cases h
      have hid : target.id = output := by
        have hmem : target ∈ s.domains.filter (·.id == output) := by
          rw [hfilter]
          exact List.mem_singleton.mpr rfl
        simpa using (List.mem_filter.mp hmem).2
      have hvalid := hs.domain_valid source hsource
      simp only [OutputDomain.validate, Bool.and_eq_true, List.all_eq_true, bne_iff_ne] at hvalid
      have hne := (hvalid.2 output (mem_values_of_lookup houtput)).2
      intro hkey
      exact hne (hid.symm.trans (congrArg DomainKey.output hkey).symm)
    · cases h
  · cases h

theorem crossOutputFocus_undiverged {capabilities : FocusCapabilities} {floatSubject : Bool}
    (hlive : s.divergence = none) (hbound : s.reconciler.Bound observed.observation) :
    Undiverged (s.crossOutputFocus domain window direction observed correlationId capabilities
      floatSubject).2 := by
  refine (proposeStaged_undiverged hlive planCrossOutputFocus_faithful).mpr fun staging hplan => ?_
  simp only [planCrossOutputFocus, checkFocusRequest, bind_eq_ok, refuseUnless, ensure_eq_ok,
    validateCurrentTopology_iff] at hplan
  obtain ⟨_, -, _, -, _, ⟨_, -, _, hs, -⟩, hplan⟩ := hplan
  split at hplan
  · simp only [bind_eq_ok, ensure_eq_ok, okOr_eq_ok, pure_eq_ok, map_eq_ok] at hplan
    obtain ⟨_, ⟨_, -, rfl⟩, _, -, source, -, target, -, _, -, leaf, -, _, -, _, -, _, hsupported, _, -,
      rfl⟩ := hplan
    exact Reconciler.proposeFocus_undiverged hlive hbound hsupported (by simp) (fun _ => rfl) (by simp)
  · simp only [bind_eq_ok, ensure_eq_ok, okOr_eq_ok, pure_eq_ok, map_eq_ok] at hplan
    obtain ⟨_, ⟨leaf, hedge, rfl⟩, _, -, source, hsource, target, htarget, _, -, targetLeaf, -,
      targetWindow, htargetWindow, _, -, _, hsupported, _, -, rfl⟩ := hplan
    refine Reconciler.proposeFocus_undiverged hlive hbound hsupported ?_ (fun _ => rfl) (by simp)
    -- one leaf is linked in one domain only
    intro heq
    obtain rfl : leaf = targetLeaf := Option.some.inj heq
    obtain ⟨hmem, rfl⟩ := domainAt_eq_some hsource
    simp only [checkEdgeSubject, checkFocusIs, bind_eq_ok, refuseUnless, ensure_eq_ok, okOr_eq_ok,
      pure_eq_ok] at hedge
    obtain ⟨_, -, _, ⟨_, -, _, -, _, -, subject, hwindow, _, -, _, -, rfl⟩, _, -, _, -, _, -, rfl⟩ :=
      hedge
    obtain ⟨w, link, hlink, hleaf, hkey, -⟩ := focusedWindowFor_eq_some hwindow
    obtain ⟨w', link', hlink', hleaf', hkey', -⟩ := focusedWindowFor_eq_some htargetWindow
    obtain rfl := hs.leaf_inj hlink hlink' (hleaf.trans hleaf'.symm)
    obtain rfl := Option.some.inj (hlink.symm.trans hlink')
    exact adjacentDomain_ne hs hmem htarget (hkey.symm.trans hkey')

/-! ## Resizes -/

section
variable {capabilities : ResizeCapabilities}

/-- The pair a keyboard step acts on: at the first level it plans at. -/
def keyboardPair (s : Session) (domain : DomainKey) (direction : Direction) (mode : ResizeMode)
    (pressIndex : Nat) (observed : List ObservedWindow) : Option ResizePair := do
  let leaf ← s.focusedLeaf
  let ownDomain ← s.domainAt domain
  let tree ← treeAt s.trees domain
  let geometry ← (s.acceptedGeometry ownDomain tree observed).toOption
  let levels ← pointerPath leaf tree
  let level ← levels.find? fun level =>
    (keyboardLevel tree geometry direction mode (keyboardStepPx pressIndex) level).any
      LevelStep.plans
  (← resizePairAt tree geometry direction level)

/-- A keyboard resize that passes the session's own checks and moves a boundary
against the shares. -/
def reverses (s : Session) : Proposal → Bool
  | .resize domain window direction mode pressIndex observed _ capabilities =>
      (s.planKeyboardResize domain window direction mode pressIndex observed capabilities).isOk &&
        (s.keyboardPair domain direction mode pressIndex observed.windows).any
          (·.reverses mode (keyboardStepPx pressIndex) (Axis.forDirection direction))
  | _ => false

/-- What a planned keyboard resize was derived from: the pair under the focus,
the size the step aims at, and shares that pass the checks except for the
sense of the step. -/
theorem planKeyboardResize_derived {mode : ResizeMode} {pressIndex : Nat} {staging : ResizeStaging}
    (h : s.planKeyboardResize domain window direction mode pressIndex observed capabilities =
      .ok staging) :
    s.reconciler.pending = none ∧ capabilities.supports .keyboardResize = true ∧
      ∃ leaf p left newShares,
        s.keyboardPair domain direction mode pressIndex observed.windows = some p ∧
        p.stepLeft mode (keyboardStepPx pressIndex) (Axis.forDirection direction) = some left ∧
        staging.plan.1 = .forOperation (resizeIntent domain leaf window direction mode)
          (resizeOperation domain leaf window direction mode p.target newShares) ∧
        Reconciler.validFixedShareOperation
          (resizeOperation domain leaf window direction mode p.target newShares) = true ∧
        (Reconciler.validKeyboardResizeMode
            (resizeOperation domain leaf window direction mode p.target newShares) = true ↔
          (p.shrinksLeft mode = true ↔ left ≤ p.leftShareSize)) := by
  simp only [planKeyboardResize, checkFocusRequest, checkFocusIs, bind_eq_ok, refuseUnless,
    ensure_eq_ok, okOr_eq_ok, pure_eq_ok, beq_iff_eq, validateCurrentTopology_iff,
    Bool.not_eq_true'] at h
  obtain ⟨_, hidle, _, ⟨_, -, _, hs, _, hwindow, -⟩, _, -, _, ⟨_, hdomain, leaf, hleaf, _, rfl, _, hlink, _,
    -, _, -, rfl⟩, _, -, _, hsupported, ownDomain, hown, tree, htree, geometry, hgeometry, derived,
    hderived, h⟩ := h
  obtain ⟨-, hpending, -⟩ := checkIdle_ok hidle
  have hnone : s.reconciler.pending = none := by simpa [hasPending] using hpending
  refine ⟨hnone, hsupported, leaf, ?_⟩
  split at h
  · cases h
  · cases h
  · rename_i target newShares
    simp only [bind_eq_ok, ensure_eq_ok, okOr_eq_ok, pure_eq_ok] at h
    obtain ⟨updated, -, ⟨trees, after⟩, -, _, -, rfl⟩ := h
    have hok := (hs.tree_ok htree).idsOk
    obtain ⟨houtput, hworkspace⟩ := domainAt_named hs hown
    unfold deriveKeyboardPixelShares at hderived
    split at hderived
    · cases hderived
    · rename_i hshape
      rw [not_or, Bool.not_eq_true] at hshape
      split at hderived
      · cases hderived
      · rename_i levels hpath
        obtain ⟨level, hmem, hfind, hlevel⟩ := walkLevels_planned hderived
        obtain ⟨p, left, hp, hleft, hshares, -, rfl⟩ := keyboardLevel_planned hlevel
        obtain ⟨rfl, hfound⟩ := ResizePair.found_of_resizePairAt hp
        have hshows := pointerPath_shows hpath _ hmem
        refine ⟨p, left, newShares, ?_, hleft, rfl, resizeOperation_valid hok hshows hfound hshares
          houtput hworkspace hshape.1 hwindow⟩
        simp only [keyboardPair, hleaf, hown, htree, hgeometry, hpath, hfind, hp, Except.toOption,
          Option.bind_eq_bind, Option.bind_some]

/-- A keyboard resize diverges exactly when it reverses: what the session
plans passes every check of the reconciler but the one on the sense of the
step. -/
theorem proposeResize_undiverged_iff {mode : ResizeMode} {pressIndex : Nat}
    (hlive : s.divergence = none) (hbound : s.reconciler.Bound observed.observation) :
    Undiverged (s.proposeResize domain window direction mode pressIndex observed correlationId
        capabilities).2 ↔
      s.reverses (.resize domain window direction mode pressIndex observed correlationId
        capabilities) = false := by
  refine (proposeStaged_undiverged hlive planKeyboardResize_faithful).trans ?_
  rw [reverses]
  cases hplan : s.planKeyboardResize domain window direction mode pressIndex observed
    capabilities with
  | error e =>
    refine iff_of_true (fun staging h => ?_) rfl
    cases h
  | ok staging =>
    obtain ⟨hidle, hsupported, leaf, p, left, newShares, hpair, hleft, hstaging, hshares, hmode⟩ :=
      planKeyboardResize_derived hplan
    have hverdict : Reconciler.Undiverged (s.reconciler.proposeResize
          (.forOperation (resizeIntent domain leaf window direction mode)
            (resizeOperation domain leaf window direction mode p.target newShares))
          observed.observation correlationId capabilities).2 ↔
        Reconciler.validResizeOperation
          (resizeOperation domain leaf window direction mode p.target newShares) = true :=
      Reconciler.proposeResize_undiverged_iff hlive hidle hbound hsupported
    rw [Reconciler.validResizeOperation, hshares, Bool.true_and, hmode] at hverdict
    simp only [hpair, Option.any_some, ResizePair.reverses, hleft, Except.isOk, Except.toBool,
      Bool.true_and, bne_eq_false_iff_eq]
    constructor
    · intro h
      have hstaged := h staging rfl
      rw [hstaging] at hstaged
      have hside := hverdict.mp hstaged
      cases hshrinks : p.shrinksLeft mode with
      | false =>
        rw [hshrinks] at hside
        exact (decide_eq_false fun hle => Bool.false_ne_true (hside.mpr hle)).symm
      | true =>
        rw [hshrinks] at hside
        exact (decide_eq_true (hside.mp rfl)).symm
    · rintro hside _ ⟨⟩
      rw [hstaging]
      refine hverdict.mpr ?_
      rw [hside, decide_eq_true_eq]

theorem pointerDerive_valid {tree updated : Node} {geometry : List DesiredGeometry}
    {request : PointerRequest} {boundary : Int} {plan : PointerPlan} (hok : IdsOk tree)
    (houtput : domain.output.isEmpty = false) (hworkspace : domain.workspace.isEmpty = false)
    (hwindow : window.isEmpty = false)
    (h : pointerDerive tree geometry request direction boundary = .ok (plan, updated)) :
    Reconciler.validFixedShareOperation
      (pointerResizePlan domain request.targetLeaf window direction plan).operation = true := by
  simp only [pointerDerive, bind_eq_ok, okOr_eq_ok] at h
  obtain ⟨derived, hderived, h⟩ := h
  split at h
  · rename_i found
    simp only [bind_eq_ok, okOr_eq_ok, pure_eq_ok, Prod.mk.injEq] at h
    obtain ⟨_, -, rfl, -⟩ := h
    unfold derivePointerShares at hderived
    split at hderived
    · cases hderived
    · rename_i hleaf
      rw [Bool.not_eq_true] at hleaf
      split at hderived
      · cases hderived
      · rename_i levels hpath
        obtain ⟨level, hmem, -, hlevel⟩ := walkLevels_planned hderived
        obtain ⟨p, left, hp, hshares, htarget⟩ := pointerLevelStep_planned hlevel
        obtain ⟨rfl, hfound⟩ := ResizePair.found_of_resizePairAt hp
        have hshows := pointerPath_shows hpath _ hmem
        have hvalid : Reconciler.validFixedShareOperation (resizeOperation domain
            request.targetLeaf window direction found.mode p.target found.newShares) = true :=
          (resizeOperation_valid hok hshows hfound hshares houtput hworkspace hleaf hwindow).1
        rw [← htarget] at hvalid
        exact hvalid
  · cases h

theorem checkPointerRequest_named {windows : List ObservedWindow} {request : PointerRequest}
    (h : s.checkPointerRequest domain window windows capabilities = .ok request) :
    s.Valid ∧ domain.output.isEmpty = false ∧ domain.workspace.isEmpty = false ∧
      window.isEmpty = false ∧ capabilities.supports .pointerResize = true := by
  simp only [checkPointerRequest, bind_eq_ok, refuseUnless, ensure_eq_ok, okOr_eq_ok, pure_eq_ok,
    validateCurrentTopology_iff, Bool.not_eq_true'] at h
  obtain ⟨ownDomain, hown, _, hs, _, hwindow, _, -, _, -, _, -, _, -, _, -, _, -, _, -, _, -, _, -, _, -,
    _, -, _, -, _, -, _, hsupported, -⟩ := h
  obtain ⟨houtput, hworkspace⟩ := domainAt_named hs hown
  exact ⟨hs, houtput, hworkspace, hwindow, hsupported⟩

theorem proposePointerResize_undiverged {boundary : Int} (hlive : s.divergence = none)
    (hbound : s.reconciler.Bound observed.observation) :
    Undiverged (s.proposePointerResize domain window direction boundary observed correlationId
      capabilities).2 := by
  refine (proposeStaged_undiverged hlive planPointerResize_faithful).mpr fun staging hplan => ?_
  simp only [planPointerResize, pointerTree, bind_eq_ok, refuseUnless, ensure_eq_ok, okOr_eq_ok,
    pure_eq_ok] at hplan
  obtain ⟨_, -, request, hrequest, _, -, _, ⟨tree, htree, _, -, _, -, rfl⟩, ⟨plan, updated⟩, hderive,
    ⟨trees, geometry⟩, -, _, -, _, -, _, -, rfl⟩ := hplan
  obtain ⟨hs, houtput, hworkspace, hwindow, hsupported⟩ := checkPointerRequest_named hrequest
  exact Reconciler.proposePointerResize_undiverged hlive hbound hsupported
    (pointerDerive_valid (hs.tree_ok htree).idsOk houtput hworkspace hwindow hderive)

theorem proposePointerResizeCorner_undiverged {directionH directionV : Direction}
    {boundaryH boundaryV : Int} (hlive : s.divergence = none)
    (hbound : s.reconciler.Bound observed.observation) :
    Undiverged (s.proposePointerResizeCorner domain window directionH boundaryH directionV
      boundaryV observed correlationId capabilities).2 := by
  refine (proposeStaged_undiverged hlive planPointerResizeCorner_faithful).mpr
    fun staging hplan => ?_
  simp only [planPointerResizeCorner, pointerTree, bind_eq_ok, refuseUnless, ensure_eq_ok,
    okOr_eq_ok, pure_eq_ok, Bool.and_eq_true, beq_iff_eq] at hplan
  obtain ⟨_, -, _, ⟨hH, hV⟩, request, hrequest, _, -, _, ⟨tree, htree, _, -, _, -, rfl⟩,
    ⟨planH, between⟩, hderiveH, _, -, ⟨planV, updated⟩, hderiveV, ⟨trees, geometry⟩, -, _, -, _, -, _,
    -, _, -, rfl⟩ := hplan
  obtain ⟨hs, houtput, hworkspace, hwindow, hsupported⟩ := checkPointerRequest_named hrequest
  have hok := (hs.tree_ok htree).idsOk
  -- the horizontal step keeps the ids of the tree the vertical one works on
  have hbetween : IdsOk between := by
    have hids := (pointerDerive_reshaped hderiveH).ids
    exact ⟨hids ▸ hok.nodup, hids ▸ hok.nonempty⟩
  refine Reconciler.proposePointerResizeCorner_undiverged hlive hbound hsupported ?_
    (pointerDerive_valid hok houtput hworkspace hwindow hderiveH)
    (pointerDerive_valid hbetween houtput hworkspace hwindow hderiveV)
  rw [hH, hV]
  decide

end

end Session

end PlasmaTiler
