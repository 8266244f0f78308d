import PlasmaTiler.Proposing

/-!
# Every proposal has an effect

There are about twenty proposals and most of what is proved about sessions is
about all of them. `proposal_effect` classifies their outcomes once, into the
few of `Session.Effect`, and the invariants are then shown case by case of
the effect and never proposal by proposal.

Each family needs three facts: its plan reports no divergence of its own,
what it stages is in `Stages`, and its reconciler entry point answers with a
verdict. `staging_effect` turns these into an effect. The sends, the
intentional float and the drop change the session once more after staging,
and are taken separately: a send records its placement, an unfloat stages
over a copy, a drop ends its capture whatever comes of it.
-/

namespace PlasmaTiler

/-! ## Verdicts of the families -/

namespace Reconciler

variable {r : Reconciler} {observation : Observation} {correlationId : CorrelationId}

theorem propose_verdict {plan : MovePlan} {capabilities : Capabilities} :
    Verdict r observation correlationId (r.propose plan observation correlationId capabilities).1
      ((r.propose plan observation correlationId capabilities).2.map fun d => d.binding) :=
  proposeWith_verdict rfl

theorem proposeLifecycle_verdict {plan : LifecyclePlan} {capabilities : LifecycleCapabilities} :
    Verdict r observation correlationId
      (r.proposeLifecycle plan observation correlationId capabilities).1
      ((r.proposeLifecycle plan observation correlationId capabilities).2.map fun d =>
        d.binding) :=
  proposeWith_verdict rfl

theorem proposeFocus_verdict {plan : FocusPlanContract} {capabilities : FocusCapabilities} :
    Verdict r observation correlationId
      (r.proposeFocus plan observation correlationId capabilities).1
      ((r.proposeFocus plan observation correlationId capabilities).2.map fun d => d.binding) :=
  proposeWith_verdict rfl

theorem proposeResize_verdict {plan : ResizePlan} {capabilities : ResizeCapabilities} :
    Verdict r observation correlationId
      (r.proposeResize plan observation correlationId capabilities).1
      ((r.proposeResize plan observation correlationId capabilities).2.map fun d => d.binding) :=
  proposeWith_verdict rfl

theorem proposePointerResize_verdict {plan : ResizePlan} {capabilities : ResizeCapabilities} :
    Verdict r observation correlationId
      (r.proposePointerResize plan observation correlationId capabilities).1
      ((r.proposePointerResize plan observation correlationId capabilities).2.map fun d =>
        d.binding) :=
  proposeWith_verdict rfl

theorem proposePointerResizeCorner_verdict {primary secondary : ResizePlan}
    {capabilities : ResizeCapabilities} :
    Verdict r observation correlationId
      (r.proposePointerResizeCorner primary secondary observation correlationId capabilities).1
      ((r.proposePointerResizeCorner primary secondary observation correlationId
        capabilities).2.map fun d => d.binding) :=
  proposeWith_verdict rfl

theorem proposeDrag_verdict {plan : DragPlan} {capabilities : DragCapabilities} :
    Verdict r observation correlationId
      (r.proposeDrag plan observation correlationId capabilities).1
      ((r.proposeDrag plan observation correlationId capabilities).2.map fun d => d.binding) :=
  proposeWith_verdict rfl

end Reconciler

namespace Session

variable {s : Session} {p : Proposal} {observation : Observation} {correlationId : CorrelationId}
  {P D R : Type}

/-! ## Staging -/

/-- The answers of `stage`: the plan is opened over the session as it is, or
nothing is. -/
inductive Staged (s : Session) (observation : Observation) (correlationId : CorrelationId)
    (desired : PendingDesired) : Session → Except ProposeError PlanBinding → Prop
  | cleared {reason : DivergenceKind} (h : s.divergence = some reason) :
      Staged s observation correlationId desired s.cleared (.error (.diverged reason))
  | busy (h : s.hasPending = true) :
      Staged s observation correlationId desired s (.error .pendingExists)
  | halted {reason : DivergenceKind} (h : s.divergence = none) :
      Staged s observation correlationId desired (s.halted reason) (.error (.diverged reason))
  | opened {kind : PendingKind} (hdiverged : s.divergence = none) (hpending : s.hasPending = false)
      (hrevision : observation.revision = s.acceptedRevision) :
      Staged s observation correlationId desired
        { s with reconciler := s.reconciler.opened correlationId kind
                 pendingDesired := some desired }
        (.ok ⟨correlationId, s.acceptedRevision⟩)

theorem stage_staged {desired : PendingDesired} {binding : D → PlanBinding}
    {verdict : Reconciler × Except Reconciler.ProposeError D}
    (h : s.reconciler.Verdict observation correlationId verdict.1 (verdict.2.map binding)) :
    Staged s observation correlationId desired (s.stage verdict desired).1
      ((s.stage verdict desired).2.map binding) := by
  obtain ⟨r, result⟩ := verdict
  cases result with
  | ok d =>
    change Staged s observation correlationId desired _ (.ok (binding d))
    simp only [Except.map] at h
    generalize binding d = b at h ⊢
    cases h with
    | opened hdiverged hpending hrevision =>
      exact .opened hdiverged (by simp [hasPending, hpending]) hrevision
  | error e =>
    cases h with
    | halted h => exact .cleared h
    | busy h => exact .busy h
    | diverged h => exact .halted h

/-- A staged plan with a report answers as staging does. -/
theorem proposeStaged_staged {staging : Staging P} {report : D → Staging P → R}
    {verdict : P → Reconciler × Except Reconciler.ProposeError D} {binding : D → PlanBinding}
    {named : R → PlanBinding} (hreport : ∀ d, named (report d staging) = binding d)
    (h : s.reconciler.Verdict observation correlationId (verdict staging.plan).1
      ((verdict staging.plan).2.map binding)) :
    Staged s observation correlationId staging.desired
      (s.proposeStaged (.ok staging) verdict report).1
      ((s.proposeStaged (.ok staging) verdict report).2.map named) := by
  have hstaged : Staged s observation correlationId staging.desired _ _ := stage_staged h
  have hnamed : (s.proposeStaged (.ok staging) verdict report).2.map named =
      (s.stage (verdict staging.plan) staging.desired).2.map binding := by
    rw [← funext hreport]
    exact map_map
  rw [hnamed]
  exact hstaged

/-- Staging over an idle session is an effect. -/
theorem Staged.effect {desired : PendingDesired} {s' : Session}
    {result : Except ProposeError PlanBinding} (hp : s.unfloats p = false)
    (hdrag : s.drag = none) (hstages : Stages s observation.revision desired)
    (h : Staged s observation correlationId desired s' result) :
    Effect s p s' (result.map some) := by
  cases h with
  | cleared h => exact .cleared h
  | busy h => exact .unchanged nofun
  | halted h => exact .halted hp h
  | opened hdiverged hpending hrevision =>
    rename_i kind
    have heq : { s with reconciler := s.reconciler.opened correlationId kind
                        pendingDesired := some desired } =
        s.staged correlationId kind desired s.lastSendPlacement := by
      simp [staged, hdrag]
    rw [heq]
    exact .staged (.self hp) (hrevision ▸ hstages) hdiverged hpending

/-- A planned proposal has an effect. -/
theorem staging_effect {planned : Except ProposeError (Staging P)} {report : D → Staging P → R}
    {verdict : P → Reconciler × Except Reconciler.ProposeError D} (binding : D → PlanBinding)
    (named : R → PlanBinding) (hp : s.unfloats p = false) (hfaithful : s.Faithful planned)
    (hplanned : ∀ staging, planned = .ok staging →
      s.drag = none ∧ Stages s observation.revision staging.desired)
    (hreport : ∀ d staging, named (report d staging) = binding d)
    (hverdict : ∀ plan, s.reconciler.Verdict observation correlationId (verdict plan).1
      ((verdict plan).2.map binding)) :
    Effect s p (s.proposeStaged planned verdict report).1
      ((s.proposeStaged planned verdict report).2.map fun r => some (named r)) := by
  cases planned with
  | error e => exact .unchanged fun reason he => .inl (hfaithful reason (by rw [he]))
  | ok staging =>
    obtain ⟨hdrag, hstages⟩ := hplanned staging rfl
    have hstaged := proposeStaged_staged (fun d => hreport d staging) (hverdict staging.plan)
    have heffect := hstaged.effect hp hdrag hstages
    rw [map_map] at heffect
    exact heffect

/-! ## The lifecycle families -/

theorem checkIdle_ok {u : Unit} (h : s.checkIdle = .ok u) :
    s.divergence = none ∧ s.hasPending = false ∧ s.drag = none := by
  unfold checkIdle at h
  split at h
  · cases h
  · have hidle := ensure_eq_ok.mp h
    simp only [hasDrag, Bool.and_eq_true, Bool.not_eq_true', Option.isSome_eq_false_iff,
      Option.isNone_iff_eq_none] at hidle
    exact ⟨‹_›, hidle.1, hidle.2⟩

theorem checkSettled_ok {u : Unit} (h : s.checkSettled = .ok u) : s.drag = none := by
  unfold checkSettled at h
  split at h
  · cases h
  · have hidle := ensure_eq_ok.mp h
    simp only [hasDrag, Bool.and_eq_true, Bool.not_eq_true', Option.isSome_eq_false_iff,
      Option.isNone_iff_eq_none] at hidle
    exact hidle.2

variable {observed : SessionObservation} {capabilities : LifecycleCapabilities}

/-- A planned lifecycle operation has an effect. -/
theorem proposeLifecyclePlan_effect {planned : Except ProposeError (Staging LifecyclePlan)}
    (hp : s.unfloats p = false) (hfaithful : s.Faithful planned)
    (hplanned : ∀ staging, planned = .ok staging →
      s.drag = none ∧ Stages s observation.revision staging.desired) :
    Effect s p (s.proposeLifecyclePlan planned observation correlationId capabilities).1
      ((s.proposeLifecyclePlan planned observation correlationId capabilities).2.map fun plan =>
        some plan.dispatch.binding) :=
  staging_effect (fun d : LifecycleDispatch => d.binding)
    (fun plan : SessionPlan => plan.dispatch.binding) hp hfaithful hplanned
    (fun _ _ => rfl) fun _ => Reconciler.proposeLifecycle_verdict

theorem proposeLifecyclePlan_staged {staging : Staging LifecyclePlan} :
    Staged s observation correlationId staging.desired
      (s.proposeLifecyclePlan (.ok staging) observation correlationId capabilities).1
      ((s.proposeLifecyclePlan (.ok staging) observation correlationId capabilities).2.map
        fun plan => plan.dispatch.binding) :=
  proposeStaged_staged (fun _ => rfl) Reconciler.proposeLifecycle_verdict

theorem checkCommand_ok {command : SessionCommand} {windows : List ObservedWindow} {u : Unit}
    (h : s.checkCommand command windows = .ok u) :
    s.drag = none ∧ validCommandShapes command = true ∧ validObservedShapes windows = true ∧
      s.checkDomains command windows = true := by
  simp only [checkCommand, bind_eq_ok, refuseUnless, ensure_eq_ok] at h
  obtain ⟨_, hidle, _, -, _, hcommand, _, hshapes, hdomains⟩ := h
  exact ⟨(checkIdle_ok hidle).2.2, hcommand, hshapes, hdomains⟩

/-- The window of an admission, its home and its domain. -/
theorem admit_known {c : AdmitCommand} {windows : List ObservedWindow}
    (hcommand : validCommandShapes (.admitWindow c) = true)
    (hdomains : s.checkDomains (.admitWindow c) windows = true) :
    (!c.window.isEmpty && !c.output.isEmpty && !c.workspace.isEmpty) = true ∧
      (s.domainFor c.output c.workspace).isSome = true := by
  simp only [validCommandShapes, checkDomains, Bool.and_eq_true] at hcommand hdomains ⊢
  exact ⟨hcommand.1, hdomains.1⟩

/-- A send records its placement when its plan is staged. -/
theorem proposeSend_effect {window : WindowId} {target : DomainKey} {follow cross : Bool}
    (hp : s.unfloats p = false) (hdrag : s.drag = none) :
    Effect s p
      (s.proposeSend window target follow cross observed correlationId capabilities).1
      ((s.proposeSend window target follow cross observed correlationId capabilities).2.map
        fun plan => some plan.dispatch.binding) := by
  unfold proposeSend attempt
  cases hplan : s.planSend window target follow cross observed with
  | error e => exact .unchanged fun reason he => .inl (planSend_faithful reason (by rw [hplan, he]))
  | ok planned =>
    obtain ⟨staging, trace⟩ := planned
    have hstaged := @proposeLifecyclePlan_staged s observed.observation correlationId capabilities
      staging
    dsimp only
    generalize s.proposeLifecyclePlan (.ok staging) observed.observation correlationId
      capabilities = answer at hstaged
    obtain ⟨s', result⟩ := answer
    cases result with
    | error e => exact hstaged.effect hp hdrag (.send rfl hplan)
    | ok plan =>
      change Effect s p _ (.ok (some plan.dispatch.binding))
      simp only [Except.map] at hstaged
      generalize plan.dispatch.binding = b at hstaged ⊢
      cases hstaged with
      | @opened kind hdiverged hpending hrevision =>
        have heq : { s with reconciler := s.reconciler.opened correlationId kind
                            pendingDesired := some staging.desired
                            lastSendPlacement := some trace } =
            s.staged correlationId kind staging.desired (some trace) := by
          simp [staged, hdrag]
        dsimp only
        rw [heq]
        exact .staged (.self hp) (.send hrevision hplan) hdiverged hpending

/-- What planning an unfloat has established. -/
theorem planUnfloat_ok {window : WindowId} {record : ExceptionRecord} {rect : Option Rect}
    {candidate : Session} {command : AdmitCommand}
    (h : s.planUnfloat window record rect observed = .ok (candidate, command)) :
    ∃ (target : ObservedWindow) (retained : Option Rect),
      observed.windows.find? (·.window == window) = some target ∧
      record.flags = .plainFloat ∧ target.key = record.key ∧
      candidate = s.unfloated window retained ∧ command.window = window ∧
      command.output = target.output ∧ command.workspace = target.workspace ∧
      command.exceptions = .none ∧ command.suppressFixedFloat = true ∧
      (s.domainFor command.output command.workspace).isSome = true := by
  simp only [planUnfloat, bind_eq_ok, refuseUnless, ensure_eq_ok, okOr_eq_ok, pure_eq_ok,
    Prod.mk.injEq, Bool.and_eq_true, beq_iff_eq] at h
  obtain ⟨_, hflags, target, htarget, _, ⟨⟨-, houtput⟩, hworkspace⟩, requested, -, domain, hdomain,
    rfl, rfl⟩ := h
  refine ⟨target, _, htarget, hflags, ?_, rfl, rfl, rfl, rfl, rfl, rfl, ?_⟩
  · rw [ObservedWindow.key, ExceptionRecord.key, houtput, hworkspace]
  · exact Option.isSome_iff_exists.mpr ⟨domain, hdomain⟩

theorem toggleFloat_effect {window : WindowId} {rect : Option Rect}
    (hp : p = .command (.toggleFloat window rect) observed correlationId capabilities)
    (hcheck : s.checkCommand (.toggleFloat window rect) observed.windows = .ok ()) :
    Effect s p
      (s.proposeToggleFloat window rect observed correlationId capabilities).1
      ((s.proposeToggleFloat window rect observed correlationId capabilities).2.map fun plan =>
        some plan.dispatch.binding) := by
  obtain ⟨hdrag, hcommand, hshapes, hdomains⟩ := checkCommand_ok hcheck
  unfold proposeToggleFloat
  split
  · -- unfloat: planned on the copy, which replaces the session when it is accepted
    rename_i record hrecord
    have hunfloats : s.unfloats p = true := by
      rw [hp, unfloats, Std.ExtTreeMap.contains_iff_mem, mem_iff_lookup]
      exact ⟨record, hrecord⟩
    have hfailed : ∀ e, Effect s p s (.error e) := fun e => .unchanged fun _ _ => .inr hunfloats
    cases hplan : s.planUnfloat window record rect observed with
    | error e => exact hfailed e
    | ok planned =>
      obtain ⟨candidate, command⟩ := planned
      obtain ⟨target, retained, htarget, -, -, rfl, hwindow, houtput, hworkspace, -, -, hknown⟩ :=
        planUnfloat_ok hplan
      simp only [attempt, proposeAdmit]
      cases hadmit : (s.unfloated window retained).planAdmit command (observed.settled window) with
      | error e => exact hfailed e
      | ok staging =>
        have hstaged := @proposeLifecyclePlan_staged (s.unfloated window retained)
          (observed.settled window).observation correlationId capabilities staging
        generalize (s.unfloated window retained).proposeLifecyclePlan (.ok staging)
          (observed.settled window).observation correlationId capabilities = answer at hstaged ⊢
        obtain ⟨s', result⟩ := answer
        cases result with
        | error e => exact hfailed e
        | ok plan =>
          change Effect s p s' (.ok (some plan.dispatch.binding))
          simp only [Except.map] at hstaged
          generalize plan.dispatch.binding = b at hstaged ⊢
          cases hstaged with
          | @opened kind hdiverged hpending hrevision =>
            have heq : { s.unfloated window retained with
                reconciler := s.reconciler.opened correlationId kind
                pendingDesired := some staging.desired } =
                (s.unfloated window retained).staged correlationId kind staging.desired
                  s.lastSendPlacement := by
              simp [staged, unfloated, hdrag]
            rw [show (s.unfloated window retained).reconciler = s.reconciler from rfl, heq]
            refine .staged (.unfloated hunfloats hrecord hplan)
              (.admission ?_ hknown hrevision hadmit) hdiverged hpending
            have hids := List.all_eq_true.mp (Bool.and_eq_true_iff.mp hshapes).1 target
              (List.mem_of_find?_eq_some htarget)
            simp only [validCommandShapes, Bool.and_eq_true] at hcommand hids
            rw [hwindow, houtput, hworkspace, hcommand.1, hids.1.2, hids.2]
            rfl
  · -- float: the removal is staged first and its pending world edited
    rename_i hrecord
    have hp' : s.unfloats p = false := by
      rw [hp, unfloats, contains_eq_false, mem_iff_lookup, hrecord]
      simp
    cases hfloat : s.planFloat window rect observed with
    | error e => exact .unchanged fun reason he => .inl (planFloat_faithful reason (by rw [hfloat, he]))
    | ok planned =>
      obtain ⟨target, effective⟩ := planned
      simp only [attempt, proposeRemove]
      cases hremove : s.planRemove window observed with
      | error e =>
        exact .unchanged fun reason he => .inl (planRemove_faithful reason (by rw [hremove, he]))
      | ok staging =>
        have hstaged := @proposeLifecyclePlan_staged s observed.observation correlationId
          capabilities staging
        generalize s.proposeLifecyclePlan (.ok staging) observed.observation correlationId
          capabilities = answer at hstaged ⊢
        obtain ⟨s', result⟩ := answer
        cases result with
        | error e => exact hstaged.effect hp' hdrag (.remove hremove)
        | ok plan =>
          simp only [Except.map] at hstaged
          generalize hb : plan.dispatch.binding = b at hstaged
          cases hstaged with
          | @opened kind hdiverged hpending hrevision =>
            have heq : { s with
                reconciler := s.reconciler.opened correlationId kind
                pendingDesired := some (staging.desired.floated target window effective) } =
                s.staged correlationId kind (staging.desired.floated target window effective)
                  s.lastSendPlacement := by
              simp [staged, hdrag]
            simp only [Except.map, hb]
            rw [heq]
            simp only [validCommandShapes, checkDomains, Bool.and_eq_true] at hcommand hdomains
            exact .staged (.self hp') (.float hcommand.1 hshapes hdomains.2 hfloat hremove) hdiverged
              hpending

theorem propose_effect {command : SessionCommand} :
    Effect s (.command command observed correlationId capabilities)
      (s.propose command observed correlationId capabilities).1
      ((s.propose command observed correlationId capabilities).2.map fun plan =>
        some plan.dispatch.binding) := by
  unfold propose
  cases hcheck : s.checkCommand command observed.windows with
  | error e =>
    exact .unchanged fun reason he => .inl (checkCommand_faithful reason (by rw [hcheck, he]))
  | ok u =>
    obtain ⟨hdrag, hcommand, -, hdomains⟩ := checkCommand_ok hcheck
    cases command with
    | admitWindow c =>
      obtain ⟨hids, hknown⟩ := admit_known hcommand hdomains
      exact proposeLifecyclePlan_effect rfl planAdmit_faithful fun staging h =>
        ⟨hdrag, .admission hids hknown rfl h⟩
    | remove window =>
      exact proposeLifecyclePlan_effect rfl planRemove_faithful fun staging h =>
        ⟨hdrag, .remove h⟩
    | moveToWorkspace window target follow => exact proposeSend_effect rfl hdrag
    | moveToOutput window target follow => exact proposeSend_effect rfl hdrag
    | toggleFloat window rect => exact toggleFloat_effect rfl hcheck
    | toggleOrientation window =>
      exact proposeLifecyclePlan_effect rfl planToggleOrientation_faithful fun staging h =>
        ⟨hdrag, .toggleOrientation h⟩

/-! ## The other families -/

/-- A plan that begins by checking that the session is idle. -/
theorem idle_of_plan {α : Type} {f : Unit → Except ProposeError α} {a : α}
    {planned : Except ProposeError α} (hplanned : planned = s.checkIdle >>= f)
    (h : planned = .ok a) : s.drag = none := by
  obtain ⟨_, hidle, -⟩ := bind_eq_ok.mp (hplanned ▸ h)
  exact (checkIdle_ok hidle).2.2

theorem dropDrag_effect {x y : Int} {capabilities : DragCapabilities}
    (hp : s.unfloats p = false) :
    Effect s p (s.dropDrag x y observed correlationId capabilities).1
      ((s.dropDrag x y observed correlationId capabilities).2.map fun
        | .planned plan => some plan.dispatch.binding
        | .snapBack _ => none) := by
  unfold dropDrag
  split
  · exact .cleared ‹_›
  · rename_i hdiverged
    split
    · exact .unchanged nofun
    · rename_i capture hdrag
      by_cases hpending : s.hasPending
      · rw [if_pos hpending]
        exact .unchanged nofun
      · rw [if_neg hpending]
        cases hplan : s.planDrop capture x y observed capabilities with
        | error fault =>
          cases fault with
          | snapBack => exact .snappedBack
          | unsupported => exact .unsupported
        | ok planned =>
          obtain ⟨staging, prior⟩ := planned
          have hstages : Stages s observed.observation.revision staging.desired := .drop hdrag hplan
          have hstaged := @proposeStaged_staged (s.hovering prior) observed.observation correlationId
            _ _ _ staging
            (fun dispatch staging =>
              ({ s.planOf dispatch staging.desired staging.geometry with
                dragPlan := staging.plan } : SessionDragPlan))
            (fun plan =>
              s.reconciler.proposeDrag plan observed.observation correlationId capabilities)
            (fun d => d.binding) (fun plan => plan.dispatch.binding) (fun _ => rfl)
            Reconciler.proposeDrag_verdict
          dsimp only
          generalize (s.hovering prior).proposeStaged (.ok staging) _ _ = answer at hstaged ⊢
          obtain ⟨s', result⟩ := answer
          cases result with
          | error e =>
            cases hstaged with
            | cleared h => exact .cleared h
            | busy h => exact absurd h hpending
            | halted h => exact .halted hp h
          | ok plan =>
            change Effect s p _ (.ok (some plan.dispatch.binding))
            simp only [Except.map] at hstaged
            generalize plan.dispatch.binding = b at hstaged ⊢
            cases hstaged with
            | @opened kind hdiverged hpending hrevision =>
              change Effect s p (s.staged correlationId kind staging.desired s.lastSendPlacement) _
              exact .staged (.self hp) (hrevision ▸ hstages) hdiverged hpending

theorem proposal_effect : Effect s p (s.proposal p).1 (s.proposal p).2 := by
  cases p with
  | command command observed correlationId capabilities => exact propose_effect
  | toggleOrientation window observed correlationId capabilities =>
    exact proposeLifecyclePlan_effect rfl planToggleOrientation_faithful fun staging h =>
      ⟨idle_of_plan rfl h, .toggleOrientation h⟩
  | fittedAdmit fitted observed correlationId capabilities =>
    refine proposeLifecyclePlan_effect rfl planFittedAdmit_faithful fun staging h => ?_
    obtain ⟨_, hsettled, -⟩ := bind_eq_ok.mp h
    exact ⟨checkSettled_ok hsettled, .fittedAdmit h⟩
  | move domain window direction observed correlationId capabilities sameAxisMove =>
    exact staging_effect (fun d : Dispatch => d.binding)
      (fun plan : SessionMovePlan => plan.dispatch.binding) rfl
      planMoveWithSameAxis_faithful (fun staging h => ⟨idle_of_plan rfl h, .move rfl h⟩) (fun _ _ => rfl)
      fun _ => Reconciler.propose_verdict
  | focus domain window direction observed correlationId capabilities =>
    exact staging_effect (fun d : FocusDispatch => d.binding)
      (fun plan : SessionFocusPlan => plan.dispatch.binding) rfl
      planFocusIn_faithful (fun staging h => ⟨idle_of_plan rfl h, .focus h⟩) (fun _ _ => rfl)
      fun _ => Reconciler.proposeFocus_verdict
  | crossOutputFocus domain window direction observed correlationId capabilities =>
    exact staging_effect (fun d : FocusDispatch => d.binding)
      (fun plan : SessionFocusPlan => plan.dispatch.binding) rfl
      planCrossOutputFocus_faithful (fun staging h => ⟨idle_of_plan rfl h, .crossOutputFocus h⟩) (fun _ _ => rfl)
      fun _ => Reconciler.proposeFocus_verdict
  | floatCrossOutputFocus domain window direction observed correlationId capabilities =>
    exact staging_effect (fun d : FocusDispatch => d.binding)
      (fun plan : SessionFocusPlan => plan.dispatch.binding) rfl
      planCrossOutputFocus_faithful (fun staging h => ⟨idle_of_plan rfl h, .crossOutputFocus h⟩) (fun _ _ => rfl)
      fun _ => Reconciler.proposeFocus_verdict
  | resize domain window direction mode pressIndex observed correlationId capabilities =>
    exact staging_effect (fun d : ResizeDispatch => d.binding)
      (fun plan : SessionResizePlan => plan.dispatch.binding) rfl
      planKeyboardResize_faithful (fun staging h => ⟨idle_of_plan rfl h, .resize h⟩) (fun _ _ => rfl)
      fun _ => Reconciler.proposeResize_verdict
  | pointerResize domain window direction boundary observed correlationId capabilities =>
    exact staging_effect (fun d : ResizeDispatch => d.binding)
      (fun plan : SessionResizePlan => plan.dispatch.binding) rfl
      planPointerResize_faithful (fun staging h => ⟨idle_of_plan rfl h, .pointerResize h⟩) (fun _ _ => rfl)
      fun _ => Reconciler.proposePointerResize_verdict
  | pointerResizeCorner domain window directionH boundaryH directionV boundaryV observed
      correlationId capabilities =>
    exact staging_effect (fun d : ResizeDispatch => d.binding)
      (fun plan : SessionResizePlan => plan.dispatch.binding) rfl
      planPointerResizeCorner_faithful (fun staging h => ⟨idle_of_plan rfl h, .pointerResizeCorner h⟩) (fun _ _ => rfl)
      fun _ => Reconciler.proposePointerResizeCorner_verdict
  | dropDrag x y observed correlationId capabilities => exact dropDrag_effect rfl

end Session

end PlasmaTiler
