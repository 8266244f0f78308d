import PlasmaTiler.SessionIds
import PlasmaTiler.Undiverged

/-!
# Between requests

A request proposes, acknowledges and verifies in one go, so what it stores is
settled again: nothing recorded, pending, staged or dragged. That is a fact
about sequences of calls, and the calls do not have it one by one: a proposal
opens a plan, and an acknowledgement leaves it open until it is verified.

Here is what a call keeps of a session on the way. It keeps the domains
unless it relocates one, and the owner, the generation and the settings
unless it sets them (`SameStamp`, `next_stamp`, `next_identity`). It keeps
the revision in the range of what a message can carry, and the revision after
the open plan as well (`Bounded`): a plan is refused at the maximum, so the
range is never left, but the bound has to speak of the open plan to survive
the verification.

The last part says when a session is settled again. An accepted proposal ends
the drag (`proposal_undragged`), a verification that commits leaves nothing
open (`Verified.settled`), and a convergence on the session's own observation
leaves it settled whether or not it is refused, since only a fault of the
observation could halt it.
-/

namespace PlasmaTiler

/-- The call changes a setting. -/
def SessionOp.isSetting : SessionOp → Bool
  | .setFixedSizeAdmission _ | .setMaximizedFocusFence _ | .setFixedSizePredicate _ => true
  | _ => false

/-- The call moves a domain to another output. -/
def SessionOp.isRelocation : SessionOp → Bool
  | .relocateDomain .. => true
  | _ => false

/-- A committed convergence records no divergence. -/
theorem Reconciler.commitObservationConvergence_live {r r' : Reconciler} {fingerprint : Nat}
    {commit : Commit} (h : r.commitObservationConvergence fingerprint = .ok (r', commit)) :
    r'.diverged = r.diverged := by
  unfold commitObservationConvergence at h
  split at h
  · cases h
  · split at h
    · cases h
    · split at h
      · cases h
      · cases h
        rfl

namespace Session

variable {s s' t : Session}

/-! ## What a call keeps -/

/-- Domains, identity and settings are the same: what no proposal and no
commit ever changes. -/
structure SameStamp (s s' : Session) : Prop where
  domains : s'.domains = s.domains
  stamp : s'.stamp = s.stamp

theorem SameStamp.refl : s.SameStamp s := ⟨rfl, rfl⟩

theorem SameSession.sameStamp (h : s.SameSession s') : s.SameStamp s' := ⟨h.domains, h.stamp⟩

theorem Basis.sameStamp {p : Proposal} (h : Basis s p s') : s.SameStamp s' := by
  cases h with
  | self _ => exact .refl
  | unfloated _ _ hplan =>
    obtain ⟨_, _, -, -, -, rfl, -⟩ := planUnfloat_ok hplan
    exact ⟨rfl, rfl⟩

theorem Effect.sameStamp {p : Proposal} {result : Except ProposeError (Option PlanBinding)}
    (h : Effect s p s' result) : s.SameStamp s' := by
  cases h with
  | unchanged _ => exact .refl
  | cleared _ | halted _ _ => exact ⟨rfl, rfl⟩
  | snappedBack | unsupported => exact ⟨rfl, rfl⟩
  | staged hbasis _ _ _ => exact ⟨hbasis.sameStamp.domains, hbasis.sameStamp.stamp⟩

theorem Verified.sameStamp {result : Except VerifyError Commit} (h : Verified s s' result) :
    s.SameStamp s' := by
  cases h with
  | unchanged _ _ => exact .refl
  | cleared _ | halted _ | bare _ _ _ | committed _ _ _ => exact ⟨rfl, rfl⟩

theorem verification_sameStamp {v : Verification} : s.SameStamp (s.verification v).1 := by
  rcases @verification_verified s v with hanswer | ⟨s', commit, hanswer, heq⟩
  · exact hanswer.sameStamp
  · rw [heq]
    exact ⟨hanswer.sameStamp.domains, hanswer.sameStamp.stamp⟩

theorem convergeObservation_sameStamp {observation : SessionObservation}
    {observedFocus : Option WindowId} :
    s.SameStamp (s.convergeObservation observation observedFocus).1 := by
  have hanswer := @convergeObservation_convergence s observation observedFocus
  generalize s.convergeObservation observation observedFocus = answer at hanswer ⊢
  obtain ⟨s', result⟩ := answer
  cases hanswer with
  | unchanged => exact .refl
  | halted _ | refocused _ _ _ _ _ | converged _ _ _ _ _ _ => exact ⟨rfl, rfl⟩

theorem updateDomainGaps_stamp {key : DomainKey} {bounds : Rect} {gap : Int} :
    (s.updateDomainGaps key bounds gap).1.stamp = s.stamp := by
  unfold updateDomainGaps
  split
  · rfl
  · dsimp only
    split <;> rfl

theorem relocateDomain_stamp {source target : DomainKey} {bounds : Rect} {gap : Int} :
    (s.relocateDomain source target bounds gap).1.stamp = s.stamp := by
  unfold relocateDomain
  split
  · rfl
  · dsimp only
    split <;> rfl

/-- No call but a setting changes whom the session belongs to or how it is
set. -/
theorem next_stamp {op : SessionOp} (h : op.isSetting = false) : (s.next op).stamp = s.stamp := by
  cases op with
  | propose p => exact proposal_effect.sameStamp.stamp
  | acknowledge ack => exact acknowledge_same.stamp
  | verify v => exact verification_sameStamp.stamp
  | cancelUnackedPending correlationId baseRevision => exact cancelUnackedPending_same.stamp
  | noteAdapterLoss | notePostconditionMismatch => rfl
  | convergeObservation observation observedFocus => exact convergeObservation_sameStamp.stamp
  | updateDomainGaps key bounds gap => exact updateDomainGaps_stamp
  | relocateDomain source target bounds gap => exact relocateDomain_stamp
  | syncFocusFromWindow domain window => exact syncFocusFromWindow_same.stamp
  | beginDrag window observed => exact (withDrag_same beginDrag_withDrag).stamp
  | carryDragPrior carried => exact (withDrag_same carryDragPrior_withDrag).stamp
  | previewDrag x y observed => exact (withDrag_same previewDrag_withDrag).stamp
  | cancelDrag =>
    have hcancel : s.next .cancelDrag = s.withDrag none := cancelDrag_withDrag
    rw [hcancel]
    rfl
  | setFixedSizeAdmission enabled | setMaximizedFocusFence enabled
  | setFixedSizePredicate predicate => cases h

/-- Nobody else gets a session by a call. -/
theorem next_identity {op : SessionOp} {owner : OwnerId} {generation : GenerationId}
    (h : s.owner = owner ∧ s.generation = generation) :
    (s.next op).owner = owner ∧ (s.next op).generation = generation := by
  cases hop : op.isSetting with
  | true =>
    cases op with
    | setFixedSizeAdmission _ | setMaximizedFocusFence _ | setFixedSizePredicate _ => exact h
    | _ => cases hop
  | false =>
    have hstamp := @next_stamp s op hop
    simp only [stamp, Prod.mk.injEq] at hstamp
    exact ⟨hstamp.1.trans h.1, hstamp.2.1.trans h.2⟩

/-- The keys of the domains, in their order. -/
def domainKeys (s : Session) : List DomainKey := s.domains.map OutputDomain.key

theorem domainKeys_updateDomain {key : DomainKey} {f : OutputDomain → OutputDomain}
    (hf : ∀ d : OutputDomain, (f d).key = d.key) (domains : List OutputDomain) :
    (updateDomain domains key f).map OutputDomain.key = domains.map OutputDomain.key := by
  induction domains with
  | nil => rfl
  | cons d rest ih =>
    rw [updateDomain]
    split
    · rw [List.map_cons, hf, List.map_cons]
    · rw [List.map_cons, ih, List.map_cons]

theorem updateDomainGaps_keys {key : DomainKey} {bounds : Rect} {gap : Int} :
    (s.updateDomainGaps key bounds gap).1.domainKeys = s.domainKeys := by
  unfold updateDomainGaps
  split
  · rfl
  · dsimp only
    split
    · exact @domainKeys_updateDomain key (fun d => { d with bounds, gap }) (fun _ => rfl) s.domains
    · rfl

theorem reprojectDomain_keys {key : DomainKey} {bounds : Rect} :
    (s.reprojectDomain key bounds).domainKeys = s.domainKeys :=
  @domainKeys_updateDomain key (fun d => { d with bounds }) (fun _ => rfl) s.domains

theorem relocateDomain_keys {source target : DomainKey} {bounds : Rect} {gap : Int}
    (h : s.domainKeys = [source]) (hok : s.relocateDomain source target bounds gap = (s', true)) :
    s'.domainKeys = [target] := by
  unfold relocateDomain at hok
  split at hok
  · cases hok
  · rename_i hguard
    simp only [Bool.or_eq_true, not_or, bne_iff_ne, ne_eq, not_not] at hguard
    have hworkspace : source.workspace = target.workspace := hguard.1.1.1.1.1.1.1.1.1.1.2
    dsimp only at hok
    split at hok
    · cases hok
      obtain ⟨d, hdomains, rfl⟩ := List.map_eq_singleton_iff.mp h
      rw [domainKeys, relocated]
      dsimp only
      rw [hdomains, updateDomain, if_pos rfl]
      exact congrArg (fun workspace => [(⟨target.output, workspace⟩ : DomainKey)]) hworkspace
    · cases hok

/-- No call but a relocation changes which domains a session has. -/
theorem next_keys {op : SessionOp} (h : op.isRelocation = false) :
    (s.next op).domainKeys = s.domainKeys := by
  have hsame : s.SameStamp (s.next op) → (s.next op).domainKeys = s.domainKeys := fun h => by
    rw [domainKeys, h.domains]
    rfl
  cases op with
  | propose p => exact hsame proposal_effect.sameStamp
  | acknowledge ack => exact hsame acknowledge_same.sameStamp
  | verify v => exact hsame verification_sameStamp
  | cancelUnackedPending correlationId baseRevision => exact hsame cancelUnackedPending_same.sameStamp
  | noteAdapterLoss | notePostconditionMismatch => rfl
  | convergeObservation observation observedFocus => exact hsame convergeObservation_sameStamp
  | updateDomainGaps key bounds gap => exact updateDomainGaps_keys
  | relocateDomain source target bounds gap => cases h
  | syncFocusFromWindow domain window => exact hsame syncFocusFromWindow_same.sameStamp
  | beginDrag window observed => exact hsame (withDrag_same beginDrag_withDrag).sameStamp
  | carryDragPrior carried => exact hsame (withDrag_same carryDragPrior_withDrag).sameStamp
  | previewDrag x y observed => exact hsame (withDrag_same previewDrag_withDrag).sameStamp
  | cancelDrag =>
    have hcancel : s.next .cancelDrag = s.withDrag none := cancelDrag_withDrag
    rw [hcancel]
    rfl
  | setFixedSizeAdmission enabled | setMaximizedFocusFence enabled
  | setFixedSizePredicate predicate => rfl

/-! ## Revisions in range -/

section
variable {observed : SessionObservation} {correlationId : CorrelationId} {window : WindowId}
  {observation : Observation} {P D R : Type} {planned : Except ProposeError (Staging P)}
  {verdict : P → Reconciler × Except Reconciler.ProposeError D} {report : D → Staging P → R}
  {answer : R} {r : Reconciler} {capabilities : ResizeCapabilities} {dispatch : ResizeDispatch}

theorem proposeResizeWith_opens {plan : ResizePlan} {required : ResizeCapability}
    {valid : ResizeOperation → Bool}
    (h : (r.proposeResizeWith plan observation correlationId capabilities required valid).2 =
      .ok dispatch) :
    Opens (r.proposeResizeWith plan observation correlationId capabilities required valid).1 := by
  simp only [Reconciler.proposeResizeWith, map_eq_ok] at h ⊢
  obtain ⟨u, hu, -⟩ := h
  exact proposeWith_opens (Prod.ext rfl hu)

theorem proposePointerResizeCorner_opens {primary secondary : ResizePlan}
    (h : (r.proposePointerResizeCorner primary secondary observation correlationId
      capabilities).2 = .ok dispatch) :
    Opens (r.proposePointerResizeCorner primary secondary observation correlationId
      capabilities).1 := by
  simp only [Reconciler.proposePointerResizeCorner, map_eq_ok] at h ⊢
  obtain ⟨u, hu, -⟩ := h
  exact proposeWith_opens (Prod.ext rfl hu)

theorem proposeDrag_opens {plan : DragPlan} {capabilities : DragCapabilities}
    {dispatch : DragDispatch}
    (h : (r.proposeDrag plan observation correlationId capabilities).2 = .ok dispatch) :
    Opens (r.proposeDrag plan observation correlationId capabilities).1 := by
  simp only [Reconciler.proposeDrag, map_eq_ok] at h ⊢
  obtain ⟨u, hu, -⟩ := h
  exact proposeWith_opens (Prod.ext rfl hu)

/-- An accepted proposal leaves a plan that can still be committed. -/
theorem proposeStaged_opened
    (hopens : ∀ plan dispatch, (verdict plan).2 = .ok dispatch → Opens (verdict plan).1)
    (h : s.proposeStaged planned verdict report = (s', .ok answer)) : Opens s'.reconciler := by
  obtain ⟨_, _, -, -, -, hawaits⟩ := proposeStaged_ok hopens h
  exact hawaits.opens

theorem proposeLifecyclePlan_opened {planned : Except ProposeError (Staging LifecyclePlan)}
    {capabilities : LifecycleCapabilities} {plan : SessionPlan}
    (h : s.proposeLifecyclePlan planned observation correlationId capabilities =
      (s', .ok plan)) : Opens s'.reconciler :=
  proposeStaged_opened (fun _ _ => proposeLifecycle_opens) h

theorem proposeToggleFloat_opened {rect : Option Rect} {capabilities : LifecycleCapabilities}
    {plan : SessionPlan}
    (h : s.proposeToggleFloat window rect observed correlationId capabilities = (s', .ok plan)) :
    Opens s'.reconciler := by
  unfold proposeToggleFloat at h
  split at h
  · unfold attempt at h
    split at h
    · cases h
    · simp only at h
      split at h
      · rename_i final answer hadmit
        cases h
        exact proposeLifecyclePlan_opened hadmit
      · cases h
  · unfold attempt at h
    split at h
    · cases h
    · simp only at h
      split at h
      · cases h
      · rename_i final answer hremove
        have hopened := proposeLifecyclePlan_opened hremove
        split at h
        · cases h
        · cases h
          exact hopened

theorem propose_opened {command : SessionCommand} {capabilities : LifecycleCapabilities}
    {plan : SessionPlan}
    (h : s.propose command observed correlationId capabilities = (s', .ok plan)) :
    Opens s'.reconciler := by
  unfold propose attempt at h
  split at h
  · cases h
  · cases command with
    | admitWindow c => exact proposeLifecyclePlan_opened h
    | remove window => exact proposeLifecyclePlan_opened h
    | moveToWorkspace window target follow | moveToOutput window target follow =>
      obtain ⟨_, hawaits, -⟩ := proposeSend_awaits h
      exact hawaits.opens
    | toggleFloat window rect => exact proposeToggleFloat_opened h
    | toggleOrientation window => exact proposeLifecyclePlan_opened h

theorem dropDrag_opened {x y : Int} {capabilities : DragCapabilities} {drop : SessionDragPlan}
    (h : s.dropDrag x y observed correlationId capabilities = (s', .ok (.planned drop))) :
    Opens s'.reconciler := by
  unfold dropDrag at h
  split at h
  · cases h
  · split at h
    · cases h
    · split at h
      · cases h
      · split at h
        · cases h
        · cases h
        · split at h
          · rename_i final answer hstaged
            have hopened := proposeStaged_opened (fun _ _ => proposeDrag_opens) hstaged
            cases h
            exact hopened
          · cases h

theorem proposal_opened {p : Proposal} {binding : PlanBinding}
    (h : s.proposal p = (s', .ok (some binding))) : Opens s'.reconciler := by
  cases p with
  | command command observed id capabilities =>
    obtain ⟨plan, hplan⟩ := bound_ok h
    exact propose_opened hplan
  | toggleOrientation window observed id capabilities =>
    obtain ⟨plan, hplan⟩ := bound_ok h
    exact proposeLifecyclePlan_opened hplan
  | fittedAdmit f observed id capabilities =>
    obtain ⟨plan, hplan⟩ := bound_ok h
    exact proposeLifecyclePlan_opened hplan
  | move domain window direction observed id capabilities sameAxisMove =>
    obtain ⟨plan, hplan⟩ := bound_ok h
    exact proposeStaged_opened (fun _ _ => propose_opens) hplan
  | focus domain window direction observed id capabilities =>
    obtain ⟨plan, hplan⟩ := bound_ok h
    exact proposeStaged_opened (fun _ _ => proposeFocus_opens) hplan
  | crossOutputFocus domain window direction observed id capabilities =>
    obtain ⟨plan, hplan⟩ := bound_ok h
    exact proposeStaged_opened (fun _ _ => proposeFocus_opens) hplan
  | floatCrossOutputFocus domain window direction observed id capabilities =>
    obtain ⟨plan, hplan⟩ := bound_ok h
    exact proposeStaged_opened (fun _ _ => proposeFocus_opens) hplan
  | resize domain window direction mode pressIndex observed id capabilities =>
    obtain ⟨plan, hplan⟩ := bound_ok h
    exact proposeStaged_opened (fun _ _ => proposeResizeWith_opens) hplan
  | pointerResize domain window direction boundary observed id capabilities =>
    obtain ⟨plan, hplan⟩ := bound_ok h
    exact proposeStaged_opened (fun _ _ => proposeResizeWith_opens) hplan
  | pointerResizeCorner domain window directionH boundaryH directionV boundaryV observed id
      capabilities =>
    obtain ⟨plan, hplan⟩ := bound_ok h
    exact proposeStaged_opened (fun _ _ => proposePointerResizeCorner_opens) hplan
  | dropDrag x y observed id capabilities =>
    simp only [proposal, bound] at h
    generalize hdrop : s.dropDrag x y observed id capabilities = call at h
    obtain ⟨s₁, result⟩ := call
    cases result with
    | error e => cases h
    | ok release =>
      cases release with
      | planned plan =>
        cases h
        exact dropDrag_opened hdrop
      | snapBack _ => cases h

end

/-- The revision is one a message can carry, and so is the one after the open
plan. -/
structure Bounded (s : Session) : Prop where
  revision : s.acceptedRevision ≤ maxRevision
  opened : ∀ pending, s.reconciler.pending = some pending → pending.baseRevision < maxRevision

theorem Bounded.of_reconciler (h : s.Bounded) (heq : s'.reconciler = s.reconciler) :
    s'.Bounded where
  revision := by
    rw [acceptedRevision, heq]
    exact h.revision
  opened := heq ▸ h.opened

/-- Without an open plan the revision alone counts. -/
theorem Bounded.of_idle (hrevision : s.acceptedRevision ≤ maxRevision)
    (hidle : s.reconciler.pending = none) : s.Bounded where
  revision := hrevision
  opened pending hpending := by
    rw [hidle] at hpending
    cases hpending

theorem Opens.bounded (h : Opens s.reconciler) (hrevision : s.acceptedRevision ≤ maxRevision) :
    s.Bounded where
  revision := hrevision
  opened pending hpending := by
    obtain ⟨own, hown, hlt⟩ := h
    rw [hown] at hpending
    cases hpending
    exact hlt

theorem proposal_bounded {p : Proposal} (h : s.Bounded) : (s.proposal p).1.Bounded := by
  have heffect := @proposal_effect s p
  generalize hanswer : s.proposal p = answer at heffect ⊢
  obtain ⟨s', result⟩ := answer
  cases heffect with
  | unchanged _ => exact h
  | cleared _ => exact h.of_reconciler rfl
  | halted _ _ => exact .of_idle h.revision rfl
  | snappedBack | unsupported => exact h.of_reconciler rfl
  | @staged basis _ _ _ _ hbasis _ _ _ =>
    have hsame : basis.acceptedRevision = s.acceptedRevision := by
      cases hbasis with
      | self _ => rfl
      | unfloated _ _ hplan =>
        obtain ⟨_, _, -, -, -, rfl, -⟩ := planUnfloat_ok hplan
        rfl
    refine (proposal_opened hanswer).bounded ?_
    have hrevision : basis.acceptedRevision ≤ maxRevision := hsame ▸ h.revision
    exact hrevision

theorem Verified.bounded {result : Except VerifyError Commit} (h : s.Bounded)
    (hverified : Verified s s' result) : s'.Bounded := by
  cases hverified with
  | cleared _ => exact h.of_reconciler rfl
  | unchanged _ _ => exact h
  | halted _ => exact .of_idle h.revision rfl
  | bare _ hpending _ => exact .of_idle (Nat.succ_le_of_lt (h.opened _ hpending)) rfl
  | committed _ hpending _ => exact .of_idle (Nat.succ_le_of_lt (h.opened _ hpending)) rfl

theorem verification_bounded {v : Verification} (h : s.Bounded) :
    (s.verification v).1.Bounded := by
  rcases @verification_verified s v with hanswer | ⟨s', commit, hanswer, heq⟩
  · exact hanswer.bounded h
  · rw [heq]
    exact (hanswer.bounded h).of_reconciler rfl

theorem acknowledge_bounded {ack : AdapterAck} (h : s.Bounded) :
    (s.acknowledge ack).1.Bounded := by
  have hanswer := @acknowledge_acknowledged s ack
  generalize s.acknowledge ack = answer at hanswer ⊢
  obtain ⟨s', result⟩ := answer
  cases hanswer with
  | cleared _ => exact h.of_reconciler rfl
  | unchanged _ _ => exact h
  | halted _ => exact .of_idle h.revision rfl
  | @acked pending _ hpending =>
    refine ⟨h.revision, fun opened hopened => ?_⟩
    cases hopened
    exact h.opened pending hpending

theorem noted_bounded {reason : DivergenceKind} (h : s.Bounded)
    (hnoted : s' = { s with reconciler := (s.reconciler.divergeConvergence reason).1
                            pendingDesired := none, drag := none }) : s'.Bounded := by
  rcases noted_cases hnoted with ⟨_, -, rfl⟩ | ⟨-, rfl⟩
  · exact h.of_reconciler rfl
  · exact .of_idle h.revision rfl

theorem convergeObservation_bounded {observation : SessionObservation}
    {observedFocus : Option WindowId} (h : s.Bounded) :
    (s.convergeObservation observation observedFocus).1.Bounded := by
  have hanswer := @convergeObservation_convergence s observation observedFocus
  generalize s.convergeObservation observation observedFocus = answer at hanswer ⊢
  obtain ⟨s', result⟩ := answer
  cases hanswer with
  | unchanged => exact h
  | halted _ => exact .of_idle h.revision rfl
  | refocused _ _ _ _ _ => exact h.of_reconciler rfl
  | converged _ _ _ _ _ hrevision => exact ⟨Nat.succ_le_of_lt hrevision, h.opened⟩

theorem withDrag_bounded {P : Prop} (h : s.Bounded)
    (hdrag : s' = s ∨ P ∧ ∃ drag, s' = s.withDrag (some drag)) : s'.Bounded := by
  rcases hdrag with rfl | ⟨-, drag, rfl⟩
  · exact h
  · exact h.of_reconciler rfl

/-- No call leaves the range: a proposal needs a revision to spare, a commit
takes that one, and nothing else changes it. -/
theorem Bounded.next (h : s.Bounded) (op : SessionOp) : (s.next op).Bounded := by
  cases op with
  | propose p => exact proposal_bounded h
  | acknowledge ack => exact acknowledge_bounded h
  | verify v => exact verification_bounded h
  | cancelUnackedPending correlationId baseRevision =>
    rcases @cancelUnackedPending_cases s correlationId baseRevision with heq | ⟨-, heq⟩
    · exact h.of_reconciler (congrArg reconciler heq)
    · have hnext : s.next (.cancelUnackedPending correlationId baseRevision) = _ := heq
      rw [hnext]
      exact .of_idle h.revision rfl
  | noteAdapterLoss | notePostconditionMismatch => exact noted_bounded h rfl
  | convergeObservation observation observedFocus => exact convergeObservation_bounded h
  | updateDomainGaps key bounds gap =>
    refine h.of_reconciler ?_
    show (s.updateDomainGaps key bounds gap).1.reconciler = s.reconciler
    unfold updateDomainGaps
    split
    · rfl
    · dsimp only
      split <;> rfl
  | relocateDomain source target bounds gap =>
    refine h.of_reconciler ?_
    show (s.relocateDomain source target bounds gap).1.reconciler = s.reconciler
    unfold relocateDomain
    split
    · rfl
    · dsimp only
      split <;> rfl
  | syncFocusFromWindow domain window =>
    refine h.of_reconciler ?_
    show (s.syncFocusFromWindow domain window).1.reconciler = s.reconciler
    unfold syncFocusFromWindow
    split
    · rfl
    · split
      · rfl
      · split <;> rfl
  | beginDrag window observed => exact withDrag_bounded h beginDrag_withDrag
  | carryDragPrior carried => exact withDrag_bounded h carryDragPrior_withDrag
  | previewDrag x y observed => exact withDrag_bounded h previewDrag_withDrag
  | cancelDrag =>
    have hcancel : s.next .cancelDrag = s.withDrag none := cancelDrag_withDrag
    rw [hcancel]
    exact h.of_reconciler rfl
  | setFixedSizeAdmission enabled | setMaximizedFocusFence enabled
  | setFixedSizePredicate predicate => exact h.of_reconciler rfl

theorem new_bounded {owner : OwnerId} {generation : GenerationId} {revision fingerprint : Nat}
    {domains : List OutputDomain} (h : new owner generation revision fingerprint domains = .ok s) :
    s.Bounded := by
  obtain ⟨hblank, -, -, hrevision, -, -⟩ := new_ok h
  simp only [new, bind_eq_ok, ensure_eq_ok, isRevision, decide_eq_true_eq] at h
  obtain ⟨_, -, _, -, _, hbound, -⟩ := h
  refine .of_idle (hrevision.trans_le hbound) ?_
  have hidle : s.reconciler.pending.isSome = false := hblank.pending
  simpa using hidle

/-! ## Settled again -/

/-- A proposal that is accepted ends the drag. -/
theorem proposal_undragged {p : Proposal} {binding : Option PlanBinding}
    (h : s.proposal p = (s', .ok binding)) : s'.drag = none := by
  have heffect := @proposal_effect s p
  rw [h] at heffect
  cases heffect with
  | snappedBack => rfl
  | staged _ _ _ _ => rfl

/-- Settled but for a drag: live, with no pending plan and so with no staged
world. -/
structure Resting (s : Session) : Prop where
  live : s.divergence = none
  idle : s.hasPending = false
  desired : s.pendingDesired = none

theorem resting_of_settled (h : s.settledWorld = true) : s.Resting := by
  obtain ⟨hlive, hidle, hdesired, -⟩ := settledWorld_iff.mp h
  exact ⟨hlive, hidle, hdesired⟩

theorem Resting.withDrag {P : Prop} (h : s.Resting)
    (hdrag : s' = s ∨ P ∧ ∃ drag, s' = s.withDrag (some drag)) : s'.Resting := by
  rcases hdrag with rfl | ⟨-, drag, rfl⟩
  · exact h
  · exact ⟨h.live, h.idle, h.desired⟩

/-- A window that snaps back leaves the session settled. -/
theorem proposal_snapped {p : Proposal} (hs : s.Resting) (h : s.proposal p = (s', .ok none)) :
    s'.settledWorld = true := by
  have heffect := @proposal_effect s p
  rw [h] at heffect
  cases heffect with
  | snappedBack => exact settledWorld_iff.mpr ⟨hs.live, hs.idle, hs.desired, rfl⟩

/-- A commit leaves nothing open. -/
theorem Verified.settled {commit : Commit} (h : Verified s s' (.ok commit))
    (hdrag : s.drag = none) : s'.settledWorld = true := by
  cases h with
  | bare hlive _ hdesired => exact settledWorld_iff.mpr ⟨hlive, rfl, hdesired, hdrag⟩
  | committed hlive _ _ => exact settledWorld_iff.mpr ⟨hlive, rfl, rfl, hdrag⟩

theorem verification_settled {v : Verification} {commit : Commit} (hdrag : s.drag = none)
    (h : s.verification v = (s', .ok commit)) : s'.settledWorld = true := by
  obtain ⟨t, hverified, hmoved⟩ := verification_committed h
  have hsettled := hverified.settled hdrag
  rcases hmoved with rfl | rfl
  · exact hsettled
  · exact hsettled

theorem acknowledge_drag {ack : AdapterAck} {applied : AckApplied}
    (h : s.acknowledge ack = (s', .ok applied)) : s'.drag = s.drag := by
  have hanswer := @acknowledge_acknowledged s ack
  rw [h] at hanswer
  cases hanswer with
  | unchanged _ _ => rfl
  | acked _ _ => rfl

/-- An observation of the session itself is no fault. -/
theorem convergenceFault_own {observation : Observation} (howner : observation.owner = s.owner)
    (hgeneration : observation.generation = s.generation)
    (hrevision : observation.revision = s.acceptedRevision)
    (hbound : s.acceptedRevision ≤ maxRevision) : s.convergenceFault observation = none := by
  have hvalid : observation.validate = true := by
    simp [Observation.validate, isRevision, hrevision, hbound, observation.owner.valid_asStr,
      observation.generation.valid_asStr]
  simp [convergenceFault, hvalid, howner, hgeneration, hrevision]

/-- Only a fault of the observation halts a converging session. -/
theorem convergeObservation_live {observation : SessionObservation}
    {observedFocus : Option WindowId} (hlive : s.divergence = none)
    (hfault : s.convergenceFault observation.observation = none) :
    (s.convergeObservation observation observedFocus).1.divergence = none := by
  unfold convergeObservation
  split
  · exact hlive
  · split
    · exact hlive
    · split
      · exact hlive
      · split
        · rename_i reason hreason
          rw [hfault] at hreason
          cases hreason
        · unfold attempt
          split
          · exact hlive
          · dsimp only
            split
            · exact hlive
            · split
              · exact hlive
              · split
                · split
                  · exact hlive
                  · exact hlive
                · rename_i r commit hcommit
                  exact (Reconciler.commitObservationConvergence_live hcommit).trans hlive

/-- A session converged on its own observation stays settled, whether or not
the convergence is refused. -/
theorem convergeObservation_settled {observation : SessionObservation}
    {observedFocus : Option WindowId} (hs : s.settledWorld = true)
    (hfault : s.convergenceFault observation.observation = none) :
    (s.convergeObservation observation observedFocus).1.settledWorld = true := by
  obtain ⟨hlive, hidle, hdesired, hdrag⟩ := settledWorld_iff.mp hs
  have hanswer := @convergeObservation_convergence s observation observedFocus
  have hstays := @convergeObservation_live s observation observedFocus hlive hfault
  generalize s.convergeObservation observation observedFocus = answer at hanswer hstays ⊢
  obtain ⟨s', result⟩ := answer
  cases hanswer with
  | unchanged => exact hs
  | refocused _ _ _ _ _ => exact settledWorld_iff.mpr ⟨hlive, hidle, hdesired, hdrag⟩
  | converged _ _ _ _ _ _ => exact settledWorld_iff.mpr ⟨hlive, hidle, hdesired, hdrag⟩
  | halted _ => cases hstays

theorem syncFocusFromWindow_settled {domain : DomainKey} {window : WindowId}
    (hs : s.settledWorld = true) :
    (s.syncFocusFromWindow domain window).1.settledWorld = true := by
  unfold syncFocusFromWindow
  split
  · exact hs
  · split
    · exact hs
    · split
      · exact hs
      · exact hs

theorem updateDomainGaps_settled {key : DomainKey} {bounds : Rect} {gap : Int}
    (hs : s.settledWorld = true) : (s.updateDomainGaps key bounds gap).1.settledWorld = true := by
  unfold updateDomainGaps
  split
  · exact hs
  · dsimp only
    split
    · exact hs
    · exact hs

theorem relocateDomain_settled {source target : DomainKey} {bounds : Rect} {gap : Int}
    (hs : s.settledWorld = true) :
    (s.relocateDomain source target bounds gap).1.settledWorld = true := by
  unfold relocateDomain
  split
  · exact hs
  · dsimp only
    split
    · exact hs
    · exact hs

theorem new_settled {owner : OwnerId} {generation : GenerationId} {revision fingerprint : Nat}
    {domains : List OutputDomain} (h : new owner generation revision fingerprint domains = .ok s) :
    s.settledWorld = true := by
  obtain ⟨hblank, -⟩ := new_ok h
  exact settledWorld_iff.mpr ⟨hblank.divergence, hblank.pending, hblank.desired, hblank.drag⟩

/-- Both halves of a pair are settled, and at the pair's revision. -/
theorem sideOf_settled {d : OutputDomain} (h : s.sideOf d = .ok s') :
    s'.settledWorld = true ∧ s'.Bounded := by
  simp only [sideOf, bind_eq_ok, mapError_eq_ok, pure_eq_ok] at h
  obtain ⟨base, hbase, rfl⟩ := h
  have hsettled := new_settled hbase
  exact ⟨hsettled, (new_bounded hbase).of_reconciler rfl⟩

theorem splitCanonicalPair_settled {source : Session} {target? : Option Session}
    (h : s.splitCanonicalPair = .ok (source, target?)) :
    (source.settledWorld = true ∧ source.Bounded) ∧
      ∀ t, target? = some t → t.settledWorld = true ∧ t.Bounded := by
  unfold splitCanonicalPair at h
  split at h
  · simp only [bind_eq_ok, ensure_eq_ok, pure_eq_ok, Prod.mk.injEq] at h
    obtain ⟨_, -, half, hhalf, other, hother, _, -, _, -, _, -, rfl, rfl⟩ := h
    obtain ⟨hsettled, hbounded⟩ := sideOf_settled hhalf
    obtain ⟨hsettled', hbounded'⟩ := sideOf_settled hother
    refine ⟨⟨hsettled, hbounded.of_reconciler rfl⟩, fun t ht => ?_⟩
    split at ht
    · cases ht
    · cases ht
      exact ⟨hsettled', hbounded'.of_reconciler rfl⟩
  · cases h

end Session

end PlasmaTiler
