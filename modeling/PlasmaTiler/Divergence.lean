import PlasmaTiler.Steps
import PlasmaTiler.Withdrawal

/-!
# Terminal divergence

A session that recorded a divergence is halted for good: it holds nothing
transient any more (`Terminal`), stays that way whatever is called on it, and
answers every later transaction call with that divergence. The adapter is
meant to throw such a session away and start over, and must not be able to
commit anything on it by accident.

The first half of the module shows it call by call. Every proposal looks at
the divergence before anything else, drops included, and the other calls keep
a halted session as it is; `terminal_invariant` is the run.

What remains is whether a reported divergence is always recorded. It is, with
one exception: an unfloat plans on a copy of the session, the divergence is
noted on the copy, and the copy is dropped with the error. `records_iff` is
exact about it, and `unfloat_not_recorded` is a session that reports a
divergence and goes on without one.
-/

namespace PlasmaTiler

/-- The calls that are part of a transaction. -/
def SessionOp.isTransaction : SessionOp → Bool
  | .propose _ | .acknowledge _ | .verify _ => true
  | _ => false

/-- The proposal that ends a drag. -/
def Proposal.isDrop : Proposal → Bool
  | .dropDrag .. => true
  | _ => false

namespace Sample

def staleAdmission : Proposal :=
  .command (.admitWindow ⟨⟨"w"⟩, ⟨"A"⟩, ⟨"1"⟩, .none, none, ⟨0, 0, 1000, 800⟩, false⟩)
    (observation 7 [window "w"]) correlationId lifecycle

def staleUnfloat : Proposal :=
  .command (.toggleFloat ⟨"w"⟩ none) (observation 7 [{ window "w" with floating := true }])
    correlationId lifecycle

end Sample

namespace Session

/-- The divergence a transaction call fails with. -/
def reported (s : Session) : SessionOp → Option DivergenceKind
  | .propose p => match (s.proposal p).2 with
    | .error (.diverged reason) => some reason
    | _ => none
  | .acknowledge ack => match (s.acknowledge ack).2 with
    | .error (.diverged reason) => some reason
    | _ => none
  | .verify v => match (s.verification v).2 with
    | .error (.diverged reason) => some reason
    | _ => none
  | _ => none

/-- Halted for good: the divergence is recorded, and there is no plan, no
staged world and no drag that a later call could finish. -/
structure Terminal (s : Session) (reason : DivergenceKind) : Prop where
  divergence : s.divergence = some reason
  pending : s.hasPending = false
  desired : s.pendingDesired = none
  drag : s.drag = none

section
variable {s : Session} {p : Proposal} {reason : DivergenceKind} {op : SessionOp}

theorem halted_terminal : (s.halted reason).Terminal reason := ⟨rfl, rfl, rfl, rfl⟩

theorem Terminal.cleared_eq (h : s.Terminal reason) : s.cleared = s := by
  simp [cleared, ← h.desired, ← h.drag]

theorem Terminal.withDrag_none (h : s.Terminal reason) : s.withDrag none = s := by
  simp [withDrag, ← h.drag]

theorem Terminal.ne_none (h : s.Terminal reason) : s.divergence ≠ none := by
  rw [h.divergence]
  exact nofun

theorem Terminal.not_settled (h : s.Terminal reason) : s.settledWorld = false := by
  simp [settledWorld, h.divergence]

/-! ## Every call leaves a halted session alone -/

theorem checkIdle_diverged (h : s.divergence = some reason) :
    s.checkIdle = .error (.diverged reason) := by
  simp [checkIdle, h]

/-- Every proposal but a drop asks first whether the session is idle, so over
a session that is not it has that answer, whatever else is wrong with it. -/
theorem proposal_of_busy {e : ProposeError} (hidle : s.checkIdle = .error e)
    (hsettled : s.checkSettled = .error e) (hp : p.isDrop = false) :
    (s.proposal p).2 = .error e := by
  cases p with
  | command command observed correlationId capabilities =>
    have hcheck : s.checkCommand command observed.windows = .error e := by
      simp [checkCommand, hidle, bind, Except.bind]
    simp [proposal, bound, propose, attempt, hcheck, Except.map]
  | toggleOrientation window observed correlationId capabilities =>
    simp [proposal, bound, proposeToggleOrientation, proposeLifecyclePlan, proposeStaged, attempt,
      planToggleOrientation, hidle, bind, Except.bind, Except.map]
  | fittedAdmit fitted observed correlationId capabilities =>
    simp [proposal, bound, proposeFittedAdmit, proposeLifecyclePlan, proposeStaged, attempt,
      planFittedAdmit, hsettled, bind, Except.bind, Except.map]
  | move domain window direction observed correlationId capabilities sameAxisMove =>
    simp [proposal, bound, proposeMoveWithSameAxis, proposeStaged, attempt, planMoveWithSameAxis,
      hidle, bind, Except.bind, Except.map]
  | focus domain window direction observed correlationId capabilities =>
    simp [proposal, bound, proposeFocus, proposeFocusPlan, proposeStaged, attempt, planFocusIn,
      hidle, bind, Except.bind, Except.map]
  | crossOutputFocus domain window direction observed correlationId capabilities =>
    simp [proposal, bound, proposeCrossOutputFocus, Session.crossOutputFocus, proposeFocusPlan,
      proposeStaged, attempt, planCrossOutputFocus, hidle, bind, Except.bind, Except.map]
  | floatCrossOutputFocus domain window direction observed correlationId capabilities =>
    simp [proposal, bound, proposeFloatCrossOutputFocus, Session.crossOutputFocus,
      proposeFocusPlan, proposeStaged, attempt, planCrossOutputFocus, hidle, bind, Except.bind,
      Except.map]
  | resize domain window direction mode pressIndex observed correlationId capabilities =>
    simp [proposal, bound, proposeResize, proposeStaged, attempt, planKeyboardResize, hidle, bind,
      Except.bind, Except.map]
  | pointerResize domain window direction boundary observed correlationId capabilities =>
    simp [proposal, bound, proposePointerResize, proposeStaged, attempt, planPointerResize, hidle,
      bind, Except.bind, Except.map]
  | pointerResizeCorner domain window directionH boundaryH directionV boundaryV observed
      correlationId capabilities =>
    simp [proposal, bound, proposePointerResizeCorner, proposeStaged, attempt,
      planPointerResizeCorner, hidle, bind, Except.bind, Except.map]
  | dropDrag x y observed correlationId capabilities => cases hp

/-- Every proposal looks at the divergence first. -/
theorem proposal_diverged (h : s.divergence = some reason) :
    (s.proposal p).2 = .error (.diverged reason) := by
  cases hp : p.isDrop with
  | false =>
    have hsettled : s.checkSettled = .error (.diverged reason) := by simp [checkSettled, h]
    exact proposal_of_busy (checkIdle_diverged h) hsettled hp
  | true =>
    cases p with
    | dropDrag x y observed correlationId capabilities =>
      simp [proposal, bound, dropDrag, h, Except.map]
    | _ => cases hp

/-- A proposal leaves a halted session as it is. -/
theorem Terminal.proposal_eq (h : s.Terminal reason) : (s.proposal p).1 = s := by
  have heffect := @proposal_effect s p
  rw [proposal_diverged h.divergence] at heffect
  generalize (s.proposal p).1 = s' at heffect ⊢
  cases heffect with
  | unchanged _ => rfl
  | cleared _ => exact h.cleared_eq
  | halted _ hnone => exact absurd hnone h.ne_none

theorem Terminal.acknowledge_eq {ack : AdapterAck} (h : s.Terminal reason) :
    s.acknowledge ack = (s, .error (.diverged reason)) := by
  have hanswer := @acknowledge_acknowledged s ack
  generalize s.acknowledge ack = answer at hanswer ⊢
  obtain ⟨s', result⟩ := answer
  cases hanswer with
  | cleared hsome =>
    rw [h.divergence] at hsome
    cases hsome
    exact Prod.ext h.cleared_eq rfl
  | unchanged hnone _ | halted hnone | acked hnone _ => exact absurd hnone h.ne_none

theorem Terminal.verified_eq {s' : Session} {result : Except VerifyError Commit}
    (h : s.Terminal reason) (hanswer : Verified s s' result) :
    s' = s ∧ result = .error (.diverged reason) := by
  cases hanswer with
  | cleared hsome =>
    rw [h.divergence] at hsome
    cases hsome
    exact ⟨h.cleared_eq, rfl⟩
  | unchanged hnone _ | halted hnone | bare hnone _ _ | committed hnone _ _ =>
    exact absurd hnone h.ne_none

theorem Terminal.verification_eq {v : Verification} (h : s.Terminal reason) :
    s.verification v = (s, .error (.diverged reason)) := by
  rcases @verification_verified s v with hverified | ⟨s', commit, hverified, -⟩
  · obtain ⟨hsession, hresult⟩ := h.verified_eq hverified
    exact Prod.ext hsession hresult
  · exact nomatch (h.verified_eq hverified).2

/-- A transaction call on a halted session reports the divergence and changes
nothing. -/
theorem Terminal.transaction (h : s.Terminal reason) (hop : op.isTransaction = true) :
    s.reported op = some reason ∧ s.next op = s := by
  cases op with
  | propose p => exact ⟨by simp only [reported, proposal_diverged h.divergence], h.proposal_eq⟩
  | acknowledge ack =>
    simp only [reported, next, h.acknowledge_eq]
    exact ⟨trivial, trivial⟩
  | verify v =>
    simp only [reported, next, h.verification_eq]
    exact ⟨trivial, trivial⟩
  | _ => cases hop

/-- No call takes a session out of its halt. -/
theorem Terminal.step {s' : Session} (h : s.Terminal reason) (hstep : Step s s') :
    s'.Terminal reason := by
  cases hstep with
  | same => exact h
  | cleared _ => exact h.cleared_eq.symm ▸ h
  | withDrag hdrag =>
    rcases hdrag with hnone | rfl | hdrag
    · exact absurd hnone h.ne_none
    · exact h.withDrag_none.symm ▸ h
    · exact absurd h.drag hdrag
  | settings => exact ⟨h.divergence, h.pending, h.desired, h.drag⟩
  | halted hnone | staged _ _ hnone _ | acked hnone _ | cancelled hnone | bare hnone _ _
    | committed hnone _ _ _ | synced hnone _ _ _ _ => exact absurd hnone h.ne_none
  | refocused hsettled _ _ | converged hsettled _ _ | gaps hsettled _
    | relocated hsettled _ _ _ _ =>
    rw [h.not_settled] at hsettled
    cases hsettled

/-- A live session stays live or halts. -/
theorem Step.live {s' : Session} (h : s.divergence = none) (hstep : Step s s') :
    s'.divergence = none ∨ ∃ reason, s'.Terminal reason := by
  cases hstep with
  | cleared hsome => exact absurd h (by rw [hsome]; exact nofun)
  | halted _ => exact .inr ⟨_, halted_terminal⟩
  | staged hbasis _ _ _ =>
    cases hbasis with
    | self _ => exact .inl h
    | unfloated _ _ hplan =>
      obtain ⟨-, -, -, -, -, rfl, -⟩ := planUnfloat_ok hplan
      exact .inl h
  | _ => exact .inl h

/-- Every reachable session that recorded a divergence is halted. -/
theorem terminal_invariant :
    machine.Invariant fun s => ∀ reason, s.divergence = some reason → s.Terminal reason where
  initial s hs reason h := by
    rw [hs.blank.divergence] at h
    cases h
  preserved s op hI reason h := by
    cases hdivergence : s.divergence with
    | some first =>
      have hterminal := (hI first hdivergence).step (next_step op)
      obtain rfl : first = reason := Option.some.inj (hterminal.divergence.symm.trans h)
      exact hterminal
    | none =>
      rcases Step.live hdivergence (next_step op) with hnone | ⟨first, hterminal⟩
      · exact absurd (hnone.symm.trans h) nofun
      · obtain rfl : first = reason := Option.some.inj (hterminal.divergence.symm.trans h)
        exact hterminal

/-! ## Recording -/

/-- The divergence is recorded: the session is halted, and whatever is called
on it afterwards, every transaction call reports it and changes nothing. -/
structure Records (s : Session) (reason : DivergenceKind) : Prop where
  terminal : s.Terminal reason
  later : ∀ (ops : List SessionOp) (op : SessionOp), op.isTransaction = true →
    (machine.run s ops).reported op = some reason ∧
      (machine.run s ops).next op = machine.run s ops

theorem Terminal.records (h : s.Terminal reason) : s.Records reason where
  terminal := h
  later ops _ hop :=
    have hpreserved : machine.Preserved fun s => s.Terminal reason := fun _ op h => h.step (next_step op)
    (hpreserved.run h ops).transaction hop

/-- A proposal that reports a divergence records it, unless it tiles an
exception again on a live session: then it was the copy that diverged. -/
theorem records_iff (hs : Reachable s) (h : (s.proposal p).2 = .error (.diverged reason)) :
    (s.proposal p).1.Records reason ↔ s.divergence.isSome = true ∨ s.unfloats p = false := by
  have hterminal := terminal_invariant.reachable hs
  have heffect := @proposal_effect s p
  rw [h] at heffect
  generalize (s.proposal p).1 = s' at heffect ⊢
  cases heffect with
  | unchanged hreported =>
    cases hdivergence : s.divergence with
    | some first =>
      have hfirst : first = reason := by
        have := proposal_diverged (p := p) hdivergence
        rw [h] at this
        simpa using this.symm
      exact iff_of_true (hterminal reason (hfirst ▸ hdivergence)).records (.inl rfl)
    | none =>
      have hunfloats : s.unfloats p = true := by
        rcases hreported reason rfl with hsome | hunfloats
        · rw [hdivergence] at hsome
          cases hsome
        · exact hunfloats
      refine iff_of_false (fun hrecords => ?_) (by simp [hunfloats])
      rw [hrecords.terminal.divergence] at hdivergence
      cases hdivergence
  | cleared hsome =>
    have hhalted := hterminal reason hsome
    exact iff_of_true (hhalted.cleared_eq.symm ▸ hhalted.records) (.inl (by rw [hsome]; rfl))
  | halted hp _ => exact iff_of_true halted_terminal.records (.inr hp)

end

/-- An admission against a stale revision is recorded. -/
theorem records_staleAdmission :
    (Sample.empty.proposal Sample.staleAdmission).1.Records .staleRevision :=
  (records_iff (Sample.session_reachable _ []) (by decide +kernel)).mpr (.inr rfl)

/-- An unfloat against a stale revision reports the divergence and the session
goes on without one. -/
theorem unfloat_not_recorded :
    ∃ s p reason, Reachable s ∧ (s.proposal p).2 = .error (.diverged reason) ∧
      (s.proposal p).1.divergence ≠ some reason :=
  ⟨Sample.floating, Sample.staleUnfloat, .staleRevision, Sample.session_reachable _ _,
    by decide +kernel, by decide +kernel⟩

end Session

end PlasmaTiler
