import PlasmaTiler.Effects

/-!
# Every other call

The counterpart of `Session.Effect` for the rest of the machine: what an
acknowledgement, a verification, a cancellation, a convergence and the
divergence signals leave of the session, and that the drag calls touch
nothing but the capture.

Each kind of call gets an inductive relation whose constructors are its
possible answers (`Acknowledged`, `Verified`, `Convergence`), with the
resulting session written out. `Step` collects them with the effects of the
proposals, and `next_step` says that every call of the machine is a step. An
invariant of sessions is proved from `Step` by one case for each constructor;
when a call of the source changes, its constructor and its lemma change with
it, and the invariants show what depends on that.
-/

namespace PlasmaTiler

/-- What a cancelled plan leaves of the reconciler. -/
theorem Reconciler.cancelUnacked_ok {r r' : Reconciler} {correlationId : CorrelationId}
    {baseRevision : Nat} (h : r.cancelUnacked correlationId baseRevision = .ok r') :
    r.diverged = none ∧ r' = { r with pending := none } := by
  unfold cancelUnacked at h
  split at h
  · cases h
  · split at h
    · cases h
    · split at h
      · cases h
      · split at h
        · cases h
        · cases h
          exact ⟨‹_›, rfl⟩

namespace Session

variable {s : Session}

/-! ## Acknowledging -/

/-- The pending plan marked as acknowledged. -/
def acked (s : Session) (pending : Pending) : Session :=
  { s with reconciler := { s.reconciler with pending := some { pending with acked := true } } }

/-- The answers to an acknowledgement. -/
inductive Acknowledged (s : Session) : Session → Except AckError AckApplied → Prop
  | cleared {reason : DivergenceKind} (h : s.divergence = some reason) :
      Acknowledged s s.cleared (.error (.diverged reason))
  | unchanged {result : Except AckError AckApplied} (hdiverged : s.divergence = none)
      (h : ∀ reason, result ≠ .error (.diverged reason)) : Acknowledged s s result
  | halted {reason : DivergenceKind} (hdiverged : s.divergence = none) :
      Acknowledged s (s.halted reason) (.error (.diverged reason))
  | acked {pending : Pending} (hdiverged : s.divergence = none)
      (hpending : s.reconciler.pending = some pending) :
      Acknowledged s (s.acked pending) (.ok .accepted)

theorem acknowledge_acknowledged {ack : AdapterAck} :
    Acknowledged s (s.acknowledge ack).1 (s.acknowledge ack).2 := by
  cases hd : s.divergence with
  | some reason =>
    have hdiverged : s.reconciler.diverged = some reason := hd
    have heq : s.acknowledge ack = (s.cleared, .error (.diverged reason)) := by
      simp [acknowledge, Reconciler.acknowledge, hdiverged, cleared]
    rw [heq]
    exact .cleared hd
  | none =>
    have hdiverged : s.reconciler.diverged = none := hd
    cases hpending : s.reconciler.pending with
    | none =>
      have heq : s.acknowledge ack = (s, .error .noPending) := by
        simp [acknowledge, Reconciler.acknowledge, hdiverged, hpending]
      rw [heq]
      exact .unchanged hd nofun
    | some pending =>
      cases hfault : s.reconciler.ackFault pending ack with
      | some reason =>
        have heq : s.acknowledge ack = (s.halted reason, .error (.diverged reason)) := by
          simp [acknowledge, Reconciler.acknowledge, hdiverged, hpending, hfault, halted]
        rw [heq]
        exact .halted hd
      | none =>
        by_cases hacked : pending.acked = true
        · have heq : s.acknowledge ack = (s, .ok .duplicateDiscarded) := by
            simp [acknowledge, Reconciler.acknowledge, hdiverged, hpending, hfault, hacked]
          rw [heq]
          exact .unchanged hd nofun
        · have heq : s.acknowledge ack = (s.acked pending, .ok .accepted) := by
            simp [acknowledge, Reconciler.acknowledge, hdiverged, hpending, hfault, hacked, acked]
          rw [heq]
          exact .acked hd hpending

/-! ## Verifying -/

/-- The reconciler after a commit. -/
def committedReconciler (s : Session) (commit : Commit) : Reconciler :=
  { s.reconciler with
    verifiedRevision := commit.revision
    verifiedFingerprint := commit.fingerprint
    pending := none }

/-- The session after a verified commit of a desired world. -/
def committed (s : Session) (desired : PendingDesired) (commit : Commit) : Session :=
  { s with reconciler := s.committedReconciler commit }.applyDesired desired commit

/-- The answers to a post-observation. -/
inductive Verified (s : Session) : Session → Except VerifyError Commit → Prop
  | cleared {reason : DivergenceKind} (h : s.divergence = some reason) :
      Verified s s.cleared (.error (.diverged reason))
  | unchanged {e : VerifyError} (hdiverged : s.divergence = none)
      (h : ∀ reason, e ≠ .diverged reason) : Verified s s (.error e)
  | halted {reason : DivergenceKind} (hdiverged : s.divergence = none) :
      Verified s (s.halted reason) (.error (.diverged reason))
  | bare {pending : Pending} {fingerprint : Nat} (hdiverged : s.divergence = none)
      (hpending : s.reconciler.pending = some pending) (hdesired : s.pendingDesired = none) :
      Verified s
        { s with reconciler := s.committedReconciler ⟨pending.baseRevision + 1, fingerprint⟩ }
        (.ok ⟨pending.baseRevision + 1, fingerprint⟩)
  | committed {pending : Pending} {desired : PendingDesired} {fingerprint : Nat}
      (hdiverged : s.divergence = none) (hpending : s.reconciler.pending = some pending)
      (hdesired : s.pendingDesired = some desired) :
      Verified s (s.committed desired ⟨pending.baseRevision + 1, fingerprint⟩)
        (.ok ⟨pending.baseRevision + 1, fingerprint⟩)

theorem verifyWith_verified {O P : Type} {post : PostOf O P}
    {payloadFault : PendingKind → Option DivergenceKind} :
    Verified s (s.verifyWith (s.reconciler.verifyWith post payloadFault)).1
      (s.verifyWith (s.reconciler.verifyWith post payloadFault)).2 := by
  generalize hanswer : s.verifyWith (s.reconciler.verifyWith post payloadFault) = answer
  cases hd : s.divergence with
  | some reason =>
    have hdiverged : s.reconciler.diverged = some reason := hd
    obtain rfl : (s.cleared, .error (.diverged reason)) = answer := by
      simp [← hanswer, verifyWith, Reconciler.verifyWith, hdiverged, cleared]
    exact .cleared hd
  | none =>
    have hdiverged : s.reconciler.diverged = none := hd
    cases hpending : s.reconciler.pending with
    | none =>
      obtain rfl : (s, .error .noPending) = answer := by
        simp [← hanswer, verifyWith, Reconciler.verifyWith, hdiverged, hpending]
      exact .unchanged hd nofun
    | some pending =>
      cases hacked : pending.acked with
      | false =>
        obtain rfl : (s, .error .notAcknowledged) = answer := by
          simp [← hanswer, verifyWith, Reconciler.verifyWith, hdiverged, hpending, hacked]
        exact .unchanged hd nofun
      | true =>
        cases hfault : s.reconciler.verifyFault pending post payloadFault with
        | some reason =>
          obtain rfl : (s.halted reason, .error (.diverged reason)) = answer := by
            simp [← hanswer, verifyWith, Reconciler.verifyWith, hdiverged, hpending, hacked, hfault,
              halted]
          exact .halted hd
        | none =>
          have hok : s.verifyWith (s.reconciler.verifyWith post payloadFault) =
              s.verifyWith (s.committedReconciler
                  ⟨pending.baseRevision + 1, post.observation.fingerprint⟩,
                .ok ⟨pending.baseRevision + 1, post.observation.fingerprint⟩) := by
            simp [Reconciler.verifyWith, hdiverged, hpending, hacked, hfault, committedReconciler]
          obtain rfl := hok.symm.trans hanswer
          unfold verifyWith
          dsimp only
          split
          · exact .committed hd hpending ‹_›
          · exact .bare hd hpending ‹_›

/-- A verified call: only a drag commit differs, keeping the last active
leaves. -/
theorem verification_verified {v : Verification} :
    Verified s (s.verification v).1 (s.verification v).2 ∨
      ∃ s' commit, Verified s s' (.ok commit) ∧
        s.verification v = ({ s' with lastActive := s.lastActive }, .ok commit) := by
  cases v with
  | lifecycle post => exact .inl verifyWith_verified
  | move post => exact .inl verifyWith_verified
  | focus post => exact .inl verifyWith_verified
  | resize post => exact .inl verifyWith_verified
  | drag post =>
    have hverified : Verified s (s.verifyWith (s.reconciler.verifyDrag post)).1
        (s.verifyWith (s.reconciler.verifyDrag post)).2 := verifyWith_verified
    simp only [verification, verifyDrag]
    generalize s.verifyWith (s.reconciler.verifyDrag post) = answer at hverified ⊢
    obtain ⟨s', result⟩ := answer
    cases result with
    | error e => exact .inl hverified
    | ok commit => exact .inr ⟨s', commit, hverified, rfl⟩

/-! ## Cancelling and signals -/

theorem cancelUnackedPending_cases {correlationId : CorrelationId} {baseRevision : Nat} :
    (s.cancelUnackedPending correlationId baseRevision).1 = s ∨
      s.divergence = none ∧ (s.cancelUnackedPending correlationId baseRevision).1 =
        { s with reconciler := { s.reconciler with pending := none }, pendingDesired := none } := by
  unfold cancelUnackedPending
  by_cases hdrag : s.hasDrag
  · rw [if_pos hdrag]
    exact .inl rfl
  · rw [if_neg hdrag]
    cases hcancel : s.reconciler.cancelUnacked correlationId baseRevision with
    | error e => exact .inl rfl
    | ok reconciler =>
      obtain ⟨hdiverged, rfl⟩ := Reconciler.cancelUnacked_ok hcancel
      exact .inr ⟨hdiverged, rfl⟩

/-- Recording a divergence keeps the first one. -/
theorem divergeConvergence_cases {reason : DivergenceKind} :
    (∃ existing, s.divergence = some existing ∧
      s.reconciler.divergeConvergence reason = (s.reconciler, existing)) ∨
    s.divergence = none ∧
      s.reconciler.divergeConvergence reason = (s.reconciler.diverge reason, reason) := by
  cases hd : s.divergence with
  | some existing =>
    have hdiverged : s.reconciler.diverged = some existing := hd
    exact .inl ⟨existing, rfl, by simp [Reconciler.divergeConvergence, hdiverged]⟩
  | none =>
    have hdiverged : s.reconciler.diverged = none := hd
    exact .inr ⟨rfl, by simp [Reconciler.divergeConvergence, hdiverged]⟩

/-- Either signal halts the session, or finds it halted. -/
theorem noted_cases {reason : DivergenceKind} {s' : Session}
    (h : s' = { s with reconciler := (s.reconciler.divergeConvergence reason).1
                       pendingDesired := none, drag := none }) :
    (∃ existing, s.divergence = some existing ∧ s' = s.cleared) ∨
      s.divergence = none ∧ s' = s.halted reason := by
  rcases @divergeConvergence_cases s reason with ⟨existing, hdiverged, heq⟩ | ⟨hdiverged, heq⟩
  · rw [heq] at h
    exact .inl ⟨existing, hdiverged, h⟩
  · rw [heq] at h
    exact .inr ⟨hdiverged, h⟩

/-! ## Converging -/

theorem settledWorld_iff : s.settledWorld = true ↔
    s.divergence = none ∧ s.hasPending = false ∧ s.pendingDesired = none ∧ s.drag = none := by
  simp only [settledWorld, hasPendingDesired, hasDrag, Bool.and_eq_true, Bool.not_eq_true',
    Option.isNone_iff_eq_none, Option.isSome_eq_false_iff, and_assoc]

/-- The accepted world after a convergence that changed it. -/
def converged (s : Session) (c : Converged) (fingerprint : Nat) : Session :=
  (s.adoptConverged c.world
    { s.reconciler with verifiedRevision := s.acceptedRevision + 1,
                        verifiedFingerprint := fingerprint } fingerprint).focusConverged c.focus

/-- The answers to a complete observation. -/
inductive Convergence (s : Session) (observation : SessionObservation)
    (observedFocus : Option WindowId) :
    Session → Except ProposeError ObservationConvergence → Prop
  | unchanged {e : ProposeError} : Convergence s observation observedFocus s (.error e)
  | halted {reason : DivergenceKind} (hdiverged : s.divergence = none) :
      Convergence s observation observedFocus (s.halted reason) (.error (.diverged reason))
  | refocused {c : Converged} (hsettled : s.settledWorld = true)
      (hvalid : s.validateCurrentTopology = true)
      (hbound : s.convergenceFault observation.observation = none)
      (hplan : s.planConvergence observation observedFocus = .ok c)
      (hchanged : s.convergenceChanged c.world = false) :
      Convergence s observation observedFocus (s.focusConverged c.focus) (.ok ⟨0, 0, 0⟩)
  | converged {c : Converged} (hsettled : s.settledWorld = true)
      (hvalid : s.validateCurrentTopology = true)
      (hbound : s.convergenceFault observation.observation = none)
      (hplan : s.planConvergence observation observedFocus = .ok c)
      (hchanged : s.convergenceChanged c.world = true)
      (hrevision : s.acceptedRevision < maxRevision) :
      Convergence s observation observedFocus
        (s.converged c observation.observation.fingerprint)
        (.ok ⟨c.world.removed, c.world.admitted, c.world.flagsAdopted⟩)

theorem convergeObservation_convergence {observation : SessionObservation}
    {observedFocus : Option WindowId} :
    Convergence s observation observedFocus (s.convergeObservation observation observedFocus).1
      (s.convergeObservation observation observedFocus).2 := by
  generalize hanswer : s.convergeObservation observation observedFocus = answer
  unfold convergeObservation at hanswer
  split at hanswer
  · subst hanswer
    exact .unchanged
  · rename_i hdiverged
    by_cases hpending : s.hasPending || s.hasPendingDesired || s.hasDrag
    · rw [if_pos hpending] at hanswer
      subst hanswer
      exact .unchanged
    · have hsettled : s.settledWorld = true := by
        simp only [Bool.or_eq_true, not_or, Bool.not_eq_true] at hpending
        simp [settledWorld, hdiverged, hpending]
      rw [if_neg hpending] at hanswer
      by_cases hvalid : s.validateCurrentTopology = true
      · rw [hvalid, Bool.not_true, if_neg (by decide)] at hanswer
        cases hbound : s.convergenceFault observation.observation with
        | some reason =>
          rcases @divergeConvergence_cases s reason with ⟨existing, hsome, -⟩ | ⟨-, heq⟩
          · rw [hdiverged] at hsome
            cases hsome
          · simp only [hbound, heq] at hanswer
            subst hanswer
            exact .halted hdiverged
        | none =>
          simp only [hbound] at hanswer
          cases hplan : s.planConvergence observation observedFocus with
          | error e =>
            simp only [hplan, attempt] at hanswer
            subst hanswer
            exact .unchanged
          | ok c =>
            simp only [hplan, attempt] at hanswer
            cases hchanged : s.convergenceChanged c.world with
            | false =>
              rw [hchanged, Bool.not_false, if_pos rfl] at hanswer
              subst hanswer
              exact .refocused hsettled hvalid hbound hplan hchanged
            | true =>
              rw [hchanged, Bool.not_true, if_neg (by decide)] at hanswer
              by_cases hmax : maxRevision ≤ s.acceptedRevision
              · rw [if_pos hmax] at hanswer
                subst hanswer
                exact .unchanged
              · rw [if_neg hmax] at hanswer
                have hnone : s.reconciler.diverged = none := hdiverged
                have hidle : s.reconciler.pending.isSome = false := (settledWorld_iff.mp hsettled).2.1
                have hlt : ¬maxRevision ≤ s.reconciler.verifiedRevision := hmax
                have hcommit : s.reconciler.commitObservationConvergence
                    observation.observation.fingerprint =
                    .ok ({ s.reconciler with
                        verifiedRevision := s.acceptedRevision + 1
                        verifiedFingerprint := observation.observation.fingerprint },
                      ⟨s.acceptedRevision + 1, observation.observation.fingerprint⟩) := by
                  simp [Reconciler.commitObservationConvergence, hnone, hidle, hlt, acceptedRevision]
                rw [hcommit] at hanswer
                subst hanswer
                exact .converged hsettled hvalid hbound hplan hchanged (by omega)
      · rw [Bool.not_eq_true] at hvalid
        rw [hvalid, Bool.not_false, if_pos rfl] at hanswer
        subst hanswer
        exact .unchanged

/-! ## Dragging -/

/-- The session with another capture. -/
def withDrag (s : Session) (drag : Option DragState) : Session := { s with drag }

theorem beginDrag_withDrag {window : WindowId} {observed : SessionObservation} :
    (s.beginDrag window observed).1 = s ∨
      s.divergence = none ∧ ∃ drag, (s.beginDrag window observed).1 = s.withDrag (some drag) := by
  unfold beginDrag attempt
  cases hplan : s.planBeginDrag window observed with
  | error e => exact .inl rfl
  | ok drag =>
    obtain ⟨_, hidle, -⟩ := bind_eq_ok.mp hplan
    exact .inr ⟨(checkIdle_ok hidle).1, drag, rfl⟩

theorem carryDragPrior_withDrag {carried : DragHoverPrior} :
    (s.carryDragPrior carried).1 = s ∨
      s.drag ≠ none ∧ ∃ drag, (s.carryDragPrior carried).1 = s.withDrag (some drag) := by
  unfold carryDragPrior
  cases hdrag : s.drag with
  | none => exact .inl rfl
  | some drag =>
    dsimp only
    split
    · exact .inl rfl
    · exact .inr ⟨nofun, _, rfl⟩

theorem hovering_withDrag {prior : Option PriorGroupEdge} {drag : DragState}
    (h : s.drag = some drag) : s.hovering prior = s.withDrag (some { drag with prior }) := by
  simp [hovering, withDrag, h]

theorem previewDrag_withDrag {x y : Int} {observed : List ObservedWindow} :
    (s.previewDrag x y observed).1 = s ∨
      s.drag ≠ none ∧ ∃ drag, (s.previewDrag x y observed).1 = s.withDrag (some drag) := by
  unfold previewDrag
  split
  · exact .inl rfl
  · split
    · exact .inl rfl
    · split
      · exact .inl rfl
      · rename_i capture hdrag
        have hne : s.drag ≠ none := by simp [hdrag]
        split
        · exact .inl rfl
        · split
          · exact .inr ⟨hne, _, hovering_withDrag hdrag⟩
          · exact .inr ⟨hne, _, hovering_withDrag hdrag⟩

theorem cancelDrag_withDrag : s.cancelDrag.1 = s.withDrag none := by
  unfold cancelDrag
  split
  · rename_i hdrag
    simp [withDrag, ← hdrag]
  · rfl

/-! ## The step relation -/

/-- What one call can do to a session, whichever call it is. -/
inductive Step (s : Session) : Session → Prop
  | same : Step s s
  | cleared {reason : DivergenceKind} (h : s.divergence = some reason) : Step s s.cleared
  | halted {reason : DivergenceKind} (h : s.divergence = none) : Step s (s.halted reason)
  | withDrag {drag : Option DragState} (h : s.divergence = none ∨ drag = none ∨ s.drag ≠ none) :
      Step s (s.withDrag drag)
  | staged {p : Proposal} {basis : Session} {desired : PendingDesired}
      {correlationId : CorrelationId} {kind : PendingKind} {trace : Option SendPlacementTrace}
      (hbasis : Basis s p basis) (hstages : Stages basis s.acceptedRevision desired)
      (hdiverged : s.divergence = none) (hpending : s.hasPending = false) :
      Step s (basis.staged correlationId kind desired trace)
  | acked {pending : Pending} (hdiverged : s.divergence = none)
      (hpending : s.reconciler.pending = some pending) : Step s (s.acked pending)
  | cancelled (hdiverged : s.divergence = none) : Step s
      { s with reconciler := { s.reconciler with pending := none }, pendingDesired := none }
  | bare {pending : Pending} {fingerprint : Nat} (hdiverged : s.divergence = none)
      (hpending : s.reconciler.pending = some pending) (hdesired : s.pendingDesired = none) :
      Step s
        { s with reconciler := s.committedReconciler ⟨pending.baseRevision + 1, fingerprint⟩ }
  | committed {pending : Pending} {desired : PendingDesired} {fingerprint : Nat}
      {lastActive : BTreeMap DomainKey NodeId} (hdiverged : s.divergence = none)
      (hpending : s.reconciler.pending = some pending) (hdesired : s.pendingDesired = some desired)
      (hlast : lastActive = desired.lastActive ∨ lastActive = s.lastActive) :
      Step s { s.committed desired ⟨pending.baseRevision + 1, fingerprint⟩ with lastActive }
  | refocused {observation : SessionObservation} {observedFocus : Option WindowId}
      {c : Converged} (hsettled : s.settledWorld = true)
      (hplan : s.planConvergence observation observedFocus = .ok c)
      (hchanged : s.convergenceChanged c.world = false) : Step s (s.focusConverged c.focus)
  | converged {observation : SessionObservation} {observedFocus : Option WindowId}
      {c : Converged} {fingerprint : Nat} (hsettled : s.settledWorld = true)
      (hbound : s.convergenceFault observation.observation = none)
      (hplan : s.planConvergence observation observedFocus = .ok c) :
      Step s (s.converged c fingerprint)
  | gaps {key : DomainKey} {bounds : Rect} {gap : Int} (hsettled : s.settledWorld = true)
      (hvalid : validateCurrentTopology
        { s with domains := updateDomain s.domains key fun d => { d with bounds, gap } } = true) :
      Step s { s with domains := updateDomain s.domains key fun d => { d with bounds, gap } }
  | relocated {source target : DomainKey} {bounds : Rect} {gap : Int}
      (hsettled : s.settledWorld = true) (hne : source ≠ target)
      (htarget : target ∉ s.trees) (hdomain : (s.domainAt source).isSome)
      (hvalid : (s.relocated source target bounds gap).validateCurrentTopology = true) :
      Step s (s.relocated source target bounds gap)
  | synced {link : WindowLink} (hdiverged : s.divergence = none) (hpending : s.hasPending = false)
      (hvalid : s.validateCurrentTopology = true) (hlink : link ∈ values s.windows)
      (hleaf : hasLeaf s.trees link.key link.leaf = true) :
      Step s { s with
        focusedDomain := some link.key
        focusedLeaf := some link.leaf
        focusStack := s.updatedFocusStack (some link.key) (some link.leaf) s.trees s.windows }
  | settings {fixedAdmission maximizedFocusFence : Bool} {fixedPredicate : FixedSizePredicate} :
      Step s { s with fixedAdmission, maximizedFocusFence, fixedPredicate }

theorem Effect.step {p : Proposal} {s' : Session}
    {result : Except ProposeError (Option PlanBinding)} (h : Effect s p s' result) :
    Step s s' := by
  cases h with
  | unchanged _ => exact .same
  | cleared h => exact .cleared h
  | halted _ h => exact .halted h
  | snappedBack | unsupported => exact .withDrag (.inr (.inl rfl))
  | staged hbasis hstages hdiverged hpending => exact .staged hbasis hstages hdiverged hpending

theorem acknowledge_step {ack : AdapterAck} : Step s (s.acknowledge ack).1 := by
  have hanswer := @acknowledge_acknowledged s ack
  generalize s.acknowledge ack = answer at hanswer ⊢
  obtain ⟨s', result⟩ := answer
  cases hanswer with
  | cleared h => exact .cleared h
  | unchanged _ _ => exact .same
  | halted h => exact .halted h
  | acked hdiverged hpending => exact .acked hdiverged hpending

theorem verification_step {v : Verification} : Step s (s.verification v).1 := by
  rcases @verification_verified s v with hanswer | ⟨s', commit, hanswer, heq⟩
  · generalize s.verification v = answer at hanswer ⊢
    obtain ⟨s', result⟩ := answer
    cases hanswer with
    | cleared h => exact .cleared h
    | unchanged _ _ => exact .same
    | halted h => exact .halted h
    | bare hdiverged hpending hdesired => exact .bare hdiverged hpending hdesired
    | committed hdiverged hpending hdesired =>
      exact .committed hdiverged hpending hdesired (.inl rfl)
  · rw [heq]
    cases hanswer with
    | bare hdiverged hpending hdesired => exact .bare hdiverged hpending hdesired
    | committed hdiverged hpending hdesired =>
      exact .committed hdiverged hpending hdesired (.inr rfl)

theorem noted_step {reason : DivergenceKind} {s' : Session}
    (h : s' = { s with reconciler := (s.reconciler.divergeConvergence reason).1
                       pendingDesired := none, drag := none }) : Step s s' := by
  rcases noted_cases h with ⟨_, hsome, rfl⟩ | ⟨hnone, rfl⟩
  · exact .cleared hsome
  · exact .halted hnone

theorem convergeObservation_step {observation : SessionObservation}
    {observedFocus : Option WindowId} :
    Step s (s.convergeObservation observation observedFocus).1 := by
  have hanswer := @convergeObservation_convergence s observation observedFocus
  generalize s.convergeObservation observation observedFocus = answer at hanswer ⊢
  obtain ⟨s', result⟩ := answer
  cases hanswer with
  | unchanged => exact .same
  | halted h => exact .halted h
  | refocused hsettled _ _ hplan hchanged => exact .refocused hsettled hplan hchanged
  | converged hsettled _ hbound hplan _ _ => exact .converged hsettled hbound hplan

theorem updateDomainGaps_step {key : DomainKey} {bounds : Rect} {gap : Int} :
    Step s (s.updateDomainGaps key bounds gap).1 := by
  unfold updateDomainGaps
  split
  · exact .same
  · rename_i hguard
    dsimp only
    split
    · rename_i hvalid
      simp only [Bool.or_eq_true, not_or, Bool.not_eq_true', Bool.not_eq_false] at hguard
      exact .gaps hguard.1.2 hvalid
    · exact .same

theorem relocateDomain_step {source target : DomainKey} {bounds : Rect} {gap : Int} :
    Step s (s.relocateDomain source target bounds gap).1 := by
  unfold relocateDomain
  split
  · exact .same
  · rename_i hguard
    dsimp only
    split
    · rename_i hvalid
      simp only [Bool.or_eq_true, not_or, Bool.not_eq_true', Bool.not_eq_false, beq_iff_eq,
        Bool.not_eq_true, contains_eq_false, Option.isNone_eq_false_iff] at hguard
      obtain ⟨⟨⟨⟨⟨⟨⟨⟨⟨⟨⟨hne, -⟩, -⟩, -⟩, -⟩, -⟩, hsettled⟩, htarget⟩, -⟩, hdomain⟩, -⟩, -⟩ := hguard
      exact .relocated hsettled hne htarget hdomain hvalid
    · exact .same

theorem syncFocusFromWindow_step {domain : DomainKey} {window : WindowId} :
    Step s (s.syncFocusFromWindow domain window).1 := by
  unfold syncFocusFromWindow
  split
  · exact .same
  · rename_i hguard
    split
    · exact .same
    · rename_i link hlink
      split
      · exact .same
      · rename_i hhome
        simp only [Bool.or_eq_true, not_or, Bool.not_eq_true, Option.isSome_eq_false_iff,
          Option.isNone_iff_eq_none, Bool.not_eq_true', Bool.not_eq_false, ne_eq,
          not_not] at hguard hhome
        obtain ⟨rfl, hleaf⟩ := hhome
        exact .synced hguard.1.1.1.1 hguard.1.1.1.2 hguard.2 (mem_values_of_lookup hlink) hleaf

theorem beginDrag_step {window : WindowId} {observed : SessionObservation} :
    Step s (s.beginDrag window observed).1 := by
  rcases @beginDrag_withDrag s window observed with heq | ⟨hdiverged, drag, heq⟩
  · rw [heq]
    exact .same
  · rw [heq]
    exact .withDrag (.inl hdiverged)

theorem hover_step {s' : Session}
    (h : s' = s ∨ s.drag ≠ none ∧ ∃ drag, s' = s.withDrag (some drag)) : Step s s' := by
  rcases h with rfl | ⟨hdrag, drag, rfl⟩
  · exact .same
  · exact .withDrag (.inr (.inr hdrag))

theorem cancelUnackedPending_step {correlationId : CorrelationId} {baseRevision : Nat} :
    Step s (s.cancelUnackedPending correlationId baseRevision).1 := by
  rcases @cancelUnackedPending_cases s correlationId baseRevision with heq | ⟨hdiverged, heq⟩
  · rw [heq]
    exact .same
  · rw [heq]
    exact .cancelled hdiverged

theorem cancelDrag_step : Step s s.cancelDrag.1 := by
  rw [cancelDrag_withDrag]
  exact .withDrag (.inr (.inl rfl))

/-- Every call is a step. -/
theorem next_step (op : SessionOp) : Step s (s.next op) := by
  cases op with
  | propose p => exact proposal_effect.step
  | acknowledge ack => exact acknowledge_step
  | verify v => exact verification_step
  | cancelUnackedPending correlationId baseRevision => exact cancelUnackedPending_step
  | noteAdapterLoss => exact noted_step rfl
  | notePostconditionMismatch => exact noted_step rfl
  | convergeObservation observation observedFocus => exact convergeObservation_step
  | updateDomainGaps key bounds gap => exact updateDomainGaps_step
  | relocateDomain source target bounds gap => exact relocateDomain_step
  | syncFocusFromWindow domain window => exact syncFocusFromWindow_step
  | beginDrag window observed => exact beginDrag_step
  | carryDragPrior carried => exact hover_step carryDragPrior_withDrag
  | previewDrag x y observed => exact hover_step previewDrag_withDrag
  | cancelDrag => exact cancelDrag_step
  | setFixedSizeAdmission enabled => exact .settings
  | setMaximizedFocusFence enabled => exact .settings
  | setFixedSizePredicate predicate => exact .settings

end Session

end PlasmaTiler
