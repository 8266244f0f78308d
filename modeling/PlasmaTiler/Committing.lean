import PlasmaTiler.Engine
import PlasmaTiler.Idempotence

/-!
# What a committed plan leaves

A request over a pair proposes one plan and commits it in the same call. The
committed pair carries the links and exceptions the plan asked for: those of
the pair as it was for a move within a domain and for a change of focus, and
one relinked window for a crossing or a send.

`Awaits` is the state in between: a session that waits for the commit of a
world. A proposal that is accepted leaves one (`proposeStaged_ok`), and the
commit that succeeds makes that world the accepted one (`commitWith_some`).
So whether a domain is occupied afterwards is known from what was proposed.
-/

namespace PlasmaTiler

namespace Session

variable {s s' : Session} {window : WindowId} {key domain : DomainKey}
  {observed : SessionObservation} {correlationId : CorrelationId}

/-! ## Occupied domains -/

/-- A tile or an exception is homed on the domain. -/
def occupies (s : Session) (key : DomainKey) : Bool :=
  (values s.windows).any (·.key == key) || (values s.exceptions).any (·.key == key)

theorem occupies_iff : s.occupies key = true ↔
    (∃ (w : WindowId) (link : WindowLink), s.windows[w]? = some link ∧ link.key = key) ∨
      ∃ (w : WindowId) (record : ExceptionRecord), s.exceptions[w]? = some record ∧
        record.key = key := by
  simp only [occupies, Bool.or_eq_true, List.any_eq_true, mem_values, beq_iff_eq]
  constructor
  · rintro (⟨link, ⟨w, hlink⟩, hkey⟩ | ⟨record, ⟨w, hrecord⟩, hkey⟩)
    · exact .inl ⟨w, link, hlink, hkey⟩
    · exact .inr ⟨w, record, hrecord, hkey⟩
  · rintro (⟨w, link, hlink, hkey⟩ | ⟨w, record, hrecord, hkey⟩)
    · exact .inl ⟨link, ⟨w, hlink⟩, hkey⟩
    · exact .inr ⟨record, ⟨w, hrecord⟩, hkey⟩

theorem occupies_congr (hwindows : s'.windows = s.windows)
    (hexceptions : s'.exceptions = s.exceptions) : s'.occupies key = s.occupies key := by
  rw [occupies, hwindows, hexceptions]
  rfl

/-- After a convergence a domain is occupied exactly when an observed window is
homed there. -/
theorem occupies_converged (key : DomainKey) {observedFocus : Option WindowId}
    {counts : ObservationConvergence} (h : s.convergeObservation observed observedFocus = (s', .ok counts)) :
    s'.domains = s.domains ∧
      s'.occupies key = observed.windows.any fun entry => entry.key == key := by
  have hok : (s.convergeObservation observed observedFocus).2 = .ok counts := by rw [h]
  obtain ⟨c, -, hs, -, hplan, hadopts⟩ := convergeObservation_adopts hok
  have hfirst : (s.convergeObservation observed observedFocus).1 = s' := by rw [h]
  rw [hfirst] at hadopts
  obtain ⟨world, hpasses, hworld⟩ := hplan.passes
  have hnodup := nodup_of_shapes hplan.shapes
  have hreaches := hplan.reaches hs hadopts
  have hhome : AtHome (observedById observed.windows) s'.converging := by
    refine (convergePasses_atHome ?_ hpasses).congr ?_ ?_
    · exact (convergesInPlace_iff hs.disjoint hnodup).mp hplan.inPlace
    · simp only [converging, hadopts.windows, hworld]
    · simp only [converging, hadopts.exceptions, hworld]
  -- every known window is observed, and at its home
  have hentry : ∀ {w : WindowId}, w ∈ s'.windows ∨ w ∈ s'.exceptions →
      ∃ e ∈ observed.windows, e.window = w := by
    intro w hknown
    obtain ⟨e, he⟩ := (observedById_isSome hnodup).mpr (hreaches.membership.mp hknown)
    exact ⟨e, (lookup_observedById hnodup).mp he⟩
  refine ⟨hadopts.domains, Bool.eq_iff_iff.mpr ?_⟩
  rw [occupies_iff]
  simp only [List.any_eq_true, beq_iff_eq]
  constructor
  · rintro (⟨w, link, hlink, rfl⟩ | ⟨w, record, hrecord, rfl⟩)
    · obtain ⟨e, he, rfl⟩ := hentry (.inl (mem_iff_lookup.mpr ⟨link, hlink⟩))
      obtain ⟨houtput, hworkspace⟩ :=
        hhome.link ((lookup_observedById hnodup).mpr ⟨he, rfl⟩) hlink
      exact ⟨e, he, by rw [ObservedWindow.key, WindowLink.key, houtput, hworkspace]⟩
    · obtain ⟨e, he, rfl⟩ := hentry (.inr (mem_iff_lookup.mpr ⟨record, hrecord⟩))
      obtain ⟨houtput, hworkspace⟩ :=
        hhome.record ((lookup_observedById hnodup).mpr ⟨he, rfl⟩) hrecord
      exact ⟨e, he, by rw [ObservedWindow.key, ExceptionRecord.key, houtput, hworkspace]⟩
  · rintro ⟨e, he, rfl⟩
    have hfound := (lookup_observedById hnodup).mpr ⟨he, rfl⟩
    rcases hreaches.membership.mpr ((observedById_isSome hnodup).mp ⟨e, hfound⟩) with hw | hw
    · obtain ⟨link, hlink⟩ := mem_iff_lookup.mp hw
      obtain ⟨houtput, hworkspace⟩ := hhome.link hfound hlink
      exact .inl ⟨_, link, hlink, by rw [ObservedWindow.key, WindowLink.key, houtput, hworkspace]⟩
    · obtain ⟨record, hrecord⟩ := mem_iff_lookup.mp hw
      obtain ⟨houtput, hworkspace⟩ := hhome.record hfound hrecord
      exact .inr ⟨_, record, hrecord,
        by rw [ObservedWindow.key, ExceptionRecord.key, houtput, hworkspace]⟩

/-- Following the observed focus changes the focus only. -/
theorem syncFocusFromWindow_frame :
    (s.syncFocusFromWindow domain window).1.windows = s.windows ∧
      (s.syncFocusFromWindow domain window).1.exceptions = s.exceptions ∧
      (s.syncFocusFromWindow domain window).1.domains = s.domains := by
  unfold syncFocusFromWindow
  split
  · exact ⟨rfl, rfl, rfl⟩
  · split
    · exact ⟨rfl, rfl, rfl⟩
    · split <;> exact ⟨rfl, rfl, rfl⟩

/-! ## Accepted proposals -/

/-- A reconciler with a plan open whose commit stays in the range of
revisions. The bound is what keeps the revision after the commit sendable. -/
def Opens (r : Reconciler) : Prop :=
  ∃ pending, r.pending = some pending ∧ pending.baseRevision < maxRevision

/-- A session that waits for the commit of a world: the world is staged, the
plan is open, and domains, drag and pair bookkeeping are those of before. -/
structure Awaits (s s' : Session) (desired : PendingDesired) : Prop where
  desired : s'.pendingDesired = some desired
  domains : s'.domains = s.domains
  drag : s'.drag = s.drag
  restore : s'.canonicalPairTargetRestore = s.canonicalPairTargetRestore
  opens : Opens s'.reconciler

theorem proposeWith_opens {r r' : Reconciler} {observation : Observation}
    {faults : List (Bool × DivergenceKind)} {kind : PendingKind} {u : Unit}
    (h : r.proposeWith observation correlationId faults kind = (r', .ok u)) : Opens r' := by
  unfold Reconciler.proposeWith at h
  split at h
  · cases h
  · split at h
    · cases h
    · split at h
      · cases h
      · rename_i hfault
        cases h
        refine ⟨_, rfl, ?_⟩
        cases hbinding : r.bindingFault observation correlationId with
        | some reason => rw [hbinding] at hfault; cases hfault
        | none =>
          have hbound := Reconciler.firstFault_eq_none.mp hbinding
            (decide (maxRevision ≤ r.verifiedRevision), .revisionExhausted) (by simp)
          simpa using hbound

theorem propose_opens {r : Reconciler} {plan : MovePlan} {observation : Observation}
    {capabilities : Capabilities} {dispatch : Dispatch}
    (h : (r.propose plan observation correlationId capabilities).2 = .ok dispatch) :
    Opens (r.propose plan observation correlationId capabilities).1 := by
  simp only [Reconciler.propose, map_eq_ok] at h ⊢
  obtain ⟨u, hu, -⟩ := h
  exact proposeWith_opens (Prod.ext rfl hu)

theorem proposeLifecycle_opens {r : Reconciler} {plan : LifecyclePlan} {observation : Observation}
    {capabilities : LifecycleCapabilities} {dispatch : LifecycleDispatch}
    (h : (r.proposeLifecycle plan observation correlationId capabilities).2 = .ok dispatch) :
    Opens (r.proposeLifecycle plan observation correlationId capabilities).1 := by
  simp only [Reconciler.proposeLifecycle, map_eq_ok] at h ⊢
  obtain ⟨u, hu, -⟩ := h
  exact proposeWith_opens (Prod.ext rfl hu)

theorem proposeFocus_opens {r : Reconciler} {plan : FocusPlanContract} {observation : Observation}
    {capabilities : FocusCapabilities} {dispatch : FocusDispatch}
    (h : (r.proposeFocus plan observation correlationId capabilities).2 = .ok dispatch) :
    Opens (r.proposeFocus plan observation correlationId capabilities).1 := by
  simp only [Reconciler.proposeFocus, map_eq_ok] at h ⊢
  obtain ⟨u, hu, -⟩ := h
  exact proposeWith_opens (Prod.ext rfl hu)

section
variable {P D R : Type} {planned : Except ProposeError (Staging P)}
  {verdict : P → Reconciler × Except Reconciler.ProposeError D} {report : D → Staging P → R}
  {answer : R}

/-- What an accepted proposal has planned and staged. -/
theorem proposeStaged_ok
    (hopens : ∀ plan dispatch, (verdict plan).2 = .ok dispatch → Opens (verdict plan).1)
    (h : s.proposeStaged planned verdict report = (s', .ok answer)) :
    ∃ staging dispatch, planned = .ok staging ∧ (verdict staging.plan).2 = .ok dispatch ∧
      answer = report dispatch staging ∧ Awaits s s' staging.desired := by
  unfold proposeStaged attempt at h
  cases planned with
  | error e => cases h
  | ok staging =>
    simp only at h
    generalize hverdict : verdict staging.plan = v at h
    obtain ⟨reconciler, result⟩ := v
    cases result with
    | ok dispatch =>
      simp only [stage, Except.map, Prod.mk.injEq, Except.ok.injEq] at h
      obtain ⟨rfl, rfl⟩ := h
      have hopen := hopens staging.plan dispatch (by rw [hverdict])
      rw [hverdict] at hopen
      exact ⟨staging, dispatch, rfl, by rw [hverdict], rfl, rfl, rfl, rfl, rfl, hopen⟩
    | error e => cases e <;> cases h

/-- A refused proposal leaves the session alone. -/
theorem proposeStaged_refused {kind : RefusalKind}
    (h : s.proposeStaged planned verdict report = (s', .error (.refused kind))) : s' = s := by
  unfold proposeStaged attempt at h
  cases planned with
  | error e =>
    cases h
    rfl
  | ok staging =>
    simp only at h
    generalize verdict staging.plan = v at h
    obtain ⟨reconciler, result⟩ := v
    cases result with
    | ok dispatch => cases h
    | error e => cases e <;> cases h

end

theorem applyMoveOperation_windows {trees : Trees} {windows : Links} {domains : List OutputDomain}
    {leaf : NodeId} {direction : Direction} {plan : MovePlan} {baseRevision : Nat}
    {targetFocus : Option NodeId} {applied : AppliedMove}
    (h : applyMoveOperation trees windows domains domain leaf direction plan baseRevision
      targetFocus = some applied) :
    (crossTarget plan.operation = none → applied.windows = windows) ∧
      ∀ target, crossTarget plan.operation = some target → target ≠ domain ∧
        ∃ mover, applied.windows =
          windows.insert mover ⟨mover, leaf, target.output, target.workspace⟩ := by
  unfold applyMoveOperation at h
  simp only [Option.bind_eq_bind, Option.bind_eq_some_iff, require_eq_some] at h
  obtain ⟨_, -, mover, -, _, -, h⟩ := h
  cases hoperation : plan.operation with
  | crossOutput rule output workspace index target =>
    rw [hoperation] at h
    simp only [applyCrossOutput, Option.bind_eq_bind, Option.bind_eq_some_iff, require_eq_some,
      Option.pure_def, Option.some.injEq] at h
    obtain ⟨_, -, _, haway, _, -, _, -, _, -, _, -, _, -, _, -, rfl⟩ := h
    refine ⟨nofun, fun key hkey => ?_⟩
    cases hkey
    exact ⟨bne_iff_ne.mp haway, mover, rfl⟩
  | _ =>
    rw [hoperation] at h
    simp only [Option.bind_eq_some_iff, Option.pure_def, Option.some.injEq] at h
    obtain ⟨_, -, _, -, rfl⟩ := h
    exact ⟨fun _ => rfl, nofun⟩

/-- The planner answers a move by crossing to another output. -/
def crosses (s : Session) (domain : DomainKey) (window : WindowId) (direction : Direction)
    (capabilities : Capabilities) (sameAxisMove : SameAxisMove) : Bool :=
  match s.focusedLeaf, s.moveSnapshot domain with
  | some leaf, some snapshot =>
    match planMoveWithCapabilities snapshot ⟨domain.output, leaf, window, direction, sameAxisMove⟩
        capabilities with
    | .planned plan => (crossTarget plan.operation).isSome
    | _ => false
  | _, _ => false

/-- A move within the domain relinks nothing, a crossing one window to the
target. -/
theorem proposeMoveWithSameAxis_asks {direction : Direction} {capabilities : Capabilities}
    {sameAxisMove : SameAxisMove} {plan : SessionMovePlan}
    (h : s.proposeMoveWithSameAxis domain window direction observed correlationId capabilities
      sameAxisMove = (s', .ok plan)) :
    ∃ desired, Awaits s s' desired ∧ desired.exceptions = s.exceptions ∧
      s.ValidDesired desired ∧
      s.crosses domain window direction capabilities sameAxisMove =
        (crossTarget plan.dispatch.operation).isSome ∧
      (crossTarget plan.dispatch.operation = none → desired.windows = s.windows) ∧
      ∀ target, crossTarget plan.dispatch.operation = some target → target ≠ domain ∧
        ∃ mover leaf, desired.windows =
          s.windows.insert mover ⟨mover, leaf, target.output, target.workspace⟩ := by
  obtain ⟨staging, dispatch, hplanned, hverdict, rfl, hawaits⟩ :=
    proposeStaged_ok (fun _ _ => propose_opens) h
  obtain ⟨leaf, snapshot, applied, hleaf, hsnapshot, hplan, happlied, -, hdesired, hvalid⟩ :=
    planMoveWithSameAxis_ok hplanned
  have hoperation : dispatch.operation = staging.plan.operation := by
    simp only [Reconciler.propose, map_eq_ok] at hverdict
    obtain ⟨_, -, rfl⟩ := hverdict
    rfl
  obtain ⟨hstays, hcrossed⟩ := applyMoveOperation_windows happlied
  refine ⟨staging.desired, hawaits, by rw [hdesired]; rfl, hvalid, ?_, ?_, ?_⟩
  · simp only [crosses, hleaf, hsnapshot, hplan, planOf, hoperation]
  · intro hnone
    rw [hdesired]
    exact hstays (hoperation ▸ hnone)
  · intro target htarget
    obtain ⟨haway, mover, hwindows⟩ := hcrossed target (hoperation ▸ htarget)
    exact ⟨haway, mover, leaf, by rw [hdesired]; exact hwindows⟩

/-- A change of focus relinks nothing. -/
theorem proposeFocusPlan_asks {planned : Except ProposeError (Staging (FocusPlanContract × FocusPlan))}
    {observation : Observation} {capabilities : FocusCapabilities} {plan : SessionFocusPlan}
    (hplanned : ∀ staging, planned = .ok staging →
      ∃ key leaf, staging.desired = s.refocused key leaf)
    (h : s.proposeFocusPlan planned observation correlationId capabilities = (s', .ok plan)) :
    ∃ desired, Awaits s s' desired ∧ desired.windows = s.windows ∧
      desired.exceptions = s.exceptions := by
  obtain ⟨staging, _, hok, -, -, hawaits⟩ := proposeStaged_ok (fun _ _ => proposeFocus_opens) h
  obtain ⟨key, leaf, hdesired⟩ := hplanned staging hok
  exact ⟨staging.desired, hawaits, by rw [hdesired]; rfl, by rw [hdesired]; rfl⟩

/-- An accepted send waits for the world it planned. -/
theorem proposeSend_awaits {target : DomainKey} {follow cross : Bool}
    {capabilities : LifecycleCapabilities} {plan : SessionPlan}
    (h : s.proposeSend window target follow cross observed correlationId capabilities =
      (s', .ok plan)) :
    ∃ desired, Awaits s s' desired ∧
      s.SentWorld window target follow observed.observation.revision desired := by
  unfold proposeSend attempt at h
  cases hplan : s.planSend window target follow cross observed with
  | error e => rw [hplan] at h; cases h
  | ok planned =>
    obtain ⟨staging, trace⟩ := planned
    rw [hplan] at h
    simp only at h
    generalize hstaged : s.proposeLifecyclePlan (.ok staging) observed.observation correlationId
      capabilities = answer at h
    obtain ⟨staged, result⟩ := answer
    cases result with
    | error e => cases h
    | ok _ =>
      simp only [Prod.mk.injEq] at h
      obtain ⟨rfl, -⟩ := h
      obtain ⟨staging', _, heq, -, -, hawaits⟩ :=
        proposeStaged_ok (fun _ _ => proposeLifecycle_opens) hstaged
      cases heq
      exact ⟨staging.desired, { hawaits with }, planSend_ok hplan⟩

/-- A send relinks one window to the target. -/
theorem proposeSend_asks {target : DomainKey} {follow cross : Bool}
    {capabilities : LifecycleCapabilities} {plan : SessionPlan}
    (h : s.proposeSend window target follow cross observed correlationId capabilities =
      (s', .ok plan)) :
    ∃ desired link, Awaits s s' desired ∧
      desired.windows = s.windows.insert window link ∧ link.key = target := by
  obtain ⟨desired, hawaits, hsent⟩ := proposeSend_awaits h
  obtain ⟨link, n, ids, anchor, axis, -, -, -, -, -, -, -, hwindows, -⟩ := hsent.moved
  exact ⟨desired, _, hawaits, hwindows, rfl⟩

/-! ## Commits -/

/-- The committed world is the awaited one. -/
theorem Verified.committed_of {commit : Commit} {desired : PendingDesired}
    (h : Verified s s' (.ok commit)) (hdesired : s.pendingDesired = some desired) :
    s'.windows = desired.windows ∧ s'.exceptions = desired.exceptions ∧
      s'.domains = s.domains := by
  cases h with
  | bare _ _ hnone =>
    rw [hnone] at hdesired
    cases hdesired
  | committed _ _ hsome =>
    obtain rfl := Option.some.inj (hsome.symm.trans hdesired)
    exact ⟨rfl, rfl, rfl⟩

end Session

namespace Engine

open Session

variable {s s' : Session} {event : CoreEvent} {base : Nat}

/-- Acknowledging and verifying commits the awaited world. -/
theorem commitWith_some {verify : Session → Session × Except VerifyError Commit}
    {desired : PendingDesired} (hverify : ∀ t, Verified t (verify t).1 (verify t).2)
    (hdesired : s.pendingDesired = some desired)
    (h : commitWith s event base verify = some s') :
    s'.windows = desired.windows ∧ s'.exceptions = desired.exceptions ∧
      s'.domains = s.domains := by
  unfold commitWith at h
  have hanswer := @acknowledge_acknowledged s (acceptedAck event base)
  generalize s.acknowledge (acceptedAck event base) = answer at h hanswer
  obtain ⟨t, result⟩ := answer
  cases result with
  | error e => cases h
  | ok applied =>
    have hkept : t.pendingDesired = some desired ∧ t.domains = s.domains := by
      cases hanswer with
      | unchanged => exact ⟨hdesired, rfl⟩
      | acked => exact ⟨hdesired, rfl⟩
    have hverified := hverify t
    simp only at h
    generalize verify t = answer at h hverified
    obtain ⟨t', result⟩ := answer
    cases result with
    | error e => cases h
    | ok commit =>
      cases h
      obtain ⟨hwindows, hexceptions, hdomains⟩ := hverified.committed_of hkept.1
      exact ⟨hwindows, hexceptions, hdomains.trans hkept.2⟩

end Engine

end PlasmaTiler
