import PlasmaTiler.Answering

/-!
# The answers of a run

The last paths to a plan: projections of a retained domain, drags, floats,
and the convergence that precedes them all.

Many of these functions end with an error that carries its reply, and a reply
could be a plan. That none is takes a look at every `throw`; `Refuses` says
it of a computation and goes through its binds, guards and branches by simp,
so that the look is taken once for each function and without unfolding what
it calls.

A retained domain is converged before its command, so the commands that run
on it start from a session that shows the event. A domain that is not
retained reaches its command unconverged, and there each command makes a
session of its own. Both meet in `Coherent.answers`: a validated request over
one domain that is answered by a plan leaves its slot showing what was
observed.
-/

namespace PlasmaTiler

/-! ## Refusals -/

/-- An error of the computation is answered without a plan. Errors carry whole
replies, and a reply could be a plan. -/
def Refuses {α : Type} (x : Except CoreReply α) : Prop :=
  ∀ reply, x = .error reply → reply.isPlan = false

section
variable {α β ε : Type} {x y : Except CoreReply α} {f : α → Except CoreReply β} {reply : CoreReply}
  {c : Prop} [Decidable c]

@[simp] theorem refuses_ok (a : α) : Refuses (.ok a) := by
  intro reply h
  cases h

@[simp] theorem refuses_pure (a : α) : Refuses (pure a) := refuses_ok a

@[simp] theorem refuses_error : Refuses (.error reply : Except CoreReply α) ↔
    reply.isPlan = false := by
  constructor
  · intro h
    exact h reply rfl
  · intro h other heq
    cases heq
    exact h

@[simp] theorem refuses_throw : Refuses (throw reply : Except CoreReply α) ↔
    reply.isPlan = false := refuses_error

@[simp] theorem refuses_bind : Refuses (x >>= f) ↔ Refuses x ∧ ∀ a, x = .ok a → Refuses (f a) := by
  cases x <;> simp [Refuses, bind, Except.bind]

@[simp] theorem refuses_ite : Refuses (if c then x else y) ↔
    (c → Refuses x) ∧ (¬c → Refuses y) := by
  split <;> simp_all

@[simp] theorem refuses_map (g : α → β) : Refuses (g <$> x) ↔ Refuses x := by
  cases x <;> simp [Functor.map, Except.map, Refuses]

@[simp] theorem refuses_ensure {b : Bool} : Refuses (ensure b reply) ↔
    (b = false → reply.isPlan = false) := by
  cases b <;> simp [ensure]

@[simp] theorem refuses_okOr {o : Option α} : Refuses (okOr reply o) ↔
    (o = none → reply.isPlan = false) := by
  cases o <;> simp

@[simp] theorem refuses_mapError {z : Except ε α} {g : ε → CoreReply} :
    Refuses (z.mapError g) ↔ ∀ error, z = .error error → (g error).isPlan = false := by
  cases z <;> simp [Except.mapError]

/-! The replies of a request over one domain that are no plans. -/

@[simp] theorem reply_isPlan (kind : RefusalKind) : (RefusalKind.reply kind).isPlan = false := rfl

@[simp] theorem rejected_isPlan (kind message : String) :
    (CoreReply.rejected kind message).isPlan = false := rfl

@[simp] theorem snapshotInvalid_isPlan (message detail : String) :
    (CoreReply.snapshotInvalid message detail).isPlan = false := rfl

@[simp] theorem pendingExists_isPlan : CoreReply.pendingExists.isPlan = false := rfl

@[simp] theorem outerGapMismatch_isPlan : CoreReply.outerGapMismatch.isPlan = false := rfl

end

namespace Engine

section
variable {e : Engine} {event : CoreEvent} {r : Request} {s : Session} {key : DomainKey}

@[simp] theorem refuses_checkSettled : Refuses (checkSettled s) := by
  unfold checkSettled
  split
  · simp
  · simp

@[simp] theorem refuses_checkFocus : Refuses (checkFocus s key) := by
  simp [checkFocus]

@[simp] theorem refuses_convergeOn {windows : List EngineWindow} {focus : Option WindowId} :
    Refuses (convergeOn s event windows focus) := by
  unfold convergeOn
  split
  · exact refuses_error.mpr (convergenceFailure_isPlan _)
  · exact refuses_ok _

theorem refuses_reconcileRetained {relocated : Bool} :
    Refuses (e.reconcileRetained r s relocated) := by
  simp [reconcileRetained]

theorem refuses_updateGapsRetained : Refuses (e.updateGapsRetained r s) := by
  simp only [updateGapsRetained, refuses_bind, refuses_checkSettled, refuses_ensure, refuses_okOr,
    refuses_ite, refuses_checkFocus, refuses_pure, reply_isPlan, implies_true, true_and]
  refine fun _ _ _ _ => ⟨fun _ _ _ _ => ?_, fun _ _ _ _ _ => ?_⟩
  · split
    · exact refuses_throw.mpr rfl
    · exact refuses_pure _
  · split
    · exact refuses_throw.mpr rfl
    · exact refuses_pure _

theorem refuses_dragWorking : Refuses (e.dragWorking event) := by
  simp only [dragWorking]
  split
  · simp
  · simp

theorem refuses_beginDragOn {fresh isPreview : Bool} {window : WindowId}
    {hoverPrior : Option DragHoverPrior} :
    Refuses (beginDragOn s fresh isPreview event window hoverPrior) := by
  simp only [beginDragOn]
  split
  all_goals
    refine refuses_bind.mpr ⟨?_, fun working _ => refuses_bind.mpr
      ⟨refuses_ensure.mpr fun _ => rfl, fun _ _ => ?_⟩⟩
  case isTrue.refine_1 => exact refuses_convergeOn
  case isFalse.refine_1 => exact refuses_ok s
  -- whatever it works on, the drag begins there or is refused
  all_goals
    split
    · exact refuses_error.mpr (convergenceFailure_isPlan _)
    · split
      · exact refuses_pure _
      · exact refuses_pure _

theorem refuses_dragPreviewRequest {window : String} {x y : Int}
    {hoverPrior : Option DragHoverPrior} {source : Option DomainKey} :
    Refuses (e.dragPreviewRequest r window x y hoverPrior source) := by
  simp only [dragPreviewRequest, refuses_bind]
  refine ⟨refuses_ensure.mpr fun _ => rfl, fun _ _ => ⟨refuses_dragWorking, fun working _ =>
    ⟨refuses_beginDragOn, fun begun _ => ?_⟩⟩⟩
  split
  · exact refuses_pure _
  · split
    · rw [refuses_bind]
      exact ⟨refuses_okOr.mpr fun _ => rfl, fun _ _ => refuses_pure _⟩
    · exact refuses_error.mpr (convergenceFailure_isPlan _)

theorem activeGroupRequest_isPlan : (e.activeGroupRequest event).2.isPlan = false := by
  unfold Engine.activeGroupRequest
  split
  · rfl
  · dsimp only
    split
    · rfl
    · rfl

/-! ## Projections -/

theorem reprojectIf_shows {retained : OutputDomain}
    (hs : e.sessions[r.event.domain.key]? = some s) (hknown : s.knownWindows = r.event.observed)
    (hretained : s.domainAt r.event.domain.key = some retained)
    (hgap : retained.gap = r.event.domain.gap)
    (houter : e.outerGaps[r.event.domain.key]? = some r.event.outerGap) :
    (e.reprojectIf (retained.bounds != r.event.domain.bounds) r.event).Shows r.event := by
  unfold Engine.reprojectIf
  split
  · unfold Engine.reprojectRetained
    rw [hs]
    refine shows_putSession ⟨hknown, { retained with bounds := r.event.domain.bounds }, ?_, rfl,
      hgap⟩ houter
    rw [Session.domainAt_reproject, hretained]
    rfl
  · rename_i hsame
    rw [bne_iff_ne, ne_eq, not_not] at hsame
    exact .kept hs ⟨hknown, retained, hretained, hsame, hgap⟩ houter

/-- A projection of a retained domain, which was converged before or is
complete. -/
theorem reconcileRetained_shows {relocated : Bool} {e' : Engine} {plan : ProjectionPlan}
    (hs : e.sessions[r.event.domain.key]? = some s)
    (hknown : relocated = false → s.knownWindows = r.event.observed)
    (hok : e.reconcileRetained r s relocated = .ok (e', plan)) : e'.Shows r.event := by
  simp only [Engine.reconcileRetained, bind_eq_ok, okOr_eq_ok, ensure_eq_ok, beq_iff_eq] at hok
  obtain ⟨_, -, retained, hretained, _, hgap, _, houter, _, hcomplete, hok⟩ := hok
  have hshown : s.knownWindows = r.event.observed := by
    cases relocated with
    | false => exact hknown rfl
    | true => exact (of_decide_eq_true hcomplete).symm
  have hkept : e.outerGaps[r.event.domain.key]? = some r.event.outerGap := by
    simpa [Engine.outerGapMatches] using houter
  split at hok
  · simp only [bind_eq_ok] at hok
    obtain ⟨_, -, hok⟩ := hok
    split at hok
    · rename_i hempty
      cases hok
      exact shows_remove (windows_eq_nil hshown hempty)
    · cases hok
      exact reprojectIf_shows hs hshown hretained hgap hkept
  · simp only [bind_eq_ok] at hok
    obtain ⟨_, -, _, -, hok⟩ := hok
    cases hok
    exact reprojectIf_shows hs hshown hretained hgap hkept

theorem reconcileRequest_answers {e₀ : Engine} (hl : e₀.Lettered) (hr : r.Validated)
    (h : e₀.Leaves r (Own r) e) (hconverged : e.Converged r.event) :
    Answers r.event (e.reconcileRequest r) := by
  have hnone : ((e.reconcileRelocated r.event).getD e).sessions[r.event.domain.key]? = none →
      e.sessions[r.event.domain.key]? = none := by
    cases hrelocated : e.reconcileRelocated r.event with
    | none => exact id
    | some moved =>
      intro _
      simp only [Engine.reconcileRelocated, Option.bind_eq_bind, Option.bind_eq_some_iff,
        require_eq_some, Engine.relocatesOnReconcile, Bool.and_eq_true, Bool.not_eq_true'] at hrelocated
      obtain ⟨_, ⟨hfree, -⟩, -⟩ := hrelocated
      exact Std.ExtTreeMap.getElem?_eq_none (contains_eq_false.mp hfree)
  unfold Engine.reconcileRequest
  dsimp only
  split
  · rename_i hslot
    exact freshReconcileRequest_answers hl hr h (hnone hslot)
  · rename_i s hslot
    split
    · rename_i reply hrefused
      exact answers_refused (refuses_reconcileRetained _ hrefused)
    · rename_i left plan hok
      intro _
      refine reconcileRetained_shows hslot (fun hrelocated => ?_) hok
      rw [Option.isSome_eq_false_iff, Option.isNone_iff_eq_none] at hrelocated
      rw [hrelocated] at hslot
      exact hconverged s hslot

theorem updateGapsRequest_answers (hconverged : e.Converged r.event) :
    Answers r.event (e.updateGapsRequest r) := by
  unfold Engine.updateGapsRequest
  split
  · exact answers_refused rfl
  · rename_i s hs
    have hknown := hconverged s hs
    split
    · rename_i reply hrefused
      exact answers_refused (refuses_updateGapsRetained _ hrefused)
    · rename_i left plan hok
      intro _
      simp only [Engine.updateGapsRetained, bind_eq_ok] at hok
      obtain ⟨_, -, _, -, hok⟩ := hok
      split at hok
      · simp only [bind_eq_ok] at hok
        obtain ⟨_, -, hok⟩ := hok
        split at hok
        · rename_i hempty
          cases hok
          exact shows_remove (List.isEmpty_iff.mp (Bool.and_eq_true_iff.mp hempty).1)
        · split at hok
          · cases hok
          · rename_i updated hupdated
            cases hok
            obtain ⟨hsame, harea⟩ := Session.updateDomainGaps_shows hupdated
            exact .kept (lookup_insert.trans (if_pos rfl)) ⟨hsame.trans hknown, harea⟩
              (lookup_insert.trans (if_pos rfl))
      · simp only [bind_eq_ok] at hok
        obtain ⟨_, -, _, -, hok⟩ := hok
        split at hok
        · cases hok
        · rename_i updated hupdated
          cases hok
          obtain ⟨hsame, harea⟩ := Session.updateDomainGaps_shows hupdated
          exact shows_storeCommitted ⟨hsame.trans hknown, harea⟩

/-! ## Drags -/

/-- The working session of a drop, retained or fresh, shows the event. -/
theorem dragWorking_shows {fresh : Bool} (hconverged : e.Converged r.event)
    (hok : e.dragWorking r.event = .ok (s, fresh)) :
    s.Shows r.event ∧ (fresh = false → e.Shows r.event) := by
  simp only [Engine.dragWorking] at hok
  split at hok
  · simp only [bind_eq_ok, mapError_eq_ok] at hok
    obtain ⟨_, -, made, hnew, converged, hworking, _, -, heq⟩ := hok
    cases heq
    obtain ⟨-, -, -, -, -, hdomains⟩ := Session.new_ok hnew
    unfold Engine.convergeOn at hworking
    split at hworking
    · cases hworking
    · rename_i settled counts hok
      cases hworking
      obtain ⟨hknown, hkept⟩ := Session.convergeObservation_shows hok
      exact ⟨⟨hknown, Session.onArea_singleton (hkept.trans hdomains)⟩, fun hfresh => by cases hfresh⟩
  · rename_i retained hs
    simp only [bind_eq_ok, ensure_eq_ok, Option.any_eq_true, Bool.and_eq_true, beq_iff_eq] at hok
    obtain ⟨_, -, _, ⟨d, hd, hbounds, hgap⟩, _, houter, heq⟩ := hok
    cases heq
    have hshows : s.Shows r.event := ⟨hconverged s hs, d, hd, hbounds, hgap⟩
    exact ⟨hshows, fun _ => .kept hs hshows (by simpa [Engine.outerGapMatches] using houter)⟩

/-- A drop is prepared on the windows it has found. -/
theorem beginDragOn_view {fresh : Bool} {window : WindowId} {hoverPrior : Option DragHoverPrior}
    {s' : Session} {observation : SessionObservation}
    (hok : beginDragOn s fresh false event window hoverPrior = .ok (s', observation)) :
    s.SameView s' ∧ observedIds observation.windows = event.observed := by
  simp only [beginDragOn, Bool.false_and, Bool.false_eq_true, if_false, bind_eq_ok] at hok
  obtain ⟨_, heq, _, -, hok⟩ := hok
  cases heq
  generalize (if fresh then window else event.focusedWindow) = focused at hok
  have hsynced := @Session.sameView_syncFocus s event.domain.key focused
  generalize (s.syncFocusFromWindow event.domain.key focused).1 = synced at hok hsynced
  split at hok
  · cases hok
  · rename_i begun answer hbegin
    have hbegun : synced.SameView begun := by
      have hsame := Session.sameView_withDrag (@Session.beginDrag_withDrag synced window
        (event.sessionObservationFor s.acceptedRevision event.windows))
      rwa [hbegin] at hsame
    split at hok
    · cases hok
      exact ⟨(hsynced.trans hbegun).trans
        (Session.sameView_withDrag Session.carryDragPrior_withDrag), rfl⟩
    · cases hok
      exact ⟨hsynced.trans hbegun, rfl⟩

theorem proposal_snapped_view {p : Proposal} {s' : Session} (h : s.proposal p = (s', .ok none)) :
    s.SameView s' := by
  have heffect := @Session.proposal_effect s p
  rw [h] at heffect
  cases heffect with
  | snappedBack => exact ⟨rfl, rfl⟩

theorem dragDropRequest_answers {e₀ : Engine} (hl : e₀.Lettered) (hr : r.Validated)
    (h : e₀.Leaves r (Own r) e) (hconverged : e.Converged r.event) {window : String} {x y : Int}
    {hoverPrior : Option DragHoverPrior} {source : Option DomainKey} :
    Answers r.event (e.dragDropRequest r window x y hoverPrior source) := by
  unfold Engine.dragDropRequest
  dsimp only
  split
  · rename_i reply hrefused
    refine answers_refused ((?_ : Refuses _) reply hrefused)
    simp [refuses_dragWorking, refuses_beginDragOn]
  · rename_i working observation fresh hbegun
    simp only [bind_eq_ok] at hbegun
    obtain ⟨_, -, ⟨base, fresh'⟩, hworking, ⟨begun, observed⟩, hbegin, heq⟩ := hbegun
    cases heq
    obtain ⟨hshows, hretained⟩ := dragWorking_shows hconverged hworking
    obtain ⟨hview, hobserved⟩ := beginDragOn_view hbegin
    have hlettered := (beginDragOn_drop (h.dragWorking hworking) hbegin).1.lettered hr hl
    split
    · exact answers_refused (convergenceFailure_isPlan _)
    · rename_i dropped plan hdrop
      split
      · rename_i committed hcommit
        intro _
        obtain ⟨hknown, hdomains⟩ := Session.committed_shows hlettered
          (p := .dropDrag _ _ _ _ _) (v := .drag _) (bound_of_ok hdrop) hcommit
        exact shows_storeCommitted ⟨hknown.trans hobserved,
          (hshows.area.congr hview.domains).congr hdomains⟩
      · exact answers_refused rfl
    · rename_i snapped reason hdrop
      have hsnapped := proposal_snapped_view (p := .dropDrag _ _ _ _ _) (bound_of_ok hdrop)
      split
      · exact answers_refused rfl
      · intro _
        split
        · exact shows_storeCommitted ((hshows.sameView hview).sameView hsnapped)
        · rename_i hfresh
          exact hretained (Bool.not_eq_true _ ▸ hfresh)

/-! ## Floats -/

theorem toggleFloatRequest_answers {e₀ : Engine} (hl : e₀.Lettered) (hr : r.Validated)
    (h : e₀.Leaves r (Own r) e) {window : String} {floatRect : Option Rect} {e' : Engine}
    {reply : CoreReply} (hok : e.toggleFloatRequest r.event window floatRect = (e', reply)) :
    Answers r.event (e', .core reply) := by
  unfold Engine.toggleFloatRequest at hok
  dsimp only at hok
  split at hok
  · cases hok
    unfold convergedRefusal
    split
    · exact answers_refused rfl
    · exact answers_refused rfl
  · rename_i s hcandidate
    obtain ⟨hs, hguard⟩ := Option.filter_eq_some_iff.mp hcandidate
    simp only [Bool.and_eq_true] at hguard
    have harea := Session.onArea_of_matches hguard.1.2
    split at hok
    · cases hok
      exact answers_refused rfl
    · rename_i proposed plan hproposed
      split at hok
      · rename_i committed hcommit
        cases hok
        intro _
        obtain ⟨hknown, hdomains⟩ := Session.committed_shows ((h.slot hs).lettered hl hr)
          (p := .command (.toggleFloat _ _) _ _ _) (v := .lifecycle _) (bound_of_ok hproposed) hcommit
        exact shows_storeCommitted ⟨hknown, harea.congr hdomains⟩
      · cases hok
        exact answers_refused rfl

theorem freshToggleFloat_answers {e₀ : Engine} (hl : e₀.Lettered) (hr : r.Validated)
    (h : e₀.Leaves r (Own r) e) {window : String} {floatRect : Option Rect} :
    Answers r.event (e.freshToggleFloat r.event window floatRect) := by
  unfold Engine.freshToggleFloat
  dsimp only
  split
  · have hconverged := h.convergeFreshFloating
    split
    · rename_i heq
      exact answers_refused (convergeFreshFloating_refuses (congrArg Prod.snd heq))
    · rename_i heq
      rw [heq] at hconverged
      exact runRetained_answers hl hr floatRoute_regular strictOrder_ids hconverged
    · rename_i heq
      rw [heq] at hconverged
      exact runRetained_answers hl hr floatRoute_regular strictOrder_ids hconverged
  · exact runRetained_answers hl hr floatRoute_regular strictOrder_ids h

/-! ## Dispatch -/

/-- A convergence of the slot either answers or leaves it converged. -/
theorem convergeForSingleDomain_converged {e' : Engine}
    (h : e.convergeForSingleDomain event s = (e', none)) : e'.Converged event := by
  unfold Engine.convergeForSingleDomain at h
  split at h
  · cases h
  · split at h
    · cases h
    · dsimp only at h
      split at h
      · rename_i counts hok
        cases h
        intro t ht
        dsimp only at ht
        rw [lookup_insert, if_pos rfl] at ht
        cases ht
        exact (Session.convergeObservation_shows (Prod.ext rfl hok)).1
      · cases h

theorem convergeForSingleDomain_refuses {e' : Engine} {reply : CoreReply}
    (h : e.convergeForSingleDomain event s = (e', some reply)) : reply.isPlan = false := by
  unfold Engine.convergeForSingleDomain at h
  split at h
  · cases h
    rfl
  · split at h
    · cases h
      rfl
    · dsimp only at h
      split at h
      · cases h
      · cases h
        exact convergenceFailure_isPlan _

theorem convergeFirst_answers {e₀ : Engine} (h₀ : e₀.Coherent) (h : e₀.Leaves r (Own r) e)
    {command : Engine → Bool → Engine × EngineReply}
    (hcommand : ∀ e converged, e₀.Leaves r (Own r) e → e.Converged r.event →
      Answers r.event (command e converged)) : Answers r.event (e.convergeFirst r.event command) := by
  unfold Engine.convergeFirst
  split
  · rename_i hnone
    refine hcommand e false h fun s hs => ?_
    rw [hnone] at hs
    cases hs
  · rename_i s hs
    have hleft := h.convergeForSingleDomain h₀ rfl hs
    split
    · rename_i heq
      exact answers_refused (convergeForSingleDomain_refuses heq)
    · rename_i heq
      rw [heq] at hleft
      exact hcommand _ true hleft (convergeForSingleDomain_converged heq)

theorem domainRequest_answers (h₀ : e.Coherent) (hl : e.Lettered) (hr : r.Validated)
    {command : DomainCommand} (hlocal : ∀ direction, command ≠ .migrateWorkspace direction) :
    Answers r.event (e.domainRequest r command) := by
  have h : e.Leaves r (Own r) e := h₀.leaves
  cases command with
  | reconcile =>
    have hdropped : e.Leaves r (Own r)
        (if e.disjointReconcile r.event then e.remove r.event.domain.key else e) := by
      split
      · exact h.remove rfl
      · exact h
    exact convergeFirst_answers h₀ hdropped fun _ _ => reconcileRequest_answers hl hr
  | updateGaps => exact convergeFirst_answers h₀ h fun _ _ _ => updateGapsRequest_answers
  | activeGroup => exact answers_refused activeGroupRequest_isPlan
  | releaseDomain => exact answers_refused rfl
  | toggleOrientation window =>
    exact convergeFirst_answers h₀ h fun _ _ hleft _ => toggleOrientationRequest_answers hl hr hleft
  | resize window direction mode pressIndex =>
    exact convergeFirst_answers h₀ h fun _ _ hleft _ => resizeRequest_answers hl hr hleft
  | pointerResize window direction boundary direction2 boundary2 =>
    exact convergeFirst_answers h₀ h fun _ _ hleft _ => pointerResizeRequest_answers hl hr hleft
  | migrateWorkspace direction => exact absurd rfl (hlocal direction)
  | dragDrop window x y hoverPrior source =>
    exact convergeFirst_answers h₀ h fun _ _ hleft hconverged =>
      dragDropRequest_answers hl hr hleft hconverged
  | dragPreview window x y hoverPrior source =>
    simp only [Engine.domainRequest]
    split
    · rename_i reply hrefused
      exact answers_refused (refuses_dragPreviewRequest reply hrefused)
    · exact answers_refused rfl

theorem localRequest_answers (h₀ : e.Coherent) (hl : e.Lettered) (hr : r.Validated) :
    Answers r.event (e.localRequest r.event) := by
  have h : e.Leaves r (Own r) e := h₀.leaves
  unfold Engine.localRequest
  split
  · exact convergeFirst_answers h₀ h fun _ _ hleft _ => localMoveRequest_answers hl hr hleft
  · exact convergeFirst_answers h₀ h fun _ _ hleft _ => localFocusRequest_answers hl hr hleft
  · exact freshToggleFloat_answers hl hr h
  · exact answers_refused rfl
  · exact answers_refused rfl

/-- A request that works on its own domain reaches a float on a retained
domain, or the routes of one domain. -/
theorem handle_answers (h₀ : e.Coherent) (hl : e.Lettered) (hr : r.Validated)
    (hcommand : r.command = none) (hlocal : r.isLocal = true) {e' : Engine} {reply : CoreReply}
    (hok : e.handle r.event = some (e', reply)) : Answers r.event (e', .core reply) := by
  have h : e.Leaves r (Own r) e := h₀.leaves
  unfold Engine.handle at hok
  split at hok
  · obtain ⟨s, hs, heq⟩ := Option.map_eq_some_iff.mp hok
    have hleft := h.convergeForSingleDomain h₀ rfl hs
    split at heq
    · rename_i hrefused
      cases heq
      exact answers_refused (convergeForSingleDomain_refuses hrefused)
    · rename_i hdone
      rw [hdone] at hleft
      exact toggleFloatRequest_answers hl hr hleft heq
  · rename_i hnot
    unfold Engine.handlePair at hok
    rw [Request.isLocal, hcommand] at hlocal
    split at hok
    · rename_i hmove hdirectional
      rw [hmove, hdirectional] at hlocal
      cases hlocal
    · rename_i hfocus hdirectional
      rw [hfocus, hdirectional] at hlocal
      cases hlocal
    · rename_i hsend
      rw [hsend] at hlocal
      cases hlocal
    · rename_i hsend
      rw [hsend] at hlocal
      cases hlocal
    · cases hok

/-- A validated request over one domain that is answered by a plan leaves its
slot knowing exactly the observed windows, on the observed work area with the
observed gaps; there is no slot only when nothing was observed. -/
theorem Coherent.answers (h₀ : e.Coherent) (hl : e.Lettered) (hr : r.Validated)
    (hlocal : r.isLocal = true) : Answers r.event (e.request r) := by
  unfold Engine.request
  split
  · rename_i command hcommand
    refine domainRequest_answers h₀ hl hr fun direction heq => ?_
    rw [Request.isLocal, hcommand, heq] at hlocal
    cases hlocal
  · rename_i hcommand
    split
    · rename_i e' reply hok
      exact handle_answers h₀ hl hr hcommand hlocal hok
    · exact localRequest_answers h₀ hl hr

end

end Engine

end PlasmaTiler
