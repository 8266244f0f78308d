import PlasmaTiler.EngineRuns

/-!
# What a plan answers

A request over one domain that is answered by a plan leaves the domain as the
adapter has shown it (`Shows`): its slot knows the observed windows, all of
them and no others, on the observed work area and with both observed gaps.
There is no slot only where nothing was observed.

There is no single place in the code that checks this. A plan may come from
the retained session, which was converged first; from one that was taken over
from another output, whose domain was replaced; or from one made afresh by a
seed, a fit or a convergence. Every path is followed here, and what makes the
statement hold differs: a convergence that succeeds knows exactly what it was
shown, a reprojection changes the area and nothing else, an admission adds
one window to those already known.

Commands that run after that keep what is shown, since they write neither the
known windows nor the domains (`SameView`). The routes and the fresh domains
are followed here; projections, drags, floats and the dispatch are left to
the runs.
-/

namespace PlasmaTiler

/-- The request is answered by a plan. -/
def EngineReply.isPlan : EngineReply → Bool
  | .core reply => reply.isPlan
  | .projection _ | .tiled .. | .migrateWorkspace _ | .resize _ => true
  | .activeGroup _ | .noGroup .. | .dragPreview _ | .released => false

/-- The request works on its own domain only. -/
def Request.isLocal (r : Request) : Bool :=
  match r.command, r.event.command with
  | some (.migrateWorkspace _), _ => false
  | some _, _ => true
  | none, .move .. | none, .focus .. => r.event.directional.isNone
  | none, .toggleFloat .. => true
  | none, .sendToWorkspace .. | none, .sendToOutput .. => false

/-- The windows of an event. -/
def CoreEvent.observed (event : CoreEvent) : BTreeSet WindowId :=
  observedIds (event.windows.map observedWindowFromEngine)

namespace Session

/-- The session lays the domain out as it is carried: same work area, same
gap. The outer gap is the engine's and not looked at here. -/
def OnArea (s : Session) (domain : OutputDomain) : Prop :=
  ∃ d, s.domainAt domain.key = some d ∧ d.bounds = domain.bounds ∧ d.gap = domain.gap

/-- The session knows the windows of the event, on its work area. -/
structure Shows (s : Session) (event : CoreEvent) : Prop where
  known : s.knownWindows = event.observed
  area : s.OnArea event.domain

/-- The same windows are known over the same domains. Trees, links and focus
may differ, so this is what any command after a convergence leaves. -/
structure SameView (s s' : Session) : Prop where
  known : s'.knownWindows = s.knownWindows
  domains : s'.domains = s.domains

section
variable {s s' t : Session} {event : CoreEvent} {domain : OutputDomain} {key : DomainKey}

theorem SameView.refl : s.SameView s := ⟨rfl, rfl⟩

theorem SameView.trans (h : s.SameView s') (h' : s'.SameView t) : s.SameView t :=
  ⟨h'.known.trans h.known, h'.domains.trans h.domains⟩

theorem OnArea.congr (h : s.OnArea domain) (hdomains : s'.domains = s.domains) :
    s'.OnArea domain := by
  obtain ⟨d, hd, harea⟩ := h
  refine ⟨d, ?_, harea⟩
  rw [domainAt, hdomains]
  exact hd

theorem Shows.sameView (h : s.Shows event) (hsame : s.SameView s') : s'.Shows event :=
  ⟨hsame.known.trans h.known, h.area.congr hsame.domains⟩

theorem sameView_syncFocus {window : WindowId} :
    s.SameView (s.syncFocusFromWindow key window).1 := by
  obtain ⟨hwindows, hexceptions, hdomains⟩ := @syncFocusFromWindow_frame s window key
  exact ⟨KeepsWindows.known ⟨hwindows, hexceptions⟩, hdomains⟩

theorem sameView_withDrag {P : Prop} (h : s' = s ∨ P ∧ ∃ drag, s' = s.withDrag (some drag)) :
    s.SameView s' := by
  rcases h with rfl | ⟨-, drag, rfl⟩
  · exact .refl
  · exact ⟨rfl, rfl⟩

/-! ## Areas -/

theorem onArea_of_matches (h : s.domainMatches domain = true) : s.OnArea domain := by
  simp only [domainMatches, Option.any_eq_true, Bool.and_eq_true, beq_iff_eq] at h
  obtain ⟨d, hfind, ⟨hbounds, hgap⟩, -⟩ := h
  refine ⟨d, ?_, hbounds, hgap⟩
  rw [domainAt, ← hfind]
  congr 1
  funext candidate
  rw [Bool.eq_iff_iff, Bool.and_eq_true, beq_iff_eq, beq_iff_eq, beq_iff_eq, OutputDomain.key,
    OutputDomain.key, DomainKey.mk.injEq]

theorem onArea_singleton (h : s.domains = [domain]) : s.OnArea domain := by
  refine ⟨domain, ?_, rfl, rfl⟩
  rw [domainAt, h, List.find?_cons_of_pos (by simp)]

theorem domainAt_update {f : OutputDomain → OutputDomain}
    (hf : ∀ d : OutputDomain, (f d).key = d.key) (domains : List OutputDomain) :
    (updateDomain domains key f).find? (·.key == key) = (domains.find? (·.key == key)).map f := by
  induction domains with
  | nil => rfl
  | cons d rest ih =>
    rw [updateDomain]
    by_cases hd : d.key = key
    · rw [if_pos hd, List.find?_cons_of_pos (by simpa [hf] using hd),
        List.find?_cons_of_pos (by simpa using hd), Option.map_some]
    · rw [if_neg hd, List.find?_cons_of_neg (by simpa using hd),
        List.find?_cons_of_neg (by simpa using hd), ih]

theorem domainAt_reproject {bounds : Rect} : (s.reprojectDomain key bounds).domainAt key =
    (s.domainAt key).map fun d => { d with bounds } :=
  @domainAt_update key (fun d => { d with bounds }) (fun _ => rfl) s.domains

/-- New gaps leave the windows, and the domain on the new area. -/
theorem updateDomainGaps_shows {bounds : Rect} {gap : Int}
    (h : s.updateDomainGaps key bounds gap = (s', true)) :
    s'.knownWindows = s.knownWindows ∧
      ∃ d, s'.domainAt key = some d ∧ d.bounds = bounds ∧ d.gap = gap := by
  unfold updateDomainGaps at h
  split at h
  · cases h
  · rename_i hguard
    simp only [Bool.or_eq_true, not_or, Option.isNone_iff_eq_none] at hguard
    obtain ⟨d, hd⟩ := Option.ne_none_iff_exists'.mp hguard.2
    dsimp only at h
    split at h
    · cases h
      refine ⟨rfl, { d with bounds, gap }, ?_, rfl, rfl⟩
      have hupdated := @domainAt_update key (fun d => { d with bounds, gap }) (fun _ => rfl) s.domains
      rw [domainAt] at hd
      rw [hd] at hupdated
      exact hupdated
    · cases h

/-! ## Convergences and commits -/

/-- A convergence leaves exactly the windows known that it was shown. -/
theorem convergeObservation_shows {observation : SessionObservation}
    {observedFocus : Option WindowId} {counts : ObservationConvergence}
    (h : s.convergeObservation observation observedFocus = (s', .ok counts)) :
    s'.knownWindows = observedIds observation.windows ∧ s'.domains = s.domains := by
  have hok : (s.convergeObservation observation observedFocus).2 = .ok counts := by rw [h]
  obtain ⟨c, -, hvalid, -, hplan, hadopts⟩ := convergeObservation_adopts hok
  rw [h] at hadopts
  have hreaches := hplan.reaches hvalid hadopts
  refine ⟨Std.ExtTreeSet.ext_mem fun w => ?_, hadopts.domains⟩
  rw [mem_knownWindows, isKnown_iff]
  exact hreaches.membership

theorem proposal_domains {p : Proposal} {result : Except ProposeError (Option PlanBinding)}
    (h : s.proposal p = (s', result)) : s'.domains = s.domains := by
  have heffect := @proposal_effect s p
  rw [h] at heffect
  exact heffect.sameStamp.domains

theorem acknowledge_domains {ack : AdapterAck} {result : Except AckError AckApplied}
    (h : s.acknowledge ack = (s', result)) : s'.domains = s.domains := by
  have hsame := @acknowledge_same s ack
  rw [h] at hsame
  exact hsame.domains

theorem verification_domains {v : Verification} {result : Except VerifyError Commit}
    (h : s.verification v = (s', result)) : s'.domains = s.domains := by
  have hsame := @verification_sameStamp s v
  rw [h] at hsame
  exact hsame.domains

/-- A plan that is acknowledged and verified leaves what it accounts for. -/
theorem committed_shows {p : Proposal} {binding : PlanBinding} {v : Verification} {base : Nat}
    (hs : s.Lettered) (hproposal : s.proposal p = (t, .ok (some binding)))
    (hcommit : Engine.commitWith t event base (fun s => s.verification v) = some s') :
    s'.knownWindows = p.accounted ∧ s'.domains = s.domains := by
  obtain ⟨desired, hplans, hholds⟩ := proposal_plans hproposal
  unfold Engine.commitWith at hcommit
  split at hcommit
  · cases hcommit
  · rename_i acked applied hack
    split at hcommit
    · cases hcommit
    · rename_i verified commit hanswer
      cases hcommit
      have hverify : acked.verification v = (s', .ok commit) := hanswer
      have hlands := hholds.lands (congrArg Prod.fst hack) hverify
      exact ⟨hplans.accounts hs.worlds.accepted hs.keyed.accepted hlands,
        (verification_domains hverify).trans
          ((acknowledge_domains hack).trans (proposal_domains hproposal))⟩

end

end Session

namespace Engine

/-- The slot of the event's domain is as the event shows it. -/
inductive Shows (e : Engine) (event : CoreEvent) : Prop
  | kept {s : Session} (hs : e.sessions[event.domain.key]? = some s) (h : s.Shows event)
      (hgap : e.outerGaps[event.domain.key]? = some event.outerGap)
  | empty (hs : e.sessions[event.domain.key]? = none) (h : event.windows = [])

/-- A plan is answered only with the domain as it was shown. Refusals, and
answers that are no plan, may leave anything. -/
def Answers (event : CoreEvent) (answer : Engine × EngineReply) : Prop :=
  answer.2.isPlan = true → answer.1.Shows event

/-- The slot, if there is one, knows the observed windows. This is what the
convergence before a command establishes, and what the command starts from. -/
def Converged (e : Engine) (event : CoreEvent) : Prop :=
  ∀ s, e.sessions[event.domain.key]? = some s → s.knownWindows = event.observed

section
variable {e₀ e : Engine} {r : Request} {event : CoreEvent} {s s' t : Session}
  {reply : EngineReply}

/-! ## Slots -/

theorem windows_eq_nil (h : s.knownWindows = event.observed) (hempty : s.committedIsEmpty = true) :
    event.windows = [] := by
  rw [List.eq_nil_iff_forall_not_mem]
  intro entry hentry
  have hknown : entry.window ∈ s.knownWindows := by
    rw [h, CoreEvent.observed, observedIds, Std.ExtTreeSet.mem_ofList, List.contains_eq_mem,
      decide_eq_true_eq, List.map_map]
    exact List.mem_map.mpr ⟨entry, hentry, rfl⟩
  simp only [Session.committedIsEmpty, Bool.and_eq_true] at hempty
  rw [Session.mem_knownWindows, Session.isKnown_iff, mem_iff_lookup, mem_iff_lookup,
    isEmpty_iff_lookup.mp hempty.1, isEmpty_iff_lookup.mp hempty.2] at hknown
  rcases hknown with ⟨_, hnone⟩ | ⟨_, hnone⟩
  · cases hnone
  · cases hnone

theorem shows_remove (h : event.windows = []) : (e.remove event.domain.key).Shows event :=
  .empty (lookup_erase.trans (if_pos rfl)) h

theorem shows_storeCommitted (h : s.Shows event) :
    (e.storeCommitted event.domain.key s event.outerGap).Shows event := by
  unfold Engine.storeCommitted
  split
  · rename_i hempty
    exact shows_remove (windows_eq_nil h.known hempty)
  · refine .kept (s := e.adoptFixedAdmission s) (lookup_insert.trans (if_pos rfl))
      (h.sameView ⟨rfl, rfl⟩) (lookup_insert.trans (if_pos rfl))

theorem shows_putSession (h : s.Shows event)
    (hgap : e.outerGaps[event.domain.key]? = some event.outerGap) :
    (e.putSession event.domain.key s).Shows event :=
  .kept (lookup_insert.trans (if_pos rfl)) h hgap

theorem answers_refused (h : reply.isPlan = false) : Answers event (e, reply) := by
  intro hplan
  rw [h] at hplan
  cases hplan

theorem convergenceFailure_isPlan (error : ProposeError) :
    (CoreReply.convergenceFailure error).isPlan = false := by
  cases error <;> rfl

/-! ## Routes -/

/-- What a regular route stores shows its event, on a session of the event's
area. -/
theorem Route.Regular.shows {R : Type} {route : Route R} (hroute : route.Regular r)
    (hs : s.Lettered) (harea : s.OnArea r.event.domain)
    (hok : route.run r.event s = .stored s' reply) : s'.Shows r.event := by
  unfold Route.run at hok
  dsimp only at hok
  split at hok
  · cases hok
  · rename_i proposed plan hproposed
    split at hok
    · rename_i committed hcommit
      cases hok
      obtain ⟨t, p, binding, ht, -, haccounted, hproposal⟩ := hroute.proposes hproposed
      obtain ⟨v, hv⟩ := hroute.commits proposed plan s.acceptedRevision
      rw [hv] at hcommit
      have hsynced : t.Lettered ∧ t.domains = s.domains := by
        rcases ht with rfl | ⟨domain, window, rfl⟩
        · exact ⟨hs, rfl⟩
        · have hop : (SessionOp.syncFocusFromWindow domain window).Opaque := trivial
          exact ⟨hs.next hop, Session.sameView_syncFocus.domains⟩
      obtain ⟨hknown, hdomains⟩ := Session.committed_shows hsynced.1 hproposal hcommit
      exact ⟨hknown.trans haccounted, harea.congr (hdomains.trans hsynced.2)⟩
    · cases hok

theorem takeUsableSession_area {domain : OutputDomain}
    (h : (e.takeUsableSession domain).2 = some s) :
    e.sessions[domain.key]? = some s ∧ s.OnArea domain := by
  unfold Engine.takeUsableSession at h
  split at h
  · cases h
  · rename_i retained hretained
    split at h
    · cases h
    · rename_i hguard
      cases h
      simp only [Bool.or_eq_true, Bool.not_eq_true', not_or, Bool.not_eq_false] at hguard
      exact ⟨hretained, Session.onArea_of_matches hguard.1.2⟩

theorem seedSession_domains {owner : OwnerId} {generation : GenerationId} {fingerprint : Nat}
    {domain : OutputDomain} {order : List EngineWindow}
    (h : seedSession owner generation fingerprint domain order = some s) :
    s.domains = [domain] := by
  have hall : ∀ (order : List EngineWindow) (index : Nat) (s t : Session),
      Session.seedAll owner generation fingerprint domain order index s = some t →
      t.domains = s.domains := by
    intro order
    induction order with
    | nil =>
      rintro index s t h
      cases h
      rfl
    | cons entry order ih =>
      intro index s t h
      simp only [Session.seedAll, Session.seedAdmitStep, Option.bind_eq_bind,
        Option.bind_eq_some_iff] at h
      obtain ⟨next, ⟨id, -, ⟨proposed, plan⟩, hproposed, ⟨acked, applied⟩, hacked,
        ⟨verified, commit⟩, hverified, heq⟩, hrest⟩ := h
      cases heq
      rw [succeeded_eq_some] at hproposed hacked hverified
      have hproposal := Session.proposal_domains (p := .command (.admitWindow _) _ _ _)
        (bound_of_ok hproposed)
      have hverification := Session.verification_domains (v := .lifecycle _) hverified
      exact (ih _ _ _ hrest).trans
        (hverification.trans ((Session.acknowledge_domains hacked).trans hproposal))
  simp only [seedSession, Option.bind_eq_bind, Option.bind_eq_some_iff, toOption_eq_some] at h
  obtain ⟨fresh, hfresh, h⟩ := h
  obtain ⟨-, -, -, -, -, hdomains⟩ := Session.new_ok hfresh
  exact (hall _ _ _ _ h).trans hdomains

end

section
variable {e₀ e : Engine} {r : Request} {R : Type} {route : Route R}
  {seedOrder : Option (List EngineWindow)} {converged ambiguousAsSnapshot : Bool}

theorem Slot.lettered {key : DomainKey} {s : Session} (hs : e₀.Slot r key s) (hl : e₀.Lettered)
    (hr : r.Validated) : s.Lettered := hs.made.lettered hr hl

theorem rebuild_answers (hl : e₀.Lettered) (hr : r.Validated) (hroute : route.Regular r)
    (horder : ∀ order, seedOrder = some order → r.Validated →
      ∀ entry ∈ order, entry.window.Opaque) :
    Answers r.event (e.rebuild r.event converged seedOrder ambiguousAsSnapshot route) := by
  unfold Engine.rebuild
  split
  · unfold ambiguousReply
    split
    · exact answers_refused rfl
    · exact answers_refused rfl
  · rename_i order
    split
    · exact answers_refused rfl
    · split
      · exact answers_refused rfl
      · rename_i seeded hseeded
        have hready : e₀.Ready r [r.event.domain.key] seeded :=
          seedSession_ready (horder order rfl) hseeded
        have harea := Session.onArea_singleton (seedSession_domains hseeded)
        split
        · rename_i stored reply hrun
          intro _
          exact shows_storeCommitted
            (hroute.shows (hready.made.lettered hr hl) harea hrun)
        · exact answers_refused rfl
        · exact answers_refused rfl

theorem runRetained_answers (hl : e₀.Lettered) (hr : r.Validated) (hroute : route.Regular r)
    (horder : ∀ order, seedOrder = some order → r.Validated →
      ∀ entry ∈ order, entry.window.Opaque) (h : e₀.Leaves r (Own r) e) :
    Answers r.event (e.runRetained r.event converged seedOrder ambiguousAsSnapshot route) := by
  have htail : ∀ e : Engine, Answers r.event
      (e.rebuild r.event converged seedOrder ambiguousAsSnapshot route) :=
    fun e => rebuild_answers hl hr hroute horder
  have htaken : ∀ answer : Engine × Option Session,
      (if converged && e.unfit r.event.domain then (e, none)
        else e.takeUsableSession r.event.domain) = answer →
      ∀ s, answer.2 = some s → e₀.Slot r r.event.domain.key s ∧ s.OnArea r.event.domain := by
    rintro answer rfl s hs
    split at hs
    · cases hs
    · obtain ⟨hslot, harea⟩ := takeUsableSession_area hs
      exact ⟨h.slot hslot, harea⟩
  unfold Engine.runRetained
  dsimp only
  generalize hanswer : (if converged && e.unfit r.event.domain then (e, none)
    else e.takeUsableSession r.event.domain) = answer
  have hfound := htaken answer hanswer
  have hleft : e₀.Leaves r (Own r) answer.1 := by
    rw [← hanswer]
    split
    · exact h
    · exact (h.takeUsableSession rfl).1
  obtain ⟨left, taken⟩ := answer
  cases taken with
  | some s =>
    obtain ⟨hslot, harea⟩ := hfound s rfl
    dsimp only
    split
    · rename_i stored reply hrun
      intro _
      exact shows_storeCommitted (hroute.shows (hslot.lettered hl hr) harea hrun)
    · exact answers_refused rfl
    · split
      · exact answers_refused rfl
      · exact htail _
  | none =>
    dsimp only
    split
    · exact htail _
    · split
      · exact htail _
      · rename_i moved hmoved
        have hthere := hleft.tryRelocateForTarget hmoved
        split
        · exact htail _
        · rename_i there s heq
          have htook : (moved.takeUsableSession r.event.domain).2 = some s := by rw [heq]
          obtain ⟨hs, harea⟩ := takeUsableSession_area htook
          split
          · rename_i stored reply hrun
            intro _
            exact shows_storeCommitted (hroute.shows ((hthere.slot hs).lettered hl hr) harea hrun)
          · exact answers_refused rfl
          · split
            · exact htail _
            · exact answers_refused rfl

/-! ## The commands of one domain -/

variable {window direction : String}

theorem localMoveRequest_answers (hl : e₀.Lettered) (hr : r.Validated)
    (h : e₀.Leaves r (Own r) e) {sameAxisMove : SameAxisMove} :
    Answers r.event (e.localMoveRequest r.event converged window direction sameAxisMove) := by
  unfold Engine.localMoveRequest
  split
  · exact answers_refused rfl
  · split
    · exact answers_refused rfl
    · exact runRetained_answers hl hr moveRoute_regular strictOrder_ids h

theorem localFocusRequest_answers (hl : e₀.Lettered) (hr : r.Validated)
    (h : e₀.Leaves r (Own r) e) :
    Answers r.event (e.localFocusRequest r.event converged window direction) := by
  unfold Engine.localFocusRequest
  split
  · exact answers_refused rfl
  · split
    · exact answers_refused rfl
    · exact runRetained_answers hl hr focusRoute_regular strictOrder_ids h

theorem toggleOrientationRequest_answers (hl : e₀.Lettered) (hr : r.Validated)
    (h : e₀.Leaves r (Own r) e) :
    Answers r.event (e.toggleOrientationRequest r.event converged window) := by
  unfold Engine.toggleOrientationRequest
  split
  · exact answers_refused rfl
  · exact runRetained_answers hl hr orientationRoute_regular strictOrder_ids h

theorem resizeRequest_answers (hl : e₀.Lettered) (hr : r.Validated) (h : e₀.Leaves r (Own r) e)
    {mode : String} {pressIndex : Nat} :
    Answers r.event (e.resizeRequest r.event converged window direction mode pressIndex) := by
  unfold Engine.resizeRequest
  split
  · exact answers_refused rfl
  · split
    · exact runRetained_answers hl hr keyboardRoute_regular strictOrder_ids h
    · exact answers_refused rfl

theorem cornerOf_refuses {direction : Direction} {direction2 : Option String}
    {boundary2 : Option Int} {reply : CoreReply}
    (h : cornerOf direction direction2 boundary2 = .error reply) : reply.isPlan = false := by
  unfold cornerOf at h
  split at h
  · cases h
  · split at h
    · cases h
      rfl
    · split at h
      · cases h
        rfl
      · cases h
  · cases h
    rfl

theorem pointerResizeRequest_answers (hl : e₀.Lettered) (hr : r.Validated)
    (h : e₀.Leaves r (Own r) e) {boundary : Int} {direction2 : Option String}
    {boundary2 : Option Int} :
    Answers r.event (e.pointerResizeRequest r.event converged window direction boundary direction2
      boundary2) := by
  unfold Engine.pointerResizeRequest
  split
  · exact answers_refused rfl
  · split
    · exact answers_refused rfl
    · split
      · rename_i hrefused
        exact answers_refused (cornerOf_refuses hrefused)
      · exact runRetained_answers hl hr pointerRoute_regular strictOrder_ids h
      · refine runRetained_answers hl hr ?_ strictOrder_ids h
        split
        · exact cornerRoute_regular
        · exact cornerRoute_regular

/-! ## Fresh domains -/

theorem convergeFreshFloating_shows {base : Nat}
    (h : (e.convergeFreshFloating r.event).2 = .ok base) :
    (e.convergeFreshFloating r.event).1.Shows r.event := by
  unfold Engine.convergeFreshFloating at h ⊢
  split at h
  · cases h
  · rename_i fresh hnew
    obtain ⟨-, -, -, -, -, hdomains⟩ := Session.new_ok hnew
    dsimp only at h ⊢
    split at h
    · cases h
    · rename_i settled counts hconverged
      obtain ⟨hknown, hkept⟩ := Session.convergeObservation_shows hconverged
      exact shows_storeCommitted ⟨hknown, Session.onArea_singleton (hkept.trans hdomains)⟩

theorem convergeFreshFloating_refuses {reply : CoreReply}
    (h : (e.convergeFreshFloating r.event).2 = .error (some reply)) : reply.isPlan = false := by
  unfold Engine.convergeFreshFloating at h
  split at h
  · cases h
  · dsimp only at h
    split at h
    · rename_i error hrefused
      cases h
      exact convergenceFailure_isPlan error
    · cases h

theorem fitFresh_shows (hl : e₀.Lettered) (hr : r.Validated) {window : WindowId} {answer : Engine × EngineReply}
    (hok : e.fitFresh r window = some answer) : answer.1.Shows r.event := by
  simp only [Engine.fitFresh, Option.bind_eq_bind, Option.bind_eq_some_iff, toOption_eq_some] at hok
  obtain ⟨_, -, _, -, ⟨tree, links, centreSplits⟩, -, _, -, _, -, hok⟩ := hok
  simp only [Engine.commitFitted, Option.bind_eq_bind, Option.bind_eq_some_iff,
    toOption_eq_some] at hok
  obtain ⟨leaf, -, fresh, hnew, ⟨proposed, plan⟩, hproposed, committed, hcommit, heq⟩ := hok
  cases heq
  rw [succeeded_eq_some] at hproposed
  have hmade : e₀.Makes r [r.event.domain.key] (e.adoptFixedAdmission fresh) :=
    (Makes.new rfl hnew).adopted
  obtain ⟨-, -, -, -, -, hdomains⟩ := Session.new_ok hnew
  obtain ⟨hknown, hkept⟩ := Session.committed_shows (hmade.lettered hr hl)
    (p := .fittedAdmit _ _ _ _) (v := .lifecycle _) (bound_of_ok hproposed) hcommit
  exact shows_storeCommitted ⟨hknown, Session.onArea_singleton (hkept.trans hdomains)⟩

theorem projectAdmitted_shows {s : Session} {answer : Engine × EngineReply} (h : e.Shows r.event)
    (hs : s.Shows r.event) (hgap : e.outerGaps[r.event.domain.key]? = some r.event.outerGap)
    (hok : e.projectAdmitted r s = some answer) : answer.1.Shows r.event := by
  unfold Engine.projectAdmitted at hok
  dsimp only at hok
  split at hok
  · cases hok
    exact h
  · simp only [Option.bind_eq_bind, Option.bind_eq_some_iff] at hok
    obtain ⟨_, -, _, -, _, -, heq⟩ := hok
    cases heq
    exact shows_putSession hs hgap

theorem projectFresh_shows {window : WindowId} {answer : Engine × EngineReply}
    (h : e.Shows r.event) (hok : e.projectFresh r window = some answer) :
    answer.1.Shows r.event := by
  simp only [Engine.projectFresh, Option.bind_eq_bind, Option.bind_eq_some_iff] at hok
  obtain ⟨s, hs, hok⟩ := hok
  cases h with
  | empty hnone _ =>
    rw [hnone] at hs
    cases hs
  | @kept t ht hshows hgap =>
    obtain rfl : t = s := Option.some.inj (ht.symm.trans hs)
    split at hok
    · exact projectAdmitted_shows (.kept hs hshows hgap)
        (hshows.sameView Session.sameView_syncFocus) hgap hok
    · simp only [Option.bind_eq_some_iff] at hok
      obtain ⟨_, -, hok⟩ := hok
      exact projectAdmitted_shows (.kept hs hshows hgap) hshows hgap hok

theorem admitFresh_answers (hl : e₀.Lettered) (hr : r.Validated) (h : e₀.Leaves r (Own r) e)
    {window : WindowId} (hwindow : r.Validated → window.Opaque) :
    Answers r.event (e.admitFresh r.event converged window) :=
  runRetained_answers hl hr (admitRoute_regular hwindow) (fun _ horder hr =>
    orderSpatial_ids (fun entry hentry =>
      hr.ids.windows entry (List.mem_of_mem_filter hentry)) horder) h

theorem freshAdmitShared_answers (hl : e₀.Lettered) (hr : r.Validated)
    (h : e₀.Leaves r (Own r) e) {window : WindowId} (hwindow : r.Validated → window.Opaque) :
    Answers r.event (e.freshAdmitShared r window) := by
  unfold Engine.freshAdmitShared
  split
  · rename_i answer hfit
    intro _
    exact fitFresh_shows hl hr hfit
  · split
    · have hconverged := h.convergeFreshFloating
      split
      · rename_i heq
        exact answers_refused (convergeFreshFloating_refuses (congrArg Prod.snd heq))
      · rename_i heq
        rw [heq] at hconverged
        exact admitFresh_answers hl hr hconverged hwindow
      · rename_i heq
        have hshows := convergeFreshFloating_shows (congrArg Prod.snd heq)
        rw [heq] at hconverged hshows
        split
        · rename_i answer hproject
          intro _
          exact projectFresh_shows hshows hproject
        · exact admitFresh_answers hl hr hconverged hwindow
    · exact admitFresh_answers hl hr h hwindow

theorem freshReconcileRequest_answers (hl : e₀.Lettered) (hr : r.Validated)
    (h : e₀.Leaves r (Own r) e) (hnone : e.sessions[r.event.domain.key]? = none) :
    Answers r.event (e.freshReconcileRequest r) := by
  unfold Engine.freshReconcileRequest
  split
  · rename_i hempty
    intro _
    exact .empty hnone (List.isEmpty_iff.mp hempty)
  · split
    · rename_i anchor hanchor
      exact freshAdmitShared_answers hl hr h (freshReconcileSeedAnchor_ids hanchor)
    · split
      · rename_i heq
        intro _
        have hshows := convergeFreshFloating_shows (congrArg Prod.snd heq)
        rwa [heq] at hshows
      · rename_i heq
        exact answers_refused (convergeFreshFloating_refuses (congrArg Prod.snd heq))
      · exact answers_refused rfl

end

end Engine

end PlasmaTiler
