import PlasmaTiler.Committing

/-!
# Outer gaps across commits

A pair request stores its target twice: converged, and committed. The
canonical store keeps the gap recorded for a target that stays occupied; a
target without windows gives up its slot and its gap, and a send into it
stores it anew. The commit of a crossing replaces the recorded gap by the
carried one, or by zero where none is carried.

The gap is worth the trouble because the next reconcile of the target must
repeat it, and is refused otherwise. So the question is which committed pair
requests leave it alone, and the answer is a condition on the event and the
engine before the request (`keepsTargetGap`): a crossing carries the gap that
is recorded, and any other request observes a window on the target, unless it
is a send that stores the target anew with the same gap.

The work is to know whether the target is occupied after each of the two
stores, from the observation alone: after a convergence a domain is occupied
exactly when an observed window is homed there, and a commit relinks at most
one window. `handlePair_targetGap_iff` is the equivalence, and the samples
are a crossing that keeps the gap and one that replaces it.
-/

namespace PlasmaTiler

section
variable {κ ν ν' : Type} [Ord κ] [Std.TransOrd κ] [Std.LawfulEqOrd κ] {m : BTreeMap κ ν}
  {m' : BTreeMap κ ν'}

theorem isEmpty_iff_lookup : m.isEmpty = true ↔ ∀ k : κ, m[k]? = none := by
  rw [Std.ExtTreeMap.isEmpty_iff]
  constructor
  · rintro rfl k
    exact Std.ExtTreeMap.getElem?_empty
  · intro h
    exact Std.ExtTreeMap.ext_getElem? fun k => by rw [h k, Std.ExtTreeMap.getElem?_empty]

/-- A filter by the values is empty when no value passes. -/
theorem isEmpty_filter {p : ν → Bool} :
    (m.filter fun _ v => p v).isEmpty = !(values m).any p := by
  rw [Bool.eq_iff_iff, isEmpty_iff_lookup, Bool.not_eq_true', List.any_eq_false]
  simp only [Std.ExtTreeMap.getElem?_filter', mem_values, Bool.not_eq_true]
  constructor
  · rintro h v ⟨k, hk⟩
    have hnone := h k
    rw [hk, Option.filter_some] at hnone
    by_contra hp
    rw [if_pos (by simpa using hp)] at hnone
    cases hnone
  · intro h k
    cases hk : m[k]? with
    | none => rfl
    | some v => rw [Option.filter_some, if_neg (by simp [h v ⟨k, hk⟩])]

theorem isEmpty_map {f : κ → ν → ν'} : (m.map f).isEmpty = m.isEmpty := by
  rw [Bool.eq_iff_iff, isEmpty_iff_lookup, isEmpty_iff_lookup]
  simp only [Std.ExtTreeMap.getElem?_map, Option.map_eq_none_iff]

end

namespace Session

variable {s source : Session} {target? : Option Session} {d d' : OutputDomain}

/-! ## Splits -/

theorem sideOf_ok {side : Session} (h : s.sideOf d = .ok side) :
    side.windows = s.windows.filter (fun _ link => link.key == d.key) ∧
      side.exceptions = s.exceptions.filter fun _ record => record.key == d.key := by
  simp only [sideOf, bind_eq_ok, pure_eq_ok] at h
  obtain ⟨_, -, rfl⟩ := h
  exact ⟨rfl, rfl⟩

/-- The target of a split is worth a slot when something is homed there. -/
theorem splitCanonicalPair_occupies (h : s.splitCanonicalPair = .ok (source, target?))
    (hdomains : s.domains = [d, d']) :
    (target?.all Session.committedIsEmpty) = !s.occupies d'.key := by
  simp only [splitCanonicalPair, hdomains, bind_eq_ok, ensure_eq_ok, pure_eq_ok, Prod.mk.injEq] at h
  obtain ⟨_, -, _, -, side, hside, _, -, _, -, _, -, rfl, rfl⟩ := h
  obtain ⟨hwindows, hexceptions⟩ := sideOf_ok hside
  have hempty : ∀ t : Session, t.windows = side.windows.map (fun _ link =>
      remapLink s.canonicalPairTargetRestore (remapLink (s.movedTargetRemap side.windows) link)) →
      t.exceptions = side.exceptions →
      (t.windows.isEmpty && t.exceptions.isEmpty) = !s.occupies d'.key := by
    intro t ht he
    rw [ht, he, isEmpty_map, hwindows, hexceptions, isEmpty_filter,
      isEmpty_filter, occupies, Bool.not_or]
  split
  · rename_i hnone
    simp only [isEmptyAt, Bool.and_eq_true, and_assoc] at hnone
    obtain ⟨-, hnoWindows, hnoExceptions⟩ := hnone
    exact (Bool.and_eq_true_iff.mpr ⟨hnoWindows, hnoExceptions⟩).symm.trans (hempty _ rfl rfl)
  · rw [Option.all_some]
    exact hempty _ rfl rfl

/-- A pair lives on the two domains it was assembled for. -/
theorem pairedFromCanonicalImpl_domains {adjacent : Bool} {pair : Session}
    (h : pairedFromCanonicalImpl source target? d d' adjacent = .ok pair) :
    pair.domains = [d, d'] ∧ d.key ≠ d'.key := by
  cases target? with
  | none =>
    simp only [pairedFromCanonicalImpl, bind_eq_ok, ensure_eq_ok, mapError_eq_ok, pure_eq_ok,
      Bool.and_eq_true, bne_iff_ne] at h
    obtain ⟨_, ⟨⟨-, hkeys⟩, -⟩, _, -, _, -, base, hbase, _, -, rfl⟩ := h
    exact ⟨(new_ok hbase).2.2.2.2.2, hkeys⟩
  | some t =>
    simp only [pairedFromCanonicalImpl, bind_eq_ok, ensure_eq_ok, mapError_eq_ok, pure_eq_ok,
      Bool.and_eq_true, bne_iff_ne] at h
    obtain ⟨_, ⟨⟨-, hkeys⟩, -⟩, _, -, _, -, _, -, _, -, _, -, base, hbase, _, -, rfl⟩ := h
    exact ⟨(new_ok hbase).2.2.2.2.2, hkeys⟩

end Session

namespace Engine

open Session

variable {e e' : Engine} {event : CoreEvent} {source target : OutputDomain} {pair pair' : Session}
  {key : DomainKey} {gap : Int} {reply : CoreReply}

/-! ## Stores -/

theorem storeCommitted_gap {s : Session} {k : DomainKey} :
    (e.storeCommitted key s gap).outerGaps[k]? =
      if key = k then if s.committedIsEmpty then none else some gap else e.outerGaps[k]? := by
  unfold storeCommitted
  by_cases hempty : s.committedIsEmpty = true
  · rw [if_pos hempty, if_pos hempty]
    exact lookup_erase
  · rw [if_neg hempty, if_neg hempty]
    exact lookup_insert

/-- What a split leaves recorded for its target: the given gap when something
is homed there, else nothing. -/
theorem storeTarget_gap {s sourceSession : Session} {target? : Option Session}
    (h : s.splitCanonicalPair = .ok (sourceSession, target?)) (hdomains : s.domains = [source, target]) :
    (e.storeTarget target.key target? gap).outerGaps[target.key]? =
      if s.occupies target.key then some gap else none := by
  have hoccupies := splitCanonicalPair_occupies h hdomains
  cases target? with
  | none =>
    have hfree : s.occupies target.key = false := by simpa using hoccupies
    rw [hfree]
    exact lookup_erase.trans (if_pos rfl)
  | some t =>
    have hempty : t.committedIsEmpty = !s.occupies target.key := by simpa using hoccupies
    have hstored : (e.storeTarget target.key (some t) gap).outerGaps[target.key]? = _ :=
      storeCommitted_gap
    rw [hstored, if_pos rfl, hempty]
    cases s.occupies target.key <;> rfl

/-- The canonical store keeps the recorded gap of an occupied target. -/
theorem storeCanonicalPair_gap (hdomains : pair.domains = [source, target])
    (h : e.storeCanonicalPair source.key target.key pair gap = (e', true)) :
    e'.outerGaps[target.key]? =
      if pair.occupies target.key then some (e.outerGaps[target.key]?.getD gap) else none := by
  unfold storeCanonicalPair at h
  cases hsplit : pair.splitCanonicalPair with
  | error error => rw [hsplit] at h; cases h
  | ok sides =>
    obtain ⟨sourceSession, target?⟩ := sides
    rw [hsplit] at h
    cases h
    exact storeTarget_gap hsplit hdomains

/-- The domains of an assembled pair are the two of the request. -/
theorem assembleDirectionalPair_domains (h : e.assembleDirectionalPair source target = .ok pair) :
    pair.domains = [source, target] ∧ source.key ≠ target.key := by
  simp only [assembleDirectionalPair, bind_eq_ok, mapError_eq_ok] at h
  obtain ⟨_, -, _, -, hpair⟩ := h
  exact pairedFromCanonicalImpl_domains hpair

theorem assembleSendPair_domains (h : e.assembleSendPair event target = .ok pair) :
    pair.domains = [event.domain, target] ∧ event.domain.key ≠ target.key := by
  simp only [assembleSendPair, bind_eq_ok] at h
  obtain ⟨_, -, h⟩ := h
  split at h
  · simp only [bind_eq_ok, mapError_eq_ok] at h
    obtain ⟨_, -, hpair⟩ := h
    exact pairedFromCanonicalImpl_domains hpair
  · simp only [bind_eq_ok, mapError_eq_ok] at h
    obtain ⟨_, -, hpair⟩ := h
    exact pairedFromCanonicalImpl_domains hpair

/-- Some carried window is homed on the domain. -/
def observes (windows : List EngineWindow) (domain : OutputDomain) : Bool :=
  windows.any fun entry => (observedWindowFromEngine entry).key == domain.key

/-- A converged pair and what the engine has recorded for its target: the gap
of before, or the carried one for a new slot, as long as some observed window
is homed there. -/
structure Stored (e e' : Engine) (windows : List EngineWindow) (source target : OutputDomain)
    (gap : Int) (pair : Session) : Prop where
  domains : pair.domains = [source, target]
  occupies : pair.occupies target.key = observes windows target
  gap : e'.outerGaps[target.key]? =
    if observes windows target then some (e.outerGaps[target.key]?.getD gap) else none

theorem convergePair_ok {windows : List EngineWindow} {observation : SessionObservation}
    (hdomains : pair.domains = [source, target])
    (h : e.convergePair event windows source target pair = (e', .ok (pair', observation))) :
    Stored e e' windows source target event.outerGap pair' ∧
      pair' = (pair.convergeObservation
        (event.sessionObservationFor pair.acceptedRevision windows) event.focus).1 := by
  unfold convergePair at h
  simp only at h
  generalize hconverge : pair.convergeObservation
    (event.sessionObservationFor pair.acceptedRevision windows) event.focus = answer at h ⊢
  obtain ⟨converged, result⟩ := answer
  cases result with
  | error error => cases h
  | ok counts =>
    obtain ⟨hsame, hoccupies⟩ := occupies_converged target.key hconverge
    have hobserved : converged.occupies target.key = observes windows target := by
      rw [hoccupies, observes, CoreEvent.sessionObservationFor, List.any_map]
      rfl
    simp only at h
    generalize hstore : e.storeCanonicalPair source.key target.key converged event.outerGap =
      stored at h
    obtain ⟨e₁, done⟩ := stored
    cases done with
    | false => cases h
    | true =>
      simp only [Prod.mk.injEq, Except.ok.injEq] at h
      obtain ⟨rfl, rfl, -⟩ := h
      have hgap := storeCanonicalPair_gap (hsame.trans hdomains) hstore
      rw [hobserved] at hgap
      exact ⟨⟨hsame.trans hdomains, hobserved, hgap⟩, rfl⟩

/-- A pair that does not converge is answered with a refusal. -/
theorem convergePair_refuses {windows : List EngineWindow}
    (h : e.convergePair event windows source target pair = (e', .error reply)) :
    ¬reply.isPlan = true := by
  unfold convergePair at h
  simp only at h
  generalize pair.convergeObservation
    (event.sessionObservationFor pair.acceptedRevision windows) event.focus = answer at h
  obtain ⟨converged, result⟩ := answer
  cases result with
  | error error =>
    cases h
    cases error <;> nofun
  | ok counts =>
    simp only at h
    generalize e.storeCanonicalPair source.key target.key converged event.outerGap = stored at h
    obtain ⟨e₁, done⟩ := stored
    cases done with
    | false => cases h; nofun
    | true => cases h

/-- A stored commit leaves the gap of an occupied target. -/
theorem storeAndReply_gap {committed : Option Session} {planned : CoreReply}
    (h : e.storeAndReply event source target committed planned = (e', reply))
    (hplan : reply.isPlan = true) :
    ∃ pair, committed = some pair ∧ (pair.domains = [source, target] →
      e'.outerGaps[target.key]? = if pair.occupies target.key
        then some (e.outerGaps[target.key]?.getD event.outerGap) else none) := by
  unfold storeAndReply at h
  cases committed with
  | none =>
    cases h
    cases hplan
  | some pair =>
    refine ⟨pair, rfl, fun hdomains => ?_⟩
    simp only at h
    generalize hstore : e.storeCanonicalPair source.key target.key pair event.outerGap =
      stored at h
    obtain ⟨e₁, done⟩ := stored
    cases done with
    | false =>
      cases h
      cases hplan
    | true =>
      cases h
      exact storeCanonicalPair_gap hdomains hstore

/-- What a commit that relinks nothing leaves recorded: the gap stays when the
target is occupied. -/
theorem Stored.kept {e₁ : Engine} {windows : List EngineWindow} {committed : Session}
    (h : Stored e e₁ windows source target event.outerGap pair)
    (hgap : e.outerGaps[target.key]? = some gap)
    (hwindows : committed.windows = pair.windows) (hexceptions : committed.exceptions = pair.exceptions)
    (hcommit : e'.outerGaps[target.key]? = if committed.occupies target.key
      then some (e₁.outerGaps[target.key]?.getD event.outerGap) else none) :
    e'.outerGaps[target.key]? = some gap ↔ observes windows target = true := by
  rw [hcommit, occupies_congr hwindows hexceptions, h.occupies, h.gap, hgap]
  cases observes windows target <;> simp

/-! ## Directional requests -/

/-- The two-domain session a request works on, converged on its observation
and with the observed focus. -/
def workingPair (event : CoreEvent) (source : OutputDomain) (pair : Session) : Session :=
  ((pair.convergeObservation (event.sessionObservationFor pair.acceptedRevision event.windows)
    event.focus).1.syncFocusFromWindow source.key event.focusedWindow).1

/-- A directional move the planner answers by crossing. -/
def plansCrossing (e : Engine) (event : CoreEvent) : Bool :=
  match event.command, event.directional with
  | .move window direction crossOutputTransfer sameAxisMove, some (source, target) =>
    match parseEngineDirection direction, e.assembleDirectionalPair source target with
    | some direction, .ok pair =>
      (workingPair event source pair).crosses source.key ⟨window⟩ direction
        { Capabilities.full with crossOutputTransfer } sameAxisMove
    | _, _ => false
  | _, _ => false

/-- A commit within the source keeps the gap of an occupied target, and a
crossing keeps it exactly when it carries it. -/
theorem commitMove_gap {e₁ : Engine} {direction : Direction} {plan : SessionMovePlan} {base : Nat}
    {working : Session} {desired : PendingDesired}
    (hstored : Stored e e₁ event.windows source target event.outerGap pair)
    (hgap : e.outerGaps[target.key]? = some gap)
    (hworking : working.windows = pair.windows ∧ working.exceptions = pair.exceptions ∧
      working.domains = pair.domains)
    (hawaits : Awaits working pair' desired) (hexceptions : desired.exceptions = working.exceptions)
    (hvalid : working.ValidDesired desired)
    (hstays : crossTarget plan.dispatch.operation = none → desired.windows = working.windows)
    (hcrossed : ∀ key, crossTarget plan.dispatch.operation = some key → key ≠ source.key ∧
      ∃ mover leaf, desired.windows =
        working.windows.insert mover ⟨mover, leaf, key.output, key.workspace⟩)
    (h : e₁.commitMove event source target direction pair' plan base = (e', reply))
    (hplan : reply.isPlan = true) :
    e'.outerGaps[target.key]? = some gap ↔
      if (crossTarget plan.dispatch.operation).isSome then carriedTargetGap event = gap
      else observes event.windows target = true := by
  have hcommit : ∀ committed, commitDirectionalMove pair' event plan base = some committed →
      committed.windows = desired.windows ∧ committed.exceptions = desired.exceptions ∧
        committed.domains = [source, target] := by
    intro committed hsome
    obtain ⟨hwindows, hexceptions, hdomains⟩ :=
      commitWith_some (fun _ => verifyWith_verified) hawaits.desired hsome
    refine ⟨hwindows, hexceptions, ?_⟩
    rw [hdomains, hawaits.domains, hworking.2.2, hstored.domains]
  unfold commitMove at h
  simp only at h
  cases htarget : crossTarget plan.dispatch.operation with
  | none =>
    rw [htarget] at h
    obtain ⟨committed, hsome, hstore⟩ := storeAndReply_gap h hplan
    obtain ⟨hwindows, hkept, hdomains⟩ := hcommit committed hsome
    refine (hstored.kept hgap ?_ ?_ (hstore hdomains)).trans (by simp)
    · rw [hwindows, hstays htarget, hworking.1]
    · rw [hkept, hexceptions, hworking.2.1]
  | some key =>
    rw [htarget] at h
    simp only [Option.isSome_some, if_true] at h ⊢
    generalize MovePlanReply.fromCross plan source.id source.workspace = typed at h
    cases hsome : commitDirectionalMove pair' event plan base with
    | none =>
      rw [hsome] at h
      cases typed <;> cases h <;> cases hplan
    | some committed =>
      rw [hsome] at h
      obtain ⟨hwindows, hkept, hdomains⟩ := hcommit committed hsome
      cases typed with
      | none => cases h; cases hplan
      | some typed =>
        simp only at h
        cases hsplit : committed.splitCanonicalPair with
        | error error => rw [hsplit] at h; cases h; cases hplan
        | ok sides =>
          obtain ⟨sourceSession, target?⟩ := sides
          rw [hsplit] at h
          cases h
          -- the mover is linked on a known domain that is not the source
          obtain ⟨haway, mover, leaf, hmoved⟩ := hcrossed key htarget
          have hlink : committed.windows[mover]? = some ⟨mover, leaf, key.output, key.workspace⟩ := by
            rw [hwindows, hmoved]
            exact lookup_insert.trans (if_pos rfl)
          have hknown : validLink working.domains desired.trees
              ⟨mover, leaf, key.output, key.workspace⟩ = true :=
            hvalid.link_valid (hwindows ▸ hlink)
          have hkey : key = target.key := by
            simp only [validLink, Bool.and_eq_true, List.any_eq_true, beq_iff_eq] at hknown
            obtain ⟨⟨-, domain, hdomain, hhome⟩, -⟩ := hknown
            rw [hworking.2.2, hstored.domains, List.mem_cons, List.mem_singleton] at hdomain
            rcases hdomain with rfl | rfl
            · exact absurd hhome.symm haway
            · exact hhome.symm
          have hoccupied : committed.occupies target.key = true :=
            occupies_iff.mpr (.inl ⟨mover, _, hlink, hkey⟩)
          rw [storeTarget_gap hsplit hdomains, hoccupied, if_pos rfl, Option.some.injEq]

theorem directionalMoveRequest_gap {window direction : String} {crossOutputTransfer : Bool}
    {sameAxisMove : SameAxisMove} (hcommand : event.command =
      .move window direction crossOutputTransfer sameAxisMove)
    (hdirectional : event.directional = some (source, target))
    (hgap : e.outerGaps[target.key]? = some gap)
    (h : e.directionalMoveRequest event source target window direction crossOutputTransfer
      sameAxisMove = (e', reply)) (hplan : reply.isPlan = true) :
    e'.outerGaps[target.key]? = some gap ↔
      if e.plansCrossing event then carriedTargetGap event = gap
      else observes event.windows target = true := by
  unfold directionalMoveRequest at h
  split at h
  · cases h; cases hplan
  · cases hdirection : parseEngineDirection direction with
    | none => rw [hdirection] at h; cases h; cases hplan
    | some towards =>
      rw [hdirection] at h
      cases hpair : e.assembleDirectionalPair source target with
      | error detail => rw [hpair] at h; cases h; cases hplan
      | ok pair =>
        rw [hpair] at h
        simp only at h
        generalize hconverge : e.convergePair event event.windows source target pair = answer at h
        obtain ⟨e₁, converged⟩ := answer
        cases converged with
        | error refusal =>
          cases h
          exact absurd hplan (convergePair_refuses hconverge)
        | ok working =>
          obtain ⟨converged, observation⟩ := working
          obtain ⟨hstored, hconverged⟩ :=
            convergePair_ok (assembleDirectionalPair_domains hpair).1 hconverge
          simp only at h
          generalize hpropose : (converged.syncFocusFromWindow source.key
            event.focusedWindow).1.proposeMoveWithSameAxis source.key ⟨window⟩ towards observation
            event.correlation { Capabilities.full with crossOutputTransfer } sameAxisMove =
              proposed at h
          obtain ⟨pending, result⟩ := proposed
          cases result with
          | error error => cases h; cases hplan
          | ok plan =>
            obtain ⟨desired, hawaits, hexceptions, hvalid, hcrosses, hstays, hcrossed⟩ :=
              proposeMoveWithSameAxis_asks hpropose
            have hplans : e.plansCrossing event = (crossTarget plan.dispatch.operation).isSome := by
              rw [← hcrosses, hconverged]
              simp only [plansCrossing, hcommand, hdirectional, hdirection, hpair]
              rfl
            rw [hplans]
            exact commitMove_gap hstored hgap syncFocusFromWindow_frame hawaits hexceptions hvalid
              hstays hcrossed h hplan

/-- A local change of focus is planned over a valid session. -/
theorem planFocusIn_valid {s : Session} {window : WindowId} {direction : Direction}
    {observation : SessionObservation} {capabilities : FocusCapabilities}
    {staging : Staging (FocusPlanContract × FocusPlan)}
    (h : s.planFocusIn key window direction observation capabilities = .ok staging) : s.Valid := by
  simp only [planFocusIn, checkFocusRequest, bind_eq_ok, refuseUnless, ensure_eq_ok] at h
  obtain ⟨_, -, _, ⟨_, -, _, hvalid, -⟩, -⟩ := h
  exact validateCurrentTopology_iff.mp hvalid

/-- A change of focus on a pair relinks nothing, on either side: whichever of
the three focus proposals is made, windows and exceptions of the staged world
are the pair's. -/
theorem proposeFocusOnPair_asks {window : WindowId} {direction : Direction} {floatSubject : Bool}
    {observation : SessionObservation} {plan : SessionFocusPlan} {crossed : Bool}
    (h : proposeFocusOnPair pair event source window direction floatSubject observation =
      (pair', .ok (plan, crossed))) :
    ∃ desired, Awaits pair pair' desired ∧ desired.windows = pair.windows ∧
      desired.exceptions = pair.exceptions := by
  have hcross : ∀ {floatSubject : Bool} {plan : SessionFocusPlan} {pair' : Session},
      pair.crossOutputFocus source.key window direction observation event.correlation fullFocus
        floatSubject = (pair', .ok plan) →
      ∃ desired, Awaits pair pair' desired ∧ desired.windows = pair.windows ∧
        desired.exceptions = pair.exceptions := by
    intro floatSubject plan pair' hcross
    refine proposeFocusPlan_asks (fun staging hplanned => ?_) hcross
    obtain ⟨key, leaf, hdesired, -⟩ := planCrossOutputFocus_ok hplanned
    exact ⟨key, leaf, hdesired⟩
  have hanswer : ∀ {floatSubject : Bool}, ((pair.crossOutputFocus source.key window direction
      observation event.correlation fullFocus floatSubject).1,
      (pair.crossOutputFocus source.key window direction observation event.correlation fullFocus
        floatSubject).2.map fun plan => (plan, true)) = (pair', Except.ok (plan, crossed)) →
      ∃ desired, Awaits pair pair' desired ∧ desired.windows = pair.windows ∧
        desired.exceptions = pair.exceptions := by
    intro floatSubject hmapped
    obtain ⟨hpair, hresult⟩ := Prod.mk.inj hmapped
    obtain ⟨plan', hresult, -⟩ := map_eq_ok.mp hresult
    exact @hcross _ plan' _ (Prod.ext hpair hresult)
  unfold proposeFocusOnPair at h
  simp only at h
  cases floatSubject with
  | true =>
    rw [if_pos rfl] at h
    cases horigin : checkFloatOrigin event source window direction with
    | error kind => rw [horigin] at h; cases h
    | ok u =>
      rw [horigin] at h
      exact hanswer h
  | false =>
    rw [if_neg Bool.false_ne_true] at h
    generalize hlocal : pair.proposeFocus source.key window direction observation event.correlation
      fullFocus = answer at h
    obtain ⟨refused, result⟩ := answer
    cases result with
    | ok plan' =>
      cases h
      refine proposeFocusPlan_asks (fun staging hplanned => ?_) hlocal
      obtain ⟨leaf, hdesired, -⟩ := planFocusIn_ok (planFocusIn_valid hplanned) hplanned
      exact ⟨source.key, leaf, hdesired⟩
    | error error =>
      simp only at h
      by_cases hexhausted : error = .refused .unchanged ∧ (direction = .left ∨ direction = .right)
      · rw [if_pos hexhausted] at h
        rw [hexhausted.1] at hlocal
        unfold Session.proposeFocus Session.proposeFocusPlan at hlocal
        obtain rfl := proposeStaged_refused hlocal
        exact hanswer h
      · rw [if_neg hexhausted] at h
        cases h

theorem directionalFocusRequest_gap {window direction : String} {floatSubject : Bool}
    (hgap : e.outerGaps[target.key]? = some gap)
    (h : e.directionalFocusRequest event source target window direction floatSubject = (e', reply))
    (hplan : reply.isPlan = true) :
    e'.outerGaps[target.key]? = some gap ↔ observes event.windows target = true := by
  unfold directionalFocusRequest at h
  split at h
  · cases h; cases hplan
  · cases hdirection : parseEngineDirection direction with
    | none => rw [hdirection] at h; cases h; cases hplan
    | some towards =>
      rw [hdirection] at h
      cases hpair : e.assembleDirectionalPair source target with
      | error detail => rw [hpair] at h; cases h; cases hplan
      | ok pair =>
        rw [hpair] at h
        simp only at h
        generalize hconverge : e.convergePair event event.windows source target pair = answer at h
        obtain ⟨e₁, converged⟩ := answer
        cases converged with
        | error refusal =>
          cases h
          exact absurd hplan (convergePair_refuses hconverge)
        | ok working =>
          obtain ⟨converged, observation⟩ := working
          obtain ⟨hstored, -⟩ := convergePair_ok (assembleDirectionalPair_domains hpair).1 hconverge
          simp only at h
          obtain ⟨hwindows, hexceptions, hdomains⟩ :=
            @syncFocusFromWindow_frame converged event.focusedWindow source.key
          generalize (converged.syncFocusFromWindow source.key event.focusedWindow).1 = synced
            at h hwindows hexceptions hdomains
          generalize hpropose : proposeFocusOnPair synced event source ⟨window⟩ towards floatSubject
            observation = proposed at h
          obtain ⟨pending, result⟩ := proposed
          cases result with
          | error error => cases h; cases hplan
          | ok answer =>
            obtain ⟨plan, crossed⟩ := answer
            obtain ⟨desired, hawaits, hasked, hkept⟩ := proposeFocusOnPair_asks hpropose
            obtain ⟨committed, hsome, hstore⟩ := storeAndReply_gap h hplan
            obtain ⟨hcommitted, hexcepted, hhome⟩ :=
              commitWith_some (fun _ => verifyWith_verified) hawaits.desired hsome
            refine hstored.kept hgap ?_ ?_ (hstore ?_)
            · rw [hcommitted, hasked, hwindows]
            · rw [hexcepted, hkept, hexceptions]
            · rw [hhome, hawaits.domains, hdomains, hstored.domains]

/-! ## Sends -/

theorem seedSource_gap {k : DomainKey} {refusal : Option CoreReply}
    (h : e.seedSource event = (e', refusal)) (hk : event.domain.key ≠ k) :
    e'.outerGaps[k]? = e.outerGaps[k]? := by
  unfold seedSource at h
  split at h
  · cases h
    rfl
  · split at h
    · cases h
      rfl
    · split at h
      · cases h
        exact storeCommitted_gap.trans (if_neg hk)
      · cases h
        rfl
      · cases h
        rfl

theorem seedSource_refuses (h : e.seedSource event = (e', some reply)) : ¬reply.isPlan = true := by
  unfold seedSource at h
  split at h
  · cases h
  · split at h
    · cases h
      nofun
    · split at h
      · cases h
      · cases h
        nofun
      · rename_i error _ _
        cases h
        cases error <;> nofun

/-- A proposed send waits for its mover to be linked on the target. -/
theorem propose_send_asks {window : WindowId} {target : DomainKey} {follow outputSend : Bool}
    {observation : SessionObservation} {plan : SessionPlan}
    {correlationId : CorrelationId} {capabilities : LifecycleCapabilities}
    (h : pair.propose (if outputSend then .moveToOutput window target follow
        else .moveToWorkspace window target follow) observation correlationId capabilities =
      (pair', .ok plan)) :
    ∃ desired link, Awaits pair pair' desired ∧
      desired.windows = pair.windows.insert window link ∧ link.key = target := by
  unfold propose attempt at h
  cases hcheck : pair.checkCommand (if outputSend then .moveToOutput window target follow
      else .moveToWorkspace window target follow) observation.windows with
  | error error => rw [hcheck] at h; cases h
  | ok u =>
    rw [hcheck] at h
    cases outputSend with
    | true => exact proposeSend_asks h
    | false => exact proposeSend_asks h

theorem sendOnPair_occupies {observation : SessionObservation} {window : String}
    {follow outputSend : Bool} (hdomains : pair.domains = [event.domain, target])
    (h : e.sendOnPair event target pair observation window follow outputSend = (e', reply))
    (hplan : reply.isPlan = true) :
    e'.outerGaps[target.key]? = some (e.outerGaps[target.key]?.getD event.outerGap) := by
  unfold sendOnPair at h
  have hframe := @syncFocusFromWindow_frame pair event.focusedWindow event.domain.key
  generalize pair.syncFocusFromWindow event.domain.key event.focusedWindow = answer at h hframe
  obtain ⟨synced, done⟩ := answer
  cases done with
  | false => cases h; cases hplan
  | true =>
    simp only at h
    generalize hpropose : synced.propose _ observation event.correlation .full = proposed at h
    obtain ⟨pending, result⟩ := proposed
    cases result with
    | error error => cases h; cases hplan
    | ok plan =>
      obtain ⟨desired, link, hawaits, hasked, hlink⟩ := propose_send_asks hpropose
      simp only at h
      cases htyped : SendWorkspacePlan.fromSession plan with
      | none => rw [htyped] at h; cases h; cases hplan
      | some typed =>
        rw [htyped] at h
        obtain ⟨committed, hsome, hstore⟩ := storeAndReply_gap h hplan
        obtain ⟨hcommitted, -, hhome⟩ :=
          commitWith_some (fun _ => verifyWith_verified) hawaits.desired hsome
        have hmoved : committed.windows[(⟨window⟩ : WindowId)]? = some link := by
          rw [hcommitted, hasked]
          exact lookup_insert.trans (if_pos rfl)
        have hoccupied : committed.occupies target.key = true :=
          occupies_iff.mpr (.inl ⟨_, link, hmoved, hlink⟩)
        rw [hstore (by rw [hhome, hawaits.domains, hframe.2.2, hdomains]), if_pos hoccupied]

theorem transferRequest_gap {window targetOutput targetWorkspace : String} {follow outputSend : Bool}
    (htarget : event.targetDomain = some target) (hgap : e.outerGaps[target.key]? = some gap)
    (h : e.transferRequest event window targetOutput targetWorkspace follow outputSend = (e', reply))
    (hplan : reply.isPlan = true) :
    e'.outerGaps[target.key]? = some gap ↔
      (observes (event.windows ++ event.targetWindows) target = true ∨ event.outerGap = gap) := by
  unfold transferRequest at h
  rw [htarget] at h
  simp only at h
  split at h
  · cases h; cases hplan
  · split at h
    · cases h; cases hplan
    · split at h
      · cases h; cases hplan
      · generalize hseed : e.seedSource event = seeded at h
        obtain ⟨e₀, refusal⟩ := seeded
        cases refusal with
        | some refusal =>
          cases h
          exact absurd hplan (seedSource_refuses hseed)
        | none =>
          simp only at h
          cases hpair : e₀.assembleSendPair event target with
          | error detail => rw [hpair] at h; cases h; cases hplan
          | ok pair =>
            rw [hpair] at h
            obtain ⟨hdomains, hkeys⟩ := assembleSendPair_domains hpair
            simp only at h
            generalize hconverge : e₀.convergePair event (event.windows ++ event.targetWindows)
              event.domain target pair = answer at h
            obtain ⟨e₁, converged⟩ := answer
            cases converged with
            | error refusal =>
              cases h
              exact absurd hplan (convergePair_refuses hconverge)
            | ok working =>
              obtain ⟨converged, observation⟩ := working
              obtain ⟨hstored, -⟩ := convergePair_ok hdomains hconverge
              rw [sendOnPair_occupies hstored.domains h hplan, hstored.gap, seedSource_gap hseed hkeys,
                hgap]
              cases observes (event.windows ++ event.targetWindows) target <;> simp

/-! ## The result -/

/-- What the engine must meet for the target of a pair request to keep its
gap: a crossing carries it; any other request observes a window on the target,
which would retire otherwise, or is a send that stores it anew with the same
gap. -/
def keepsTargetGap (e : Engine) (event : CoreEvent) (target : OutputDomain) (gap : Int) : Bool :=
  match event.command with
  | .move .. =>
    if e.plansCrossing event then carriedTargetGap event == gap else observes event.windows target
  | .focus .. => observes event.windows target
  | .sendToWorkspace .. | .sendToOutput .. =>
    observes (event.windows ++ event.targetWindows) target || event.outerGap == gap
  | .toggleFloat .. => true

/-- A committed pair request leaves the gap recorded for its target, which the
next reconcile of the target must repeat, under exactly this condition. -/
theorem handlePair_targetGap_iff (h : e.handlePair event = some (e', reply))
    (hplan : reply.isPlan = true) (htarget : pairTarget event = some target)
    (hgap : e.outerGaps[target.key]? = some gap) :
    (e'.outerGaps[target.key]? = some gap ∧ e'.outerGapMatches target.key gap = true) ↔
      e.keepsTargetGap event target gap = true := by
  have hmatches : e'.outerGapMatches target.key gap = true ↔ e'.outerGaps[target.key]? = some gap := by
    simp only [outerGapMatches, beq_iff_eq]
  rw [hmatches, and_self]
  unfold handlePair at h
  unfold pairTarget at htarget
  unfold keepsTargetGap
  cases hcommand : event.command with
  | move window direction crossOutputTransfer sameAxisMove =>
    rw [hcommand] at h htarget
    simp only at h htarget ⊢
    obtain ⟨⟨source, t⟩, hdirectional, rfl⟩ := Option.map_eq_some_iff.mp htarget
    rw [hdirectional] at h
    have hmove := directionalMoveRequest_gap hcommand hdirectional hgap (Option.some.inj h) hplan
    rw [hmove]
    cases e.plansCrossing event <;> simp
  | focus window direction floatSubject =>
    rw [hcommand] at h htarget
    simp only at h htarget ⊢
    obtain ⟨⟨source, t⟩, hdirectional, rfl⟩ := Option.map_eq_some_iff.mp htarget
    rw [hdirectional] at h
    exact directionalFocusRequest_gap hgap (Option.some.inj h) hplan
  | sendToWorkspace window targetOutput targetWorkspace follow =>
    rw [hcommand] at h htarget
    have hsend := transferRequest_gap htarget hgap (Option.some.inj h) hplan
    rw [hsend, Bool.or_eq_true, beq_iff_eq]
  | sendToOutput window targetOutput targetWorkspace follow =>
    rw [hcommand] at h htarget
    have hsend := transferRequest_gap htarget hgap (Option.some.inj h) hplan
    rw [hsend, Bool.or_eq_true, beq_iff_eq]
  | toggleFloat window floatRect =>
    rw [hcommand] at htarget
    cases htarget

end Engine

/-! ## Two outputs, side by side -/

namespace Sample

def engine : Engine := ⟨∅, ∅, false, false, .bothAxes⟩

def leftOutput : OutputDomain :=
  { domain "A" "1" with adjacent := (∅ : BTreeMap Direction OutputId).insert .right ⟨"B"⟩ }

def rightOutput : OutputDomain :=
  { domain "B" "1" with
    bounds := ⟨1000, 0, 1000, 800⟩
    adjacent := (∅ : BTreeMap Direction OutputId).insert .left ⟨"A"⟩ }

def carried (raw output : String) : EngineWindow :=
  ⟨⟨raw⟩, ⟨output⟩, ⟨"1"⟩, ⟨0, 0, 100, 100⟩, false, false, false, false, false, false, {}⟩

/-- A request from the left output, laid out with an outer gap of 8. -/
def request (source : OutputDomain) (focused : String) (windows : List EngineWindow)
    (command : CoreCommand) : CoreEvent where
  owner := owner
  generation := generation
  correlation := correlationId
  fingerprint := 0
  domain := source
  outerGap := 8
  focusedWindow := ⟨focused⟩
  windows
  directional := none
  directionalTargetOuterGap := none
  targetDomain := none
  targetWindows := []
  command

/-- The first of two tiles is sent to the right output. -/
def sent : CoreEvent :=
  { request leftOutput.canonicalComponent "u" [carried "u" "A", carried "v" "A"]
      (.sendToOutput "u" "B" "1" false) with
    targetDomain := some rightOutput.canonicalComponent }

/-- Both outputs retained, each with a gap of 8. -/
def spread : Engine := ((engine.handlePair sent).map Prod.fst).getD engine

/-- The second tile moves over the right edge, with a target gap carried. -/
def crossing (gap : Int) : CoreEvent :=
  { request leftOutput "v" [carried "v" "A", carried "u" "B"]
      (.move "v" "right" true .groupWithNeighbor) with
    directional := some (leftOutput, rightOutput)
    directionalTargetOuterGap := some gap }

end Sample

namespace Engine

/-- A crossing that carries the recorded gap keeps it. -/
theorem handlePair_targetGap_crossing :
    ∃ e' reply, Sample.spread.handlePair (Sample.crossing 8) = some (e', reply) ∧
      ((e'.outerGaps[Sample.rightOutput.key]? = some 8 ∧
          e'.outerGapMatches Sample.rightOutput.key 8 = true) ↔
        Sample.spread.keepsTargetGap (Sample.crossing 8) Sample.rightOutput 8 = true) := by
  cases h : Sample.spread.handlePair (Sample.crossing 8) with
  | none =>
    have hsome : (Sample.spread.handlePair (Sample.crossing 8)).isSome = true := by decide +kernel
    rw [h] at hsome
    cases hsome
  | some answer =>
    obtain ⟨e', reply⟩ := answer
    have hplan : (Sample.spread.handlePair (Sample.crossing 8)).all (·.2.isPlan) = true := by
      decide +kernel
    rw [h] at hplan
    exact ⟨e', reply, rfl, handlePair_targetGap_iff h hplan rfl (by decide +kernel)⟩

/-- A crossing that carries another gap replaces the recorded one, and the
target no longer reconciles with the gap it had. -/
theorem handlePair_targetGap_replaced :
    (Sample.engine.handlePair Sample.sent).map Prod.fst = some Sample.spread ∧
      Sample.spread.contains Sample.rightOutput.key = true ∧
      Sample.spread.outerGaps[Sample.rightOutput.key]? = some 8 ∧
      ∃ e' reply, Sample.spread.handlePair (Sample.crossing 12) = some (e', reply) ∧
        reply.isPlan = true ∧ pairTarget (Sample.crossing 12) = some Sample.rightOutput ∧
        e'.contains Sample.rightOutput.key = true ∧
        e'.outerGaps[Sample.rightOutput.key]? = some 12 ∧
        e'.outerGapMatches Sample.rightOutput.key 8 = false := by
  refine ⟨?_, by decide +kernel, by decide +kernel, ?_⟩
  · cases h : Sample.engine.handlePair Sample.sent with
    | none =>
      have hsome : (Sample.engine.handlePair Sample.sent).isSome = true := by decide +kernel
      rw [h] at hsome
      cases hsome
    | some answer =>
      rw [Sample.spread, h]
      rfl
  · cases h : Sample.spread.handlePair (Sample.crossing 12) with
    | none =>
      have hsome : (Sample.spread.handlePair (Sample.crossing 12)).isSome = true := by decide +kernel
      rw [h] at hsome
      cases hsome
    | some answer =>
      have hall : (Sample.spread.handlePair (Sample.crossing 12)).all (fun answer =>
          answer.2.isPlan && answer.1.contains Sample.rightOutput.key &&
            answer.1.outerGaps[Sample.rightOutput.key]? == some 12 &&
            !answer.1.outerGapMatches Sample.rightOutput.key 8) = true := by decide +kernel
      rw [h] at hall
      simp only [Option.all_some, Bool.and_eq_true, beq_iff_eq, Bool.not_eq_true'] at hall
      obtain ⟨⟨⟨hplan, hretained⟩, hgap⟩, hfenced⟩ := hall
      exact ⟨answer.1, answer.2, rfl, hplan, rfl, hretained, hgap, hfenced⟩

end Engine

end PlasmaTiler
