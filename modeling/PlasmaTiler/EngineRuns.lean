import PlasmaTiler.LeavingRoutes

/-!
# Runs of the engine

A request may go through a dozen stages, each of which may fail after an
earlier one has written a slot: a relocation, a convergence, a seed, a
proposal, a commit, a split. What the engine keeps from one request to the
next must not depend on which stage was the last. The invariant is
`Coherent`: the session of a slot covers exactly the domain it is kept for,
nothing in it is open, its revision is one a message can carry, and it is set
like the engine.

The way here is `Engine.Leaves`, which holds of the engine in the middle of a
request as well as at its end. Each function that writes a slot has a lemma
that it keeps `Leaves`; this module has those of the last requests
(projections, gaps, migration, drags) and assembles the dispatch from them
(`Coherent.request`), with no case in which a slot could be left open.

Three results are read off. `coherent_invariant` says that every reachable
engine is coherent. `request_touches` is the frame: a request leaves every
slot alone, session and gap, that is not of its own domain, not of a domain
it names, and not the one a relocation would take over. `lettered_run` is
about ids: in a run of validated requests every id the engine holds is
spelled with the letters of opaque ids, as the key of a slot or a gap, in the
world and in the memories of a session (`SpelledThroughout`).
-/

namespace PlasmaTiler

namespace Engine

section
variable {e₀ e : Engine} {r : Request}

/-! ## Projections -/

theorem Slot.reprojected {key : DomainKey} {s : Session} (hs : e₀.Slot r key s) {k : DomainKey} :
    e₀.Slot r key (s.reprojectDomain k r.event.domain.bounds) :=
  ⟨⟨hs.made.reprojected, hs.settled⟩, hs.adopted.stamped rfl⟩

theorem Leaves.reprojectIf {touched : DomainKey → Prop} (h : e₀.Leaves r touched e)
    (hkey : touched r.event.domain.key) {changed : Bool} :
    e₀.Leaves r touched (e.reprojectIf changed r.event) := by
  unfold Engine.reprojectIf
  split
  · unfold Engine.reprojectRetained
    split
    · exact h
    · rename_i s hs
      exact h.put hkey (mem_iff_lookup.mpr ⟨s, hs⟩) (h.slot hs).reprojected
  · exact h

theorem Leaves.reconcileRetained {touched : DomainKey → Prop} (h : e₀.Leaves r touched e)
    (hkey : touched r.event.domain.key) {s : Session} {relocated : Bool} {e' : Engine}
    {plan : ProjectionPlan} (hok : e.reconcileRetained r s relocated = .ok (e', plan)) :
    e₀.Leaves r touched e' := by
  simp only [Engine.reconcileRetained, bind_eq_ok] at hok
  obtain ⟨_, -, retained, -, _, -, _, -, _, -, hok⟩ := hok
  split at hok
  · simp only [bind_eq_ok] at hok
    obtain ⟨_, -, hok⟩ := hok
    split at hok
    · cases hok
      exact h.remove hkey
    · cases hok
      exact h.reprojectIf hkey
  · simp only [bind_eq_ok] at hok
    obtain ⟨_, -, _, -, hok⟩ := hok
    cases hok
    exact h.reprojectIf hkey

theorem Leaves.reconcileRequest (h : e₀.Leaves r (Own r) e) :
    e₀.Leaves r (e₀.Touches r) (e.reconcileRequest r).1 := by
  have hthere : e₀.Leaves r (e₀.Touches r) ((e.reconcileRelocated r.event).getD e) := by
    cases hrelocated : e.reconcileRelocated r.event with
    | none => exact h.own
    | some moved =>
      simp only [Engine.reconcileRelocated, Option.bind_eq_bind, Option.bind_eq_some_iff] at hrelocated
      obtain ⟨_, -, hmoved⟩ := hrelocated
      exact h.tryRelocateForTarget hmoved
  unfold Engine.reconcileRequest
  dsimp only
  split
  · exact h.freshReconcileRequest
  · split
    · exact h.own
    · rename_i left plan hok
      exact hthere.reconcileRetained .domain hok

/-- New gaps are stored with the outer gap of the request. -/
theorem Slot.gapped {key : DomainKey} {s updated : Session} (hs : e₀.Slot r key s)
    {k : DomainKey} {bounds : Rect} {gap : Int} {applied : Bool}
    (hok : s.updateDomainGaps k bounds gap = (updated, applied)) : e₀.Slot r key updated := by
  have hmade := hs.made.next (.updateDomainGaps k bounds gap) rfl fun _ => trivial
  have hfirst : s.next (.updateDomainGaps k bounds gap) = updated := congrArg Prod.fst hok
  have hsettled := @Session.updateDomainGaps_settled s k bounds gap hs.settled
  have hstamp := @Session.updateDomainGaps_stamp s k bounds gap
  rw [hfirst] at hmade
  rw [hok] at hsettled hstamp
  exact ⟨⟨hmade, hsettled⟩, hs.adopted.stamped hstamp⟩

theorem Leaves.updateGapsRequest (h : e₀.Leaves r (Own r) e) :
    e₀.Leaves r (Own r) (e.updateGapsRequest r).1 := by
  unfold Engine.updateGapsRequest
  split
  · exact h
  · rename_i s hs
    split
    · exact h
    · rename_i left plan hok
      simp only [Engine.updateGapsRetained, bind_eq_ok] at hok
      obtain ⟨_, -, _, -, hok⟩ := hok
      split at hok
      · simp only [bind_eq_ok] at hok
        obtain ⟨_, -, hok⟩ := hok
        split at hok
        · cases hok
          exact h.remove rfl
        · split at hok
          · cases hok
          · rename_i updated hupdated
            cases hok
            exact h.insert rfl ((h.slot hs).gapped hupdated)
      · simp only [bind_eq_ok] at hok
        obtain ⟨_, -, _, -, hok⟩ := hok
        split at hok
        · cases hok
        · rename_i updated hupdated
          cases hok
          exact h.storeCommitted rfl ((h.slot hs).gapped hupdated).toReady

theorem Leaves.activeGroupRequest (h : e₀.Leaves r (Own r) e) :
    e₀.Leaves r (Own r) (e.activeGroupRequest r.event).1 := by
  unfold Engine.activeGroupRequest
  split
  · exact h
  · rename_i s hs
    have hsynced : e₀.Slot r r.event.domain.key (syncedForGroup s r.event).1 := by
      unfold syncedForGroup
      dsimp only
      split
      · exact (h.slot hs).synced _ _
      · exact h.slot hs
    dsimp only
    split
    · exact h.put rfl (mem_iff_lookup.mpr ⟨s, hs⟩) hsynced
    · exact h

end

/-! ## Migration -/

section
variable {e₀ e : Engine} {r : Request} {touched : DomainKey → Prop} {s s' : Session}
  {source target : DomainKey} {outerGap : Int}

theorem Slot.convergeOn (hs : e₀.Slot r source s) {windows : List EngineWindow}
    {focus : Option WindowId} (hwindows : r.Validated → ∀ entry ∈ windows, entry.window.Opaque)
    (hok : convergeOn s r.event windows focus = .ok s') : e₀.Slot r source s' := by
  unfold Engine.convergeOn at hok
  split at hok
  · cases hok
  · rename_i settled counts hconverged
    cases hok
    have hready := hs.made.converge (fun hr => sessionObservationFor_ids (hwindows hr)) hconverged
    have hstamp := (@Session.convergeObservation_sameStamp s
      (r.event.sessionObservationFor s.acceptedRevision windows) focus).stamp
    rw [hconverged] at hstamp
    exact ⟨hready, hs.adopted.stamped hstamp⟩

/-- A part of the carried windows. -/
theorem carriedWhere_ids {kind : EngineWindow → Bool} (hr : r.Validated) :
    ∀ entry ∈ carriedWhere r.event kind, entry.window.Opaque :=
  fun entry hentry => hr.ids.windows entry (List.mem_of_mem_filter hentry)

theorem Slot.relocated (hs : e₀.Slot r source s) {bounds : Rect} {gap : Int}
    (htarget : r.Validated → target.Opaque)
    (hok : s.relocateDomain source target bounds gap = (s', true)) : e₀.Slot r target s' := by
  have hsettled := @Session.relocateDomain_settled s source target bounds gap hs.settled
  have hstamp := @Session.relocateDomain_stamp s source target bounds gap
  rw [hok] at hsettled hstamp
  exact ⟨⟨hs.made.relocated htarget hok, hsettled⟩, hs.adopted.stamped hstamp⟩

/-- A migration decides the source slot by what stays, and fills the target
slot with what has moved, if anything. -/
theorem storeMigrated_sessions {moved : Session} {stay : Option Session} (hne : source ≠ target)
    (k : DomainKey) : (e.storeMigrated source target outerGap moved stay).sessions[k]? =
      if source = k then stay
      else if target = k ∧ moved.committedIsEmpty = false then some moved
      else e.sessions[k]? := by
  unfold Engine.storeMigrated
  cases hempty : moved.committedIsEmpty with
  | true =>
    cases stay with
    | none => simp [lookup_erase]
    | some stay =>
      simp only [if_true, lookup_insert, lookup_erase]
      split
      · rfl
      · simp
  | false =>
    cases stay with
    | none =>
      simp only [Bool.false_eq_true, if_false, lookup_insert, lookup_erase, and_true]
      split
      · rename_i heq
        rw [if_neg fun hs => hne (hs.trans heq.symm)]
      · rfl
    | some stay =>
      simp only [Bool.false_eq_true, if_false, lookup_insert, lookup_erase, and_true]
      split
      · rfl
      · rfl

theorem storeMigrated_outerGaps {moved : Session} {stay : Option Session} (k : DomainKey) :
    (e.storeMigrated source target outerGap moved stay).outerGaps[k]? =
      if source = k ∧ stay = none then none
      else if target = k ∧ moved.committedIsEmpty = false then some outerGap
      else e.outerGaps[k]? := by
  unfold Engine.storeMigrated
  cases hempty : moved.committedIsEmpty with
  | true =>
    cases stay with
    | none => simp [lookup_erase]
    | some stay => simp
  | false =>
    cases stay with
    | none => simp [lookup_insert, lookup_erase]
    | some stay => simp [lookup_insert]

/-- What stays of a migrated domain keeps the source's gap, so the slot must
have been there; what moved has a new slot with the gap it came with. -/
theorem Leaves.storeMigrated (h : e₀.Leaves r touched e) {moved : Session} {stay : Option Session}
    (hsource : touched source) (htarget : touched target) (hne : source ≠ target)
    (hmem : source ∈ e.sessions) (hmoved : e₀.Slot r target moved)
    (hstay : ∀ stay', stay = some stay' → e₀.Slot r source stay') :
    e₀.Leaves r touched (e.storeMigrated source target outerGap moved stay) where
  slot {k t} ht := by
    rw [storeMigrated_sessions hne] at ht
    split at ht
    · rename_i heq
      exact heq ▸ hstay t ht
    · split at ht
      · rename_i heq
        cases ht
        exact heq.1 ▸ hmoved
      · exact h.slot ht
  gap k := by
    have hgap := h.gap k
    have hsourceGap := (h.gap source).mpr hmem
    rw [mem_iff_lookup] at hgap hsourceGap
    rw [mem_iff_lookup, mem_iff_lookup, storeMigrated_sessions hne, storeMigrated_outerGaps]
    by_cases hs : source = k
    · subst hs
      rw [if_pos rfl, if_neg (fun ht => hne ht.1.symm : ¬(target = source ∧ _))]
      cases stay with
      | none => simp
      | some stay => simpa using hsourceGap
    · rw [if_neg hs, if_neg fun ht => hs ht.1]
      split
      · simp
      · rw [hgap, mem_iff_lookup]
  settings := by
    unfold Engine.storeMigrated
    dsimp only
    split
    · split
      · exact h.settings
      · exact h.settings
    · split
      · exact h.settings
      · exact h.settings
  frame k hk := by
    have hs : source ≠ k := fun heq => hk (heq ▸ hsource)
    have ht : target ≠ k := fun heq => hk (heq ▸ htarget)
    rw [storeMigrated_sessions hne, storeMigrated_outerGaps, if_neg hs, if_neg fun h => ht h.1,
      if_neg fun h => hs h.1, if_neg fun h => ht h.1]
    exact h.frame k hk

theorem Leaves.migrateRetained (h : e₀.Leaves r touched e) {direction : Direction}
    {target : OutputDomain} {e' : Engine} {plan : MigrateWorkspacePlan}
    (hsource : touched r.event.domain.key) (htarget : touched target.key)
    (hnamed : r.event.targetDomain = some target) (hne : r.event.domain.key ≠ target.key)
    (hs : e.sessions[r.event.domain.key]? = some s)
    (hok : e.migrateRetained r direction target s = .ok (e', plan)) : e₀.Leaves r touched e' := by
  have hslot := h.slot hs
  simp only [Engine.migrateRetained, bind_eq_ok] at hok
  obtain ⟨_, -, hok⟩ := hok
  split at hok
  · cases hok
    exact h.remove hsource
  · simp only [bind_eq_ok] at hok
    obtain ⟨moved, hmoved, stay, hstay, hok⟩ := hok
    have hstay' : ∀ stay', stay = some stay' → e₀.Slot r r.event.domain.key stay' := by
      rintro stay' rfl
      unfold stayPart at hstay
      split at hstay
      · obtain ⟨stayed, hstayed, heq⟩ := map_eq_ok.mp hstay
        cases heq
        exact hslot.convergeOn carriedWhere_ids hstayed
      · cases hstay
    have hmoved' := hslot.convergeOn carriedWhere_ids hmoved
    split at hok
    · cases hok
    · rename_i there hrelocated
      have hthere := hmoved'.relocated (fun hr => hr.ids.target target hnamed) hrelocated
      simp only [bind_eq_ok] at hok
      obtain ⟨geometry, -, hok⟩ := hok
      have hstored := @Leaves.storeMigrated _ _ _ _ _ _ r.event.outerGap h there
        (stay.filter fun stay => !stay.committedIsEmpty) hsource htarget hne
        (mem_iff_lookup.mpr ⟨s, hs⟩) hthere
        fun stay' hfiltered => hstay' stay' (Option.filter_eq_some_iff.mp hfiltered).1
      split at hok
      · cases hok
        exact hstored
      · cases hok
        exact hstored

theorem Leaves.migrateWorkspaceRequest (h : e₀.Leaves r touched e) {direction : String}
    (hsource : touched r.event.domain.key)
    (htarget : ∀ target, r.event.targetDomain = some target → touched target.key) :
    e₀.Leaves r touched (e.migrateWorkspaceRequest r direction).1 := by
  unfold Engine.migrateWorkspaceRequest
  split
  · exact h
  · rename_i left plan hok
    simp only [Engine.migrateWorkspace, bind_eq_ok, okOr_eq_ok] at hok
    obtain ⟨parsed, -, target, hnamed, _, hchecked, hok⟩ := hok
    have hne : r.event.domain.key ≠ target.key := by
      intro heq
      simp only [checkMigration, bind_eq_ok, ensure_eq_ok, Bool.and_eq_true, bne_iff_ne] at hchecked
      obtain ⟨_, ⟨-, houtput⟩, -⟩ := hchecked
      exact houtput (congrArg DomainKey.output heq.symm)
    split at hok
    · rename_i s hs
      exact h.migrateRetained hsource (htarget target hnamed) hnamed hne hs hok
    · simp only [bind_eq_ok] at hok
      obtain ⟨_, -, hok⟩ := hok
      cases hok
      exact h

end

/-! ## Drags -/

section
variable {e₀ e : Engine} {r : Request} {s s' : Session} {keys : List DomainKey}

/-- The working session of a drag is settled, whether or not it is fresh. -/
theorem Leaves.dragWorking {touched : DomainKey → Prop} (h : e₀.Leaves r touched e) {fresh : Bool}
    (hok : e.dragWorking r.event = .ok (s, fresh)) : e₀.Ready r [r.event.domain.key] s := by
  simp only [Engine.dragWorking] at hok
  split at hok
  · simp only [bind_eq_ok, mapError_eq_ok] at hok
    obtain ⟨_, -, made, hnew, converged, hconverged, _, -, heq⟩ := hok
    cases heq
    unfold Engine.convergeOn at hconverged
    split at hconverged
    · cases hconverged
    · rename_i settled counts hok
      cases hconverged
      have hmade : e₀.Makes r [r.event.domain.key] made := .new rfl hnew
      exact hmade.converge (fun hr => sessionObservationFor_ids hr.ids.windows) hok
  · rename_i retained hs
    simp only [bind_eq_ok] at hok
    obtain ⟨_, -, _, -, _, -, heq⟩ := hok
    cases heq
    exact (h.slot hs).toReady

/-- A drop starts a drag on its working session and nothing else. -/
theorem beginDragOn_drop {fresh : Bool} {window : WindowId} {hoverPrior : Option DragHoverPrior}
    {observation : SessionObservation} (hs : e₀.Ready r keys s)
    (hok : beginDragOn s fresh false r.event window hoverPrior = .ok (s', observation)) :
    e₀.Makes r keys s' ∧ s'.Resting ∧ (r.Validated → observation.Opaque) := by
  simp only [beginDragOn, Bool.false_and, Bool.false_eq_true, if_false, bind_eq_ok] at hok
  obtain ⟨_, heq, _, -, hok⟩ := hok
  cases heq
  have hids : r.Validated →
      (r.event.sessionObservationFor s.acceptedRevision r.event.windows).Opaque :=
    fun hr => sessionObservationFor_ids hr.ids.windows
  generalize (if fresh then window else r.event.focusedWindow) = focused at hok
  have hsynced := hs.synced r.event.domain.key focused
  generalize (s.syncFocusFromWindow r.event.domain.key focused).1 = synced at hok hsynced
  split at hok
  · cases hok
  · rename_i begun answer hbegin
    have hmade := hsynced.made.next (.beginDrag window
      (r.event.sessionObservationFor s.acceptedRevision r.event.windows)) rfl fun _ => trivial
    have hfirst : synced.next (.beginDrag window
        (r.event.sessionObservationFor s.acceptedRevision r.event.windows)) = begun :=
      congrArg Prod.fst hbegin
    have hrests : begun.Resting := by
      rw [← hfirst]
      exact (Session.resting_of_settled hsynced.settled).withDrag Session.beginDrag_withDrag
    rw [hfirst] at hmade
    split at hok
    · cases hok
      exact ⟨hmade.next (.carryDragPrior _) rfl fun _ => trivial,
        hrests.withDrag Session.carryDragPrior_withDrag, hids⟩
    · cases hok
      exact ⟨hmade, hrests, hids⟩

theorem Leaves.dragDropRequest (h : e₀.Leaves r (Own r) e) {window : String} {x y : Int}
    {hoverPrior : Option DragHoverPrior} {source : Option DomainKey} :
    e₀.Leaves r (Own r) (e.dragDropRequest r window x y hoverPrior source).1 := by
  unfold Engine.dragDropRequest
  dsimp only
  split
  · exact h
  · rename_i working observation fresh hbegun
    simp only [bind_eq_ok] at hbegun
    obtain ⟨_, -, ⟨base, fresh'⟩, hworking, ⟨begun, observed⟩, hbegin, heq⟩ := hbegun
    cases heq
    obtain ⟨hmade, hrests, hids⟩ := beginDragOn_drop (h.dragWorking hworking) hbegin
    split
    · exact h
    · rename_i dropped plan hdrop
      obtain ⟨hdropped, hdrag⟩ := hmade.proposed (p := .dropDrag _ _ _ _ _) hids
        (bound_of_ok hdrop)
      split
      · rename_i committed hcommit
        exact h.storeCommitted rfl (hdropped.commit hdrag (v := .drag _) hcommit)
      · split
        · exact h
        · exact h.remove rfl
    · rename_i snapped reason hdrop
      obtain ⟨hsnapped, -⟩ := hmade.proposed (p := .dropDrag _ _ _ _ _) hids
        (bound_of_ok hdrop)
      have hsettled := Session.proposal_snapped hrests (p := .dropDrag _ _ _ _ _)
        (bound_of_ok hdrop)
      split
      · exact h
      · split
        · exact h.storeCommitted rfl ⟨hsnapped, hsettled⟩
        · exact h

end

/-! ## Dispatch -/

section
variable {e₀ e : Engine} {r : Request}

theorem Leaves.convergeFirst (h : e₀.Leaves r (Own r) e) (h₀ : e₀.Coherent)
    {command : Engine → Bool → Engine × EngineReply}
    (hcommand : ∀ e converged, e₀.Leaves r (Own r) e →
      e₀.Leaves r (e₀.Touches r) (command e converged).1) :
    e₀.Leaves r (e₀.Touches r) (e.convergeFirst r.event command).1 := by
  unfold Engine.convergeFirst
  split
  · exact hcommand e false h
  · rename_i s hs
    have hconverged := h.convergeForSingleDomain h₀ rfl hs
    split
    · rename_i heq
      rw [heq] at hconverged
      exact hconverged.own
    · rename_i heq
      rw [heq] at hconverged
      exact hcommand _ true hconverged

theorem Leaves.freshToggleFloat (h : e₀.Leaves r (Own r) e) {window : String}
    {floatRect : Option Rect} :
    e₀.Leaves r (e₀.Touches r) (e.freshToggleFloat r.event window floatRect).1 := by
  unfold Engine.freshToggleFloat
  dsimp only
  split
  · have hconverged := h.convergeFreshFloating
    split
    · rename_i heq
      rw [heq] at hconverged
      exact hconverged.own
    · rename_i heq
      rw [heq] at hconverged
      exact hconverged.runRetained floatRoute_regular strictOrder_ids
    · rename_i heq
      rw [heq] at hconverged
      exact hconverged.runRetained floatRoute_regular strictOrder_ids
  · exact h.runRetained floatRoute_regular strictOrder_ids

theorem Coherent.domainRequest (h₀ : e.Coherent) (command : DomainCommand) :
    e.Leaves r (e.Touches r) (e.domainRequest r command).1 := by
  have h : e.Leaves r (Own r) e := h₀.leaves
  cases command with
  | reconcile =>
    have hdropped : e.Leaves r (Own r)
        (if e.disjointReconcile r.event then e.remove r.event.domain.key else e) := by
      split
      · exact h.remove rfl
      · exact h
    exact hdropped.convergeFirst h₀ fun _ _ hleft => hleft.reconcileRequest
  | updateGaps => exact h.convergeFirst h₀ fun _ _ hleft => hleft.updateGapsRequest.own
  | activeGroup => exact h.activeGroupRequest.own
  | releaseDomain =>
    have hreleased : e.Leaves r (Own r) (e.remove r.event.domain.key) := h.remove rfl
    exact hreleased.own
  | toggleOrientation window =>
    exact h.convergeFirst h₀ fun _ _ hleft => hleft.toggleOrientationRequest
  | resize window direction mode pressIndex =>
    exact h.convergeFirst h₀ fun _ _ hleft => hleft.resizeRequest
  | pointerResize window direction boundary direction2 boundary2 =>
    exact h.convergeFirst h₀ fun _ _ hleft => hleft.pointerResizeRequest
  | migrateWorkspace direction =>
    exact h.own.migrateWorkspaceRequest .domain fun _ htarget => .named htarget
  | dragDrop window x y hoverPrior source =>
    exact h.convergeFirst h₀ fun _ _ hleft => hleft.dragDropRequest.own
  | dragPreview window x y hoverPrior source =>
    have hsame : (e.domainRequest r (.dragPreview window x y hoverPrior source)).1 = e := by
      simp only [Engine.domainRequest]
      split <;> rfl
    rw [hsame]
    exact h.own

theorem Coherent.handle (h₀ : e.Coherent) {answer : Engine × CoreReply}
    (hok : e.handle r.event = some answer) : e.Leaves r (e.Touches r) answer.1 := by
  have h : e.Leaves r (e.Touches r) e := h₀.leaves
  unfold Engine.handle at hok
  split at hok
  · obtain ⟨s, hs, rfl⟩ := Option.map_eq_some_iff.mp hok
    have hconverged := h.convergeForSingleDomain h₀ .domain hs
    split
    · rename_i heq
      rwa [heq] at hconverged
    · rename_i heq
      rw [heq] at hconverged
      exact hconverged.toggleFloatRequest .domain
  · unfold Engine.handlePair at hok
    split at hok
    · rename_i hdirectional
      cases hok
      exact h.directionalMoveRequest (.source hdirectional) (.target hdirectional)
        fun hr => hr.ids.directional _ _ hdirectional
    · rename_i hdirectional
      cases hok
      exact h.directionalFocusRequest (.source hdirectional) (.target hdirectional)
        fun hr => hr.ids.directional _ _ hdirectional
    · rename_i hcommand
      cases hok
      exact h.transferRequest .domain (fun _ htarget => .named htarget) (by rw [hcommand]; rfl)
    · rename_i hcommand
      cases hok
      exact h.transferRequest .domain (fun _ htarget => .named htarget) (by rw [hcommand]; rfl)
    · cases hok

/-- Every request leaves a coherent engine, and touches its own slots only. -/
theorem Coherent.request (h₀ : e.Coherent) : e.Leaves r (e.Touches r) (e.request r).1 := by
  have h : e.Leaves r (Own r) e := h₀.leaves
  unfold Engine.request
  split
  · exact h₀.domainRequest _
  · split
    · rename_i hok
      exact h₀.handle hok
    · unfold Engine.localRequest
      split
      · exact h.convergeFirst h₀ fun _ _ hleft => hleft.localMoveRequest
      · exact h.convergeFirst h₀ fun _ _ hleft => hleft.localFocusRequest
      · exact h.freshToggleFloat
      · exact h.own
      · exact h.own

end

/-! ## Runs -/

theorem new_coherent : Coherent new := by
  have hnone : ∀ (key : DomainKey) (s : Session), new.sessions[key]? ≠ some s := by
    intro key s hs
    simp [Engine.new] at hs
  exact ⟨fun key s hs => absurd hs (hnone key s), fun key s hs => absurd hs (hnone key s),
    fun key s hs => absurd hs (hnone key s), fun key s hs => absurd hs (hnone key s),
    fun key => by simp [Engine.new]⟩

section
variable {e e' : Engine} {f : Session → Session}

theorem map_sessions (hsessions : e'.sessions = e.sessions.map fun _ s => f s) {key : DomainKey}
    {s' : Session} (hs : e'.sessions[key]? = some s') :
    ∃ s, e.sessions[key]? = some s ∧ f s = s' := by
  rw [hsessions, Std.ExtTreeMap.getElem?_map] at hs
  exact Option.map_eq_some_iff.mp hs

/-- A setting that reaches every retained session. -/
theorem Coherent.set (h : e.Coherent) (hsessions : e'.sessions = e.sessions.map fun _ s => f s)
    (hgaps : e'.outerGaps = e.outerGaps) (hdomains : ∀ s, (f s).domainKeys = s.domainKeys)
    (hsettled : ∀ s, (f s).settledWorld = s.settledWorld)
    (hreconciler : ∀ s, (f s).reconciler = s.reconciler)
    (hadopted : ∀ s, e.Adopted s → e'.Adopted (f s)) : e'.Coherent where
  keys key s' hs := by
    obtain ⟨s, hbefore, rfl⟩ := map_sessions hsessions hs
    exact (hdomains s).trans (h.keys key s hbefore)
  settled key s' hs := by
    obtain ⟨s, hbefore, rfl⟩ := map_sessions hsessions hs
    exact (hsettled s).trans (h.settled key s hbefore)
  bounded key s' hs := by
    obtain ⟨s, hbefore, rfl⟩ := map_sessions hsessions hs
    exact (h.bounded key s hbefore).of_reconciler (hreconciler s)
  adopted key s' hs := by
    obtain ⟨s, hbefore, rfl⟩ := map_sessions hsessions hs
    exact hadopted s (h.adopted key s hbefore)
  gap key := by
    rw [hgaps, h.gap, hsessions, Std.ExtTreeMap.mem_map]

end

theorem Coherent.next {e : Engine} (h : e.Coherent) (op : EngineOp) : (e.next op).Coherent := by
  cases op with
  | request r => exact h.request.coherent h
  | setFixedSizeAdmission enabled =>
    exact h.set rfl rfl (fun _ => rfl) (fun _ => rfl) (fun _ => rfl)
      fun _ ha => ⟨rfl, ha.fixedPredicate, ha.maximizedFocusFence⟩
  | setMaximizedFocusFence enabled =>
    exact h.set rfl rfl (fun _ => rfl) (fun _ => rfl) (fun _ => rfl)
      fun _ ha => ⟨ha.fixedAdmission, ha.fixedPredicate, rfl⟩
  | setFixedSizePredicate predicate =>
    exact h.set rfl rfl (fun _ => rfl) (fun _ => rfl) (fun _ => rfl)
      fun _ ha => ⟨ha.fixedAdmission, rfl, ha.maximizedFocusFence⟩

theorem reachable_coherent {e : Engine} (h : machine.Reachable e) : e.Coherent := by
  have hinvariant : machine.Invariant Coherent := {
    initial e h := by
      rw [show e = new from h]
      exact new_coherent
    preserved _ op h := h.next op }
  exact hinvariant.reachable h

/-- Whatever a client asks of an engine: every retained session covers exactly
the domain it is kept for, nothing in it is open, and it is set like the
engine; an outer gap is recorded for the retained domains and no others. -/
theorem coherent_invariant : machine.Invariant Coherent where
  initial _ h := reachable_coherent (.initial h)
  preserved _ op h := h.next op

end Engine

namespace Sample

/-- One window is shown on an output. -/
def firstShown (output raw : String) : Request where
  event := {
    owner, generation
    correlation := correlationId
    fingerprint := 0
    domain := domain output output
    outerGap := 8
    focusedWindow := ⟨raw⟩
    windows := [⟨⟨raw⟩, ⟨output⟩, ⟨output⟩, ⟨0, 0, 100, 100⟩, false, false, false, false, false,
      false, {}⟩]
    directional := none
    directionalTargetOuterGap := none
    targetDomain := none
    targetWindows := []
    command := .toggleFloat raw none }
  revision := 0
  fitExcluded := ∅
  command := some .reconcile

theorem firstShown_validated : (firstShown "A" "u").Validated where
  ids := {
    domain := ⟨(by decide +kernel : isOpaqueId "A" = true),
      (by decide +kernel : isOpaqueId "A" = true)⟩
    windows := by
      intro entry hentry
      obtain rfl := List.mem_singleton.mp hentry
      exact (by decide +kernel : isOpaqueId "u" = true)
    directional := by
      intro source target h
      cases h
    target := by
      intro target h
      cases h
    targetWindows := by
      intro hsend
      cases hsend }
  domain := by decide +kernel

end Sample

namespace Engine

/-- A request leaves every slot alone, session and gap, that is not its own
domain's, not one of a domain it names, and not the one a relocation would
take over. -/
theorem request_touches {e : Engine} {r : Request} {key : DomainKey} (h : machine.Reachable e)
    (hkey : ¬e.Touches r key) :
    (e.request r).1.sessions[key]? = e.sessions[key]? ∧
      (e.request r).1.outerGaps[key]? = e.outerGaps[key]? :=
  (reachable_coherent h).request.frame key hkey

/-- A window on one output leaves the other output alone. -/
theorem request_touches_other :
    let e := (new.request (Sample.firstShown "A" "u")).1
    (⟨⟨"A"⟩, ⟨"A"⟩⟩ : DomainKey) ∈ e.sessions ∧
      (e.request (Sample.firstShown "B" "v")).1.sessions[(⟨⟨"A"⟩, ⟨"A"⟩⟩ : DomainKey)]? =
        e.sessions[(⟨⟨"A"⟩, ⟨"A"⟩⟩ : DomainKey)]? ∧
      (e.request (Sample.firstShown "B" "v")).1.outerGaps[(⟨⟨"A"⟩, ⟨"A"⟩⟩ : DomainKey)]? =
        e.outerGaps[(⟨⟨"A"⟩, ⟨"A"⟩⟩ : DomainKey)]? := by
  intro e
  have hreached : machine.Reachable e :=
    Machine.Reachable.next (.initial rfl) (EngineOp.request (Sample.firstShown "A" "u"))
  have hapart : ¬e.Touches (Sample.firstShown "B" "v") ⟨⟨"A"⟩, ⟨"A"⟩⟩ := by
    intro h
    generalize hkey : (⟨⟨"A"⟩, ⟨"A"⟩⟩ : DomainKey) = key at h
    cases h with
    | domain => exact absurd hkey (by decide +kernel)
    | source h | target h | named h => cases h
    | relocated h =>
      have hnone : e.findUniqueSourceForTarget (Sample.firstShown "B" "v").event.domain.key = none := by
        decide +kernel
      rw [hnone] at h
      cases h
  exact ⟨by decide +kernel, request_touches hreached hapart⟩

/-! ## Ids over a run -/

/-- Every retained session is over spelled ids. -/
def Lettered (e : Engine) : Prop :=
  ∀ (key : DomainKey) (s : Session), e.sessions[key]? = some s → s.Lettered

/-- Every id an engine holds is spelled: the key of every slot and of every
gap, and what stands in the session of the slot, whatever it stands there
for. -/
structure SpelledThroughout (e : Engine) : Prop where
  slot : ∀ key ∈ e.sessions, key.Opaque
  gap : ∀ key ∈ e.outerGaps, key.Opaque
  session : ∀ (key : DomainKey) (s : Session), e.sessions[key]? = some s → s.SpelledThroughout

/-- A slot has the key of its session's one domain. -/
theorem Lettered.spelledThroughout {e : Engine} (hcoherent : e.Coherent) (h : e.Lettered) :
    e.SpelledThroughout := by
  have hslot : ∀ key ∈ e.sessions, key.Opaque := by
    intro key hkey
    obtain ⟨s, hs⟩ := mem_iff_lookup.mp hkey
    have hmem : key ∈ s.domains.map OutputDomain.key := by
      have hkeys : s.domains.map OutputDomain.key = [key] := hcoherent.keys key s hs
      rw [hkeys]
      exact List.mem_singleton.mpr rfl
    obtain ⟨d, hd, rfl⟩ := List.mem_map.mp hmem
    exact (h d.key s hs).ids.domain d hd
  refine ⟨hslot, fun key hkey => ?_, fun key s hs => ?_⟩
  · exact hslot key ((hcoherent.gap key).mp hkey)
  · exact (h key s hs).spelledThroughout

end Engine

/-- A setting carries no ids. -/
def EngineOp.Validated : EngineOp → Prop
  | .request r => r.Validated
  | _ => True

namespace Engine

theorem Lettered.next {e : Engine} {op : EngineOp} (hcoherent : e.Coherent) (h : e.Lettered)
    (hop : op.Validated) : (e.next op).Lettered := by
  intro key s' hs
  cases op with
  | request r => exact (hcoherent.request.slot hs).made.lettered hop h
  | setFixedSizeAdmission enabled =>
    obtain ⟨s, hbefore, rfl⟩ := map_sessions rfl hs
    exact @Session.Lettered.next s (h key s hbefore) (.setFixedSizeAdmission enabled) trivial
  | setMaximizedFocusFence enabled =>
    obtain ⟨s, hbefore, rfl⟩ := map_sessions rfl hs
    exact @Session.Lettered.next s (h key s hbefore) (.setMaximizedFocusFence enabled) trivial
  | setFixedSizePredicate predicate =>
    obtain ⟨s, hbefore, rfl⟩ := map_sessions rfl hs
    exact @Session.Lettered.next s (h key s hbefore) (.setFixedSizePredicate predicate) trivial

/-- In every run of validated requests, whatever they ask and however they are
answered, every retained world is a valid one, and all its ids, those the
engine has minted among them, are spelled with the letters of an opaque id. -/
theorem lettered_run {e : Engine} (h : machine.Leads (fun _ op => op.Validated) new e) :
    e.Coherent ∧ e.Lettered ∧ e.SpelledThroughout := by
  have hnew : new.Lettered := by
    intro key s hs
    simp [Engine.new] at hs
  obtain ⟨hcoherent, hlettered⟩ :=
    h.preserved (I := fun e => e.Coherent ∧ e.Lettered) ⟨new_coherent, hnew⟩ fun e op hkept hop =>
      ⟨hkept.1.next op, hkept.2.next hkept.1 hop⟩
  exact ⟨hcoherent, hlettered, hlettered.spelledThroughout hcoherent⟩

/-- The engine that was shown one window. -/
theorem lettered_run_shown : (new.request (Sample.firstShown "A" "u")).1.Coherent ∧
    (new.request (Sample.firstShown "A" "u")).1.Lettered ∧
    (new.request (Sample.firstShown "A" "u")).1.SpelledThroughout := by
  have hnew : machine.Leads (fun _ op => op.Validated) new new := .refl
  have hvalidated : (EngineOp.request (Sample.firstShown "A" "u")).Validated :=
    Sample.firstShown_validated
  exact lettered_run (hnew.next hvalidated)

end Engine

end PlasmaTiler
