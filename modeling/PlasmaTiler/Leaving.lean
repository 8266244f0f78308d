import PlasmaTiler.Making

/-!
# What a request leaves

What the engine keeps from one request to the next: every slot holds a
settled session of its own domain, set like the engine and with a revision in
range, and carries an outer gap (`Coherent`). A request is answered after
many writes of slots, and any of the stages between them may end it.

`Engine.Leaves` is the invariant of that inside. It says of the engine in the
middle of a request what `Coherent` says at its end, and adds where it comes
from: each session was made by the request (`Makes`), and slots outside a set
`touched` are as they were. Being relative to the start it composes: a stage
is a lemma from `Leaves` to `Leaves`, with no reference to the stages before.

The first part are the few ways to write a slot (`insert`, `put`, `remove`,
and the stores of the engine over them). The second part are the requests
over a pair of domains, where a converged pair is stored before the command
is tried.
-/

namespace PlasmaTiler

namespace Engine

/-! ## What is kept -/

/-- The session is set like the engine. Settings reach all retained sessions
at once, and new ones adopt them when they are stored. -/
structure Adopted (e : Engine) (s : Session) : Prop where
  fixedAdmission : s.fixedAdmission = e.fixedSizeAdmission
  fixedPredicate : s.fixedPredicate = e.fixedSizePredicate
  maximizedFocusFence : s.maximizedFocusFence = e.maximizedFocusFence

/-- What the engine keeps between requests. The session of a slot covers
exactly the domain it is kept for, nothing in it is open, its revision is one
a message can carry, and it is set like the engine; and a gap is recorded for
exactly the slots there are. -/
structure Coherent (e : Engine) : Prop where
  keys : ∀ (key : DomainKey) (s : Session), e.sessions[key]? = some s → s.domainKeys = [key]
  settled : ∀ (key : DomainKey) (s : Session), e.sessions[key]? = some s → s.settledWorld = true
  bounded : ∀ (key : DomainKey) (s : Session), e.sessions[key]? = some s → s.Bounded
  adopted : ∀ (key : DomainKey) (s : Session), e.sessions[key]? = some s → e.Adopted s
  gap : ∀ key : DomainKey, key ∈ e.outerGaps ↔ key ∈ e.sessions

/-- A session to keep in a slot: made by the request over the slot's domain,
settled, and set like the engine. -/
structure Slot (e : Engine) (r : Request) (key : DomainKey) (s : Session) : Prop
    extends e.Ready r [key] s where
  adopted : e.Adopted s

/-- The engine a request leaves behind, when it has touched these slots only.
Every slot holds a session to keep, whether the request has stored it or only
left it there, and slots that are not touched are as they were. -/
structure Leaves (e₀ : Engine) (r : Request) (touched : DomainKey → Prop) (e : Engine) :
    Prop where
  slot : ∀ {key : DomainKey} {s : Session}, e.sessions[key]? = some s → e₀.Slot r key s
  gap : ∀ key : DomainKey, key ∈ e.outerGaps ↔ key ∈ e.sessions
  settings : e.fixedSizeAdmission = e₀.fixedSizeAdmission ∧
    e.fixedSizePredicate = e₀.fixedSizePredicate ∧ e.maximizedFocusFence = e₀.maximizedFocusFence
  frame : ∀ key : DomainKey, ¬touched key →
    e.sessions[key]? = e₀.sessions[key]? ∧ e.outerGaps[key]? = e₀.outerGaps[key]?

section
variable {e₀ e : Engine} {r : Request} {touched touched' : DomainKey → Prop} {key : DomainKey}
  {s : Session} {outerGap : Int}

theorem Coherent.leaves (h : e.Coherent) : e.Leaves r touched e where
  slot hs := ⟨⟨.retained hs, h.settled _ _ hs⟩, h.adopted _ _ hs⟩
  gap := h.gap
  settings := ⟨rfl, rfl, rfl⟩
  frame _ _ := ⟨rfl, rfl⟩

theorem Leaves.mono (h : e₀.Leaves r touched e) (hsub : ∀ key, touched key → touched' key) :
    e₀.Leaves r touched' e where
  slot := h.slot
  gap := h.gap
  settings := h.settings
  frame key hkey := h.frame key fun ht => hkey (hsub key ht)

/-- What a request leaves is kept like what it found. -/
theorem Leaves.coherent (h : e₀.Leaves r touched e) (h₀ : e₀.Coherent) : e.Coherent where
  keys _ _ hs := (h.slot hs).made.domainKeys h₀.keys
  settled _ _ hs := (h.slot hs).settled
  bounded _ _ hs := (h.slot hs).made.bounded h₀.bounded
  adopted _ _ hs := by
    obtain ⟨hadmission, hpredicate, hfence⟩ := (h.slot hs).adopted
    exact ⟨hadmission.trans h.settings.1.symm, hpredicate.trans h.settings.2.1.symm,
      hfence.trans h.settings.2.2.symm⟩
  gap := h.gap

/-! ## Slots -/

theorem mem_insert_iff {ν : Type} {m : BTreeMap DomainKey ν} {k : DomainKey} {v : ν} :
    k ∈ m.insert key v ↔ key = k ∨ k ∈ m := by
  rw [mem_iff_lookup, mem_iff_lookup, lookup_insert]
  split <;> simp [*]

theorem mem_erase_iff {ν : Type} {m : BTreeMap DomainKey ν} {k : DomainKey} :
    k ∈ m.erase key ↔ key ≠ k ∧ k ∈ m := by
  rw [mem_iff_lookup, mem_iff_lookup, lookup_erase]
  split <;> simp [*]

theorem Leaves.insert (h : e₀.Leaves r touched e) (hkey : touched key) (hs : e₀.Slot r key s) :
    e₀.Leaves r touched { e with
      sessions := e.sessions.insert key s
      outerGaps := e.outerGaps.insert key outerGap } where
  slot {k t} ht := by
    dsimp only at ht
    rw [lookup_insert] at ht
    split at ht
    · rename_i heq
      cases ht
      exact heq ▸ hs
    · exact h.slot ht
  gap k := by
    dsimp only
    rw [mem_insert_iff, mem_insert_iff, h.gap]
  settings := h.settings
  frame k hk := by
    have hne : key ≠ k := fun heq => hk (heq ▸ hkey)
    dsimp only
    rw [lookup_insert, lookup_insert, if_neg hne, if_neg hne]
    exact h.frame k hk

/-- A slot that is there already keeps its gap. -/
theorem Leaves.put (h : e₀.Leaves r touched e) (hkey : touched key) (hmem : key ∈ e.sessions)
    (hs : e₀.Slot r key s) : e₀.Leaves r touched (e.putSession key s) where
  slot {k t} ht := by
    rw [putSession] at ht
    dsimp only at ht
    rw [lookup_insert] at ht
    split at ht
    · rename_i heq
      cases ht
      exact heq ▸ hs
    · exact h.slot ht
  gap k := by
    rw [putSession]
    dsimp only
    rw [mem_insert_iff, h.gap]
    constructor
    · exact .inr
    · rintro (rfl | hk)
      · exact hmem
      · exact hk
  settings := h.settings
  frame k hk := by
    have hne : key ≠ k := fun heq => hk (heq ▸ hkey)
    rw [putSession]
    dsimp only
    rw [lookup_insert, if_neg hne]
    exact h.frame k hk

theorem Leaves.remove (h : e₀.Leaves r touched e) (hkey : touched key) :
    e₀.Leaves r touched (e.remove key) where
  slot {k t} ht := by
    rw [Engine.remove] at ht
    dsimp only at ht
    rw [lookup_erase] at ht
    split at ht
    · cases ht
    · exact h.slot ht
  gap k := by
    rw [Engine.remove]
    dsimp only
    rw [mem_erase_iff, mem_erase_iff, h.gap]
  settings := h.settings
  frame k hk := by
    have hne : key ≠ k := fun heq => hk (heq ▸ hkey)
    rw [Engine.remove]
    dsimp only
    rw [lookup_erase, lookup_erase, if_neg hne, if_neg hne]
    exact h.frame k hk

/-- The engine's settings are adopted by what it stores. -/
theorem Leaves.adopts (h : e₀.Leaves r touched e) (hs : e₀.Ready r [key] s) :
    e₀.Slot r key (e.adoptFixedAdmission s) where
  made := hs.made.adopted
  settled := hs.settled
  adopted := ⟨h.settings.1, h.settings.2.1, h.settings.2.2⟩

theorem Leaves.storeCommitted (h : e₀.Leaves r touched e) (hkey : touched key)
    (hs : e₀.Ready r [key] s) : e₀.Leaves r touched (e.storeCommitted key s outerGap) := by
  unfold Engine.storeCommitted
  split
  · exact h.remove hkey
  · exact h.insert hkey (h.adopts hs)

theorem Leaves.storeTarget (h : e₀.Leaves r touched e) (hkey : touched key)
    {target? : Option Session} (hs : ∀ t, target? = some t → e₀.Ready r [key] t) :
    e₀.Leaves r touched (e.storeTarget key target? outerGap) := by
  cases target? with
  | none => exact h.remove hkey
  | some t => exact h.storeCommitted hkey (hs t rfl)

theorem Adopted.stamped {s' : Session} (hs : e₀.Adopted s) (h : s'.stamp = s.stamp) :
    e₀.Adopted s' := by
  simp only [Session.stamp, Prod.mk.injEq] at h
  obtain ⟨-, -, hadmission, hfence, hpredicate⟩ := h
  exact ⟨hadmission.trans hs.1, hpredicate.trans hs.2, hfence.trans hs.3⟩

end

/-! ## Pairs -/

section
variable {e₀ e : Engine} {r : Request} {touched : DomainKey → Prop} {s pair : Session}
  {source target : OutputDomain} {sourceKey targetKey : DomainKey} {outerGap : Int}

theorem Leaves.component (h : e₀.Leaves r touched e) (hs : e.component source = some s) :
    e₀.Ready r [source.key] s :=
  (h.slot (Option.filter_eq_some_iff.mp hs).1).toReady

theorem Leaves.targetComponent (h : e₀.Leaves r touched e) {target? : Option Session}
    (ht : e.targetComponent target = .ok target?) :
    ∀ t, target? = some t → e₀.Makes r [target.key] t := by
  rintro t rfl
  unfold Engine.targetComponent at ht
  split at ht
  · cases ht
  · obtain ⟨s, hs, heq⟩ := map_eq_ok.mp ht
    cases heq
    exact (h.component (okOr_eq_ok.mp hs)).made

/-- A pair of made sessions. -/
theorem Makes.couple {source target : OutputDomain} {target? : Option Session}
    {requireAdjacency : Bool} (hs : e.Makes r [source.key] s)
    (ht : ∀ t, target? = some t → e.Makes r [target.key] t)
    (hids : r.Validated → source.key.Opaque ∧ target.key.Opaque)
    (hpair : Session.pairedFromCanonicalImpl s target? source target requireAdjacency = .ok pair) :
    e.Ready r [source.key, target.key] pair :=
  ⟨.paired hs ht hids hpair, (Session.pairedFromCanonicalImpl_assembled hpair).settled⟩

theorem Leaves.assembleDirectionalPair (h : e₀.Leaves r touched e)
    (hids : r.Validated → source.key.Opaque ∧ target.key.Opaque)
    (hpair : e.assembleDirectionalPair source target = .ok pair) :
    e₀.Ready r [source.key, target.key] pair := by
  simp only [Engine.assembleDirectionalPair, bind_eq_ok, mapError_eq_ok] at hpair
  obtain ⟨s, hs, target?, ht, hpair⟩ := hpair
  exact (h.component (okOr_eq_ok.mp hs)).made.couple (h.targetComponent ht) hids hpair

theorem Leaves.assembleSendPair (h : e₀.Leaves r touched e)
    (hids : r.Validated → r.event.domain.key.Opaque ∧ target.key.Opaque)
    (hpair : e.assembleSendPair r.event target = .ok pair) :
    e₀.Ready r [r.event.domain.key, target.key] pair := by
  simp only [Engine.assembleSendPair, bind_eq_ok] at hpair
  obtain ⟨s, hs, hpair⟩ := hpair
  have hmade := (h.component (okOr_eq_ok.mp hs)).made
  split at hpair
  · simp only [bind_eq_ok, mapError_eq_ok] at hpair
    obtain ⟨target?, ht, hpair⟩ := hpair
    cases ht
    exact hmade.couple (fun _ heq => by cases heq) hids hpair
  · simp only [bind_eq_ok, mapError_eq_ok] at hpair
    obtain ⟨target?, ht, hpair⟩ := hpair
    exact hmade.couple (h.targetComponent ht) hids hpair

/-- Both halves of a made pair can be stored. -/
theorem Makes.halves (h : e₀.Makes r [sourceKey, targetKey] pair) {source : Session}
    {target? : Option Session} (hsplit : pair.splitCanonicalPair = .ok (source, target?)) :
    e₀.Ready r [sourceKey] source ∧ ∀ t, target? = some t → e₀.Ready r [targetKey] t := by
  obtain ⟨⟨hsettled, -⟩, hsettled'⟩ := Session.splitCanonicalPair_settled hsplit
  refine ⟨⟨h.source hsplit, hsettled⟩, fun t ht => ⟨?_, (hsettled' t ht).1⟩⟩
  rw [ht] at hsplit
  exact h.target hsplit

theorem Leaves.storeCanonicalPair (h : e₀.Leaves r touched e)
    (hpair : e₀.Makes r [sourceKey, targetKey] pair) (hsource : touched sourceKey)
    (htarget : touched targetKey) :
    e₀.Leaves r touched (e.storeCanonicalPair sourceKey targetKey pair outerGap).1 := by
  unfold Engine.storeCanonicalPair
  split
  · exact h
  · rename_i half other hsplit
    obtain ⟨hhalf, hother⟩ := hpair.halves hsplit
    exact (h.storeCommitted hsource hhalf).storeTarget htarget hother

theorem Leaves.storeAndReply (h : e₀.Leaves r touched e) {committed : Option Session}
    {reply : CoreReply} (hsource : touched source.key) (htarget : touched target.key)
    (hcommitted : ∀ pair, committed = some pair →
      e₀.Makes r [source.key, target.key] pair) :
    e₀.Leaves r touched (e.storeAndReply r.event source target committed reply).1 := by
  unfold Engine.storeAndReply
  split
  · exact h
  · rename_i pair
    have hstored := @Leaves.storeCanonicalPair _ _ _ _ _ _ _ r.event.outerGap h
      (hcommitted pair rfl) hsource htarget
    split
    · rename_i heq
      rwa [heq] at hstored
    · rename_i heq
      rwa [heq] at hstored

/-- A pair is stored as soon as it is converged. -/
theorem Leaves.convergePair (h : e₀.Leaves r touched e)
    (hpair : e₀.Makes r [source.key, target.key] pair) (hsource : touched source.key)
    (htarget : touched target.key) {windows : List EngineWindow}
    (hwindows : r.Validated → ∀ entry ∈ windows, entry.window.Opaque) :
    e₀.Leaves r touched (e.convergePair r.event windows source target pair).1 ∧
      ∀ pair' observation, (e.convergePair r.event windows source target pair).2 =
        .ok (pair', observation) →
          e₀.Ready r [source.key, target.key] pair' ∧ (r.Validated → observation.Opaque) := by
  have hids : ∀ base, r.Validated → (r.event.sessionObservationFor base windows).Opaque :=
    fun _ hr => sessionObservationFor_ids (hwindows hr)
  unfold Engine.convergePair
  dsimp only
  split
  · exact ⟨h, fun _ _ heq => by cases heq⟩
  · rename_i converged counts hconverged
    have hready := hpair.converge (hids pair.acceptedRevision) hconverged
    have hstored := @Leaves.storeCanonicalPair _ _ _ _ _ _ _ r.event.outerGap h hready.made
      hsource htarget
    split
    · rename_i hstore
      rw [hstore] at hstored
      exact ⟨hstored, fun _ _ heq => by cases heq⟩
    · rename_i hstore
      rw [hstore] at hstored
      refine ⟨hstored, fun pair' observation hok => ?_⟩
      cases hok
      exact ⟨hready, hids _⟩

/-! ## Directional moves and focus -/

theorem bound_of_ok {P : Type} {call : Session × Except ProposeError P} {s' : Session} {plan : P}
    {binding : P → Option PlanBinding} (h : call = (s', .ok plan)) :
    Session.bound call binding = (s', .ok (binding plan)) := by
  rw [h]
  rfl

theorem Leaves.commitMove (h : e₀.Leaves r touched e) {plan : SessionMovePlan} {base : Nat}
    {direction : Direction} (hpair : e₀.Makes r [source.key, target.key] pair)
    (hdrag : pair.drag = none) (hsource : touched source.key) (htarget : touched target.key) :
    e₀.Leaves r touched (e.commitMove r.event source target direction pair plan base).1 := by
  have hcommitted : ∀ committed, commitDirectionalMove pair r.event plan base = some committed →
      e₀.Makes r [source.key, target.key] committed := by
    intro committed hcommit
    exact (hpair.commit hdrag (v := .move _) hcommit).made
  unfold Engine.commitMove
  dsimp only
  split
  · split
    · exact h
    · exact h
    · rename_i typed committed _ heq
      split
      · exact h
      · rename_i half other hsplit
        obtain ⟨hhalf, hother⟩ := (hcommitted committed heq).halves hsplit
        exact (h.storeCommitted hsource hhalf).storeTarget htarget hother
  · exact h.storeAndReply hsource htarget hcommitted

theorem Leaves.directionalMoveRequest (h : e₀.Leaves r touched e) {window direction : String}
    {crossOutputTransfer : Bool} {sameAxisMove : SameAxisMove} (hsource : touched source.key)
    (htarget : touched target.key)
    (hids : r.Validated → source.key.Opaque ∧ target.key.Opaque) :
    e₀.Leaves r touched (e.directionalMoveRequest r.event source target window direction
      crossOutputTransfer sameAxisMove).1 := by
  unfold Engine.directionalMoveRequest
  split
  · exact h
  · split
    · exact h
    · split
      · exact h
      · rename_i pair hassembled
        have hpair := h.assembleDirectionalPair hids hassembled
        obtain ⟨hstored, hready⟩ := h.convergePair hpair.made hsource htarget
          fun hr => hr.ids.windows
        split
        · rename_i heq
          rwa [heq] at hstored
        · rename_i converged observation heq
          rw [heq] at hstored hready
          obtain ⟨hconverged, hobservation⟩ := hready _ _ rfl
          dsimp only
          split
          · exact hstored
          · rename_i proposed plan hproposed
            obtain ⟨hmade, hdrag⟩ := (hconverged.made.synced _ _).proposed
              (p := .move _ _ _ _ _ _ _) hobservation (bound_of_ok hproposed)
            exact hstored.commitMove hmade hdrag hsource htarget

/-- Every focus proposal on a pair is one of three, and what any of them
leaves is made by a call of the session machine. -/
theorem proposeFocusOnPair_made {window : WindowId} {direction : Direction} {floatSubject : Bool}
    {observation : SessionObservation} {keys : List DomainKey} {s' : Session}
    {answer : SessionFocusPlan × Bool} (hpair : e₀.Makes r keys pair)
    (hids : r.Validated → observation.Opaque)
    (hok : proposeFocusOnPair pair r.event source window direction floatSubject observation =
      (s', .ok answer)) : e₀.Makes r keys s' ∧ s'.drag = none := by
  have hcrossed : ∀ {call : Session × Except ProposeError SessionFocusPlan},
      (call.1, call.2.map fun plan => (plan, true)) = (s', .ok answer) →
        ∃ plan, call = (s', .ok plan) := by
    rintro ⟨t, result⟩ heq
    obtain ⟨rfl, hresult⟩ := Prod.mk.inj heq
    obtain ⟨plan, rfl, -⟩ := map_eq_ok.mp hresult
    exact ⟨plan, rfl⟩
  unfold proposeFocusOnPair at hok
  dsimp only at hok
  split at hok
  · split at hok
    · cases hok
    · obtain ⟨plan, hplan⟩ := hcrossed hok
      exact hpair.proposed (p := .floatCrossOutputFocus _ _ _ _ _ _) hids (bound_of_ok hplan)
  · split at hok
    · rename_i focused plan hplan
      cases hok
      exact hpair.proposed (p := .focus _ _ _ _ _ _) hids (bound_of_ok hplan)
    · rename_i refused error hrefused
      split at hok
      · obtain ⟨plan, hplan⟩ := hcrossed hok
        have hmade := hpair.next (.propose (.focus source.key window direction observation
          r.event.correlation fullFocus)) rfl hids
        have hfirst : pair.next (.propose (.focus source.key window direction observation
            r.event.correlation fullFocus)) = refused := congrArg Prod.fst hrefused
        rw [hfirst] at hmade
        exact hmade.proposed (p := .crossOutputFocus _ _ _ _ _ _) hids (bound_of_ok hplan)
      · cases hok

theorem Leaves.directionalFocusRequest (h : e₀.Leaves r touched e) {window direction : String}
    {floatSubject : Bool} (hsource : touched source.key) (htarget : touched target.key)
    (hids : r.Validated → source.key.Opaque ∧ target.key.Opaque) :
    e₀.Leaves r touched (e.directionalFocusRequest r.event source target window direction
      floatSubject).1 := by
  unfold Engine.directionalFocusRequest
  split
  · exact h
  · split
    · exact h
    · split
      · exact h
      · rename_i pair hassembled
        have hpair := h.assembleDirectionalPair hids hassembled
        obtain ⟨hstored, hready⟩ := h.convergePair hpair.made hsource htarget
          fun hr => hr.ids.windows
        split
        · rename_i heq
          rwa [heq] at hstored
        · rename_i converged observation heq
          rw [heq] at hstored hready
          obtain ⟨hconverged, hobservation⟩ := hready _ _ rfl
          dsimp only
          split
          · exact hstored
          · rename_i proposed plan crossed hproposed
            obtain ⟨hmade, hdrag⟩ :=
              proposeFocusOnPair_made (hconverged.made.synced _ _) hobservation hproposed
            exact hstored.storeAndReply hsource htarget fun committed hcommit =>
              (hmade.commit hdrag (v := .focus _) hcommit).made

/-! ## Sends -/

theorem Leaves.seedSource (h : e₀.Leaves r touched e) (hkey : touched r.event.domain.key) :
    e₀.Leaves r touched (e.seedSource r.event).1 := by
  unfold Engine.seedSource
  split
  · exact h
  · split
    · exact h
    · rename_i seeded hnew
      have hmade : e₀.Makes r [r.event.domain.key] seeded :=
        @Makes.new e₀ r r.event.domain.canonicalComponent seeded rfl hnew
      split
      · rename_i converged counts hconverged
        exact h.storeCommitted hkey (hmade.converge
          (fun hr => sessionObservationFor_ids hr.ids.windows) hconverged)
      · exact h
      · exact h

theorem Leaves.sendOnPair (h : e₀.Leaves r touched e) {observation : SessionObservation}
    {window : String} {follow outputSend : Bool}
    (hpair : e₀.Makes r [r.event.domain.key, target.key] pair)
    (hobservation : r.Validated → observation.Opaque) (hsource : touched r.event.domain.key)
    (htarget : touched target.key) :
    e₀.Leaves r touched (e.sendOnPair r.event target pair observation window follow
      outputSend).1 := by
  have hsynced := hpair.synced r.event.domain.key r.event.focusedWindow
  unfold Engine.sendOnPair
  split
  · exact h
  · rename_i synced heq
    rw [heq] at hsynced
    dsimp only at hsynced ⊢
    split
    · exact h
    · rename_i proposed plan hproposed
      split
      · exact h
      · refine h.storeAndReply hsource htarget fun committed hcommit => ?_
        have hmoved := hsynced.proposed (p := .command _ _ _ _) (fun hr => ?_)
          (bound_of_ok hproposed)
        · exact (hmoved.1.commit hmoved.2 (v := .lifecycle _) hcommit).made
        · split
          · exact hobservation hr
          · exact hobservation hr

theorem Leaves.transferRequest (h : e₀.Leaves r touched e)
    {window targetOutput targetWorkspace : String} {follow outputSend : Bool}
    (hsource : touched r.event.domain.key)
    (htouched : ∀ target, r.event.targetDomain = some target → touched target.key)
    (hsend : r.event.command.isSend = true) :
    e₀.Leaves r touched (e.transferRequest r.event window targetOutput targetWorkspace follow
      outputSend).1 := by
  unfold Engine.transferRequest
  split
  · exact h
  · rename_i target htarget
    split
    · exact h
    · split
      · exact h
      · split
        · exact h
        · have hseeded := h.seedSource hsource
          split
          · rename_i heq
            rwa [heq] at hseeded
          · rename_i seeded heq
            rw [heq] at hseeded
            split
            · exact hseeded
            · rename_i pair hassembled
              have hpair := hseeded.assembleSendPair
                (fun hr => ⟨hr.ids.domain, hr.ids.target target htarget⟩) hassembled
              obtain ⟨hstored, hready⟩ := hseeded.convergePair hpair.made hsource
                (htouched target htarget)
                fun hr entry hentry => (List.mem_append.mp hentry).elim (hr.ids.windows entry)
                  (hr.ids.targetWindows hsend entry)
              split
              · rename_i heq
                rwa [heq] at hstored
              · rename_i converged observation heq
                rw [heq] at hstored hready
                obtain ⟨hconverged, hobservation⟩ := hready _ _ rfl
                exact hstored.sendOnPair hconverged.made hobservation hsource
                  (htouched target htarget)

/-! ## The domain of the request -/

/-- A retained domain is converged in its slot; the observation is bound to the
session itself, so a refusal leaves it settled too. -/
theorem Leaves.convergeForSingleDomain (h : e₀.Leaves r touched e) (h₀ : e₀.Coherent)
    (hkey : touched r.event.domain.key) (hs : e.sessions[r.event.domain.key]? = some s) :
    e₀.Leaves r touched (e.convergeForSingleDomain r.event s).1 := by
  unfold Engine.convergeForSingleDomain
  split
  · exact h
  · rename_i howner
    split
    · exact h
    · rename_i hgeneration
      have hslot := h.slot hs
      have hids : r.Validated →
          (r.event.sessionObservationFor s.acceptedRevision r.event.windows).Opaque :=
        fun hr => sessionObservationFor_ids hr.ids.windows
      have hmade := hslot.made.converged r.event.focus hids
      have hfault : s.convergenceFault
          (r.event.sessionObservationFor s.acceptedRevision r.event.windows).observation = none :=
        Session.convergenceFault_own (not_not.mp howner).symm (not_not.mp hgeneration).symm rfl
          (hslot.made.bounded h₀.bounded).revision
      have hsettled := @Session.convergeObservation_settled s _ r.event.focus hslot.settled hfault
      have hstamp := (@Session.convergeObservation_sameStamp s
        (r.event.sessionObservationFor s.acceptedRevision r.event.windows) r.event.focus).stamp
      have hput := h.put hkey (mem_iff_lookup.mpr ⟨s, hs⟩)
        ⟨⟨hmade, hsettled⟩, hslot.adopted.stamped hstamp⟩
      dsimp only
      split
      · exact hput
      · exact hput

theorem Leaves.toggleFloatRequest (h : e₀.Leaves r touched e) {window : String}
    {floatRect : Option Rect} (hkey : touched r.event.domain.key) :
    e₀.Leaves r touched (e.toggleFloatRequest r.event window floatRect).1 := by
  unfold Engine.toggleFloatRequest
  dsimp only
  split
  · exact h
  · rename_i s hcandidate
    have hmade := (h.slot (Option.filter_eq_some_iff.mp hcandidate).1).made
    split
    · exact h
    · rename_i proposed plan hproposed
      obtain ⟨hstaged, hdrag⟩ := hmade.proposed (p := .command (.toggleFloat _ _) _ _ _)
        (fun hr => sessionObservationFor_ids hr.ids.windows) (bound_of_ok hproposed)
      split
      · rename_i committed hcommit
        exact h.storeCommitted hkey (hstaged.commit hdrag (v := .lifecycle _) hcommit)
      · exact h.remove hkey

end

end Engine

end PlasmaTiler
