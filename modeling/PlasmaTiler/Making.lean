import PlasmaTiler.Accounting
import PlasmaTiler.EngineDispatch
import PlasmaTiler.PairIds
import PlasmaTiler.RoundTrip

/-!
# The sessions a request makes

Whatever route a request takes, it works on sessions it has retained and on
new ones, and makes others of them by the calls of a session, by moving a
domain to another output, by pairing and splitting, and by storing a work
area. There are some forty routes and half a dozen of these steps.

`Engine.Makes` is the closure: an inductive relation with a constructor for
each step, indexed by the domains the session then has. A property that all
of these steps preserve is proved by one induction over it, and then holds of
whatever any route makes: the domains (`Makes.domainKeys`), the range of
revisions (`Makes.bounded`), the identity (`Makes.identity`) and, for a
validated request, the spelling of ids (`Makes.lettered`).

The one thing that is not preserved step by step is being settled, so `Ready`
adds it where a session is stored. The end of the module derives `Ready` for
the skeleton the routes of one domain share (`Route.Regular.run`).
-/

namespace PlasmaTiler

/-! ## Validated requests -/

/-- The command sends a window to another domain. -/
def CoreCommand.isSend : CoreCommand → Bool
  | .sendToWorkspace .. | .sendToOutput .. => true
  | .move .. | .focus .. | .toggleFloat .. => false

/-- What an event carries is opaque; the windows of a target come with a send
only. -/
structure CoreEvent.Opaque (event : CoreEvent) : Prop where
  domain : event.domain.key.Opaque
  windows : ∀ entry ∈ event.windows, entry.window.Opaque
  directional : ∀ source target, event.directional = some (source, target) →
    source.key.Opaque ∧ target.key.Opaque
  target : ∀ target, event.targetDomain = some target → target.key.Opaque
  targetWindows : event.command.isSend = true →
    ∀ entry ∈ event.targetWindows, entry.window.Opaque

/-- A request as the protocol lets it through: its ids are opaque, its domain
is a valid one. -/
structure Request.Validated (r : Request) : Prop where
  ids : r.event.Opaque
  domain : r.event.domain.validate = true

theorem sessionObservationFor_ids {event : CoreEvent} {base : Nat} {windows : List EngineWindow}
    (h : ∀ entry ∈ windows, entry.window.Opaque) :
    (event.sessionObservationFor base windows).Opaque := by
  intro entry hentry
  obtain ⟨before, hbefore, rfl⟩ := List.mem_map.mp hentry
  exact h before hbefore

namespace Engine

/-- The sessions a request makes of what the engine retains, with the domains
each has. -/
inductive Makes (e : Engine) (r : Request) : List DomainKey → Session → Prop
  | retained {key : DomainKey} {s : Session} (h : e.sessions[key]? = some s) : Makes e r [key] s
  | new {domain : OutputDomain} {s : Session} (hdomain : domain.key = r.event.domain.key)
      (h : Session.new r.event.owner r.event.generation 0 r.event.fingerprint [domain] = .ok s) :
      Makes e r [domain.key] s
  | next {keys : List DomainKey} {s : Session} (h : Makes e r keys s) (op : SessionOp)
      (hstays : op.isRelocation = false) (hop : r.Validated → op.Opaque) :
      Makes e r keys (s.next op)
  | relocated {source target : DomainKey} {s s' : Session} (h : Makes e r [source] s)
      {bounds : Rect} {gap : Int} (htarget : r.Validated → target.Opaque)
      (hok : s.relocateDomain source target bounds gap = (s', true)) : Makes e r [target] s'
  | reprojected {keys : List DomainKey} {s : Session} (h : Makes e r keys s) {key : DomainKey} :
      Makes e r keys (s.reprojectDomain key r.event.domain.bounds)
  | paired {source pair : Session} {target? : Option Session}
      {sourceDomain targetDomain : OutputDomain} {requireAdjacency : Bool}
      (hs : Makes e r [sourceDomain.key] source)
      (ht : ∀ t, target? = some t → Makes e r [targetDomain.key] t)
      (hids : r.Validated → sourceDomain.key.Opaque ∧ targetDomain.key.Opaque)
      (h : Session.pairedFromCanonicalImpl source target? sourceDomain targetDomain
        requireAdjacency = .ok pair) : Makes e r [sourceDomain.key, targetDomain.key] pair
  | source {sourceKey targetKey : DomainKey} {pair source : Session} {target? : Option Session}
      (h : Makes e r [sourceKey, targetKey] pair)
      (hsplit : pair.splitCanonicalPair = .ok (source, target?)) : Makes e r [sourceKey] source
  | target {sourceKey targetKey : DomainKey} {pair source target : Session}
      (h : Makes e r [sourceKey, targetKey] pair)
      (hsplit : pair.splitCanonicalPair = .ok (source, some target)) :
      Makes e r [targetKey] target

section
variable {e : Engine} {r : Request} {keys : List DomainKey} {s : Session}

/-- A session has the domains it was made for. -/
theorem Makes.domainKeys (h₀ : ∀ (key : DomainKey) (s : Session), e.sessions[key]? = some s →
    s.domainKeys = [key]) (h : e.Makes r keys s) : s.domainKeys = keys := by
  induction h with
  | retained h => exact h₀ _ _ h
  | new _ h =>
    obtain ⟨-, -, -, -, -, hdomains⟩ := Session.new_ok h
    rw [Session.domainKeys, hdomains]
    rfl
  | next _ _ hstays _ ih => exact (Session.next_keys hstays).trans ih
  | relocated _ _ hok ih => exact Session.relocateDomain_keys ih hok
  | reprojected _ ih => exact Session.reprojectDomain_keys.trans ih
  | paired _ _ _ h _ _ =>
    rw [Session.domainKeys, (Session.pairedFromCanonicalImpl_assembled h).domains]
    rfl
  | source _ hsplit ih =>
    obtain ⟨sourceDomain, targetDomain, _, hdomains, -, hsource, -⟩ :=
      Session.splitCanonicalPair_ok hsplit
    rw [Session.domainKeys, hdomains] at ih
    rw [Session.domainKeys, hsource.domains]
    exact congrArg (List.take 1) ih
  | target _ hsplit ih =>
    obtain ⟨sourceDomain, targetDomain, target', hdomains, -, -, htarget, -, -, hsome⟩ :=
      Session.splitCanonicalPair_ok hsplit
    rw [Session.domainKeys, hdomains] at ih
    split at hsome
    · cases hsome
    · cases hsome
      rw [Session.domainKeys, htarget.domains]
      exact congrArg (List.drop 1) ih

/-- No session leaves the range of revisions. -/
theorem Makes.bounded (h₀ : ∀ (key : DomainKey) (s : Session), e.sessions[key]? = some s →
    s.Bounded) (h : e.Makes r keys s) : s.Bounded := by
  induction h with
  | retained h => exact h₀ _ _ h
  | new _ h => exact Session.new_bounded h
  | next _ _ _ _ ih => exact ih.next _
  | @relocated source target s s' _ bounds gap _ hok ih =>
    have hnext := ih.next (.relocateDomain source target bounds gap)
    have hfirst : s.next (.relocateDomain source target bounds gap) = s' := congrArg Prod.fst hok
    rwa [hfirst] at hnext
  | reprojected _ ih => exact ih.of_reconciler rfl
  | paired _ _ _ h _ _ =>
    have hsettled := (Session.pairedFromCanonicalImpl_assembled h).settled
    refine .of_idle (by simpa [isRevision] using Session.revision_of_paired h) ?_
    have hidle := (Session.settledWorld_iff.mp hsettled).2.1
    simpa [Session.hasPending] using hidle
  | source _ hsplit _ => exact (Session.splitCanonicalPair_settled hsplit).1.2
  | target _ hsplit _ => exact ((Session.splitCanonicalPair_settled hsplit).2 _ rfl).2

/-- What a request makes belongs to whom the retained sessions and the event
belong. -/
theorem Makes.identity {owner : OwnerId} {generation : GenerationId}
    (h₀ : ∀ (key : DomainKey) (s : Session), e.sessions[key]? = some s →
      s.owner = owner ∧ s.generation = generation)
    (hevent : r.event.owner = owner ∧ r.event.generation = generation) (h : e.Makes r keys s) :
    s.owner = owner ∧ s.generation = generation := by
  induction h with
  | retained h => exact h₀ _ _ h
  | new _ h =>
    obtain ⟨-, howner, hgeneration, -⟩ := Session.new_ok h
    exact ⟨howner.trans hevent.1, hgeneration.trans hevent.2⟩
  | next _ _ _ _ ih => exact Session.next_identity ih
  | @relocated source target s s' _ bounds gap _ hok ih =>
    have hnext := @Session.next_identity s (.relocateDomain source target bounds gap) _ _ ih
    have hfirst : s.next (.relocateDomain source target bounds gap) = s' := congrArg Prod.fst hok
    rwa [hfirst] at hnext
  | reprojected _ ih => exact ih
  | paired _ _ _ h ih _ =>
    obtain ⟨howner, hgeneration⟩ := Session.paired_identity h
    exact ⟨howner.trans ih.1, hgeneration.trans ih.2⟩
  | source _ hsplit ih =>
    obtain ⟨_, _, _, -, -, hsource, -⟩ := Session.splitCanonicalPair_ok hsplit
    rw [hsource.identity.1, hsource.identity.2]
    exact ih
  | target _ hsplit ih =>
    obtain ⟨_, _, _, -, -, -, htarget, -, -, hsome⟩ := Session.splitCanonicalPair_ok hsplit
    split at hsome
    · cases hsome
    · cases hsome
      rw [htarget.identity.1, htarget.identity.2]
      exact ih

/-- A validated request makes sessions over spelled ids only. -/
theorem Makes.lettered (hr : r.Validated) (h₀ : ∀ (key : DomainKey) (s : Session),
    e.sessions[key]? = some s → s.Lettered) (h : e.Makes r keys s) : s.Lettered := by
  induction h with
  | retained h => exact h₀ _ _ h
  | @new domain s hdomain h =>
    refine Session.new_lettered (fun d hd => ?_) h
    obtain rfl := List.mem_singleton.mp hd
    rw [hdomain]
    exact hr.ids.domain
  | next _ _ _ hop ih => exact ih.next (hop hr)
  | @relocated source target s s' _ bounds gap htarget hok ih =>
    have hop : (SessionOp.relocateDomain source target bounds gap).Opaque := htarget hr
    have hnext := ih.next hop
    have hfirst : s.next (.relocateDomain source target bounds gap) = s' := congrArg Prod.fst hok
    rwa [hfirst] at hnext
  | reprojected _ ih => exact Session.reprojectDomain_lettered ih hr.domain
  | paired _ _ hids h ihs iht =>
    exact Session.paired_lettered h ihs iht (hids hr).1 (hids hr).2
  | source _ hsplit ih => exact (Session.splitCanonicalPair_lettered hsplit ih).1
  | target _ hsplit ih => exact (Session.splitCanonicalPair_lettered hsplit ih).2 _ rfl

end

/-! ## One route -/

/-- A session to store: made by the request, and settled. Being settled is not
kept by every step of the making, so it is asked for at the end. -/
structure Ready (e : Engine) (r : Request) (keys : List DomainKey) (s : Session) : Prop where
  made : e.Makes r keys s
  settled : s.settledWorld = true

section
variable {e e' : Engine} {r : Request} {keys : List DomainKey} {s s' : Session}
  {observation : SessionObservation} {observedFocus : Option WindowId} {base : Nat}

theorem Makes.adopted (h : e.Makes r keys s) : e.Makes r keys (e'.adoptFixedAdmission s) := by
  have hadmission := h.next (.setFixedSizeAdmission e'.fixedSizeAdmission) rfl
    (fun _ => trivial)
  have hpredicate := hadmission.next (.setFixedSizePredicate e'.fixedSizePredicate) rfl
    (fun _ => trivial)
  exact hpredicate.next (.setMaximizedFocusFence e'.maximizedFocusFence) rfl
    (fun _ => trivial)

theorem Makes.synced (h : e.Makes r keys s) (domain : DomainKey) (window : WindowId) :
    e.Makes r keys (s.syncFocusFromWindow domain window).1 :=
  h.next (.syncFocusFromWindow domain window) rfl fun _ => trivial

theorem Makes.converged (h : e.Makes r keys s) (observedFocus : Option WindowId)
    (hids : r.Validated → observation.Opaque) :
    e.Makes r keys (s.convergeObservation observation observedFocus).1 :=
  h.next (.convergeObservation observation observedFocus) rfl hids

theorem Ready.synced (h : e.Ready r keys s) (domain : DomainKey) (window : WindowId) :
    e.Ready r keys (s.syncFocusFromWindow domain window).1 :=
  ⟨h.made.synced domain window, Session.syncFocusFromWindow_settled h.settled⟩

/-- A convergence that succeeds leaves a session to store. -/
theorem Makes.converge {counts : ObservationConvergence} (h : e.Makes r keys s)
    (hids : r.Validated → observation.Opaque)
    (hok : s.convergeObservation observation observedFocus = (s', .ok counts)) :
    e.Ready r keys s' := by
  have hmade := h.converged observedFocus hids
  have hanswer := @Session.convergeObservation_convergence s observation observedFocus
  rw [hok] at hmade hanswer
  refine ⟨hmade, ?_⟩
  cases hanswer with
  | refocused hsettled _ _ _ _ => exact hsettled
  | converged hsettled _ _ _ _ _ => exact hsettled

/-- An accepted proposal. -/
theorem Makes.proposed {p : Proposal} {binding : Option PlanBinding} (h : e.Makes r keys s)
    (hids : r.Validated → p.Opaque) (hok : s.proposal p = (s', .ok binding)) :
    e.Makes r keys s' ∧ s'.drag = none := by
  have hmade := h.next (.propose p) rfl hids
  have hfirst : s.next (.propose p) = s' := congrArg Prod.fst hok
  rw [hfirst] at hmade
  exact ⟨hmade, Session.proposal_undragged hok⟩

theorem Makes.acked {ack : AdapterAck} {applied : AckApplied} (h : e.Makes r keys s)
    (hdrag : s.drag = none) (hok : s.acknowledge ack = (s', .ok applied)) :
    e.Makes r keys s' ∧ s'.drag = none := by
  have hmade := h.next (.acknowledge ack) rfl fun _ => trivial
  have hfirst : s.next (.acknowledge ack) = s' := congrArg Prod.fst hok
  rw [hfirst] at hmade
  exact ⟨hmade, (Session.acknowledge_drag hok).trans hdrag⟩

/-- A verified session is settled. -/
theorem Makes.verified {v : Verification} {commit : Commit} (h : e.Makes r keys s)
    (hdrag : s.drag = none) (hok : s.verification v = (s', .ok commit)) : e.Ready r keys s' := by
  have hmade := h.next (.verify v) rfl fun _ => trivial
  have hfirst : s.next (.verify v) = s' := congrArg Prod.fst hok
  rw [hfirst] at hmade
  exact ⟨hmade, Session.verification_settled hdrag hok⟩

/-- A commit acknowledges and verifies. -/
theorem Makes.commit (h : e.Makes r keys s) (hdrag : s.drag = none) {v : Verification}
    (hok : commitWith s r.event base (fun s => s.verification v) = some s') :
    e.Ready r keys s' := by
  unfold commitWith at hok
  split at hok
  · cases hok
  · rename_i acked _ hack
    obtain ⟨hacked, hdrag'⟩ := h.acked hdrag hack
    split at hok
    · cases hok
    · rename_i verified _ hverify
      cases hok
      exact hacked.verified hdrag' hverify

/-- How the commands over one domain propose and commit. A proposal is an
ordinary one on the session, which may follow the observed focus first, and
accounts for the observed windows; a commit acknowledges and verifies it. -/
structure Route.Regular {R : Type} (route : Route R) (r : Request) : Prop where
  proposes : ∀ {s s' observation plan}, route.propose s observation = (s', .ok plan) →
    ∃ t p binding, (t = s ∨ ∃ domain window, t = (s.syncFocusFromWindow domain window).1) ∧
      (r.Validated → observation.Opaque → p.Opaque) ∧
      p.accounted = observedIds observation.windows ∧ t.proposal p = (s', .ok (some binding))
  commits : ∀ s plan base, ∃ v, route.commit s plan base =
    commitWith s r.event base fun s => s.verification v

/-- A route that succeeds on a session stores one of the same domains. -/
theorem Route.Regular.run {R : Type} {route : Route R} (hroute : route.Regular r)
    {reply : EngineReply} (h : e.Makes r keys s) (hok : route.run r.event s = .stored s' reply) :
    e.Ready r keys s' := by
  unfold Route.run at hok
  dsimp only at hok
  split at hok
  · cases hok
  · rename_i proposed plan hproposed
    split at hok
    · rename_i committed hcommit
      cases hok
      obtain ⟨t, p, binding, ht, hp, -, hproposal⟩ := hroute.proposes hproposed
      obtain ⟨v, hv⟩ := hroute.commits proposed plan s.acceptedRevision
      have hmade : e.Makes r keys t := by
        rcases ht with rfl | ⟨domain, window, rfl⟩
        · exact h
        · exact h.synced domain window
      obtain ⟨hproposed, hdrag⟩ := hmade.proposed
        (fun hr => hp hr (sessionObservationFor_ids hr.ids.windows)) hproposal
      exact hproposed.commit hdrag (hv ▸ hcommit)
    · cases hok

end

end Engine

end PlasmaTiler
