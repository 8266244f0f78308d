import PlasmaTiler.Workspace
import PlasmaTiler.Events

/-!
# Seeding a session

A domain whose session cannot be used is rebuilt from what is on screen: a
new session admits the observed windows one after the other, in an order the
caller has chosen, each by a plan that is proposed, acknowledged and verified
at once. Only tiled windows can be seeded in this way.

Each step is the ordinary admission, so nothing has to be proved about seeded
sessions beyond what holds of every call. What is special is the input: a
tile is presented plain and without hints, and the windows admitted so far
are presented again at each step, as an adapter would that sees them. A step
that fails ends the seed, and there is no session then.
-/

namespace PlasmaTiler

/-- A tile as it is presented to a seed: plain and without hints. -/
def seedObserved (window : WindowId) (output : OutputId) (workspace : WorkspaceId) :
    ObservedWindow :=
  ⟨window, output, workspace, false, false, false, false, false, false, {}⟩

/-- The number in at least four digits. -/
def seedCorrelation (index : Nat) : String :=
  "seed-" ++ "".pushn '0' (4 - (toString index).length) ++ toString index

/-- What a call answered, with the session after it; `none` when it failed. -/
def succeeded {ε α : Type} (call : Session × Except ε α) : Option (Session × α) :=
  call.2.toOption.map fun answer => (call.1, answer)

theorem toOption_eq_some {ε α : Type} {result : Except ε α} {answer : α} :
    result.toOption = some answer ↔ result = .ok answer := by
  cases result <;> simp [Except.toOption]

theorem succeeded_eq_some {ε α : Type} {call : Session × Except ε α} {s : Session} {answer : α} :
    succeeded call = some (s, answer) ↔ call = (s, .ok answer) := by
  obtain ⟨t, _ | a⟩ := call <;> simp [succeeded, Except.toOption]

namespace Session

/-- The exceptions as observed windows, in window order. -/
def exceptionObserved (s : Session) : List ObservedWindow :=
  (values s.exceptions).map fun record =>
    ⟨record.window, record.output, record.workspace, record.flags.floating,
      record.flags.fullscreen, record.flags.maximized, record.flags.sticky, false, false, {}⟩

/-- The whole of a session as it is presented to a seed. -/
def seedKnown (s : Session) : List ObservedWindow :=
  (values s.windows).map (fun l => seedObserved l.window l.output l.workspace) ++
    s.exceptionObserved

/-- Admit one window: propose, acknowledge, verify. -/
def seedAdmitStep (s : Session) (owner : OwnerId) (generation : GenerationId)
    (domain : OutputDomain) (admitted : ObservedWindow) (index preFingerprint postFingerprint : Nat) :
    Option Session := do
  let base := s.acceptedRevision
  let command : SessionCommand := .admitWindow {
    window := admitted.window
    output := admitted.output
    workspace := admitted.workspace
    exceptions := .none
    exceptionBehavior := none
    placementBounds := s.seedTargetBounds domain
    suppressFixedFloat := false }
  let correlationId ← Token.parse isCorrelationId (seedCorrelation index)
  let observation : SessionObservation :=
    ⟨⟨owner, generation, base, preFingerprint⟩, s.seedKnown ++ [admitted]⟩
  let (s, plan) ← succeeded (s.propose command observation correlationId .full)
  let (s, _) ← succeeded (s.acknowledge ⟨correlationId, owner, generation, base, .accepted⟩)
  let (s, _) ← succeeded (s.verifyLifecycle
    ⟨⟨owner, generation, base, postFingerprint⟩, correlationId, true, plan.dispatch.preconditions,
      plan.dispatch.operation⟩)
  return s

/-- Admit the windows in order; each verification carries the revision it
started from as its fingerprint. -/
def seedAll (owner : OwnerId) (generation : GenerationId) (fingerprint : Nat)
    (domain : OutputDomain) : List EngineWindow → Nat → Session → Option Session
  | [], _, s => some s
  | entry :: order, index, s => do
    let s ← s.seedAdmitStep owner generation domain
      (seedObserved entry.window entry.output entry.workspace) index fingerprint s.acceptedRevision
    seedAll owner generation fingerprint domain order (index + 1) s

end Session

/-- A session of the domain with the windows admitted in order. -/
def seedSession (owner : OwnerId) (generation : GenerationId) (fingerprint : Nat)
    (domain : OutputDomain) (seedOrder : List EngineWindow) : Option Session := do
  let s ← (Session.new owner generation 0 fingerprint [domain]).toOption
  Session.seedAll owner generation fingerprint domain seedOrder 0 s

end PlasmaTiler
