import Mathlib.Data.List.Induction
import PlasmaTiler.Divergence
import PlasmaTiler.Traces

/-!
# One plan at a time

The reconciler as a machine that emits an event for every plan it opens,
acknowledges, commits or cancels, and for the divergence that ends it. The
automaton `Phase.step` is the transaction protocol, stated with no reference
to the code: it takes an acknowledgement, a commit or a cancellation only of
the plan that is open, and after a divergence it takes nothing.

Every run of the reconciler follows it, whatever messages arrive and in
whatever order (`emitter_simulates`, by one case analysis of a call, and
`Simulates.accepts`). The counting facts come from a second invariant, since
the automaton does not look at revisions: a pending plan is based on the
verified revision (`Based`), and the verified revision counts the commits. So
a plan that left the slot is never acknowledged or committed again, because
what comes after a commit is based on a later revision.

Which post-observation commits is answered exactly: `faultOf` finds no fault
just in those that match the acknowledged pending plan in binding, family,
preconditions and operation (`Matches`). Geometry is not among these. One
post-observation commits the same admission in two sessions that asked for
different rectangles, which is `Session.geometry_not_matched`.

`transaction_orderly` is the result over runs, together with the slot of the
session, which is filled and emptied in step with the reconciler's.
-/

namespace PlasmaTiler

/-- What happens to a plan. -/
inductive PlanEvent
  | opened (plan : PlanBinding)
  | acked (plan : PlanBinding)
  | committed (plan : PlanBinding)
  | cancelled (plan : PlanBinding)
  | diverged (reason : DivergenceKind)
deriving DecidableEq

namespace PlanEvent

def isCommit : PlanEvent → Bool
  | committed _ => true
  | _ => false

/-- The plan leaves the slot. -/
def closes : PlanEvent → Bool
  | committed _ | cancelled _ => true
  | _ => false

/-- The plan in the slot that is acknowledged, committed or cancelled. -/
def touched : PlanEvent → Option PlanBinding
  | acked plan | committed plan | cancelled plan => some plan
  | _ => none

end PlanEvent

/-- Where the transaction stands. -/
inductive Phase
  | idle
  | pending (plan : PlanBinding) (acked : Bool)
  | halted
deriving DecidableEq

namespace Phase

/-- The protocol: which event may occur in which phase. -/
def step : Phase → PlanEvent → Option Phase
  | halted, _ => none
  | _, .diverged _ => some halted
  | idle, .opened plan => some (pending plan false)
  | pending plan false, .acked plan' => if plan = plan' then some (pending plan true) else none
  | pending plan true, .committed plan' => if plan = plan' then some idle else none
  | pending plan false, .cancelled plan' => if plan = plan' then some idle else none
  | _, _ => none

end Phase

/-! ## The calls of a reconciler -/

/-- The calls of the transaction, across the plan families. -/
inductive ReconcilerCall
  | propose (plan : MovePlan) (observation : Observation) (correlationId : CorrelationId)
      (capabilities : Capabilities)
  | proposeLifecycle (plan : LifecyclePlan) (observation : Observation)
      (correlationId : CorrelationId) (capabilities : LifecycleCapabilities)
  | proposeFocus (plan : FocusPlanContract) (observation : Observation)
      (correlationId : CorrelationId) (capabilities : FocusCapabilities)
  | proposeResize (plan : ResizePlan) (observation : Observation)
      (correlationId : CorrelationId) (capabilities : ResizeCapabilities)
  | proposePointerResize (plan : ResizePlan) (observation : Observation)
      (correlationId : CorrelationId) (capabilities : ResizeCapabilities)
  | proposePointerResizeCorner (primary secondary : ResizePlan) (observation : Observation)
      (correlationId : CorrelationId) (capabilities : ResizeCapabilities)
  | proposeDrag (plan : DragPlan) (observation : Observation) (correlationId : CorrelationId)
      (capabilities : DragCapabilities)
  | acknowledge (ack : AdapterAck)
  | verify (v : Verification)
  | cancelUnacked (correlationId : CorrelationId) (baseRevision : Nat)

namespace Verification

def observation : Verification → Observation
  | lifecycle post | move post | focus post | drag post => post.observation
  | resize post => post.observation

def correlationId : Verification → CorrelationId
  | lifecycle post | move post | focus post | drag post => post.correlationId
  | resize post => post.correlationId

def verified : Verification → Bool
  | lifecycle post | move post | focus post | drag post => post.verified
  | resize post => post.verified

/-- How the post-observation names its plan. -/
def binding (v : Verification) : PlanBinding := ⟨v.correlationId, v.observation.revision⟩

end Verification

/-- How a pending plan is named. -/
def Pending.binding (pending : Pending) : PlanBinding :=
  ⟨pending.correlationId, pending.baseRevision⟩

/-- How many preconditions a plan was dispatched with. -/
def PendingKind.preconditionCount : PendingKind → Nat
  | .move preconditions _ => preconditions.length
  | .lifecycle preconditions _ => preconditions.length
  | .focus preconditions _ => preconditions.length
  | .resize preconditions _ _ => preconditions.length
  | .drag preconditions _ => preconditions.length

namespace Reconciler

def verification (r : Reconciler) : Verification → Reconciler × Except VerifyError Commit
  | .lifecycle post => r.verifyLifecycle post
  | .move post => r.verify post
  | .focus post => r.verifyFocus post
  | .resize post => r.verifyResize post
  | .drag post => r.verifyDrag post

/-- A divergence is an event when it is the first. -/
def divergedEvent (r : Reconciler) (reason : DivergenceKind) : Option PlanEvent :=
  if r.diverged.isSome then none else some (.diverged reason)

def proposedEvent {D : Type} (r : Reconciler) (binding : D → PlanBinding)
    (result : Except ProposeError D) : Option PlanEvent :=
  match result with
  | .ok dispatch => some (.opened (binding dispatch))
  | .error .pendingExists => none
  | .error (.diverged reason) => r.divergedEvent reason

def ackedEvent (r : Reconciler) (ack : AdapterAck) : Except AckError AckApplied → Option PlanEvent
  | .ok .accepted => some (.acked ⟨ack.correlationId, ack.baseRevision⟩)
  | .ok .duplicateDiscarded => none
  | .error .noPending => none
  | .error (.diverged reason) => r.divergedEvent reason

def verifiedEvent (r : Reconciler) (v : Verification) : Except VerifyError Commit → Option PlanEvent
  | .ok _ => some (.committed v.binding)
  | .error (.diverged reason) => r.divergedEvent reason
  | .error _ => none

/-- One call, with its event. -/
def call (r : Reconciler) : ReconcilerCall → Reconciler × Option PlanEvent
  | .propose plan observation correlationId capabilities =>
      let (r', result) := r.propose plan observation correlationId capabilities
      (r', r.proposedEvent (·.binding) result)
  | .proposeLifecycle plan observation correlationId capabilities =>
      let (r', result) := r.proposeLifecycle plan observation correlationId capabilities
      (r', r.proposedEvent (·.binding) result)
  | .proposeFocus plan observation correlationId capabilities =>
      let (r', result) := r.proposeFocus plan observation correlationId capabilities
      (r', r.proposedEvent (·.binding) result)
  | .proposeResize plan observation correlationId capabilities =>
      let (r', result) := r.proposeResize plan observation correlationId capabilities
      (r', r.proposedEvent (·.binding) result)
  | .proposePointerResize plan observation correlationId capabilities =>
      let (r', result) := r.proposePointerResize plan observation correlationId capabilities
      (r', r.proposedEvent (·.binding) result)
  | .proposePointerResizeCorner primary secondary observation correlationId capabilities =>
      let (r', result) :=
        r.proposePointerResizeCorner primary secondary observation correlationId capabilities
      (r', r.proposedEvent (·.binding) result)
  | .proposeDrag plan observation correlationId capabilities =>
      let (r', result) := r.proposeDrag plan observation correlationId capabilities
      (r', r.proposedEvent (·.binding) result)
  | .acknowledge ack =>
      let (r', result) := r.acknowledge ack
      (r', r.ackedEvent ack result)
  | .verify v =>
      let (r', result) := r.verification v
      (r', r.verifiedEvent v result)
  | .cancelUnacked correlationId baseRevision =>
      match r.cancelUnacked correlationId baseRevision with
      | .ok r' => (r', some (.cancelled ⟨correlationId, baseRevision⟩))
      | .error _ => (r, none)

/-- The reconciler with its events. -/
def emitter : Emitter Reconciler ReconcilerCall PlanEvent := ⟨call⟩

/-- The phase of the transaction a reconciler is in. -/
def phase (r : Reconciler) : Phase :=
  match r.diverged, r.pending with
  | some _, _ => .halted
  | none, none => .idle
  | none, some pending => .pending ⟨pending.correlationId, pending.baseRevision⟩ pending.acked

variable {r r' : Reconciler} {observation : Observation} {correlationId : CorrelationId}
  {faults : List (Bool × DivergenceKind)} {kind : PendingKind} {v : Verification}

/-! ## Proposals -/

/-- The event of the proposal skeleton. -/
def openedEvent (r : Reconciler) (correlationId : CorrelationId) : Except ProposeError Unit →
    Option PlanEvent
  | .ok _ => some (.opened ⟨correlationId, r.verifiedRevision⟩)
  | .error .pendingExists => none
  | .error (.diverged reason) => r.divergedEvent reason

/-- The answers of the proposal skeleton, by the state they are given in: it
is terminal or busy and stays as it was, a fault halts it, or the plan is
opened with a revision to spare. -/
inductive Offered (r : Reconciler) (correlationId : CorrelationId)
    (faults : List (Bool × DivergenceKind)) (kind : PendingKind) :
    Reconciler → Except ProposeError Unit → Prop
  | terminal {reason : DivergenceKind} (h : r.diverged = some reason) :
      Offered r correlationId faults kind r (.error (.diverged reason))
  | busy : Offered r correlationId faults kind r (.error .pendingExists)
  | halted {reason : DivergenceKind} (h : r.diverged = none) :
      Offered r correlationId faults kind (r.diverge reason) (.error (.diverged reason))
  | opened (hdiverged : r.diverged = none) (hpending : r.pending = none)
      (hroom : r.verifiedRevision < maxRevision) (hfaults : ∀ fault ∈ faults, fault.1 = false) :
      Offered r correlationId faults kind (r.opened correlationId kind) (.ok ())

theorem proposeWith_offered : Offered r correlationId faults kind
    (r.proposeWith observation correlationId faults kind).1
    (r.proposeWith observation correlationId faults kind).2 := by
  unfold proposeWith
  split
  · exact .terminal ‹_›
  · rename_i hdiverged
    by_cases hpending : r.pending.isSome
    · rw [if_pos hpending]
      exact .busy
    · rw [if_neg hpending]
      split
      · exact .halted hdiverged
      · rename_i hfault
        rw [bindingFault, ← firstFault_append, firstFault_eq_none] at hfault
        have hroom := hfault (maxRevision ≤ r.verifiedRevision, .revisionExhausted) (by simp)
        exact .opened hdiverged (by simpa using hpending) (by simpa using hroom)
          fun fault h => hfault fault (List.mem_append_right _ h)

/-- A plan that passes its checks is not dispatched with too many
preconditions. -/
theorem preconditions_le {P : Type} [DecidableEq P] {preconditions : List P} (must : P)
    (hmem : (decide (maxPreconditions < preconditions.length) || !preconditions.contains must,
      .postconditionMismatch) ∈ faults) (hall : ∀ fault ∈ faults, fault.1 = false) :
    preconditions.length ≤ maxPreconditions := by
  have hfault := hall _ hmem
  simp only [Bool.or_eq_false_iff, decide_eq_false_iff_not, Nat.not_lt] at hfault
  exact hfault.1

/-- The event of a proposal depends on the skeleton's result alone. -/
theorem proposedEvent_map {D : Type} {result : Except ProposeError Unit} {dispatch : D}
    {binding : D → PlanBinding} (hbinding : binding dispatch = ⟨correlationId, r.verifiedRevision⟩) :
    r.proposedEvent binding (result.map fun _ => dispatch) =
      r.openedEvent correlationId result := by
  cases result with
  | ok _ => simp only [proposedEvent, openedEvent, Except.map, hbinding]
  | error e => cases e <;> rfl

/-- A call is the proposal skeleton, with faults that bound the preconditions
of what it opens, or one of the other three. -/
theorem call_cases (r : Reconciler) (x : ReconcilerCall) :
    (∃ observation correlationId faults kind,
      r.call x = ((r.proposeWith observation correlationId faults kind).1,
        r.openedEvent correlationId (r.proposeWith observation correlationId faults kind).2) ∧
      ((∀ fault ∈ faults, fault.1 = false) → kind.preconditionCount ≤ maxPreconditions)) ∨
    (∃ ack, x = .acknowledge ack) ∨ (∃ v, x = .verify v) ∨
      ∃ correlationId baseRevision, x = .cancelUnacked correlationId baseRevision := by
  cases x with
  | propose plan observation correlationId capabilities =>
    exact .inl ⟨observation, correlationId, _, _, Prod.ext rfl (proposedEvent_map rfl),
      preconditions_le .adapterMustVerifyPostconditions (by simp [planFaults])⟩
  | proposeLifecycle plan observation correlationId capabilities =>
    exact .inl ⟨observation, correlationId, _, _, Prod.ext rfl (proposedEvent_map rfl),
      preconditions_le .adapterMustVerifyPostconditions (by simp [planFaults])⟩
  | proposeFocus plan observation correlationId capabilities =>
    exact .inl ⟨observation, correlationId, _, _, Prod.ext rfl (proposedEvent_map rfl),
      preconditions_le .adapterMustVerifyPostconditions (by simp [planFaults])⟩
  | proposeResize plan observation correlationId capabilities =>
    exact .inl ⟨observation, correlationId, _, _, Prod.ext rfl (proposedEvent_map rfl),
      preconditions_le .adapterMustVerifyPostconditions (by simp [planFaults])⟩
  | proposePointerResize plan observation correlationId capabilities =>
    exact .inl ⟨observation, correlationId, _, _, Prod.ext rfl (proposedEvent_map rfl),
      preconditions_le .adapterMustVerifyPostconditions (by simp [planFaults])⟩
  | proposePointerResizeCorner primary secondary observation correlationId capabilities =>
    exact .inl ⟨observation, correlationId, _, _, Prod.ext rfl (proposedEvent_map rfl),
      preconditions_le .adapterMustVerifyPostconditions (by simp)⟩
  | proposeDrag plan observation correlationId capabilities =>
    exact .inl ⟨observation, correlationId, _, _, Prod.ext rfl (proposedEvent_map rfl),
      preconditions_le .adapterMustVerifyPostconditions (by simp [planFaults])⟩
  | acknowledge ack => exact .inr (.inl ⟨ack, rfl⟩)
  | verify v => exact .inr (.inr (.inl ⟨v, rfl⟩))
  | cancelUnacked correlationId baseRevision =>
    exact .inr (.inr (.inr ⟨correlationId, baseRevision, rfl⟩))

/-! ## Verification -/

/-- The reconciler after a commit of its pending plan. -/
def committedBy (r : Reconciler) (pending : Pending) (fingerprint : Nat) : Reconciler :=
  { r with verifiedRevision := pending.baseRevision + 1, verifiedFingerprint := fingerprint,
           pending := none }

/-- The answers to a post-observation, by the fault found in it: a terminal
reconciler and one that waits stay as they were, a fault halts it, and an
acknowledged plan without one is committed. -/
inductive Judged (r : Reconciler) (fault : Pending → Option DivergenceKind) (fingerprint : Nat) :
    Reconciler → Except VerifyError Commit → Prop
  | terminal {reason : DivergenceKind} (h : r.diverged = some reason) :
      Judged r fault fingerprint r (.error (.diverged reason))
  | waiting {e : VerifyError} (he : ∀ reason, e ≠ .diverged reason)
      (h : ∀ pending, r.pending = some pending → pending.acked = false) :
      Judged r fault fingerprint r (.error e)
  | halted {pending : Pending} {reason : DivergenceKind} (h : r.diverged = none)
      (hpending : r.pending = some pending) (hfault : fault pending = some reason) :
      Judged r fault fingerprint (r.diverge reason) (.error (.diverged reason))
  | committed {pending : Pending} (h : r.diverged = none) (hpending : r.pending = some pending)
      (hacked : pending.acked = true) (hfault : fault pending = none) :
      Judged r fault fingerprint (r.committedBy pending fingerprint)
        (.ok ⟨pending.baseRevision + 1, fingerprint⟩)

theorem verifyWith_judged {O P : Type} {post : PostOf O P}
    {payloadFault : PendingKind → Option DivergenceKind} :
    Judged r (fun pending => r.verifyFault pending post payloadFault) post.observation.fingerprint
      (r.verifyWith post payloadFault).1 (r.verifyWith post payloadFault).2 := by
  unfold verifyWith
  split
  · exact .terminal ‹_›
  · rename_i hdiverged
    split
    · rename_i hpending
      exact .waiting nofun fun pending h => absurd (hpending.symm.trans h) nofun
    · rename_i pending hpending
      by_cases hacked : pending.acked = true
      · rw [hacked, Bool.not_true, if_neg (by decide)]
        split
        · exact .halted hdiverged hpending ‹_›
        · exact .committed hdiverged hpending hacked ‹_›
      · rw [Bool.not_eq_true] at hacked
        rw [hacked, Bool.not_false, if_pos rfl]
        refine .waiting nofun fun pending' h => ?_
        obtain rfl := Option.some.inj (hpending.symm.trans h)
        exact hacked

/-- Each family's comparison with the dispatched payload. -/
def payloadFault : Verification → PendingKind → Option DivergenceKind
  | .lifecycle post, .lifecycle preconditions operation =>
      payloadMismatch post preconditions operation
  | .move post, .move preconditions operation => payloadMismatch post preconditions operation
  | .focus post, .focus preconditions operation => payloadMismatch post preconditions operation
  | .resize post, .resize preconditions operation secondary =>
      payloadMismatch post.toPostOf preconditions operation <|>
        firstFault [(post.verifiedSecondaryOperation != secondary, .postconditionMismatch)]
  | .drag post, .drag preconditions operation => payloadMismatch post preconditions operation
  | _, _ => some .postconditionMismatch

/-- The fault a post-observation of any family has against a pending plan. -/
def faultOf (r : Reconciler) (v : Verification) (pending : Pending) : Option DivergenceKind :=
  match v with
  | .lifecycle post => r.verifyFault pending post (payloadFault (.lifecycle post))
  | .move post => r.verifyFault pending post (payloadFault (.move post))
  | .focus post => r.verifyFault pending post (payloadFault (.focus post))
  | .resize post => r.verifyFault pending post.toPostOf (payloadFault (.resize post))
  | .drag post => r.verifyFault pending post (payloadFault (.drag post))

theorem verification_judged : Judged r (r.faultOf v) v.observation.fingerprint
    (r.verification v).1 (r.verification v).2 := by
  cases v with
  | lifecycle post =>
    have heq : r.verifyLifecycle post = r.verifyWith post (payloadFault (.lifecycle post)) :=
      congrArg (r.verifyWith post) (funext fun kind => by cases kind <;> rfl)
    rw [verification, heq]
    exact verifyWith_judged
  | move post =>
    have heq : r.verify post = r.verifyWith post (payloadFault (.move post)) :=
      congrArg (r.verifyWith post) (funext fun kind => by cases kind <;> rfl)
    rw [verification, heq]
    exact verifyWith_judged
  | focus post =>
    have heq : r.verifyFocus post = r.verifyWith post (payloadFault (.focus post)) :=
      congrArg (r.verifyWith post) (funext fun kind => by cases kind <;> rfl)
    rw [verification, heq]
    exact verifyWith_judged
  | resize post =>
    have heq : r.verifyResize post = r.verifyWith post.toPostOf (payloadFault (.resize post)) :=
      congrArg (r.verifyWith post.toPostOf) (funext fun kind => by cases kind <;> rfl)
    rw [verification, heq]
    exact verifyWith_judged
  | drag post =>
    have heq : r.verifyDrag post = r.verifyWith post (payloadFault (.drag post)) :=
      congrArg (r.verifyWith post) (funext fun kind => by cases kind <;> rfl)
    rw [verification, heq]
    exact verifyWith_judged

/-- The post-observation carries the payload the plan was dispatched with,
preconditions and operation both; one of another kind carries nothing. -/
def carries : Verification → PendingKind → Prop
  | .lifecycle post, .lifecycle preconditions operation =>
      post.verifiedPreconditions = preconditions ∧ post.verifiedOperation = operation
  | .move post, .move preconditions operation =>
      post.verifiedPreconditions = preconditions ∧ post.verifiedOperation = operation
  | .focus post, .focus preconditions operation =>
      post.verifiedPreconditions = preconditions ∧ post.verifiedOperation = operation
  | .resize post, .resize preconditions operation secondary =>
      post.verifiedPreconditions = preconditions ∧ post.verifiedOperation = operation ∧
        post.verifiedSecondaryOperation = secondary
  | .drag post, .drag preconditions operation =>
      post.verifiedPreconditions = preconditions ∧ post.verifiedOperation = operation
  | _, _ => False

/-- The post-observation is a verified one of the acknowledged pending plan:
same binding, same family, preconditions and operation. -/
structure Matches (r : Reconciler) (v : Verification) (pending : Pending) : Prop where
  live : r.diverged = none
  slot : r.pending = some pending
  acked : pending.acked = true
  correlation : v.correlationId = pending.correlationId
  revision : v.observation.revision = pending.baseRevision
  owner : v.observation.owner = r.owner
  generation : v.observation.generation = r.generation
  verified : v.verified = true
  carries : carries v pending.kind

/-- What every call keeps of a reconciler: its plan is based on the verified
revision, which has a successor, and was dispatched with few preconditions. -/
structure Based (r : Reconciler) : Prop where
  base : ∀ pending, r.pending = some pending → pending.baseRevision = r.verifiedRevision
  room : r.pending.isSome → r.verifiedRevision < maxRevision
  count : ∀ pending, r.pending = some pending →
    pending.kind.preconditionCount ≤ maxPreconditions

theorem verifyFault_eq_none {O P : Type} {pending : Pending} {post : PostOf O P}
    {payloadFault : PendingKind → Option DivergenceKind} :
    r.verifyFault pending post payloadFault = none ↔
      post.verifiedPreconditions.length ≤ maxPreconditions ∧
      post.correlationId = pending.correlationId ∧ post.observation.owner = r.owner ∧
      post.observation.generation = r.generation ∧
      post.observation.revision = pending.baseRevision ∧ post.verified = true ∧
      payloadFault pending.kind = none ∧ pending.baseRevision < maxRevision := by
  have horElse : ∀ {a b : Option DivergenceKind}, (a <|> b) = none ↔ a = none ∧ b = none := by
    intro a b
    cases a <;> simp
  have hcorrelation : isCorrelationId post.correlationId.asStr = true := post.correlationId.valid_asStr
  have howner : isOwnerId post.observation.owner.asStr = true := post.observation.owner.valid_asStr
  have hgeneration : isGenerationId post.observation.generation.asStr = true :=
    post.observation.generation.valid_asStr
  simp only [verifyFault, horElse, firstFault_eq_none, List.forall_mem_cons, hcorrelation, howner,
    hgeneration, Bool.not_true, decide_eq_false_iff_not, bne_eq_false_iff_eq, Bool.not_eq_false',
    Nat.not_lt, Nat.not_le, List.not_mem_nil, false_imp_iff, implies_true, and_true, true_and,
    isRevision]
  constructor
  · rintro ⟨⟨hlen, -, hcorr, hown, hgen, hrev, hverified⟩, hpayload, hroom⟩
    exact ⟨hlen, hcorr, hown, hgen, hrev, hverified, hpayload, hroom⟩
  · rintro ⟨hlen, hcorr, hown, hgen, hrev, hverified, hpayload, hroom⟩
    refine ⟨⟨hlen, ?_, hcorr, hown, hgen, hrev, hverified⟩, hpayload, hroom⟩
    simp only [hrev, decide_eq_true_eq]
    omega

theorem payloadMismatch_eq_none {O P : Type} [DecidableEq O] [DecidableEq P] {post : PostOf O P}
    {preconditions : List P} {operation : O} : payloadMismatch post preconditions operation = none ↔
      post.verifiedPreconditions = preconditions ∧ post.verifiedOperation = operation := by
  simp [payloadMismatch, firstFault_eq_none]

theorem payloadFault_eq_none : payloadFault v kind = none ↔ carries v kind := by
  cases v <;> cases kind <;>
    simp [payloadFault, carries, payloadMismatch_eq_none, firstFault_eq_none, and_assoc]

/-- A post-observation commits exactly the acknowledged plan it matches. -/
theorem faultOf_eq_none {pending : Pending} (hbased : Based r) (hlive : r.diverged = none)
    (hslot : r.pending = some pending) (hacked : pending.acked = true) :
    r.faultOf v pending = none ↔ Matches r v pending := by
  have hroom : pending.baseRevision < maxRevision := by
    rw [hbased.base pending hslot]
    exact hbased.room (by rw [hslot]; rfl)
  have hcount := hbased.count pending hslot
  -- the number of reported preconditions is bounded by the dispatched ones
  have hreported : carries v pending.kind → match v with
      | .lifecycle post => post.verifiedPreconditions.length ≤ maxPreconditions
      | .move post => post.verifiedPreconditions.length ≤ maxPreconditions
      | .focus post => post.verifiedPreconditions.length ≤ maxPreconditions
      | .resize post => post.verifiedPreconditions.length ≤ maxPreconditions
      | .drag post => post.verifiedPreconditions.length ≤ maxPreconditions := by
    intro hcarries
    revert hcarries hcount
    cases v <;> cases pending.kind <;> simp +contextual [carries, PendingKind.preconditionCount]
  constructor
  · intro hfault
    cases v <;>
    · obtain ⟨-, hcorr, hown, hgen, hrev, hverified, hpayload, -⟩ := verifyFault_eq_none.mp hfault
      exact ⟨hlive, hslot, hacked, hcorr, hrev, hown, hgen, hverified,
        payloadFault_eq_none.mp hpayload⟩
  · intro hmatches
    have hlen := hreported hmatches.carries
    have hpayload := payloadFault_eq_none.mpr hmatches.carries
    cases v <;>
      exact verifyFault_eq_none.mpr ⟨hlen, hmatches.correlation, hmatches.owner,
        hmatches.generation, hmatches.revision, hmatches.verified, hpayload, hroom⟩

/-! ## One call -/

/-- What one call does to the reconciler, whichever call it is, with the event
it emits: nothing, or one step of halting, opening, acknowledging or
committing. -/
inductive Called (r : Reconciler) (x : ReconcilerCall) : Reconciler → Option PlanEvent → Prop
  | silent : Called r x r none
  | halted {reason : DivergenceKind} (h : r.diverged = none) :
      Called r x (r.diverge reason) (some (.diverged reason))
  | opened {correlationId : CorrelationId} {kind : PendingKind} (h : r.diverged = none)
      (hpending : r.pending = none) (hroom : r.verifiedRevision < maxRevision)
      (hcount : kind.preconditionCount ≤ maxPreconditions) :
      Called r x (r.opened correlationId kind) (some (.opened ⟨correlationId, r.verifiedRevision⟩))
  | acked {pending : Pending} (h : r.diverged = none) (hpending : r.pending = some pending)
      (hacked : pending.acked = false) :
      Called r x { r with pending := some { pending with acked := true } }
        (some (.acked pending.binding))
  | committed {pending : Pending} {v : Verification} (hx : x = .verify v) (h : r.diverged = none)
      (hpending : r.pending = some pending) (hacked : pending.acked = true)
      (hfault : r.faultOf v pending = none) :
      Called r x (r.committedBy pending v.observation.fingerprint)
        (some (.committed pending.binding))
  | cancelled {pending : Pending} (h : r.diverged = none) (hpending : r.pending = some pending)
      (hacked : pending.acked = false) :
      Called r x { r with pending := none } (some (.cancelled pending.binding))

theorem divergedEvent_terminal {reason reason' : DivergenceKind} (h : r.diverged = some reason) :
    r.divergedEvent reason' = none := by
  simp [divergedEvent, h]

theorem divergedEvent_live {reason : DivergenceKind} (h : r.diverged = none) :
    r.divergedEvent reason = some (.diverged reason) := by
  simp [divergedEvent, h]

theorem acknowledge_called {ack : AdapterAck} :
    Called r (.acknowledge ack) (r.call (.acknowledge ack)).1 (r.call (.acknowledge ack)).2 := by
  have hcall : r.call (.acknowledge ack) =
    ((r.acknowledge ack).1, r.ackedEvent ack (r.acknowledge ack).2) := rfl
  rw [hcall]
  unfold acknowledge
  split
  · rename_i reason hdiverged
    simp only [ackedEvent, divergedEvent_terminal hdiverged]
    exact .silent
  · rename_i hlive
    split
    · exact .silent
    · rename_i pending hpending
      split
      · simp only [ackedEvent, divergedEvent_live hlive]
        exact .halted hlive
      · rename_i hfault
        have hbinding : ack.correlationId = pending.correlationId ∧
            ack.baseRevision = pending.baseRevision := by
          have h := firstFault_eq_none.mp hfault
            (ack.correlationId != pending.correlationId || ack.baseRevision != pending.baseRevision,
              .correlationMismatch) (by simp)
          simpa using h
        cases hacked : pending.acked with
        | true => exact .silent
        | false =>
          simp only [Bool.false_eq_true, if_false, ackedEvent, hbinding.1, hbinding.2]
          exact .acked hlive hpending hacked

theorem verify_called :
    Called r (.verify v) (r.call (.verify v)).1 (r.call (.verify v)).2 := by
  have hcall : r.call (.verify v) =
    ((r.verification v).1, r.verifiedEvent v (r.verification v).2) := rfl
  have hjudged := @verification_judged r v
  rw [hcall]
  generalize r.verification v = answer at hjudged ⊢
  obtain ⟨r', result⟩ := answer
  cases hjudged with
  | terminal h =>
    simp only [verifiedEvent, divergedEvent_terminal h]
    exact .silent
  | @waiting e he h =>
    cases e with
    | diverged reason => exact absurd rfl (he reason)
    | noPending => exact .silent
    | notAcknowledged => exact .silent
  | halted h _ _ =>
    simp only [verifiedEvent, divergedEvent_live h]
    exact .halted h
  | @committed pending h hpending hacked hfault =>
    have hbinding : v.binding = pending.binding := by
      cases v <;>
      · obtain ⟨-, hcorr, -, -, hrev, -⟩ := verifyFault_eq_none.mp hfault
        simp only [Verification.binding, Verification.correlationId, Verification.observation,
          Pending.binding, hcorr, hrev]
    simp only [verifiedEvent, hbinding]
    exact .committed rfl h hpending hacked hfault

/-- A plan that was cancelled was the pending one, not yet acknowledged. -/
theorem cancelUnacked_eq_ok {baseRevision : Nat}
    (h : r.cancelUnacked correlationId baseRevision = .ok r') :
    ∃ pending, r.diverged = none ∧ r.pending = some pending ∧ pending.acked = false ∧
      pending.binding = ⟨correlationId, baseRevision⟩ ∧ r' = { r with pending := none } := by
  unfold cancelUnacked at h
  split at h
  · cases h
  · rename_i hlive
    split at h
    · cases h
    · rename_i pending hpending
      split at h
      · cases h
      · rename_i hacked
        split at h
        · cases h
        · rename_i hbinding
          rw [not_or, not_not, not_not] at hbinding
          cases h
          refine ⟨pending, hlive, hpending, by simpa using hacked, ?_, rfl⟩
          rw [Pending.binding, hbinding.1, hbinding.2]

theorem cancel_called {baseRevision : Nat} :
    Called r (.cancelUnacked correlationId baseRevision)
      (r.call (.cancelUnacked correlationId baseRevision)).1
      (r.call (.cancelUnacked correlationId baseRevision)).2 := by
  simp only [call]
  cases hcancel : r.cancelUnacked correlationId baseRevision with
  | error e => exact .silent
  | ok r' =>
    obtain ⟨pending, hlive, hpending, hacked, hbinding, rfl⟩ := cancelUnacked_eq_ok hcancel
    simp only [← hbinding]
    exact .cancelled hlive hpending hacked

theorem call_called (r : Reconciler) (x : ReconcilerCall) :
    Called r x (r.call x).1 (r.call x).2 := by
  rcases call_cases r x with ⟨observation, correlationId, faults, kind, hcall, hcount⟩ |
    ⟨ack, rfl⟩ | ⟨v, rfl⟩ | ⟨correlationId, baseRevision, rfl⟩
  · have hoffered := @proposeWith_offered r observation correlationId faults kind
    rw [hcall]
    generalize r.proposeWith observation correlationId faults kind = answer at hoffered ⊢
    obtain ⟨r', result⟩ := answer
    cases hoffered with
    | terminal h =>
      simp only [openedEvent, divergedEvent_terminal h]
      exact .silent
    | busy => exact .silent
    | halted h =>
      simp only [openedEvent, divergedEvent_live h]
      exact .halted h
    | opened h hpending hroom hfaults => exact .opened h hpending hroom (hcount hfaults)
  · exact acknowledge_called
  · exact verify_called
  · exact cancel_called

/-! ## The protocol -/

theorem phase_live (h : r.diverged = none) : r.phase =
    match r.pending with
    | none => .idle
    | some pending => .pending pending.binding pending.acked := by
  unfold phase
  rw [h]
  cases r.pending <;> rfl

/-- Every call moves the transaction the way the protocol does. -/
theorem emitter_simulates : emitter.Simulates Phase.step phase := by
  intro r x
  have hcalled := call_called r x
  have hstep : emitter.step r x = r.call x := rfl
  rw [hstep]
  generalize (r.call x).1 = r' at hcalled ⊢
  generalize (r.call x).2 = event at hcalled ⊢
  cases hcalled with
  | silent => rfl
  | halted h =>
    rw [phase_live h]
    cases r.pending with
    | none => rfl
    | some pending => cases pending.acked <;> rfl
  | opened h hpending _ _ =>
    rw [phase_live h, phase_live (r := r.opened _ _) h, hpending]
    rfl
  | @acked pending h hpending hacked =>
    have hnext : phase { r with pending := some { pending with acked := true } } =
        .pending pending.binding true := phase_live h
    rw [phase_live h, hnext, hpending]
    simp [Phase.step, hacked]
  | @committed pending v hx h hpending hacked _ =>
    have hnext : (r.committedBy pending v.observation.fingerprint).phase = .idle := phase_live h
    rw [phase_live h, hnext, hpending]
    simp [Phase.step, hacked]
  | @cancelled pending h hpending hacked =>
    have hnext : phase { r with pending := none } = .idle := phase_live h
    rw [phase_live h, hnext, hpending]
    simp [Phase.step, hacked]

theorem Based.call (h : Based r) (x : ReconcilerCall) : Based (r.call x).1 := by
  have hcalled := call_called r x
  generalize (r.call x).1 = r' at hcalled ⊢
  generalize (r.call x).2 = event at hcalled
  have hempty : ∀ {r' : Reconciler}, r'.pending = none → Based r' := by
    intro r' hnone
    exact ⟨fun _ h => absurd (hnone.symm.trans h) nofun, fun h => by simp [hnone] at h,
      fun _ h => absurd (hnone.symm.trans h) nofun⟩
  cases hcalled with
  | silent => exact h
  | halted _ | committed _ _ _ _ _ | cancelled _ _ _ => exact hempty rfl
  | opened _ _ hroom hcount =>
    refine ⟨fun pending hslot => ?_, fun _ => hroom, fun pending hslot => ?_⟩
    · obtain rfl := Option.some.inj hslot
      rfl
    · obtain rfl := Option.some.inj hslot
      exact hcount
  | @acked pending _ hpending _ =>
    refine ⟨fun pending' hslot => ?_, fun _ => h.room (by rw [hpending]; rfl),
      fun pending' hslot => ?_⟩
    · obtain rfl := Option.some.inj hslot
      exact h.base pending hpending
    · obtain rfl := Option.some.inj hslot
      exact h.count pending hpending

/-- The verified revision counts the commits. -/
theorem verifiedRevision_call (h : Based r) (x : ReconcilerCall) :
    (r.call x).1.verifiedRevision =
      r.verifiedRevision + (r.call x).2.toList.countP PlanEvent.isCommit := by
  have hcalled := call_called r x
  generalize (r.call x).1 = r' at hcalled ⊢
  generalize (r.call x).2 = event at hcalled ⊢
  cases hcalled with
  | silent | halted _ | opened _ _ _ _ | acked _ _ _ | cancelled _ _ _ => rfl
  | @committed pending v _ _ hpending _ _ =>
    rw [committedBy, h.base pending hpending]
    rfl

/-- A call commits exactly when it verifies the plan it matches; only then the
revision goes up, and by one. -/
theorem call_commits_iff (h : Based r) (x : ReconcilerCall) :
    (r.call x).1.verifiedRevision = r.verifiedRevision + 1 ↔
      ∃ v pending, x = .verify v ∧ Matches r v pending := by
  constructor
  · intro hnext
    have hcalled := call_called r x
    have hcount := verifiedRevision_call h x
    generalize (r.call x).1 = r' at hcalled hcount hnext
    generalize (r.call x).2 = event at hcalled hcount
    cases hcalled with
    | @committed pending v hx hlive hpending hacked hfault =>
      exact ⟨v, pending, hx, (faultOf_eq_none h hlive hpending hacked).mp hfault⟩
    | silent | halted _ | opened _ _ _ _ | acked _ _ _ | cancelled _ _ _ =>
      exact absurd (hcount.symm.trans hnext) (by simp [PlanEvent.isCommit])
  · rintro ⟨v, pending, rfl, hmatches⟩
    have hfault := (faultOf_eq_none h hmatches.live hmatches.slot hmatches.acked).mpr hmatches
    have hjudged := @verification_judged r v
    have hcall : (r.call (.verify v)).1 = (r.verification v).1 := rfl
    rw [hcall]
    generalize (r.verification v).1 = r' at hjudged ⊢
    generalize (r.verification v).2 = result at hjudged
    cases hjudged with
    | terminal hdiverged =>
      rw [hmatches.live] at hdiverged
      cases hdiverged
    | waiting _ hwaiting =>
      have hacked := hmatches.acked
      rw [hwaiting _ hmatches.slot] at hacked
      cases hacked
    | halted _ hpending hsome =>
      obtain rfl := Option.some.inj (hmatches.slot.symm.trans hpending)
      rw [hfault] at hsome
      cases hsome
    | committed _ hpending _ _ =>
      obtain rfl := Option.some.inj (hmatches.slot.symm.trans hpending)
      rw [committedBy, h.base _ hpending]

end Reconciler

/-! ## What the protocol says of a trace -/

namespace Phase

variable {p q : Phase} {trace pre mid post : List PlanEvent} {e : PlanEvent} {plan : PlanBinding}

/-- A halted transaction takes no event. -/
theorem step_halted : step halted e = none := by
  cases e <;> rfl

/-- What the phase was before the events that led to it. -/
theorem of_concat (h : (pre ++ [e]).foldlM step p = some q) :
    ∃ p', pre.foldlM step p = some p' ∧ step p' e = some q := by
  rw [List.foldlM_append] at h
  obtain ⟨p', hpre, hlast⟩ := Option.bind_eq_some_iff.mp h
  simp only [List.foldlM_cons, List.foldlM_nil, bind_pure] at hlast
  exact ⟨p', hpre, hlast⟩

/-- A pending plan was opened by the last event, or acknowledged by it after
the one that opened it. -/
theorem pending_history {acked : Bool} (h : trace.foldlM step idle = some (pending plan acked)) :
    match acked with
    | false => ∃ pre, trace = pre ++ [.opened plan]
    | true => ∃ pre, trace = pre ++ [.opened plan, .acked plan] := by
  induction trace using List.reverseRecOn generalizing plan acked with
  | nil => cases h
  | append_singleton trace e ih =>
    obtain ⟨p', hpre, hlast⟩ := of_concat h
    cases e with
    | opened plan' =>
      cases p' with
      | idle =>
        cases hlast
        exact ⟨trace, rfl⟩
      | pending _ acked' => cases acked' <;> cases hlast
      | halted => cases hlast
    | acked plan' =>
      cases p' with
      | pending plan'' acked' =>
        cases acked' with
        | true => cases hlast
        | false =>
          simp only [step] at hlast
          split at hlast
          · rename_i heq
            subst heq
            cases hlast
            obtain ⟨pre, rfl⟩ := ih hpre
            exact ⟨pre, by simp⟩
          · cases hlast
      | idle => cases hlast
      | halted => cases hlast
    | committed plan' | cancelled plan' =>
      cases p' with
      | pending plan'' acked' =>
        cases acked' <;> simp only [step] at hlast
        all_goals (try split at hlast) <;> cases hlast
      | idle => cases hlast
      | halted => cases hlast
    | diverged reason =>
      cases p' with
      | pending plan'' acked' => cases acked' <;> cases hlast
      | idle => cases hlast
      | halted => cases hlast

/-- The plan an event touches is the one in the slot. -/
theorem pending_of_touched (h : step p e = some q) (he : e.touched = some plan) :
    ∃ acked, p = pending plan acked := by
  cases e with
  | opened _ => cases he
  | diverged _ => cases he
  | acked plan' | committed plan' | cancelled plan' =>
    obtain rfl := Option.some.inj he
    cases p with
    | idle => cases h
    | halted => cases h
    | pending plan'' acked =>
      refine ⟨acked, ?_⟩
      cases acked <;> simp only [step] at h <;> first | cases h | skip
      all_goals
        split at h
        · rename_i heq
          rw [heq]
        · cases h

/-- No plan is touched that was not opened since the transaction was idle. -/
theorem opened_of_touched (h : (mid ++ e :: post).foldlM step idle = some q)
    (he : e.touched = some plan) : .opened plan ∈ mid := by
  rw [List.foldlM_append] at h
  obtain ⟨p, hmid, hrest⟩ := Option.bind_eq_some_iff.mp h
  rw [List.foldlM_cons] at hrest
  obtain ⟨q', hstep, -⟩ := Option.bind_eq_some_iff.mp hrest
  obtain ⟨acked, rfl⟩ := pending_of_touched hstep he
  have hhistory := pending_history hmid
  cases acked with
  | false =>
    obtain ⟨pre, rfl⟩ := hhistory
    exact List.mem_append_right _ List.mem_cons_self
  | true =>
    obtain ⟨pre, rfl⟩ := hhistory
    exact List.mem_append_right _ List.mem_cons_self

end Phase

/-! ## Runs of a reconciler -/

namespace Reconciler

variable {r : Reconciler} {calls : List ReconcilerCall}

/-- What a run has done and what its next call can do. Its events follow the
protocol, each commit raises the revision by one, and a plan is committed at
most once, after it was opened and acknowledged. -/
structure Orderly (r : Reconciler) (calls : List ReconcilerCall) : Prop where
  protocol : (emitter.trace r calls).foldlM Phase.step .idle = some (emitter.run r calls).phase
  revision : (emitter.run r calls).verifiedRevision =
    r.verifiedRevision + (emitter.trace r calls).countP PlanEvent.isCommit
  advances : ∀ x, ((emitter.run r calls).call x).1.verifiedRevision =
      (emitter.run r calls).verifiedRevision ∨
    ((emitter.run r calls).call x).1.verifiedRevision = (emitter.run r calls).verifiedRevision + 1
  commits : ∀ x, ((emitter.run r calls).call x).1.verifiedRevision =
      (emitter.run r calls).verifiedRevision + 1 ↔
    ∃ v pending, x = .verify v ∧ Matches (emitter.run r calls) v pending
  inOrder : ∀ {pre plan post}, emitter.trace r calls = pre ++ .committed plan :: post →
    ∃ pre', pre = pre' ++ [.opened plan, .acked plan]
  once : ∀ {pre closing mid e post}, emitter.trace r calls = pre ++ closing :: (mid ++ e :: post) →
    closing.closes = true → ∀ {plan}, e.touched = some plan → .opened plan ∈ mid
  spent : ∀ {pre plan post}, emitter.trace r calls = pre ++ .committed plan :: post →
    ∀ e ∈ post, e.touched ≠ some plan
  terminal : ∀ {pre reason post}, emitter.trace r calls = pre ++ .diverged reason :: post → post = []
  halted : (emitter.run r calls).diverged.isSome → (emitter.run r calls).pending = none

theorem call_halted (h : r.diverged.isSome → r.pending = none) (x : ReconcilerCall) :
    (r.call x).1.diverged.isSome → (r.call x).1.pending = none := by
  have hcalled := call_called r x
  generalize (r.call x).1 = r' at hcalled ⊢
  generalize (r.call x).2 = event at hcalled
  cases hcalled with
  | silent => exact h
  | halted _ | committed _ _ _ _ _ | cancelled _ _ _ => exact fun _ => rfl
  | @opened correlationId kind hlive _ _ _ =>
    intro hsome
    have hlive' : (r.opened correlationId kind).diverged = none := hlive
    rw [hlive'] at hsome
    cases hsome
  | acked hlive _ _ =>
    intro hsome
    rw [hlive] at hsome
    cases hsome

/-- The plan a call touches is based on the verified revision. -/
theorem touched_call (h : Based r) {x : ReconcilerCall} {e : PlanEvent} {plan : PlanBinding}
    (hevent : (r.call x).2 = some e) (htouched : e.touched = some plan) :
    plan.baseRevision = r.verifiedRevision := by
  have hcalled := call_called r x
  rw [hevent] at hcalled
  generalize (r.call x).1 = r' at hcalled
  cases hcalled with
  | halted _ => cases htouched
  | opened _ _ _ _ => cases htouched
  | acked _ hpending _ | committed _ _ hpending _ _ | cancelled _ hpending _ =>
    obtain rfl := Option.some.inj htouched
    exact h.base _ hpending

/-- Every plan touched along a run is based on a later revision, or the first. -/
theorem trace_based (h : Based r) {e : PlanEvent} {plan : PlanBinding}
    (he : e ∈ emitter.trace r calls) (htouched : e.touched = some plan) :
    r.verifiedRevision ≤ plan.baseRevision := by
  induction calls generalizing r with
  | nil => cases he
  | cons x calls ih =>
    rw [Emitter.trace, List.mem_append, Option.mem_toList] at he
    rcases he with hnow | hlater
    · exact (touched_call h hnow htouched).ge
    · have hnext := verifiedRevision_call h x
      have hbase := ih (h.call x) hlater
      have hadvance : r.verifiedRevision ≤ (r.call x).1.verifiedRevision := by omega
      exact hadvance.trans hbase

/-- After a commit only plans based on later revisions are touched. -/
theorem trace_later (h : Based r) {pre post : List PlanEvent} {plan plan' : PlanBinding}
    {e : PlanEvent} (htrace : emitter.trace r calls = pre ++ .committed plan :: post)
    (he : e ∈ post) (htouched : e.touched = some plan') :
    plan.baseRevision < plan'.baseRevision := by
  induction calls generalizing r pre with
  | nil => simp [Emitter.trace] at htrace
  | cons x calls ih =>
    have hstep : emitter.step r x = r.call x := rfl
    have hnext := verifiedRevision_call h x
    rw [Emitter.trace, hstep] at htrace
    cases hevent : (r.call x).2 with
    | none =>
      rw [hevent] at htrace
      exact ih (h.call x) htrace
    | some first =>
      rw [hevent, Option.toList_some, List.singleton_append] at htrace
      cases pre with
      | nil =>
        rw [List.nil_append, List.cons.injEq] at htrace
        obtain ⟨rfl, rfl⟩ := htrace
        have hbase := touched_call h hevent rfl
        have hlater := trace_based (h.call x) he htouched
        rw [hevent] at hnext
        simp [PlanEvent.isCommit] at hnext
        omega
      | cons e' pre =>
        rw [List.cons_append, List.cons.injEq] at htrace
        exact ih (h.call x) htrace.2

theorem orderly_of_idle (hbased : Based r) (hidle : r.phase = .idle)
    (hhalted : r.diverged.isSome → r.pending = none) : Orderly r calls := by
  have hprotocol := emitter_simulates.accepts r calls
  rw [hidle] at hprotocol
  have hbasedRun : Based (emitter.run r calls) :=
    Emitter.run_preserves (fun _ x h => h.call x) hbased calls
  refine ⟨hprotocol, ?_, fun x => ?_, call_commits_iff hbasedRun, ?_, ?_, ?_, ?_, ?_⟩
  · exact Emitter.run_counts (E := emitter) (I := Based) (fun _ x h => h.call x)
      (fun _ x h => verifiedRevision_call h x) hbased calls
  · have hcount := verifiedRevision_call hbasedRun x
    cases hevent : ((emitter.run r calls).call x).2 with
    | none =>
      rw [hevent] at hcount
      exact .inl hcount
    | some e =>
      rw [hevent] at hcount
      cases he : e.isCommit with
      | false => exact .inl (by simpa [he] using hcount)
      | true => exact .inr (by simpa [he] using hcount)
  · intro pre plan post htrace
    rw [htrace, List.foldlM_append] at hprotocol
    obtain ⟨p, hpre, hrest⟩ := Option.bind_eq_some_iff.mp hprotocol
    rw [List.foldlM_cons] at hrest
    obtain ⟨q, hstep, -⟩ := Option.bind_eq_some_iff.mp hrest
    cases p with
    | idle => cases hstep
    | halted => cases hstep
    | pending plan' acked =>
      cases acked with
      | false => cases hstep
      | true =>
        simp only [Phase.step] at hstep
        split at hstep
        · rename_i heq
          subst heq
          exact Phase.pending_history hpre
        · cases hstep
  · intro pre closing mid e post htrace hcloses plan htouched
    rw [htrace, List.foldlM_append] at hprotocol
    obtain ⟨p, hpre, hrest⟩ := Option.bind_eq_some_iff.mp hprotocol
    rw [List.foldlM_cons] at hrest
    obtain ⟨q, hstep, hrest⟩ := Option.bind_eq_some_iff.mp hrest
    -- whatever closes the slot leaves the transaction idle
    have hq : q = .idle := by
      cases closing with
      | committed plan | cancelled plan =>
        cases p with
        | idle => cases hstep
        | halted => cases hstep
        | pending plan' acked =>
          cases acked <;> simp only [Phase.step] at hstep
          all_goals (try split at hstep) <;> cases hstep
          rfl
      | _ => cases hcloses
    subst hq
    exact Phase.opened_of_touched hrest htouched
  · intro pre plan post htrace e he htouched
    exact absurd (trace_later hbased htrace he htouched) (Nat.lt_irrefl _)
  · intro pre reason post htrace
    rw [htrace, List.foldlM_append] at hprotocol
    obtain ⟨p, hpre, hrest⟩ := Option.bind_eq_some_iff.mp hprotocol
    rw [List.foldlM_cons] at hrest
    obtain ⟨q, hstep, hrest⟩ := Option.bind_eq_some_iff.mp hrest
    have hq : q = .halted := by
      cases p with
      | idle => exact (Option.some.inj hstep).symm
      | pending plan acked => cases acked <;> exact (Option.some.inj hstep).symm
      | halted => cases hstep
    subst hq
    cases post with
    | nil => rfl
    | cons e post => simp [Phase.step_halted] at hrest
  · exact Emitter.run_preserves (I := fun r : Reconciler => r.diverged.isSome → r.pending = none)
      (fun _ x h => call_halted h x) hhalted calls

end Reconciler

/-! ## The session's slot -/

namespace Session

variable {s s' : Session}

/-- A pending plan and a staged world come and go together. -/
theorem Step.locked (hterminal : ∀ reason, s.divergence = some reason → s.Terminal reason)
    (h : s.hasPending = s.pendingDesired.isSome) (hstep : Step s s') :
    s'.hasPending = s'.pendingDesired.isSome := by
  cases hstep with
  | same | withDrag _ | settings | gaps _ _ | relocated _ _ _ _ _ | synced _ _ _ _ _
    | refocused _ _ _ | converged _ _ _ => exact h
  | cleared hdiverged => exact (hterminal _ hdiverged).pending
  | halted _ | staged _ _ _ _ | cancelled _ | committed _ _ _ _ => rfl
  | acked _ hpending =>
    have hsome : s.hasPending = true := by rw [hasPending, hpending]; rfl
    exact hsome.symm.trans h
  | bare _ hpending hdesired =>
    rw [hasPending, hpending, hdesired] at h
    cases h

theorem locked_of_reachable (h : Reachable s) : s.hasPending = s.pendingDesired.isSome := by
  have hinvariant := terminal_invariant.strengthen
    (J := fun s => s.hasPending = s.pendingDesired.isSome)
    (fun s hs => by rw [hs.blank.pending, hs.blank.desired]; rfl)
    (fun s op hterminal h => (next_step op).locked hterminal h)
  exact (hinvariant.reachable h).2

end Session

/-- Every run of a reconciler is orderly: each plan is committed at most
once, after its own acknowledgement, by a post-observation that matches it;
and a reachable session stages a world exactly while a plan is pending. -/
theorem transaction_orderly {owner : OwnerId} {generation : GenerationId}
    {revision fingerprint : Nat} {r : Reconciler}
    (h : Reconciler.new owner generation revision fingerprint = .ok r) :
    (∀ calls, Reconciler.Orderly r calls) ∧
      ∀ s, Session.Reachable s → s.hasPending = s.pendingDesired.isSome := by
  simp only [Reconciler.new, bind_eq_ok, ensure_eq_ok, pure_eq_ok] at h
  obtain ⟨_, -, _, -, _, -, rfl⟩ := h
  refine ⟨fun calls => Reconciler.orderly_of_idle
      ⟨(fun _ h => by cases h), (fun h => by cases h), (fun _ h => by cases h)⟩ rfl (fun _ => rfl),
    fun s hs => Session.locked_of_reachable hs⟩

namespace Sample

/-- A session over a wider output than `empty`. -/
def wide : Session :=
  session [{ domain "A" "1" with bounds := ⟨0, 0, 2000, 800⟩ }] (by decide +kernel)

def admissionAck : AdapterAck := ⟨correlationId, owner, generation, 0, .accepted⟩

def admissionPost : LifecyclePostObservation where
  observation := ⟨owner, generation, 0, 1⟩
  correlationId
  verified := true
  verifiedPreconditions := [.windowObserved, .desiredTopologyValid,
    .adapterMustVerifyPostconditions]
  verifiedOperation := .admitTiled ⟨"w"⟩ ⟨"leaf-w"⟩ ⟨"A"⟩ ⟨"1"⟩

def stockedAck : AdapterAck := ⟨correlationId, owner, generation, 1, .accepted⟩

def stockedPost : LifecyclePostObservation :=
  { admissionPost with observation := ⟨owner, generation, 1, 1⟩ }

/-- A reconciler at revision 0. -/
def reconciler : Reconciler := ⟨owner, generation, 0, 0, none, none⟩

theorem reconciler_new : Reconciler.new owner generation 0 0 = .ok reconciler := by
  have howner : isOwnerId owner.asStr = true := owner.valid_asStr
  have hgeneration : isGenerationId generation.asStr = true := generation.valid_asStr
  simp only [Reconciler.new, howner, hgeneration, isRevision, ensure, reconciler, if_true,
    Nat.zero_le, decide_true]
  rfl

/-- The reconciler's own admission, twice acknowledged and verified. -/
def admissionCalls : List ReconcilerCall :=
  [.proposeLifecycle (.forOperation (.admitTiled ⟨"w"⟩ ⟨"A"⟩ ⟨"1"⟩) admissionPost.verifiedOperation)
      ⟨owner, generation, 0, 0⟩ correlationId lifecycle,
    .acknowledge admissionAck, .acknowledge admissionAck,
    .verify (.lifecycle admissionPost), .verify (.lifecycle admissionPost)]

end Sample

/-- The second post-observation of one admission commits nothing. -/
theorem transaction_orderly_admission :
    Reconciler.Orderly Sample.reconciler Sample.admissionCalls :=
  (transaction_orderly Sample.reconciler_new).1 Sample.admissionCalls

/-- The geometry a first admission asks for. -/
def Session.admissionGeometry (s : Session) : List Rect :=
  match (s.propose (.admitWindow ⟨⟨"w"⟩, ⟨"A"⟩, ⟨"1"⟩, .none, none, ⟨0, 0, 1000, 800⟩, false⟩)
    (Sample.observation 0 [Sample.window "w"]) Sample.correlationId Sample.lifecycle).2 with
  | .ok plan => plan.desiredGeometry.map (·.rect)
  | .error _ => []

/-- One post-observation commits the same admission in two sessions that asked
for different geometry: it carries none to compare. -/
theorem Session.geometry_not_matched :
    Sample.empty.admissionGeometry ≠ Sample.wide.admissionGeometry ∧
    ∀ s ∈ [Sample.empty, Sample.wide],
      (((s.proposal Sample.firstAdmission).1.acknowledge Sample.admissionAck).1.verifyLifecycle
        Sample.admissionPost).2.toOption.map (·.revision) = some 1 := by
  refine ⟨by decide +kernel, ?_⟩
  intro s hs
  rw [List.mem_cons, List.mem_singleton] at hs
  rcases hs with rfl | rfl <;> decide +kernel

end PlasmaTiler
