import PlasmaTiler.Contract

/-!
# The reconciler

A state machine with at most one pending plan: propose, acknowledge,
verify, and a terminal divergence that every binding failure enters. All
`propose` entry points check the same identity binding before their own
plan checks, and all `verify` entry points check the same post-observation
shape around their own payload comparison; `proposeWith` and `verifyWith`
are those two skeletons, and each entry point is one of them applied to its
own checks.

An operation returns the next reconciler together with its result, because
a failing one may still have recorded a divergence.
-/

namespace PlasmaTiler

structure Commit where
  revision : Nat
  fingerprint : Nat
deriving DecidableEq, Repr

inductive AckApplied
  | accepted
  | duplicateDiscarded
deriving DecidableEq, Repr

inductive AckError
  | noPending
  | diverged (reason : DivergenceKind)
deriving DecidableEq, Repr

inductive VerifyError
  | noPending
  | notAcknowledged
  | diverged (reason : DivergenceKind)
deriving DecidableEq, Repr

inductive CancelUnackedError
  | noPending
  | alreadyAcknowledged
  | bindingMismatch
  | dragActive
  | diverged (reason : DivergenceKind)
deriving DecidableEq, Repr

namespace Reconciler

inductive ProposeError
  | pendingExists
  | diverged (reason : DivergenceKind)
deriving DecidableEq, Repr

inductive NewError
  | invalidOwner
  | invalidGeneration
  | revisionOutOfBounds
deriving DecidableEq, Repr

end Reconciler

/-- What the pending plan must be verified against, by family. -/
inductive PendingKind
  | move (preconditions : List Precondition) (operation : MoveOperation)
  | lifecycle (preconditions : List LifecyclePrecondition) (operation : LifecycleOperation)
  | focus (preconditions : List FocusPrecondition) (operation : FocusOperation)
  | resize (preconditions : List ResizePrecondition) (operation : ResizeOperation)
      (secondaryOperation : Option ResizeOperation)
  | drag (preconditions : List DragPrecondition) (operation : DragOperation)
deriving DecidableEq

structure Pending where
  correlationId : CorrelationId
  baseRevision : Nat
  acked : Bool
  kind : PendingKind
deriving DecidableEq

structure Reconciler where
  owner : OwnerId
  generation : GenerationId
  verifiedRevision : Nat
  verifiedFingerprint : Nat
  pending : Option Pending
  diverged : Option DivergenceKind
deriving DecidableEq

namespace Reconciler

def new (owner : OwnerId) (generation : GenerationId)
    (initialRevision initialFingerprint : Nat) : Except NewError Reconciler := do
  ensure (isOwnerId owner.asStr) .invalidOwner
  ensure (isGenerationId generation.asStr) .invalidGeneration
  ensure (isRevision initialRevision) .revisionOutOfBounds
  return { owner, generation, verifiedRevision := initialRevision,
           verifiedFingerprint := initialFingerprint, pending := none, diverged := none }

/-- Enter terminal divergence; the pending plan is discarded. -/
def diverge (r : Reconciler) (reason : DivergenceKind) : Reconciler :=
  { r with diverged := some reason, pending := none }

/-- The first check of an ordered list that fails. -/
def firstFault : List (Bool × DivergenceKind) → Option DivergenceKind
  | [] => none
  | (fault, reason) :: rest => if fault then some reason else firstFault rest

/-! ## Proposing -/

/-- The identity binding every proposal is checked against. -/
def bindingFault (r : Reconciler) (observation : Observation) (correlationId : CorrelationId) :
    Option DivergenceKind :=
  firstFault
    [(!isCorrelationId correlationId.asStr, .correlationMismatch),
     (observation.owner != r.owner, .ownerMismatch),
     (!observation.validate && !isGenerationId observation.generation.asStr, .generationMismatch),
     (!observation.validate, .staleRevision),
     (observation.generation != r.generation, .generationMismatch),
     (observation.revision != r.verifiedRevision, .staleRevision),
     (maxRevision ≤ r.verifiedRevision, .revisionExhausted)]

/-- Stage a plan after the binding and the plan's own checks. -/
def proposeWith (r : Reconciler) (observation : Observation) (correlationId : CorrelationId)
    (planFaults : List (Bool × DivergenceKind)) (kind : PendingKind) :
    Reconciler × Except ProposeError Unit :=
  match r.diverged with
  | some reason => (r, .error (.diverged reason))
  | none =>
    if r.pending.isSome then (r, .error .pendingExists)
    else
      match r.bindingFault observation correlationId <|> firstFault planFaults with
      | some reason => (r.diverge reason, .error (.diverged reason))
      | none =>
        let pending : Pending := ⟨correlationId, r.verifiedRevision, false, kind⟩
        ({ r with pending := some pending }, .ok ())

/-- The dispatch payload of a staged plan. -/
def dispatchOf {I O C P : Type} (r : Reconciler) (correlationId : CorrelationId)
    (plan : PlanOf I O C P) : DispatchOf I O C P where
  correlationId
  owner := r.owner
  generation := r.generation
  baseRevision := r.verifiedRevision
  requiredCapability := plan.requiredCapability
  preconditions := plan.preconditions
  intent := plan.intent
  operation := plan.operation

/-- The checks that a plan carries its own operation's capability and
preconditions and that the adapter supports it. -/
def planFaults {I O C P : Type} [DecidableEq C] [DecidableEq P] (plan : PlanOf I O C P)
    (required : C) (preconditions : List P) (supported : Bool) (mustVerify : P) :
    List (Bool × DivergenceKind) :=
  [(plan.requiredCapability != required, .capabilityRefused),
   (plan.preconditions != preconditions, .postconditionMismatch),
   (!supported, .capabilityRefused),
   (maxPreconditions < plan.preconditions.length || !plan.preconditions.contains mustVerify,
    .postconditionMismatch)]

def propose (r : Reconciler) (plan : MovePlan) (observation : Observation)
    (correlationId : CorrelationId) (capabilities : Capabilities) :
    Reconciler × Except ProposeError Dispatch :=
  let base : PlanOf MoveIntent MoveOperation Capability Precondition :=
    ⟨plan.intent, plan.operation, plan.requiredCapability, plan.preconditions⟩
  let (r', result) := r.proposeWith observation correlationId
    ((plan.rule != plan.operation.rule, .postconditionMismatch) ::
      planFaults base plan.operation.requiredCapability plan.operation.preconditions
        (capabilities.supports plan.operation.requiredCapability) .adapterMustVerifyPostconditions)
    (.move plan.preconditions plan.operation)
  (r', result.map fun _ => { r.dispatchOf correlationId base with rule := plan.rule })

def proposeLifecycle (r : Reconciler) (plan : LifecyclePlan) (observation : Observation)
    (correlationId : CorrelationId) (capabilities : LifecycleCapabilities) :
    Reconciler × Except ProposeError LifecycleDispatch :=
  let (r', result) := r.proposeWith observation correlationId
    ((plan.policyVersion != lifecyclePolicyVersion, .postconditionMismatch) ::
      planFaults plan.toPlanOf plan.operation.requiredCapability plan.operation.preconditions
        (capabilities.supports plan.operation.requiredCapability) .adapterMustVerifyPostconditions)
    (.lifecycle plan.preconditions plan.operation)
  (r', result.map fun _ =>
    { r.dispatchOf correlationId plan.toPlanOf with policyVersion := plan.policyVersion })

def proposeFocus (r : Reconciler) (plan : FocusPlanContract) (observation : Observation)
    (correlationId : CorrelationId) (capabilities : FocusCapabilities) :
    Reconciler × Except ProposeError FocusDispatch :=
  let (r', result) := r.proposeWith observation correlationId
    (planFaults plan plan.operation.requiredCapability plan.operation.preconditions
        (capabilities.supports plan.operation.requiredCapability) .adapterMustVerifyPostconditions ++
      [(plan.operation.fromLeaf == some plan.operation.toLeaf, .postconditionMismatch),
       -- a leafless operation rides the explicit cross-output route only
       (plan.operation.fromLeaf.isNone && !plan.operation.isCrossOutput, .postconditionMismatch),
       (plan.operation.route.isEmpty, .postconditionMismatch)])
    (.focus plan.preconditions plan.operation)
  (r', result.map fun _ => r.dispatchOf correlationId plan)

/-! ### Share operations -/

def resizeStepFor : Direction → Int
  | .right | .down => 1
  | .left | .up => -1

/-- Identity, shape and direction of a share operation, plus an adjacent-only
redistribution that preserves positivity up to one exact integer scaling of
the whole group. -/
def validFixedShareOperation (operation : ResizeOperation) : Bool :=
  let old := operation.oldShares
  let new := operation.newShares
  let fi := operation.focusedIndex
  let ni := operation.neighborIndex
  if operation.domainOutput.isEmpty || operation.domainWorkspace.isEmpty ||
      operation.focusedLeaf.isEmpty || operation.focusedWindow.isEmpty ||
      operation.targetGroup.isEmpty || operation.focusedChild.isEmpty ||
      operation.neighborChild.isEmpty then false
  else if operation.focusedChild = operation.neighborChild then false
  else if old.length < 2 ∨ new.length ≠ old.length then false
  else if old.length ≤ fi ∨ old.length ≤ ni ∨ fi = ni then false
  else if ((fi : Int) - ni).natAbs ≠ 1 then false
  else if (ni : Int) - fi ≠ resizeStepFor operation.direction then false
  else if old.contains 0 ∨ new.contains 0 then false
  else if old = new then false
  else
    match checkedTotal old, checkedTotal new, checkU64 (old.getD fi 0 + old.getD ni 0),
        checkU64 (new.getD fi 0 + new.getD ni 0) with
    | some oldTotal, some newTotal, some oldPair, some newPair =>
      if oldTotal = 0 ∨ newTotal = 0 ∨ oldPair = 0 ∨ newPair = 0 then false
      else
        -- the scale comes from the first share outside the pair, or from the
        -- pair itself in a two-child group
        let witness := (List.range old.length).find? fun i => i ≠ fi ∧ i ≠ ni
        let (oldBase, newBase) := match witness with
          | some i => (old.getD i 0, new.getD i 0)
          | none => (oldPair, newPair)
        if oldBase = 0 ∨ newBase % oldBase ≠ 0 then false
        else
          let scale := newBase / oldBase
          if scale = 0 then false
          else
            (List.range old.length).all (fun i =>
              i = fi ∨ i = ni ∨ checkU64 (old.getD i 0 * scale) = some (new.getD i 0)) &&
            (witness.isNone || checkU64 (oldPair * scale) == some newPair) &&
            checkU64 (oldTotal * scale) == some newTotal &&
            (match checkU64 (old.getD fi 0 * scale), checkU64 (old.getD ni 0 * scale) with
              | some scaledFi, some scaledNi =>
                  new.getD fi 0 != scaledFi && new.getD ni 0 != scaledNi
              | _, _ => false)
    | _, _, _, _ => false

/-- The focused share must move the way the mode says. -/
def validKeyboardResizeMode (operation : ResizeOperation) : Bool :=
  let old := operation.oldShares
  let new := operation.newShares
  let fi := operation.focusedIndex
  if old.length ≠ new.length ∨ old.length ≤ fi then false
  else
    match checkedTotal old, checkedTotal new with
    | some oldTotal, some newTotal =>
      if oldTotal = 0 ∨ newTotal = 0 ∨ newTotal % oldTotal ≠ 0 then false
      else
        let scale := newTotal / oldTotal
        if scale = 0 ∨ checkU64 (oldTotal * scale) ≠ some newTotal then false
        else
          match checkU64 (old.getD fi 0 * scale) with
          | none => false
          | some scaled =>
            match operation.mode with
            | .inwards => new.getD fi 0 < scaled
            | .outwards => scaled < new.getD fi 0
    | _, _ => false

def validResizeOperation (operation : ResizeOperation) : Bool :=
  validFixedShareOperation operation && validKeyboardResizeMode operation

/-- The operation names exactly what the intent names. -/
def resizeIntentBinds (plan : ResizePlan) : Bool :=
  plan.intent.domainOutput == plan.operation.domainOutput &&
    plan.intent.domainWorkspace == plan.operation.domainWorkspace &&
    plan.intent.focusedLeaf == plan.operation.focusedLeaf &&
    plan.intent.focusedWindow == plan.operation.focusedWindow &&
    plan.intent.direction == plan.operation.direction &&
    plan.intent.mode == plan.operation.mode

/-- The single-axis resize proposals differ in the capability they require
and in the share validity they ask for. -/
def proposeResizeWith (r : Reconciler) (plan : ResizePlan) (observation : Observation)
    (correlationId : CorrelationId) (capabilities : ResizeCapabilities)
    (required : ResizeCapability) (valid : ResizeOperation → Bool) :
    Reconciler × Except ProposeError ResizeDispatch :=
  let (r', result) := r.proposeWith observation correlationId
    (planFaults plan required plan.operation.preconditions (capabilities.supports required)
        .adapterMustVerifyPostconditions ++
      [(!resizeIntentBinds plan, .postconditionMismatch),
       (!valid plan.operation, .postconditionMismatch)])
    (.resize plan.preconditions plan.operation none)
  (r', result.map fun _ =>
    { r.dispatchOf correlationId plan with secondaryOperation := none })

def proposeResize (r : Reconciler) (plan : ResizePlan) (observation : Observation)
    (correlationId : CorrelationId) (capabilities : ResizeCapabilities) :
    Reconciler × Except ProposeError ResizeDispatch :=
  r.proposeResizeWith plan observation correlationId capabilities .keyboardResize
    validResizeOperation

def proposePointerResize (r : Reconciler) (plan : ResizePlan) (observation : Observation)
    (correlationId : CorrelationId) (capabilities : ResizeCapabilities) :
    Reconciler × Except ProposeError ResizeDispatch :=
  r.proposeResizeWith plan observation correlationId capabilities .pointerResize
    validFixedShareOperation

/-- The checks the corner route makes on each of its two axis plans. -/
def cornerPlanFaults (plan : ResizePlan) : List (Bool × DivergenceKind) :=
  [(plan.requiredCapability != .pointerResize, .capabilityRefused),
   (plan.preconditions != plan.operation.preconditions, .postconditionMismatch),
   (!resizeIntentBinds plan, .postconditionMismatch),
   (!validFixedShareOperation plan.operation, .postconditionMismatch)]

def proposePointerResizeCorner (r : Reconciler) (primary secondary : ResizePlan)
    (observation : Observation) (correlationId : CorrelationId)
    (capabilities : ResizeCapabilities) : Reconciler × Except ProposeError ResizeDispatch :=
  let (r', result) := r.proposeWith observation correlationId
    (cornerPlanFaults primary ++ cornerPlanFaults secondary ++
      [(primary.preconditions != secondary.preconditions, .postconditionMismatch),
       (Axis.forDirection primary.operation.direction ==
          Axis.forDirection secondary.operation.direction, .postconditionMismatch),
       (!capabilities.supports .pointerResize, .capabilityRefused),
       (maxPreconditions < primary.preconditions.length ||
          !primary.preconditions.contains .adapterMustVerifyPostconditions,
        .postconditionMismatch),
       (primary.intent.domainOutput != secondary.intent.domainOutput ||
          primary.intent.domainWorkspace != secondary.intent.domainWorkspace ||
          primary.intent.focusedLeaf != secondary.intent.focusedLeaf ||
          primary.intent.focusedWindow != secondary.intent.focusedWindow,
        .postconditionMismatch)])
    (.resize primary.preconditions primary.operation (some secondary.operation))
  (r', result.map fun _ =>
    { r.dispatchOf correlationId primary with secondaryOperation := some secondary.operation })

/-! ### Drag operations -/

/-- Topology-free validity of a drop. -/
def validDragOperation (operation : DragOperation) : Bool :=
  if operation.domainOutput.isEmpty || operation.domainWorkspace.isEmpty ||
      operation.sourceLeaf.isEmpty || operation.sourceWindow.isEmpty ||
      operation.targetLeaf.isEmpty || operation.targetWindow.isEmpty ||
      operation.targetGroup.isEmpty then false
  else if operation.sourceLeaf = operation.targetLeaf ∨
      operation.sourceWindow = operation.targetWindow then false
  else
    match operation.side.axis, operation.side.before with
    | some sideAxis, some sideBefore =>
      if operation.axis ≠ sideAxis ∨ operation.before ≠ sideBefore then false
      else if operation.wrap then
        match operation.newGroup with
        | none => false
        | some newGroup =>
          if newGroup.isEmpty ∨ newGroup = operation.sourceLeaf ∨
              newGroup = operation.targetLeaf ∨ newGroup = operation.targetGroup then false
          else if operation.targetGroup = operation.targetLeaf then operation.insertionIndex = 0
          else operation.targetGroup ≠ operation.sourceLeaf
      else
        operation.newGroup.isNone && operation.targetGroup != operation.sourceLeaf
    | _, _ => false

def proposeDrag (r : Reconciler) (plan : DragPlan) (observation : Observation)
    (correlationId : CorrelationId) (capabilities : DragCapabilities) :
    Reconciler × Except ProposeError DragDispatch :=
  let (r', result) := r.proposeWith observation correlationId
    (planFaults plan plan.operation.requiredCapability plan.operation.preconditions
        (capabilities.supports plan.operation.requiredCapability) .adapterMustVerifyPostconditions ++
      [(plan.intent.domainOutput != plan.operation.domainOutput ||
          plan.intent.domainWorkspace != plan.operation.domainWorkspace ||
          plan.intent.sourceLeaf != plan.operation.sourceLeaf ||
          plan.intent.sourceWindow != plan.operation.sourceWindow ||
          plan.intent.targetLeaf != plan.operation.targetLeaf ||
          plan.intent.targetWindow != plan.operation.targetWindow ||
          plan.intent.side != plan.operation.side, .postconditionMismatch),
       (!validDragOperation plan.operation, .postconditionMismatch)])
    (.drag plan.preconditions plan.operation)
  (r', result.map fun _ => r.dispatchOf correlationId plan)

/-! ## Cancelling and acknowledging -/

/-- Withdraw a pending plan that was not acknowledged. -/
def cancelUnacked (r : Reconciler) (correlationId : CorrelationId) (baseRevision : Nat) :
    Except CancelUnackedError Reconciler :=
  match r.diverged with
  | some reason => .error (.diverged reason)
  | none =>
    match r.pending with
    | none => .error .noPending
    | some pending =>
      if pending.acked then .error .alreadyAcknowledged
      else if pending.correlationId ≠ correlationId ∨ pending.baseRevision ≠ baseRevision then
        .error .bindingMismatch
      else .ok { r with pending := none }

/-- The shape and binding checks of an acknowledgement, its outcome last. -/
def ackFault (r : Reconciler) (pending : Pending) (ack : AdapterAck) : Option DivergenceKind :=
  firstFault
    [(!isCorrelationId ack.correlationId.asStr, .correlationMismatch),
     (!isOwnerId ack.owner.asStr, .ownerMismatch),
     (!isGenerationId ack.generation.asStr, .generationMismatch),
     (!isRevision ack.baseRevision, .staleRevision),
     (ack.owner != r.owner, .ownerMismatch),
     (ack.generation != r.generation, .generationMismatch),
     (ack.correlationId != pending.correlationId || ack.baseRevision != pending.baseRevision,
      .correlationMismatch),
     (ack.outcome == .refusedCapability, .capabilityRefused),
     (ack.outcome == .partialApplication, .partialApplication),
     (ack.outcome == .adapterLost, .adapterLost)]

def acknowledge (r : Reconciler) (ack : AdapterAck) : Reconciler × Except AckError AckApplied :=
  match r.diverged with
  | some reason => (r, .error (.diverged reason))
  | none =>
    match r.pending with
    | none => (r, .error .noPending)
    | some pending =>
      match r.ackFault pending ack with
      | some reason => (r.diverge reason, .error (.diverged reason))
      | none =>
        if pending.acked then (r, .ok .duplicateDiscarded)
        else ({ r with pending := some { pending with acked := true } }, .ok .accepted)

/-! ## Verifying -/

/-- The checks every post-observation passes through, in order: its shape,
its binding to the pending plan, then the family's own payload comparison. -/
def verifyFault {O P : Type} (r : Reconciler) (pending : Pending) (post : PostOf O P)
    (payloadFault : PendingKind → Option DivergenceKind) : Option DivergenceKind :=
  firstFault
    [(maxPreconditions < post.verifiedPreconditions.length, .postconditionMismatch),
     (!isCorrelationId post.correlationId.asStr, .correlationMismatch),
     (!isOwnerId post.observation.owner.asStr, .ownerMismatch),
     (!isGenerationId post.observation.generation.asStr, .generationMismatch),
     (!isRevision post.observation.revision, .staleRevision),
     (post.correlationId != pending.correlationId, .correlationMismatch),
     (post.observation.owner != r.owner, .ownerMismatch),
     (post.observation.generation != r.generation, .generationMismatch),
     (post.observation.revision != pending.baseRevision, .staleRevision),
     (!post.verified, .postconditionUnverified)] <|>
  payloadFault pending.kind <|>
  firstFault [(maxRevision ≤ pending.baseRevision, .revisionExhausted)]

def verifyWith {O P : Type} (r : Reconciler) (post : PostOf O P)
    (payloadFault : PendingKind → Option DivergenceKind) :
    Reconciler × Except VerifyError Commit :=
  match r.diverged with
  | some reason => (r, .error (.diverged reason))
  | none =>
    match r.pending with
    | none => (r, .error .noPending)
    | some pending =>
      if !pending.acked then (r, .error .notAcknowledged)
      else
        match r.verifyFault pending post payloadFault with
        | some reason => (r.diverge reason, .error (.diverged reason))
        | none =>
          let commit : Commit := ⟨pending.baseRevision + 1, post.observation.fingerprint⟩
          ({ r with verifiedRevision := commit.revision, verifiedFingerprint := commit.fingerprint,
                    pending := none }, .ok commit)

/-- Preconditions, then operation, must be exactly the dispatched ones. -/
def payloadMismatch {O P : Type} [DecidableEq O] [DecidableEq P] (post : PostOf O P)
    (preconditions : List P) (operation : O) : Option DivergenceKind :=
  firstFault
    [(post.verifiedPreconditions != preconditions, .postconditionMismatch),
     (post.verifiedOperation != operation, .postconditionMismatch)]

def verify (r : Reconciler) (post : PostObservation) : Reconciler × Except VerifyError Commit :=
  r.verifyWith post fun
    | .move preconditions operation => payloadMismatch post preconditions operation
    | _ => some .postconditionMismatch

def verifyLifecycle (r : Reconciler) (post : LifecyclePostObservation) :
    Reconciler × Except VerifyError Commit :=
  r.verifyWith post fun
    | .lifecycle preconditions operation => payloadMismatch post preconditions operation
    | _ => some .postconditionMismatch

def verifyFocus (r : Reconciler) (post : FocusPostObservation) :
    Reconciler × Except VerifyError Commit :=
  r.verifyWith post fun
    | .focus preconditions operation => payloadMismatch post preconditions operation
    | _ => some .postconditionMismatch

def verifyResize (r : Reconciler) (post : ResizePostObservation) :
    Reconciler × Except VerifyError Commit :=
  r.verifyWith post.toPostOf fun
    | .resize preconditions operation secondary =>
        payloadMismatch post.toPostOf preconditions operation <|>
          firstFault [(post.verifiedSecondaryOperation != secondary, .postconditionMismatch)]
    | _ => some .postconditionMismatch

def verifyDrag (r : Reconciler) (post : DragPostObservation) :
    Reconciler × Except VerifyError Commit :=
  r.verifyWith post fun
    | .drag preconditions operation => payloadMismatch post preconditions operation
    | _ => some .postconditionMismatch

/-! ## Explicit signals and observation commits -/

/-- Enter divergence unless one is recorded already. -/
def divergeConvergence (r : Reconciler) (reason : DivergenceKind) : Reconciler × DivergenceKind :=
  match r.diverged with
  | some existing => (r, existing)
  | none => (r.diverge reason, reason)

def noteAdapterLoss (r : Reconciler) : Reconciler × DivergenceKind :=
  r.divergeConvergence .adapterLost

def notePostconditionMismatch (r : Reconciler) : Reconciler × DivergenceKind :=
  r.divergeConvergence .postconditionMismatch

/-- Advance by one revision for an atomic observation convergence. Every
failure leaves the reconciler untouched. -/
def commitObservationConvergence (r : Reconciler) (fingerprint : Nat) :
    Except DivergenceKind (Reconciler × Commit) :=
  match r.diverged with
  | some reason => .error reason
  | none =>
    if r.pending.isSome then .error .postconditionMismatch
    else if maxRevision ≤ r.verifiedRevision then .error .revisionExhausted
    else
      let commit : Commit := ⟨r.verifiedRevision + 1, fingerprint⟩
      .ok ({ r with verifiedRevision := commit.revision,
                    verifiedFingerprint := commit.fingerprint }, commit)

end Reconciler

end PlasmaTiler
