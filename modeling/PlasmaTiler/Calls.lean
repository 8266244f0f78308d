import PlasmaTiler.Pair
import PlasmaTiler.Runs

/-!
# Calls

The session as a machine: one operation per public entry point that changes
it. The proposals are grouped apart, since they share one shape: a plan is
computed, the reconciler decides, and what the caller gets back names the
transaction by correlation id and base revision.

A call never fails to leave a session behind, whatever it answers, so `next`
is a total function and a run is a list of operations. `Reachable` is what a
client can bring about from any new session in any order of calls; what is
proved of all sessions is proved of these.

`set_policy` has nothing to choose between, and `reproject_domain` is not an
operation here: it stores unchecked bounds.
-/

namespace PlasmaTiler

/-! ## Proposals -/

/-- How a caller names the transaction a plan opened. -/
structure PlanBinding where
  correlationId : CorrelationId
  baseRevision : Nat
deriving DecidableEq

def DispatchOf.binding {I O C P : Type} (d : DispatchOf I O C P) : PlanBinding :=
  ⟨d.correlationId, d.baseRevision⟩

/-- The calls that propose a plan. -/
inductive Proposal
  | command (command : SessionCommand) (observed : SessionObservation)
      (correlationId : CorrelationId) (capabilities : LifecycleCapabilities)
  | toggleOrientation (window : WindowId) (observed : SessionObservation)
      (correlationId : CorrelationId) (capabilities : LifecycleCapabilities)
  | fittedAdmit (fitted : FittedAdmit) (observed : SessionObservation)
      (correlationId : CorrelationId) (capabilities : LifecycleCapabilities)
  | move (domain : DomainKey) (window : WindowId) (direction : Direction)
      (observed : SessionObservation) (correlationId : CorrelationId)
      (capabilities : Capabilities) (sameAxisMove : SameAxisMove)
  | focus (domain : DomainKey) (window : WindowId) (direction : Direction)
      (observed : SessionObservation) (correlationId : CorrelationId)
      (capabilities : FocusCapabilities)
  | crossOutputFocus (domain : DomainKey) (window : WindowId) (direction : Direction)
      (observed : SessionObservation) (correlationId : CorrelationId)
      (capabilities : FocusCapabilities)
  | floatCrossOutputFocus (domain : DomainKey) (window : WindowId) (direction : Direction)
      (observed : SessionObservation) (correlationId : CorrelationId)
      (capabilities : FocusCapabilities)
  | resize (domain : DomainKey) (window : WindowId) (direction : Direction) (mode : ResizeMode)
      (pressIndex : Nat) (observed : SessionObservation) (correlationId : CorrelationId)
      (capabilities : ResizeCapabilities)
  | pointerResize (domain : DomainKey) (window : WindowId) (direction : Direction)
      (boundary : Int) (observed : SessionObservation) (correlationId : CorrelationId)
      (capabilities : ResizeCapabilities)
  | pointerResizeCorner (domain : DomainKey) (window : WindowId) (directionH : Direction)
      (boundaryH : Int) (directionV : Direction) (boundaryV : Int) (observed : SessionObservation)
      (correlationId : CorrelationId) (capabilities : ResizeCapabilities)
  | dropDrag (x y : Int) (observed : SessionObservation) (correlationId : CorrelationId)
      (capabilities : DragCapabilities)

namespace Session

/-- A call with its result reduced to what a caller names the plan by. -/
def bound {P : Type} (call : Session × Except ProposeError P) (binding : P → Option PlanBinding) :
    Session × Except ProposeError (Option PlanBinding) :=
  (call.1, call.2.map binding)

/-- Run a proposal. A drop that snaps back succeeds without a plan. -/
def proposal (s : Session) : Proposal → Session × Except ProposeError (Option PlanBinding)
  | .command command observed correlationId capabilities =>
      bound (s.propose command observed correlationId capabilities) (some ·.dispatch.binding)
  | .toggleOrientation window observed correlationId capabilities =>
      bound (s.proposeToggleOrientation window observed correlationId capabilities)
        (some ·.dispatch.binding)
  | .fittedAdmit fitted observed correlationId capabilities =>
      bound (s.proposeFittedAdmit fitted observed correlationId capabilities)
        (some ·.dispatch.binding)
  | .move domain window direction observed correlationId capabilities sameAxisMove =>
      bound (s.proposeMoveWithSameAxis domain window direction observed correlationId capabilities
        sameAxisMove) (some ·.dispatch.binding)
  | .focus domain window direction observed correlationId capabilities =>
      bound (s.proposeFocus domain window direction observed correlationId capabilities)
        (some ·.dispatch.binding)
  | .crossOutputFocus domain window direction observed correlationId capabilities =>
      bound (s.proposeCrossOutputFocus domain window direction observed correlationId capabilities)
        (some ·.dispatch.binding)
  | .floatCrossOutputFocus domain window direction observed correlationId capabilities =>
      bound (s.proposeFloatCrossOutputFocus domain window direction observed correlationId
        capabilities) (some ·.dispatch.binding)
  | .resize domain window direction mode pressIndex observed correlationId capabilities =>
      bound (s.proposeResize domain window direction mode pressIndex observed correlationId
        capabilities) (some ·.dispatch.binding)
  | .pointerResize domain window direction boundary observed correlationId capabilities =>
      bound (s.proposePointerResize domain window direction boundary observed correlationId
        capabilities) (some ·.dispatch.binding)
  | .pointerResizeCorner domain window directionH boundaryH directionV boundaryV observed
      correlationId capabilities =>
      bound (s.proposePointerResizeCorner domain window directionH boundaryH directionV boundaryV
        observed correlationId capabilities) (some ·.dispatch.binding)
  | .dropDrag x y observed correlationId capabilities =>
      bound (s.dropDrag x y observed correlationId capabilities) fun
        | .planned plan => some plan.dispatch.binding
        | .snapBack _ => none

end Session

/-! ## Operations -/

/-- The post-observation of each plan family. -/
inductive Verification
  | lifecycle (post : LifecyclePostObservation)
  | move (post : PostObservation)
  | focus (post : FocusPostObservation)
  | resize (post : ResizePostObservation)
  | drag (post : DragPostObservation)

def Session.verification (s : Session) : Verification → Session × Except VerifyError Commit
  | .lifecycle post => s.verifyLifecycle post
  | .move post => s.verifyMove post
  | .focus post => s.verifyFocus post
  | .resize post => s.verifyResize post
  | .drag post => s.verifyDrag post

/-- The public entry points that change a session. -/
inductive SessionOp
  | propose (p : Proposal)
  | acknowledge (ack : AdapterAck)
  | verify (v : Verification)
  | cancelUnackedPending (correlationId : CorrelationId) (baseRevision : Nat)
  | noteAdapterLoss
  | notePostconditionMismatch
  | convergeObservation (observation : SessionObservation) (observedFocus : Option WindowId)
  | updateDomainGaps (key : DomainKey) (bounds : Rect) (gap : Int)
  | relocateDomain (source target : DomainKey) (bounds : Rect) (gap : Int)
  | syncFocusFromWindow (domain : DomainKey) (window : WindowId)
  | beginDrag (window : WindowId) (observed : SessionObservation)
  | carryDragPrior (carried : DragHoverPrior)
  | previewDrag (x y : Int) (observed : List ObservedWindow)
  | cancelDrag
  | setFixedSizeAdmission (enabled : Bool)
  | setMaximizedFocusFence (enabled : Bool)
  | setFixedSizePredicate (predicate : FixedSizePredicate)

namespace Session

/-- The session after a call, successful or not. -/
def next (s : Session) : SessionOp → Session
  | .propose p => (s.proposal p).1
  | .acknowledge ack => (s.acknowledge ack).1
  | .verify v => (s.verification v).1
  | .cancelUnackedPending correlationId baseRevision =>
      (s.cancelUnackedPending correlationId baseRevision).1
  | .noteAdapterLoss => s.noteAdapterLoss.1
  | .notePostconditionMismatch => s.notePostconditionMismatch.1
  | .convergeObservation observation observedFocus =>
      (s.convergeObservation observation observedFocus).1
  | .updateDomainGaps key bounds gap => (s.updateDomainGaps key bounds gap).1
  | .relocateDomain source target bounds gap => (s.relocateDomain source target bounds gap).1
  | .syncFocusFromWindow domain window => (s.syncFocusFromWindow domain window).1
  | .beginDrag window observed => (s.beginDrag window observed).1
  | .carryDragPrior carried => (s.carryDragPrior carried).1
  | .previewDrag x y observed => (s.previewDrag x y observed).1
  | .cancelDrag => s.cancelDrag.1
  | .setFixedSizeAdmission enabled => s.setFixedSizeAdmission enabled
  | .setMaximizedFocusFence enabled => s.setMaximizedFocusFence enabled
  | .setFixedSizePredicate predicate => s.setFixedSizePredicate predicate

/-- Any session a client built over domains of its choice, under any identity
and at any revision the constructor takes. -/
def IsNew (s : Session) : Prop :=
  ∃ owner generation revision fingerprint domains,
    new owner generation revision fingerprint domains = .ok s

/-- The session machine. -/
def machine : Machine Session SessionOp where
  initial := IsNew
  next := next

/-- The sessions a client can bring about. -/
abbrev Reachable : Session → Prop := machine.Reachable

end Session

namespace Session

/-- What a new session is: valid domains, each with an empty tree slot, and
nothing else. -/
structure Blank (s : Session) : Prop where
  domains_ne : s.domains ≠ []
  domain_valid : ∀ d ∈ s.domains, d.validate = true
  keys_nodup : (s.domains.map OutputDomain.key).Nodup
  adjacency : validateAdjacency s.domains = true
  trees : s.trees = s.domains.foldl (fun trees d => trees.insert d.key none) ∅
  windows : s.windows = ∅
  exceptions : s.exceptions = ∅
  focusedDomain : s.focusedDomain = none
  focusedLeaf : s.focusedLeaf = none
  focusStack : s.focusStack = ∅
  lastActive : s.lastActive = ∅
  divergence : s.divergence = none
  pending : s.hasPending = false
  desired : s.pendingDesired = none
  drag : s.drag = none

theorem new_ok {owner : OwnerId} {generation : GenerationId} {revision fingerprint : Nat}
    {domains : List OutputDomain} {s : Session}
    (h : new owner generation revision fingerprint domains = .ok s) :
    Blank s ∧ s.owner = owner ∧ s.generation = generation ∧ s.acceptedRevision = revision ∧
      s.acceptedFingerprint = fingerprint ∧ s.domains = domains := by
  simp only [new, Reconciler.new, bind_eq_ok, ensure_eq_ok, mapError_eq_ok, pure_eq_ok,
    decide_eq_true_eq, Bool.and_eq_true, Bool.not_eq_true', List.isEmpty_eq_false_iff,
    List.all_eq_true] at h
  obtain ⟨_, -, _, -, _, -, _, ⟨hne, hvalid⟩, _, hnodup, _, hadjacency, r, ⟨_, -, _, -, _, -, rfl⟩,
    rfl⟩ := h
  exact ⟨⟨hne, hvalid, hnodup, hadjacency, rfl, rfl, rfl, rfl, rfl, rfl, rfl, rfl, rfl, rfl, rfl⟩,
    rfl, rfl, rfl, rfl, rfl⟩

theorem IsNew.blank {s : Session} (h : IsNew s) : Blank s := by
  obtain ⟨_, _, _, _, _, hnew⟩ := h
  exact (new_ok hnew).1

end Session

/-! ## Sample sessions -/

namespace Sample

def owner : OwnerId := ⟨"owner", by decide +kernel⟩

def generation : GenerationId := ⟨"g1", by decide +kernel⟩

def correlationId : CorrelationId := ⟨"c1", by decide +kernel⟩

/-- A 1000 by 800 output without neighbors. -/
def domain (output workspace : String) : OutputDomain := ⟨⟨output⟩, ⟨workspace⟩, ⟨0, 0, 1000, 800⟩, 8, ∅⟩

/-- A plain window on workspace 1 of output A. -/
def window (raw : String) : ObservedWindow :=
  ⟨⟨raw⟩, ⟨"A"⟩, ⟨"1"⟩, false, false, false, false, false, false, {}⟩

def observation (revision : Nat) (windows : List ObservedWindow) : SessionObservation :=
  ⟨⟨owner, generation, revision, 0⟩, windows⟩

def lifecycle : LifecycleCapabilities := ⟨true, true, true, true⟩

theorem one_domain_new : (Session.new owner generation 0 0 [domain "A" "1"]).toOption.isSome = true := by
  decide +kernel

/-- The fresh session over some domains. -/
def session (domains : List OutputDomain)
    (h : (Session.new owner generation 0 0 domains).toOption.isSome = true) : Session :=
  (Session.new owner generation 0 0 domains).toOption.get h

/-- What a run from a fresh session reaches. -/
theorem session_reachable {domains : List OutputDomain}
    (h : (Session.new owner generation 0 0 domains).toOption.isSome = true)
    (ops : List SessionOp) : Session.Reachable (Session.machine.run (session domains h) ops) := by
  have hget : ∀ {x : Except SessionNewError Session} (h : x.toOption.isSome = true),
      x = .ok (x.toOption.get h) := by
    intro x h
    cases x with
    | ok s => rfl
    | error e => cases h
  have hnew : Session.IsNew (session domains h) := ⟨owner, generation, 0, 0, domains, hget h⟩
  exact Machine.Reachable.run (.initial hnew) ops

end Sample

end PlasmaTiler
