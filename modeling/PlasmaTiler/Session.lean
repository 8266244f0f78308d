import PlasmaTiler.DesiredGeometry
import PlasmaTiler.Reconcile
import PlasmaTiler.Surgery

/-!
# The session

The authoritative state: an accepted world, the reconciler that admits one
pending plan at a time, and the desired world that plan will commit. A
proposal computes a desired world from the accepted one and hands it to
`Session.stage` together with the reconciler's verdict; nothing of it shows
in the accepted world until `applyDesired` runs on a verified commit.

An operation returns the next session together with its result, because a
failing one may have recorded a divergence.
-/

namespace PlasmaTiler

/-! ## Refusals -/

/-- Non-divergent session refusal reasons. -/
inductive RefusalKind
  | duplicateWindow
  | unknownWindow
  | unknownDomain
  | focusMismatch
  | notTiled
  | plannerNoop
  | plannerRejected
  | unsupportedCapability
  | crossDomainMismatch
  | malformedInput
  | malformedTopology
  | partialObservation
  | exceptionBehaviorUnselected
  | unchanged
  | pairBelowMinimum
deriving DecidableEq, Repr

inductive ProposeError
  | pendingExists
  | diverged (reason : DivergenceKind)
  | refused (kind : RefusalKind)
deriving DecidableEq, Repr

inductive SessionNewError
  | invalidOwner
  | invalidGeneration
  | revisionOutOfBounds
  | invalidDomain
deriving DecidableEq, Repr

/-! ## Plans -/

/-- Portable view of one logical domain. -/
structure SessionDomainView where
  output : OutputId
  workspace : WorkspaceId
  tree : Option Node
deriving DecidableEq

/-- Domain views in construction order, links in window order. -/
structure SessionSnapshot where
  domains : List SessionDomainView
  windows : List WindowLink
deriving DecidableEq

/-- What every plan family carries: its dispatch and the desired world. -/
structure SessionPlanOf (D : Type) where
  dispatch : D
  desiredSnapshot : SessionSnapshot
  desiredFocusDomain : Option DomainKey
  desiredFocusLeaf : Option NodeId
  desiredGeometry : List DesiredGeometry

abbrev SessionPlan := SessionPlanOf LifecycleDispatch
abbrev SessionMovePlan := SessionPlanOf Dispatch

structure SessionFocusPlan extends SessionPlanOf FocusDispatch where
  focusPlan : FocusPlan

structure SessionResizePlan extends SessionPlanOf ResizeDispatch where
  resizePlan : ResizePlan
  secondaryPlan : Option ResizePlan

structure SessionDragPlan extends SessionPlanOf DragDispatch where
  dragPlan : DragPlan

/-! ## State -/

/-- The world a pending plan commits. -/
structure PendingDesired where
  trees : Trees
  windows : Links
  focusedDomain : Option DomainKey
  focusedLeaf : Option NodeId
  lastActive : BTreeMap DomainKey NodeId
  exceptions : Exceptions
  retainedFloatGeometry : BTreeMap WindowId Rect
  automaticFixed : BTreeSet WindowId
  fixedTileOverride : BTreeSet WindowId

/-- Transient drag capture. -/
structure DragState where
  domain : DomainKey
  sourceLeaf : NodeId
  sourceWindow : WindowId
  revision : Nat
  generation : GenerationId
  trees : Trees
  windows : Links
  exceptions : Exceptions
  focusedDomain : Option DomainKey
  focusedLeaf : Option NodeId
  sourceRect : Rect
  workArea : Rect
  prior : Option PriorGroupEdge

/-- Trace of the last send placement. -/
structure SendPlacementTrace where
  anchorKind : String
  anchor : Option NodeId
  axis : Axis
  projected : Rect
  targetLeaves : Nat
deriving DecidableEq

structure Session where
  owner : OwnerId
  generation : GenerationId
  acceptedFingerprint : Nat
  domains : List OutputDomain
  trees : Trees
  windows : Links
  focusedDomain : Option DomainKey
  focusedLeaf : Option NodeId
  focusStack : BTreeMap DomainKey (List NodeId)
  lastActive : BTreeMap DomainKey NodeId
  exceptions : Exceptions
  retainedFloatGeometry : BTreeMap WindowId Rect
  fixedAdmission : Bool
  fixedPredicate : FixedSizePredicate
  maximizedFocusFence : Bool
  automaticFixed : BTreeSet WindowId
  fixedTileOverride : BTreeSet WindowId
  canonicalPairTargetRestore : BTreeMap NodeId NodeId
  reconciler : Reconciler
  pendingDesired : Option PendingDesired
  drag : Option DragState
  lastSendPlacement : Option SendPlacementTrace

namespace Session

/-- An empty session over explicit logical domains. -/
def new (owner : OwnerId) (generation : GenerationId)
    (initialRevision initialFingerprint : Nat) (domains : List OutputDomain) :
    Except SessionNewError Session := do
  ensure (isOwnerId owner.asStr) .invalidOwner
  ensure (isGenerationId generation.asStr) .invalidGeneration
  ensure (isRevision initialRevision) .revisionOutOfBounds
  ensure (!domains.isEmpty && domains.all OutputDomain.validate) .invalidDomain
  ensure (decide (domains.map OutputDomain.key).Nodup) .invalidDomain
  ensure (validateAdjacency domains) .invalidDomain
  let reconciler ← (Reconciler.new owner generation initialRevision
    initialFingerprint).mapError fun _ => .revisionOutOfBounds
  return {
    owner, generation, domains, reconciler
    acceptedFingerprint := initialFingerprint
    trees := domains.foldl (fun trees d => trees.insert d.key none) ∅
    windows := ∅
    focusedDomain := none
    focusedLeaf := none
    focusStack := ∅
    lastActive := ∅
    exceptions := ∅
    retainedFloatGeometry := ∅
    fixedAdmission := false
    fixedPredicate := .bothAxes
    maximizedFocusFence := false
    automaticFixed := ∅
    fixedTileOverride := ∅
    canonicalPairTargetRestore := ∅
    pendingDesired := none
    drag := none
    lastSendPlacement := none }

/-! ## Views -/

def acceptedRevision (s : Session) : Nat := s.reconciler.verifiedRevision

def divergence (s : Session) : Option DivergenceKind := s.reconciler.diverged

def hasPending (s : Session) : Bool := s.reconciler.pending.isSome

def hasPendingDesired (s : Session) : Bool := s.pendingDesired.isSome

def hasDrag (s : Session) : Bool := s.drag.isSome

def validateCurrentTopology (s : Session) : Bool :=
  validateTopology s.domains s.trees s.windows s.exceptions s.focusedDomain s.focusedLeaf

def domainFor (s : Session) (output : OutputId) (workspace : WorkspaceId) :
    Option OutputDomain :=
  s.domains.find? fun d => d.id == output && d.workspace == workspace

def domainAt (s : Session) (key : DomainKey) : Option OutputDomain :=
  s.domains.find? (·.key == key)

def allNodeIds (s : Session) : BTreeSet NodeId :=
  .ofList ((values s.trees).flatMap fun tree => (tree.map Node.ids).getD [])

def snapshotFor (s : Session) (trees : Trees) (windows : Links) : SessionSnapshot where
  domains := s.domains.map fun d => ⟨d.id, d.workspace, treeAt trees d.key⟩
  windows := values windows

/-- The window linked to a leaf of a domain. -/
def focusedWindowFor (s : Session) (leaf : NodeId) (key : DomainKey) : Option WindowId :=
  ((values s.windows).find? fun l => l.leaf == leaf && l.output == key.output &&
    l.workspace == key.workspace).map WindowLink.window

/-- The focused leaf, when it is in this domain and resolves. -/
def eligibleFocusIn (s : Session) (key : DomainKey) : Option NodeId :=
  if s.focusedDomain ≠ some key then none
  else s.focusedLeaf.filter fun leaf => validFocus s.trees s.windows (some key) (some leaf)

/-- The leaf last active in a domain, when it still resolves. -/
def rememberedLeaf (s : Session) (target : DomainKey) : Option NodeId :=
  s.lastActive[target]?.filter fun leaf => validFocus s.trees s.windows (some target) (some leaf)

/-- The most recent leaf of the domain's focus stack that resolves. -/
def focusStackFallback (s : Session) (domain : DomainKey) (trees : Trees) (windows : Links) :
    Option NodeId :=
  s.focusStack[domain]?.bind fun leaves => leaves.reverse.find? fun leaf =>
    validFocus trees windows (some domain) (some leaf)

/-- The stacks without leaves that no longer resolve, the focus on top. -/
def updatedFocusStack (s : Session) (focusDomain : Option DomainKey) (focusLeaf : Option NodeId)
    (trees : Trees) (windows : Links) : BTreeMap DomainKey (List NodeId) :=
  let next := s.focusStack.filterMap fun domain leaves =>
    let kept := leaves.filter fun leaf => validFocus trees windows (some domain) (some leaf)
    if kept.isEmpty then none else some kept
  match focusDomain, focusLeaf with
  | some domain, some leaf =>
    next.insert domain ((next[domain]?.getD []).filter (· ≠ leaf) ++ [leaf])
  | _, _ => next

/-- The focus becomes the domain's last active leaf, when it resolves. -/
def updatedLastActive (s : Session) (focusDomain : Option DomainKey) (focusLeaf : Option NodeId)
    (trees : Trees) (windows : Links) : BTreeMap DomainKey NodeId :=
  match focusDomain, focusLeaf with
  | some domain, some leaf =>
    if validFocus trees windows (some domain) (some leaf) then s.lastActive.insert domain leaf
    else s.lastActive
  | _, _ => s.lastActive

/-! ## Observations -/

/-- The ids the session knows, tiled or not. -/
def knownWindows (s : Session) : BTreeSet WindowId :=
  .ofList (s.windows.keys ++ s.exceptions.keys)

def isKnown (s : Session) (window : WindowId) : Bool :=
  s.windows.contains window || s.exceptions.contains window

/-- Every known window is observed at its home with the flags it is stored
with. With fixed-size admission on, only the floating flag binds. -/
def observedKnownMatch (s : Session) (observed : List ObservedWindow)
    (admitNew : Option WindowId) : Bool :=
  let byId : BTreeMap WindowId ObservedWindow :=
    observed.foldl (fun byId entry => byId.insert entry.window entry) ∅
  s.windows.toList.all (fun (id, link) =>
    match byId[id]? with
    | none => false
    | some entry => entry.output == link.output && entry.workspace == link.workspace &&
        if s.fixedAdmission then !entry.floating else !entry.flags.any) &&
  s.exceptions.toList.all fun (id, record) =>
    some id == admitNew ||
      match byId[id]? with
      | none => false
      | some entry => entry.output == record.output && entry.workspace == record.workspace &&
          if s.fixedAdmission then entry.floating == record.flags.floating
          else entry.flags == record.flags

end Session

def observedIds (observed : List ObservedWindow) : BTreeSet WindowId :=
  .ofList (observed.map ObservedWindow.window)

/-- Nonempty ids, each window once. -/
def validObservedShapes (observed : List ObservedWindow) : Bool :=
  observed.all (fun e => !e.window.isEmpty && !e.output.isEmpty && !e.workspace.isEmpty) &&
    decide (observed.map ObservedWindow.window).Nodup

namespace Session

/-- Every observed window is homed on a known domain. -/
def observedHomed (s : Session) (observed : List ObservedWindow) : Bool :=
  observed.all fun entry => (s.domainFor entry.output entry.workspace).isSome

/-! ## The transaction -/

/-- Run a computed plan, or fail without touching the session. -/
def attempt {σ α : Type} (s : Session) (plan : Except ProposeError σ)
    (act : σ → Session × Except ProposeError α) : Session × Except ProposeError α :=
  match plan with
  | .error e => (s, .error e)
  | .ok a => act a

/-- A refusal. -/
def refuseUnless (c : Bool) (kind : RefusalKind) : Except ProposeError Unit :=
  ensure c (.refused kind)

/-- The observed windows are exactly the known ones, each as it is stored. -/
def checkComplete (s : Session) (observed : List ObservedWindow) : Except ProposeError Unit := do
  refuseUnless (decide (observedIds observed = s.knownWindows)) .partialObservation
  refuseUnless (s.observedKnownMatch observed none) .partialObservation

/-- Shape and homing of the observed windows. -/
def checkObserved (s : Session) (observed : List ObservedWindow) : Except ProposeError Unit := do
  refuseUnless (validObservedShapes observed) .malformedInput
  refuseUnless (s.observedHomed observed) .crossDomainMismatch

/-- A known window outside the exceptions. -/
def checkTiled (s : Session) (window : WindowId) : Except ProposeError Unit := do
  refuseUnless (s.isKnown window) .unknownWindow
  refuseUnless (!s.exceptions.contains window) .notTiled

/-- What every proposal checks first. -/
def checkIdle (s : Session) : Except ProposeError Unit :=
  match s.divergence with
  | some reason => .error (.diverged reason)
  | none => ensure (!s.hasPending && !s.hasDrag) .pendingExists

/-- Take the reconciler's verdict on a plan: stage the desired world, or
discard everything transient on divergence. -/
def stage {D : Type} (s : Session) (verdict : Reconciler × Except Reconciler.ProposeError D)
    (desired : PendingDesired) : Session × Except ProposeError D :=
  match verdict with
  | (reconciler, .ok dispatch) =>
    ({ s with reconciler, pendingDesired := some desired }, .ok dispatch)
  | (reconciler, .error .pendingExists) => ({ s with reconciler }, .error .pendingExists)
  | (reconciler, .error (.diverged reason)) =>
    ({ s with reconciler, pendingDesired := none, drag := none }, .error (.diverged reason))

/-- The plan reported for a staged desired world. -/
def planOf {D : Type} (s : Session) (dispatch : D) (desired : PendingDesired)
    (geometry : List DesiredGeometry) : SessionPlanOf D where
  dispatch
  desiredSnapshot := s.snapshotFor desired.trees desired.windows
  desiredFocusDomain := desired.focusedDomain
  desiredFocusLeaf := desired.focusedLeaf
  desiredGeometry := geometry

/-- The accepted world as a desired one. -/
def accepted (s : Session) : PendingDesired where
  trees := s.trees
  windows := s.windows
  focusedDomain := s.focusedDomain
  focusedLeaf := s.focusedLeaf
  lastActive := s.lastActive
  exceptions := s.exceptions
  retainedFloatGeometry := s.retainedFloatGeometry
  automaticFixed := s.automaticFixed
  fixedTileOverride := s.fixedTileOverride

/-- What a planned operation asks for: its plan, the world it stages and the
rectangles it reports. -/
structure Staging (P : Type) where
  plan : P
  desired : PendingDesired
  geometry : List DesiredGeometry

/-- Propose what was planned: a refused plan leaves the session alone, and the
reconciler decides about any other. -/
def proposeStaged {P D R : Type} (s : Session) (planned : Except ProposeError (Staging P))
    (verdict : P → Reconciler × Except Reconciler.ProposeError D) (report : D → Staging P → R) :
    Session × Except ProposeError R :=
  s.attempt planned fun staging =>
    match s.stage (verdict staging.plan) staging.desired with
    | (s', result) => (s', result.map fun dispatch => report dispatch staging)

/-- Drop fixed-size bookkeeping of windows that left. -/
def pruneFixedSizeState (s : Session) : Session :=
  { s with automaticFixed := retain s.automaticFixed s.isKnown,
           fixedTileOverride := retain s.fixedTileOverride s.isKnown }

/-- Commit the desired world of a verified plan. -/
def applyDesired (s : Session) (desired : PendingDesired) (commit : Commit) : Session :=
  pruneFixedSizeState
    { s with trees := desired.trees
             windows := desired.windows
             focusedDomain := desired.focusedDomain
             focusedLeaf := desired.focusedLeaf
             focusStack := s.updatedFocusStack desired.focusedDomain desired.focusedLeaf
               desired.trees desired.windows
             lastActive := desired.lastActive
             exceptions := desired.exceptions
             retainedFloatGeometry := desired.retainedFloatGeometry
             automaticFixed := desired.automaticFixed
             fixedTileOverride := desired.fixedTileOverride
             acceptedFingerprint := commit.fingerprint
             pendingDesired := none }

/-- The shared verification: apply the desired world on a commit, discard
everything transient on divergence. -/
def verifyWith (s : Session) (verdict : Reconciler × Except VerifyError Commit) :
    Session × Except VerifyError Commit :=
  match verdict with
  | (reconciler, .ok commit) =>
    let s := { s with reconciler }
    match s.pendingDesired with
    | some desired => (s.applyDesired desired commit, .ok commit)
    | none => (s, .ok commit)
  | (reconciler, .error (.diverged reason)) =>
    ({ s with reconciler, pendingDesired := none, drag := none }, .error (.diverged reason))
  | (reconciler, .error e) => ({ s with reconciler }, .error e)

def acknowledge (s : Session) (ack : AdapterAck) : Session × Except AckError AckApplied :=
  match s.reconciler.acknowledge ack with
  | (reconciler, .ok applied) => ({ s with reconciler }, .ok applied)
  | (reconciler, .error .noPending) => ({ s with reconciler }, .error .noPending)
  | (reconciler, .error (.diverged reason)) =>
    ({ s with reconciler, pendingDesired := none, drag := none }, .error (.diverged reason))

/-- Withdraw an unacknowledged pending plan without recording divergence. -/
def cancelUnackedPending (s : Session) (correlationId : CorrelationId) (baseRevision : Nat) :
    Session × Except CancelUnackedError Unit :=
  if s.hasDrag then (s, .error .dragActive)
  else
    match s.reconciler.cancelUnacked correlationId baseRevision with
    | .ok reconciler => ({ s with reconciler, pendingDesired := none }, .ok ())
    | .error e => (s, .error e)

def verifyLifecycle (s : Session) (post : LifecyclePostObservation) :
    Session × Except VerifyError Commit :=
  s.verifyWith (s.reconciler.verifyLifecycle post)

def verifyMove (s : Session) (post : PostObservation) : Session × Except VerifyError Commit :=
  s.verifyWith (s.reconciler.verify post)

def verifyFocus (s : Session) (post : FocusPostObservation) :
    Session × Except VerifyError Commit :=
  s.verifyWith (s.reconciler.verifyFocus post)

def verifyResize (s : Session) (post : ResizePostObservation) :
    Session × Except VerifyError Commit :=
  s.verifyWith (s.reconciler.verifyResize post)

/-- A drag commit leaves the last active leaves as they are. -/
def verifyDrag (s : Session) (post : DragPostObservation) : Session × Except VerifyError Commit :=
  match s.verifyWith (s.reconciler.verifyDrag post) with
  | (s', .ok commit) => ({ s' with lastActive := s.lastActive }, .ok commit)
  | (s', .error e) => (s', .error e)

def noteAdapterLoss (s : Session) : Session × DivergenceKind :=
  let (reconciler, reason) := s.reconciler.noteAdapterLoss
  ({ s with reconciler, pendingDesired := none, drag := none }, reason)

def notePostconditionMismatch (s : Session) : Session × DivergenceKind :=
  let (reconciler, reason) := s.reconciler.notePostconditionMismatch
  ({ s with reconciler, pendingDesired := none, drag := none }, reason)

end Session

end PlasmaTiler
