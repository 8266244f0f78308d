import PlasmaTiler.Convergence

/-!
# Fitted admission

The one entry that stages a whole tree at once: an empty single-domain
session adopts a tree fitted to windows that are already on screen. It goes
through the same lifecycle admission as any other window.

The links of the tree come from the caller. They are checked to be homed on
the domain, one for each window, and the world is validated as a whole before
it is staged; what is observed must be plain tiles of the domain.
-/

namespace PlasmaTiler

/-- A fitted topology with the window whose leaf gets the focus. -/
structure FittedAdmit where
  tree : Node
  links : List WindowLink
  focusLeaf : NodeId
  window : WindowId
  output : OutputId
  workspace : WorkspaceId

def FittedAdmit.key (f : FittedAdmit) : DomainKey := ⟨f.output, f.workspace⟩

namespace Session

/-- Collect the fitted links: all homed on the domain, one per window. -/
def fittedLinks (key : DomainKey) : List WindowLink → Links → Except ProposeError Links
  | [], windows => .ok windows
  | link :: links, windows => do
    refuseUnless (!link.window.isEmpty && !link.leaf.isEmpty) .malformedTopology
    refuseUnless (link.key == key) .crossDomainMismatch
    refuseUnless (!windows.contains link.window) .duplicateWindow
    fittedLinks key links (windows.insert link.window link)

/-- Every observed window is a plain one homed on the domain. -/
def checkFittedObserved (key : DomainKey) : List ObservedWindow → Except ProposeError Unit
  | [] => .ok ()
  | entry :: entries => do
    refuseUnless (entry.key == key) .crossDomainMismatch
    refuseUnless (!entry.flags.any) .partialObservation
    checkFittedObserved key entries

/-- Nothing recorded, pending, staged or dragged. -/
def checkSettled (s : Session) : Except ProposeError Unit :=
  match s.divergence with
  | some reason => .error (.diverged reason)
  | none => ensure (!s.hasPending && !s.hasPendingDesired && !s.hasDrag) .pendingExists

def planFittedAdmit (s : Session) (f : FittedAdmit) (observed : SessionObservation) :
    Except ProposeError (Staging LifecyclePlan) := do
  s.checkSettled
  refuseUnless s.validateCurrentTopology .malformedTopology
  refuseUnless (s.domains.length == 1 && s.windows.isEmpty && s.exceptions.isEmpty)
    .malformedTopology
  refuseUnless (decide (2 ≤ f.links.length)) .malformedTopology
  refuseUnless (validObservedShapes observed.windows) .malformedInput
  let domain ← okOr (.refused .malformedTopology) s.domains.head?
  let key := domain.key
  refuseUnless (f.key == key) .crossDomainMismatch
  checkFittedObserved key observed.windows
  let windows ← fittedLinks key f.links ∅
  let focusLink ← okOr (.refused .partialObservation) windows[f.window]?
  refuseUnless (focusLink.leaf == f.focusLeaf) .malformedTopology
  refuseUnless (decide (observedIds observed.windows = .ofList windows.keys)) .partialObservation
  let trees : Trees := (∅ : Trees).insert key (some f.tree)
  refuseUnless (validateTopology s.domains trees windows s.exceptions (some key) (some f.focusLeaf))
    .malformedTopology
  let geometry ← (projectOutputGeometry (s.domainFor f.output f.workspace) (some f.tree) windows key
    (hintsFromObserved observed.windows)).mapError fun _ => .refused .malformedTopology
  refuseUnless (!geometry.isEmpty) .malformedTopology
  return {
    plan := .forOperation (.admitTiled f.window f.output f.workspace)
      (.admitTiled f.window f.focusLeaf f.output f.workspace)
    desired := { s.accepted with
      trees, windows
      focusedDomain := some key
      focusedLeaf := some f.focusLeaf
      lastActive := s.updatedLastActive (some key) (some f.focusLeaf) trees windows }
    geometry }

def proposeFittedAdmit (s : Session) (f : FittedAdmit) (observed : SessionObservation)
    (correlationId : CorrelationId) (capabilities : LifecycleCapabilities) :
    Session × Except ProposeError SessionPlan :=
  s.proposeLifecyclePlan (s.planFittedAdmit f observed) observed.observation correlationId
    capabilities

end Session

end PlasmaTiler
