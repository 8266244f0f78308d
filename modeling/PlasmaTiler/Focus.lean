import PlasmaTiler.Move

/-!
# Directional focus

Focus moves within a domain's tree, and from an exhausted edge, or from a
float, to the adjacent output. Neither touches a tree or a link: the desired
world differs from the accepted one in its focus only.

A maximized window fences the focus in where the setting says so. A crossing
looks for the domain of the adjacent output, which must be the only one there
and name the source back; it enters at the leaf that domain remembers, and is
refused where that domain is empty.
-/

namespace PlasmaTiler

namespace Session

/-- The maximized fence: with the opt-in on, focus does not leave a maximized
window. -/
def fenced (s : Session) (window : WindowId) (observed : List ObservedWindow) : Bool :=
  s.maximizedFocusFence &&
    (observed.find? (·.window == window)).any fun entry => entry.maximized && !entry.fullscreen

/-- The accepted world with the focus at a leaf of a domain. -/
def refocused (s : Session) (domain : DomainKey) (leaf : NodeId) : PendingDesired :=
  { s.accepted with
    focusedDomain := some domain
    focusedLeaf := some leaf
    lastActive := s.updatedLastActive (some domain) (some leaf) s.trees s.windows }

/-- Geometry of the unmodified world, complete over the affected domains. -/
def currentGeometry (s : Session) (affected : List DomainKey) (observed : List ObservedWindow) :
    Except ProposeError (List DesiredGeometry) := do
  let geometry ← (projectAffectedGeometry s.domains s.trees s.windows affected
    (hintsFromObserved observed)).mapError fun _ => .refused .malformedTopology
  refuseUnless (geometryCoversAffected geometry s.windows affected) .malformedTopology
  return geometry

/-- What both focus proposals check of the session and the observation. -/
def checkFocusRequest (s : Session) (domain : DomainKey) (window : WindowId)
    (observed : List ObservedWindow) : Except ProposeError Unit := do
  refuseUnless (s.domainAt domain).isSome .unknownDomain
  refuseUnless s.validateCurrentTopology .malformedTopology
  refuseUnless (!window.isEmpty) .malformedInput
  s.checkObserved observed
  s.checkComplete observed
  refuseUnless (s.isKnown window) .unknownWindow

def planFocusIn (s : Session) (domain : DomainKey) (window : WindowId) (direction : Direction)
    (observed : SessionObservation) (capabilities : FocusCapabilities) :
    Except ProposeError (Staging (FocusPlanContract × FocusPlan)) := do
  s.checkIdle
  s.checkFocusRequest domain window observed.windows
  refuseUnless (!s.exceptions.contains window) .notTiled
  let focusedLeaf ← s.checkFocusIs domain window false
  refuseUnless (!s.fenced window observed.windows) .unchanged
  let tree ← okOr (.refused .focusMismatch) (treeAt s.trees domain)
  let focusPlan ← okOr (.refused .malformedTopology) (planFocus tree focusedLeaf direction)
  match focusPlan with
  | .edge => .error (.refused .unchanged)
  | .focused targetLeaf route =>
    let targetWindow ← okOr (.refused .malformedTopology) (s.focusedWindowFor targetLeaf domain)
    refuseUnless (!s.exceptions.contains targetWindow) .malformedTopology
    refuseUnless (targetLeaf != focusedLeaf) .unchanged
    refuseUnless (capabilities.supports .directionalFocus) .unsupportedCapability
    let geometry ← s.currentGeometry [domain] observed.windows
    return {
      plan := (.forOperation
        { domainOutput := domain.output, domainWorkspace := domain.workspace
          focusedLeaf := some focusedLeaf, focusedWindow := window, direction }
        { domainOutput := domain.output, domainWorkspace := domain.workspace
          fromLeaf := some focusedLeaf, toLeaf := targetLeaf
          fromWindow := window, toWindow := targetWindow, direction, route
          crossSourceOutput := none, crossSourceWorkspace := none }, focusPlan)
      desired := s.refocused domain targetLeaf
      geometry }

def proposeFocusPlan (s : Session)
    (planned : Except ProposeError (Staging (FocusPlanContract × FocusPlan)))
    (observation : Observation) (correlationId : CorrelationId)
    (capabilities : FocusCapabilities) : Session × Except ProposeError SessionFocusPlan :=
  s.proposeStaged planned
    (fun (plan, _) => s.reconciler.proposeFocus plan observation correlationId capabilities)
    fun dispatch staging =>
      { s.planOf dispatch staging.desired staging.geometry with focusPlan := staging.plan.2 }

def proposeFocus (s : Session) (domain : DomainKey) (window : WindowId) (direction : Direction)
    (observed : SessionObservation) (correlationId : CorrelationId)
    (capabilities : FocusCapabilities) : Session × Except ProposeError SessionFocusPlan :=
  s.proposeFocusPlan (s.planFocusIn domain window direction observed capabilities)
    observed.observation correlationId capabilities

/-! ## Crossing to the adjacent output -/

/-- A floating subject: an exception observed floating or sticky in the
domain. -/
def checkFloatSubject (s : Session) (domain : DomainKey) (window : WindowId)
    (observed : List ObservedWindow) : Except ProposeError Unit := do
  refuseUnless (s.exceptions.contains window) .focusMismatch
  let entry ← okOr (.refused .partialObservation) (observed.find? (·.window == window))
  refuseUnless ((entry.floating || entry.sticky) && entry.output == domain.output &&
    entry.workspace == domain.workspace) .notTiled

/-- A tiled subject: the focused tile, with no target left in its own tree. -/
def checkEdgeSubject (s : Session) (domain : DomainKey) (window : WindowId)
    (direction : Direction) : Except ProposeError NodeId := do
  refuseUnless (!s.exceptions.contains window) .notTiled
  let focusedLeaf ← s.checkFocusIs domain window false
  let tree ← okOr (.refused .focusMismatch) (treeAt s.trees domain)
  let focusPlan ← okOr (.refused .malformedTopology) (planFocus tree focusedLeaf direction)
  refuseUnless (focusPlan == .edge) .unchanged
  return focusedLeaf

/-- The domain of the adjacent output, when it is the only one there and names
the source back. -/
def adjacentDomain (s : Session) (source : OutputDomain) (direction : Direction) :
    Option OutputDomain := do
  let targetOutput ← source.adjacent[direction]?
  match s.domains.filter (·.id == targetOutput) with
  | [target] =>
    if target.adjacent[oppositeDirection direction]? = some source.id then some target else none
  | _ => none

def planCrossOutputFocus (s : Session) (domain : DomainKey) (window : WindowId)
    (direction : Direction) (observed : SessionObservation) (capabilities : FocusCapabilities)
    (floatSubject : Bool) : Except ProposeError (Staging (FocusPlanContract × FocusPlan)) := do
  s.checkIdle
  refuseUnless (direction == .left || direction == .right) .unchanged
  s.checkFocusRequest domain window observed.windows
  let focusedLeaf ←
    if floatSubject then (s.checkFloatSubject domain window observed.windows).map fun _ => none
    else (s.checkEdgeSubject domain window direction).map some
  refuseUnless (!s.fenced window observed.windows) .unchanged
  let sourceDomain ← okOr (.refused .unknownDomain) (s.domainAt domain)
  let target ← okOr (.refused .unchanged) (s.adjacentDomain sourceDomain direction)
  refuseUnless (treeAt s.trees target.key).isSome .unchanged
  let targetLeaf ← okOr (.refused .unchanged) (s.rememberedLeaf target.key)
  let targetWindow ← okOr (.refused .notTiled) (s.focusedWindowFor targetLeaf target.key)
  refuseUnless (!s.exceptions.contains targetWindow) .notTiled
  refuseUnless (capabilities.supports .directionalFocus) .unsupportedCapability
  let geometry ← s.currentGeometry [domain, target.key] observed.windows
  return {
    plan := (.forOperation
      { domainOutput := domain.output, domainWorkspace := domain.workspace
        focusedLeaf, focusedWindow := window, direction }
      { domainOutput := target.id, domainWorkspace := target.workspace
        fromLeaf := focusedLeaf, toLeaf := targetLeaf
        fromWindow := window, toWindow := targetWindow, direction, route := [targetLeaf]
        crossSourceOutput := some domain.output, crossSourceWorkspace := some domain.workspace },
      .focused targetLeaf [targetLeaf])
    desired := s.refocused target.key targetLeaf
    geometry }

def crossOutputFocus (s : Session) (domain : DomainKey) (window : WindowId)
    (direction : Direction) (observed : SessionObservation) (correlationId : CorrelationId)
    (capabilities : FocusCapabilities) (floatSubject : Bool) :
    Session × Except ProposeError SessionFocusPlan :=
  s.proposeFocusPlan
    (s.planCrossOutputFocus domain window direction observed capabilities floatSubject)
    observed.observation correlationId capabilities

/-- From a tile with local focus exhausted. -/
def proposeCrossOutputFocus (s : Session) (domain : DomainKey) (window : WindowId)
    (direction : Direction) (observed : SessionObservation) (correlationId : CorrelationId)
    (capabilities : FocusCapabilities) : Session × Except ProposeError SessionFocusPlan :=
  s.crossOutputFocus domain window direction observed correlationId capabilities false

/-- From a floating or sticky window. -/
def proposeFloatCrossOutputFocus (s : Session) (domain : DomainKey) (window : WindowId)
    (direction : Direction) (observed : SessionObservation) (correlationId : CorrelationId)
    (capabilities : FocusCapabilities) : Session × Except ProposeError SessionFocusPlan :=
  s.crossOutputFocus domain window direction observed correlationId capabilities true

end Session

end PlasmaTiler
