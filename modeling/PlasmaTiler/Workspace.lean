import PlasmaTiler.Lifecycle

/-!
# Sends and the lifecycle command

A send takes the focused tile out of its domain and admits it into another
one, beside the leaf that domain remembers. The workspace send stays on the
output and the output send leaves it; `proposeSend` is both, with the check
of the target as its parameter.

`propose` is the entry point of all lifecycle commands. It checks first what
they have in common: the session is idle and its world valid, command and
observation are well formed, and both name known domains only.
-/

namespace PlasmaTiler

namespace Session

/-! ## Sends -/

/-- The leaf a send splits in the target domain, the rectangle it occupies,
and how it was found. -/
def sendAnchor (s : Session) (target : OutputDomain) (observed : List ObservedWindow) :
    SendPlacementTrace :=
  let stored := s.rememberedLeaf target.key
  let mru := s.focusStackFallback target.key s.trees s.windows
  let anchor := stored <|> mru
  let tree := treeAt s.trees target.key
  let targetLeaves := (tree.map fun tree => tree.leaves.length).getD 0
  let entry := anchor.bind fun leaf =>
    match projectOutputGeometry (some target) tree s.windows target.key
        (hintsFromObserved observed) with
    | .ok geometry => geometry.find? (·.leaf == leaf)
    | .error _ => none
  let projected := (entry.map DesiredGeometry.rect).getD target.bounds
  { anchorKind :=
      if tree.isNone || targetLeaves == 0 then "empty"
      else if anchor.isNone then "fallback"
      else if stored == anchor then "remembered"
      else "mru"
    anchor
    axis := admissionAxisForRect projected
    projected
    targetLeaves }

/-- Which targets each of the two sends admits. -/
def checkSendTarget (source target : DomainKey) (allowCrossOutput : Bool) :
    Except ProposeError Unit := do
  if allowCrossOutput then
    refuseUnless (target.output != source.output) .crossDomainMismatch
  else
    refuseUnless (target != source) .unchanged
    refuseUnless (target.output == source.output) .crossDomainMismatch

def planSend (s : Session) (window : WindowId) (targetKey : DomainKey) (follow : Bool)
    (allowCrossOutput : Bool) (observed : SessionObservation) :
    Except ProposeError (Staging LifecyclePlan × SendPlacementTrace) := do
  s.checkComplete observed.windows
  s.checkTiled window
  let link ← okOr (.refused .unknownWindow) s.windows[window]?
  let sourceKey := link.key
  let focusedDomain ← okOr (.refused .focusMismatch) s.focusedDomain
  let focusedLeaf ← okOr (.refused .focusMismatch) s.focusedLeaf
  refuseUnless (focusedDomain == sourceKey) .focusMismatch
  let focusedWindow ← okOr (.refused .notTiled) (s.focusedWindowFor focusedLeaf sourceKey)
  refuseUnless (window == focusedWindow) .focusMismatch
  checkSendTarget sourceKey targetKey allowCrossOutput
  let target ← okOr (.refused .unknownDomain) (s.domainAt targetKey)
  refuseUnless (hasLeaf s.trees sourceKey link.leaf) .malformedTopology
  let newSource := removeLeafFromTree (treeAt s.trees sourceKey) link.leaf
  refuseUnless (!newSource.any fun tree => tree.leaves.contains link.leaf) .malformedTopology
  let trace := s.sendAnchor target observed.windows
  let (newTarget, _) ← okOr (.refused .malformedTopology)
    (insertTiled (treeAt s.trees targetKey) trace.anchor link.leaf trace.axis s.allNodeIds window
      observed.observation.revision)
  refuseUnless (newTarget.leaves.contains link.leaf) .malformedTopology
  let trees := (s.trees.insert sourceKey newSource).insert targetKey (some newTarget)
  let windows := s.windows.insert window ⟨window, link.leaf, targetKey.output, targetKey.workspace⟩
  -- following selects the mover; staying falls back on the source's stack
  let focus := if follow then (some targetKey, some link.leaf)
    else
      match s.focusStackFallback sourceKey trees windows with
      | some next => (some sourceKey, some next)
      | none => (none, none)
  refuseUnless (validateTopology s.domains trees windows s.exceptions focus.1 focus.2)
    .malformedTopology
  let affected := [sourceKey, targetKey]
  let geometry ← (projectAffectedGeometry s.domains trees windows affected
    (hintsFromObserved observed.windows)).mapError fun _ => .refused .malformedTopology
  refuseUnless (geometryCoversAffected geometry windows affected) .malformedTopology
  return ({
    plan := .forOperation
      (if allowCrossOutput then .moveToOutput window targetKey.output targetKey.workspace follow
        else .moveToWorkspace window targetKey.output targetKey.workspace follow)
      (.moveTiled window link.leaf sourceKey.output sourceKey.workspace targetKey.output
        targetKey.workspace)
    desired := { s.accepted with
      trees, windows
      focusedDomain := focus.1
      focusedLeaf := focus.2
      lastActive := s.updatedLastActive focus.1 focus.2 trees windows }
    geometry }, trace)

def proposeSend (s : Session) (window : WindowId) (targetKey : DomainKey) (follow : Bool)
    (allowCrossOutput : Bool) (observed : SessionObservation) (correlationId : CorrelationId)
    (capabilities : LifecycleCapabilities) : Session × Except ProposeError SessionPlan :=
  s.attempt (s.planSend window targetKey follow allowCrossOutput observed) fun (staging, trace) =>
    match s.proposeLifecyclePlan (.ok staging) observed.observation correlationId capabilities with
    | (s', .ok plan) => ({ s' with lastSendPlacement := some trace }, .ok plan)
    | (s', .error e) => (s', .error e)

/-- Same output, another workspace. -/
def proposeMoveToWorkspace (s : Session) (window : WindowId) (target : DomainKey) (follow : Bool)
    (observed : SessionObservation) (correlationId : CorrelationId)
    (capabilities : LifecycleCapabilities) : Session × Except ProposeError SessionPlan :=
  s.proposeSend window target follow false observed correlationId capabilities

/-- Another output. -/
def proposeMoveToOutput (s : Session) (window : WindowId) (target : DomainKey) (follow : Bool)
    (observed : SessionObservation) (correlationId : CorrelationId)
    (capabilities : LifecycleCapabilities) : Session × Except ProposeError SessionPlan :=
  s.proposeSend window target follow true observed correlationId capabilities

end Session

/-! ## Commands -/

/-- The lifecycle commands. -/
inductive SessionCommand
  | admitWindow (command : AdmitCommand)
  | remove (window : WindowId)
  | moveToWorkspace (window : WindowId) (target : DomainKey) (follow : Bool)
  | moveToOutput (window : WindowId) (target : DomainKey) (follow : Bool)
  | toggleFloat (window : WindowId) (floatGeometry : Option Rect)
  | toggleOrientation (window : WindowId)
deriving DecidableEq

def validCommandShapes : SessionCommand → Bool
  | .admitWindow c => !c.window.isEmpty && !c.output.isEmpty && !c.workspace.isEmpty &&
      validRectShape c.placementBounds
  | .remove window => !window.isEmpty
  | .moveToWorkspace window target _ | .moveToOutput window target _ =>
      !window.isEmpty && !target.output.isEmpty && !target.workspace.isEmpty
  | .toggleFloat window floatGeometry => !window.isEmpty && floatGeometry.all validRectShape
  | .toggleOrientation window => !window.isEmpty

namespace Session

/-- An admission names a known domain, and so does every observed window. -/
def checkDomains (s : Session) (command : SessionCommand) (observed : List ObservedWindow) :
    Bool :=
  (match command with
    | .admitWindow c => (s.domainFor c.output c.workspace).isSome
    | _ => true) && s.observedHomed observed

/-- What every lifecycle command checks first. -/
def checkCommand (s : Session) (command : SessionCommand) (observed : List ObservedWindow) :
    Except ProposeError Unit := do
  s.checkIdle
  refuseUnless s.validateCurrentTopology .malformedTopology
  refuseUnless (validCommandShapes command) .malformedInput
  refuseUnless (validObservedShapes observed) .malformedInput
  refuseUnless (s.checkDomains command observed) .crossDomainMismatch

/-- Propose a lifecycle command against a complete session observation. -/
def propose (s : Session) (command : SessionCommand) (observed : SessionObservation)
    (correlationId : CorrelationId) (capabilities : LifecycleCapabilities) :
    Session × Except ProposeError SessionPlan :=
  s.attempt (s.checkCommand command observed.windows) fun _ =>
    match command with
    | .admitWindow c => s.proposeAdmit c observed correlationId capabilities
    | .remove window => s.proposeRemove window observed correlationId capabilities
    | .moveToWorkspace window target follow =>
        s.proposeMoveToWorkspace window target follow observed correlationId capabilities
    | .moveToOutput window target follow =>
        s.proposeMoveToOutput window target follow observed correlationId capabilities
    | .toggleFloat window floatGeometry =>
        s.proposeToggleFloat window floatGeometry observed correlationId capabilities
    | .toggleOrientation window =>
        s.proposeToggleOrientation window observed correlationId capabilities

end Session

end PlasmaTiler
