import PlasmaTiler.Planner
import PlasmaTiler.Workspace

/-!
# Directional moves

The snapshot the planner sees, the application of its plan to the session's
trees, and the proposal around both. `applyMoveOperation` trusts nothing in
the plan: it checks the plan against its own operation, then each structural
field of the operation against the tree before it edits it.

Each operation but the cross-output one rewrites the source tree only, so it
is a function from that tree to the next one; `moverIn` is the part they all
start with.
-/

namespace PlasmaTiler

/-! ## Checks -/

/-- A plan carries exactly its own operation's rule, capability and
preconditions, and binds this source, leaf and direction. -/
def movePlanBinds (plan : MovePlan) (source : DomainKey) (focusedLeaf : NodeId)
    (direction : Direction) : Bool :=
  let operation := plan.operation
  plan.rule == operation.rule &&
    plan.requiredCapability == operation.requiredCapability &&
    plan.preconditions == operation.preconditions &&
    decide (plan.preconditions.length ≤ maxPreconditions) &&
    plan.preconditions.contains .adapterMustVerifyPostconditions &&
    (match operation with
      | .wrapPerpendicular .. => plan.rule == .r1
      | .swapNeighbor .. => plan.rule == .r2a || plan.rule == .r2c
      | .insertIntoGroup .. => plan.rule == .r2b
      | .splitGroupChild .. => plan.rule == .r2b
      | .wrapNeighbor .. => plan.rule == .r2c
      | .escapeParent .. => plan.rule == .r3
      | .crossOutput .. => plan.rule == .r4) &&
    plan.intent.sourceOutput == source.output &&
    plan.intent.focusedLeaf == focusedLeaf &&
    plan.intent.direction == direction

def generateMoveGroupId (focusedLeaf : NodeId) (baseRevision : Nat) (rule : String)
    (existing : BTreeSet NodeId) : NodeId :=
  freshId ("grp-" ++ focusedLeaf.raw ++ "-r" ++ toString baseRevision ++ "-" ++ rule) existing

/-- The mover's place in its container, which must be its direct parent. -/
structure MoverPlace where
  children : List Node
  shares : List Nat
  groupId : NodeId
  axis : Axis
  index : Nat

def moverIn (tree : Node) (container focusedLeaf : NodeId) : Option MoverPlace := do
  let (children, shares, groupId, axis) ← findGroupFull tree container
  let parent ← directParentOfLeaf tree focusedLeaf
  require (parent == container)
  let index ← children.findIdx? (isNamed focusedLeaf)
  return { children, shares, groupId, axis, index }

/-- The slot next to an index on the side of the step. -/
def stepIndex (index : Nat) (step : Int) : Option Nat :=
  if 0 ≤ (index : Int) + step then some ((index : Int) + step).toNat else none

/-- The mover's end of a split in the direction: first toward negative, last
toward positive. -/
def splitToward (direction : Direction) (id : NodeId) (axis : Axis) (mover other : Node) : Node :=
  .group id axis (if stepFor direction = -1 then [mover, other] else [other, mover])
    newGroupShares

/-! ## Operations on the source tree -/

/-- R1: the mover leaves its perpendicular container and is split with the
remainder. -/
def applyWrapPerpendicular (tree : Node) (focusedLeaf : NodeId) (direction : Direction)
    (baseRevision : Nat) (nodeIds : BTreeSet NodeId) (container : NodeId) (axis : Axis) :
    Option Node := do
  require (axis == Axis.forDirection direction)
  let place ← moverIn tree container focusedLeaf
  require (place.axis != Axis.forDirection direction)
  require ((place.children[place.index]?).any Node.isLeaf)
  let remainder ← match place.children.eraseIdx place.index with
    | [] => none
    | [child] => some child
    | remaining => some (.group place.groupId place.axis remaining (place.shares.eraseIdx place.index))
  let id := generateMoveGroupId focusedLeaf baseRevision "r1" nodeIds
  replaceNodeById tree container (splitToward direction id axis (.leaf focusedLeaf) remainder)

/-- R2a and R2c under the swap setting: exchange adjacent direct leaves of a
parallel container with `count` children. -/
def applySwap (tree : Node) (focusedLeaf : NodeId) (direction : Direction)
    (container neighbor : NodeId) (count : Nat → Bool) : Option Node := do
  let place ← moverIn tree container focusedLeaf
  require (count place.children.length)
  require (place.axis == Axis.forDirection direction)
  let neighborIndex ← place.children.findIdx? (isNamed neighbor)
  require (stepIndex place.index (stepFor direction) == some neighborIndex)
  require ((place.children[place.index]?).any Node.isLeaf &&
    (place.children[neighborIndex]?).any Node.isLeaf)
  require (place.shares.length == place.children.length)
  swapDirectChildren tree container focusedLeaf neighbor

def applySwapNeighbor (tree : Node) (focusedLeaf : NodeId) (direction : Direction)
    (plan : MovePlan) (container neighbor : NodeId) : Option Node :=
  if plan.rule = .r2c ∧ plan.intent.sameAxisMove = .swapWithNeighbor then
    applySwap tree focusedLeaf direction container neighbor fun count => 3 ≤ count
  else if plan.rule ≠ .r2a then none
  else applySwap tree focusedLeaf direction container neighbor fun count => count = 2

/-- R2c: the mover and its neighbor become one child with their summed
share. -/
def applyWrapNeighbor (tree : Node) (focusedLeaf : NodeId) (direction : Direction)
    (plan : MovePlan) (baseRevision : Nat) (nodeIds : BTreeSet NodeId)
    (container neighbor : NodeId) (focusedBeforeNeighbor : Bool) (axis : Axis) : Option Node := do
  require (axis == Axis.forDirection direction)
  let place ← moverIn tree container focusedLeaf
  require (3 ≤ place.children.length)
  require (place.axis == Axis.forDirection direction && place.axis == axis)
  let neighborIndex ← place.children.findIdx? (isNamed neighbor)
  require (stepIndex place.index (stepFor direction) == some neighborIndex)
  require (focusedBeforeNeighbor == decide (place.index < neighborIndex))
  -- under the swap setting a leaf neighbor is swapped, never wrapped
  require (!(plan.intent.sameAxisMove == .swapWithNeighbor &&
    (place.children[neighborIndex]?).any Node.isLeaf))
  let moverShare ← place.shares[place.index]?
  let neighborShare ← place.shares[neighborIndex]?
  let pairShare ← checkU64 (moverShare + neighborShare)
  let mover ← place.children[place.index]?
  let sibling ← place.children[neighborIndex]?
  let hi := max place.index neighborIndex
  let lo := min place.index neighborIndex
  let id := generateMoveGroupId focusedLeaf baseRevision "r2c" nodeIds
  let wrapper : Node := .group id axis
    (if focusedBeforeNeighbor then [mover, sibling] else [sibling, mover]) newGroupShares
  replaceGroupChildren tree place.groupId
    (((place.children.eraseIdx hi).eraseIdx lo).insertIdx lo wrapper)
    (((place.shares.eraseIdx hi).eraseIdx lo).insertIdx lo pairShare)

/-- The mover of a binary parallel container and the group beside it. -/
def groupBeside (tree : Node) (container focusedLeaf targetGroup : NodeId)
    (direction : Direction) : Option (MoverPlace × Nat × List Node × Axis) := do
  let place ← moverIn tree container focusedLeaf
  require (place.children.length == 2)
  require (place.axis == Axis.forDirection direction)
  let neighborIndex ← stepIndex place.index (stepFor direction)
  let neighbor ← place.children[neighborIndex]?
  let (targetChildren, targetAxis, _) ← findGroup tree targetGroup
  require (neighbor.id == targetGroup)
  return (place, neighborIndex, targetChildren, targetAxis)

/-- R2b, insertion: at the near edge of a parallel target, in the middle of a
perpendicular even one. -/
def applyInsertIntoGroup (tree : Node) (focusedLeaf : NodeId) (direction : Direction)
    (container targetGroup : NodeId) (insertionIndex : Nat) (insertion : Insertion) :
    Option Node := do
  let (place, neighborIndex, targetChildren, targetAxis) ←
    groupBeside tree container focusedLeaf targetGroup direction
  require ((place.children[neighborIndex]?).any fun n => !n.isLeaf)
  require (2 ≤ targetChildren.length)
  if targetAxis = place.axis then
    require (insertion == .nearEdge)
    require (insertionIndex == if place.index < neighborIndex then 0 else targetChildren.length)
  else
    require (targetChildren.length % 2 == 0)
    require (insertion == .midpoint)
    require (insertionIndex == targetChildren.length / 2)
  let working ← removeLeafFromTree (some tree) focusedLeaf
  let (postChildren, _, _) ← findGroup working targetGroup
  require (postChildren.length == targetChildren.length)
  require (insertionIndex ≤ postChildren.length)
  insertLeafIntoGroup working targetGroup insertionIndex (.leaf focusedLeaf)

/-- R2b, split: the middle child of a perpendicular odd target is split with
the mover. -/
def applySplitGroupChild (tree : Node) (focusedLeaf : NodeId) (direction : Direction)
    (baseRevision : Nat) (nodeIds : BTreeSet NodeId) (container targetGroup targetChild : NodeId)
    (targetChildIndex : Nat) (focusedSide : FocusedSide) (axis : Axis) : Option Node := do
  require (axis == Axis.forDirection direction)
  let (place, _, targetChildren, targetAxis) ←
    groupBeside tree container focusedLeaf targetGroup direction
  require (targetAxis != place.axis)
  require (targetChildren.length % 2 != 0 && decide (3 ≤ targetChildren.length))
  require (targetChildIndex == targetChildren.length / 2)
  require ((targetChildren[targetChildIndex]?).any (isNamed targetChild))
  require (focusedSide == if stepFor direction = -1 then .first else .second)
  let working ← removeLeafFromTree (some tree) focusedLeaf
  let (children, shares, _, _) ← findGroupFull working targetGroup
  let victim ← children[targetChildIndex]?
  require (victim.id == targetChild)
  let victimShare ← shares[targetChildIndex]?
  let id := generateMoveGroupId focusedLeaf baseRevision "r2b" nodeIds
  let split : Node := .group id axis
    (match focusedSide with
      | .first => [.leaf focusedLeaf, victim]
      | .second => [victim, .leaf focusedLeaf]) newGroupShares
  replaceChildAt working targetGroup targetChildIndex split victimShare

/-- R3: the mover at the container's edge enters the parent beside the
container, or wraps a perpendicular parent. -/
def applyEscapeParent (tree : Node) (focusedLeaf : NodeId) (direction : Direction)
    (baseRevision : Nat) (nodeIds : BTreeSet NodeId) (container parent : NodeId)
    (containerChildIndex : Nat) (parentInsertionIndex : Option Nat)
    (continuation : EscapeContinuation) : Option Node := do
  let place ← moverIn tree container focusedLeaf
  require (place.axis == Axis.forDirection direction)
  require (!((stepIndex place.index (stepFor direction)).any fun i => i < place.children.length))
  let (parentChildren, parentAxis, _) ← findGroup tree parent
  let containerIndex ← parentChildren.findIdx? (isNamed container)
  require (containerIndex == containerChildIndex)
  let actualParent ← parentOfGroup tree container
  require (actualParent == parent)
  if parentAxis = place.axis then
    require (continuation == .none)
    require (parentInsertionIndex ==
      some (containerIndex + (if stepFor direction = 1 then 1 else 0)))
  else
    require (continuation == .r1)
    require parentInsertionIndex.isNone
    require (parentAxis != Axis.forDirection direction)
  let working ← removeLeafFromTree (some tree) focusedLeaf
  match continuation with
  | .none =>
    let index ← parentInsertionIndex
    require (findGroupId working parent)
    let postLen ← groupChildrenLen working parent
    require (index ≤ postLen)
    insertLeafIntoGroup working parent index (.leaf focusedLeaf)
  | .r1 =>
    let parentSubtree ← findSubtree working parent
    let id := generateMoveGroupId focusedLeaf baseRevision "r3r1" nodeIds
    replaceNodeById working parent
      (splitToward direction id (Axis.forDirection direction) (.leaf focusedLeaf) parentSubtree)

/-! ## Crossing -/

/-- The mover sits exhausted at the source root edge: the sole leaf, or a
direct leaf child of the root at the edge in the direction. -/
def checkRootEdge (tree : Node) (focusedLeaf : NodeId) (direction : Direction)
    (sourceRootChildIndex : Nat) : Bool :=
  match tree with
  | .leaf id => id == focusedLeaf && sourceRootChildIndex == 0
  | .group _ _ children _ =>
    (children[sourceRootChildIndex]?).any (isNamed focusedLeaf) &&
      sourceRootChildIndex == (if stepFor direction = -1 then 0 else children.length - 1) &&
      (children[sourceRootChildIndex]?).any Node.isLeaf

/-- The target tree with the mover: a lone root, beside the remembered leaf,
or beside the whole tree; the mover nearest the source. -/
def crossInto (targetTree : Option Node) (windows : Links) (targetKey : DomainKey)
    (focusedLeaf : NodeId) (direction : Direction) (baseRevision : Nat)
    (nodeIds : BTreeSet NodeId) (target : CrossOutputTarget) (targetFocus : Option NodeId) :
    Option Node :=
  match target, targetTree with
  | .empty, none => some (.leaf focusedLeaf)
  | .empty, some _ => none
  | .occupied, none => none
  | .occupied, some existing =>
    let validTargetFocus := targetFocus.filter fun leaf =>
      existing.leaves.contains leaf && linkedAt windows targetKey leaf
    let axis := Axis.forDirection direction
    let moverFirst := stepFor direction == 1
    let id := generateMoveGroupId focusedLeaf baseRevision "r4" nodeIds
    match validTargetFocus with
    | some focus => nestFocusedOrdered existing focus (.leaf focusedLeaf) id axis moverFirst
    | none => some (graft id axis moverFirst existing (.leaf focusedLeaf))

/-! ## Applying a plan -/

/-- Desired trees and links, and where the mover's focus goes. -/
structure AppliedMove where
  trees : Trees
  windows : Links
  focusDomain : DomainKey
  focusLeaf : NodeId

/-- The window linked to a leaf of a domain. -/
def windowAt (windows : Links) (key : DomainKey) (leaf : NodeId) : Option WindowId :=
  ((values windows).find? fun l => l.leaf == leaf && l.output == key.output &&
    l.workspace == key.workspace).map WindowLink.window

/-- R4: the mover leaves the source and joins the adjacent target domain. -/
def applyCrossOutput (trees : Trees) (windows : Links) (domains : List OutputDomain)
    (source : DomainKey) (focusedLeaf : NodeId) (direction : Direction) (mover : WindowId)
    (baseRevision : Nat) (nodeIds : BTreeSet NodeId) (targetKey : DomainKey)
    (sourceRootChildIndex : Nat) (target : CrossOutputTarget) (targetFocus : Option NodeId) :
    Option AppliedMove := do
  let targetDomain ← domains.find? (·.key == targetKey)
  require (targetKey != source)
  let sourceDomain ← domains.find? (·.key == source)
  require (sourceDomain.adjacent[direction]? == some targetKey.output)
  require (targetDomain.adjacent[oppositeDirection direction]? == some source.output)
  let sourceTree ← treeAt trees source
  require (checkRootEdge sourceTree focusedLeaf direction sourceRootChildIndex)
  let desired := trees.insert source (removeLeafFromTree (some sourceTree) focusedLeaf)
  let newTarget ← crossInto (treeAt desired targetKey) windows targetKey focusedLeaf direction
    baseRevision nodeIds target targetFocus
  return {
    trees := desired.insert targetKey (some newTarget)
    windows := windows.insert mover ⟨mover, focusedLeaf, targetKey.output, targetKey.workspace⟩
    focusDomain := targetKey
    focusLeaf := focusedLeaf }

/-- The next source tree of an operation that stays in the source domain. -/
def applyInSource (tree : Node) (focusedLeaf : NodeId) (direction : Direction) (plan : MovePlan)
    (baseRevision : Nat) (nodeIds : BTreeSet NodeId) : Option Node :=
  match plan.operation with
  | .wrapPerpendicular _ container axis =>
      applyWrapPerpendicular tree focusedLeaf direction baseRevision nodeIds container axis
  | .swapNeighbor _ container neighbor =>
      applySwapNeighbor tree focusedLeaf direction plan container neighbor
  | .wrapNeighbor _ container neighbor focusedBeforeNeighbor axis =>
      applyWrapNeighbor tree focusedLeaf direction plan baseRevision nodeIds container neighbor
        focusedBeforeNeighbor axis
  | .insertIntoGroup _ container targetGroup insertionIndex insertion =>
      applyInsertIntoGroup tree focusedLeaf direction container targetGroup insertionIndex insertion
  | .splitGroupChild _ container targetGroup targetChild targetChildIndex focusedSide axis =>
      applySplitGroupChild tree focusedLeaf direction baseRevision nodeIds container targetGroup
        targetChild targetChildIndex focusedSide axis
  | .escapeParent _ container parent containerChildIndex parentInsertionIndex continuation =>
      applyEscapeParent tree focusedLeaf direction baseRevision nodeIds container parent
        containerChildIndex parentInsertionIndex continuation
  | .crossOutput .. => none

/-- The ids of all trees. -/
def nodeIdsOf (trees : Trees) : BTreeSet NodeId :=
  .ofList ((values trees).flatMap fun tree => (tree.map Node.ids).getD [])

/-- Apply exactly the planner's plan to the session's trees; `none` on
anything the plan does not bind. -/
def applyMoveOperation (trees : Trees) (windows : Links) (domains : List OutputDomain)
    (source : DomainKey) (focusedLeaf : NodeId) (direction : Direction) (plan : MovePlan)
    (baseRevision : Nat) (targetFocus : Option NodeId) : Option AppliedMove := do
  require (movePlanBinds plan source focusedLeaf direction)
  let mover ← windowAt windows source focusedLeaf
  require (plan.intent.focusedWindow == mover)
  let nodeIds := nodeIdsOf trees
  match plan.operation with
  | .crossOutput _ targetOutput targetWorkspace sourceRootChildIndex target =>
    applyCrossOutput trees windows domains source focusedLeaf direction mover baseRevision nodeIds
      ⟨targetOutput, targetWorkspace⟩ sourceRootChildIndex target targetFocus
  | _ =>
    let tree ← treeAt trees source
    let updated ← applyInSource tree focusedLeaf direction plan baseRevision nodeIds
    return {
      trees := trees.insert source (some updated)
      windows
      focusDomain := source
      focusLeaf := focusedLeaf }

/-- Only the source changes, except R4, which changes exactly source and
target. -/
def moveTouchesOnlyAllowed (before after : Trees) (source : DomainKey)
    (operation : MoveOperation) (domains : List OutputDomain) : Bool :=
  let changed := before.keys.filter fun key => after[key]? ≠ before[key]?
  after.keys.all before.contains &&
    match operation with
    | .crossOutput _ targetOutput targetWorkspace _ _ =>
      let target : DomainKey := ⟨targetOutput, targetWorkspace⟩
      domains.any (·.key == target) && target != source &&
        changed.length == 2 && changed.contains source && changed.contains target
    | _ => changed.length == 1 && changed.contains source

/-! ## Proposing -/

namespace Session

def outputOf (s : Session) (d : OutputDomain) : Output :=
  ⟨d.id, d.workspace, treeAt s.trees d.key, d.adjacent⟩

/-- Add the adjacent output when it is not there yet and exactly one domain
carries it. -/
def addAdjacent (s : Session) (outputs : List Output) (target : OutputId) : List Output :=
  if outputs.any (·.id == target) then outputs
  else
    match s.domains.filter (·.id == target) with
    | [d] => outputs ++ [s.outputOf d]
    | _ => outputs

/-- The outputs of a move snapshot: every domain on the source workspace, then
the directly adjacent ones. -/
def moveOutputs (s : Session) (source : OutputDomain) : List Output :=
  (values source.adjacent).foldl s.addAdjacent
    ((s.domains.filter fun d => d.workspace == source.workspace).map s.outputOf)

/-- The planner's view of the source domain. -/
def moveSnapshot (s : Session) (source : DomainKey) : Option Snapshot := do
  let sourceDomain ← s.domainAt source
  let outputs := s.moveOutputs sourceDomain
  require (outputs.any (·.id == source.output))
  return {
    outputs
    windows := (values s.windows).filter fun link =>
      outputs.any fun o => o.id == link.output && o.workspace == link.workspace }

/-- The focused tile, when it is this window in this domain. Moves also refuse
a focused window that is an exception. -/
def checkFocusIs (s : Session) (domain : DomainKey) (window : WindowId) (refuseException : Bool) :
    Except ProposeError NodeId := do
  let focusedDomain ← okOr (.refused .focusMismatch) s.focusedDomain
  let focusedLeaf ← okOr (.refused .focusMismatch) s.focusedLeaf
  refuseUnless (focusedDomain == domain) .focusMismatch
  let focusedWindow ← okOr (.refused .notTiled) (s.focusedWindowFor focusedLeaf domain)
  refuseUnless (!(refuseException && s.exceptions.contains focusedWindow)) .notTiled
  refuseUnless (window == focusedWindow) .focusMismatch
  return focusedLeaf

/-- The target domain of a crossing. -/
def crossTarget : MoveOperation → Option DomainKey
  | .crossOutput _ targetOutput targetWorkspace _ _ => some ⟨targetOutput, targetWorkspace⟩
  | _ => none

/-- The planned move, or the refusal its outcome stands for. -/
def plannedMove : MoveOutcome → Except ProposeError MovePlan
  | .planned plan => .ok plan
  | .noop _ => .error (.refused .plannerNoop)
  | .rejected reason =>
      if reason.kind = .unsupportedTopology then .error (.refused .unsupportedCapability)
      else .error (.refused .plannerRejected)

def planMoveWithSameAxis (s : Session) (domain : DomainKey) (window : WindowId)
    (direction : Direction) (observed : SessionObservation) (capabilities : Capabilities)
    (sameAxisMove : SameAxisMove) : Except ProposeError (Staging MovePlan) := do
  s.checkIdle
  refuseUnless (s.domainAt domain).isSome .unknownDomain
  refuseUnless s.validateCurrentTopology .malformedTopology
  s.checkObserved observed.windows
  s.checkComplete observed.windows
  refuseUnless (!window.isEmpty) .malformedInput
  s.checkTiled window
  let focusedLeaf ← s.checkFocusIs domain window true
  let snapshot ← okOr (.refused .malformedTopology) (s.moveSnapshot domain)
  let intent : MoveIntent := ⟨domain.output, focusedLeaf, window, direction, sameAxisMove⟩
  let plan ← plannedMove (planMoveWithCapabilities snapshot intent capabilities)
  let target := crossTarget plan.operation
  let applied ← okOr (.refused .malformedTopology)
    (applyMoveOperation s.trees s.windows s.domains domain focusedLeaf direction plan
      observed.observation.revision (target.bind s.rememberedLeaf))
  refuseUnless (moveTouchesOnlyAllowed s.trees applied.trees domain plan.operation s.domains)
    .crossDomainMismatch
  refuseUnless (validateTopology s.domains applied.trees applied.windows s.exceptions
    (some applied.focusDomain) (some applied.focusLeaf)) .malformedTopology
  let affected := domain :: target.toList
  let geometry ← (projectAffectedGeometry s.domains applied.trees applied.windows affected
    (hintsFromObserved observed.windows)).mapError fun _ => .refused .malformedTopology
  refuseUnless (geometryCoversAffected geometry applied.windows affected) .malformedTopology
  return {
    plan
    desired := { s.accepted with
      trees := applied.trees
      windows := applied.windows
      focusedDomain := some applied.focusDomain
      focusedLeaf := some applied.focusLeaf
      lastActive := s.updatedLastActive (some applied.focusDomain) (some applied.focusLeaf)
        applied.trees applied.windows }
    geometry }

def proposeMoveWithSameAxis (s : Session) (domain : DomainKey) (window : WindowId)
    (direction : Direction) (observed : SessionObservation) (correlationId : CorrelationId)
    (capabilities : Capabilities) (sameAxisMove : SameAxisMove) :
    Session × Except ProposeError SessionMovePlan :=
  s.proposeStaged (s.planMoveWithSameAxis domain window direction observed capabilities sameAxisMove)
    (fun plan => s.reconciler.propose plan observed.observation correlationId capabilities)
    fun dispatch staging => s.planOf dispatch staging.desired staging.geometry

def proposeMove (s : Session) (domain : DomainKey) (window : WindowId) (direction : Direction)
    (observed : SessionObservation) (correlationId : CorrelationId) (capabilities : Capabilities) :
    Session × Except ProposeError SessionMovePlan :=
  s.proposeMoveWithSameAxis domain window direction observed correlationId capabilities
    .groupWithNeighbor

end Session

end PlasmaTiler
