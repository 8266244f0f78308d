import PlasmaTiler.Movement

/-!
# The directional planner

A pure function from a snapshot and an intent to an outcome. It first
validates the whole snapshot (the trees, and every window association against
them), then plans on the path from the source root to the focused leaf: the
deepest group decides between wrapping, swapping, inserting, splitting and
escaping, and only a leaf exhausted at the root edge may cross to the
adjacent output.

Failures are of three kinds, with the message of each: a malformed snapshot,
an intent that cannot be planned, and a capability the adapter has not
declared. The validation is in the order of the source, as the first defect
is the one reported.

The focus planner at the end shares the path but not the validation: it
checks one tree, and climbs further than the deepest group.
-/

namespace PlasmaTiler

/-! ## Paths -/

/-- One group on the way from the root to the focused leaf. -/
structure PathLevel where
  groupId : NodeId
  axis : Axis
  childIndex : Nat
  children : List Node
deriving DecidableEq, Repr

mutual

/-- Root-to-leaf path, outermost first; `none` when the leaf is absent. -/
def pathTo (focused : NodeId) : Node → Option (List PathLevel)
  | .leaf id => if id = focused then some [] else none
  | .group id axis children _ => pathToFrom focused id axis children 0 children

/-- The path through the first of the remaining children that has one. -/
def pathToFrom (focused groupId : NodeId) (axis : Axis) (siblings : List Node) :
    Nat → List Node → Option (List PathLevel)
  | _, [] => none
  | index, child :: children =>
      match pathTo focused child with
      | some path => some (⟨groupId, axis, index, siblings⟩ :: path)
      | none => pathToFrom focused groupId axis siblings (index + 1) children

end

/-! ## Snapshot validation -/

def rejected (kind : RejectionKind) (message : String) : MoveOutcome :=
  .rejected ⟨kind, message⟩

/-- The planner's wording of a tree defect. -/
def TreeDefect.plannerMessage : TreeDefect → String
  | .emptyId => "node identities must be non-empty"
  | .duplicateId => "node identities must be unique; shared or cyclic topology is unsupported"
  | .fewChildren => "groups must have at least two children"
  | .sharesMismatch => "group shares must align exactly with children"
  | .zeroShare => "group shares must be positive"
  | .totalOverflow => "group shares total overflows"

/-- What validation remembers of the trees: all ids, the output of each leaf,
and for every id whether it is a leaf. -/
structure TreeIndex where
  ids : BTreeSet NodeId := ∅
  leafOutput : BTreeMap NodeId Nat := ∅
  leafIsLeaf : BTreeMap NodeId Bool := ∅

/-- Record one node of the tree of output `outputIndex`. -/
def TreeIndex.record (outputIndex : Nat) (index : TreeIndex) : Node → TreeIndex
  | .leaf id =>
      { index with leafOutput := index.leafOutput.insert id outputIndex,
                   leafIsLeaf := index.leafIsLeaf.insert id true }
  | .group id .. => { index with leafIsLeaf := index.leafIsLeaf.insert id false }

/-- Validate one tree against the ids seen so far and record its nodes. The
defect, if any, is decided before anything recorded is read. -/
def validateNode (tree : Node) (outputIndex : Nat) (index : TreeIndex) :
    Except String TreeIndex := do
  let ids ← (checkNode tree index.ids).mapError TreeDefect.plannerMessage
  return tree.nodes.foldl (TreeIndex.record outputIndex) { index with ids }

def validateTrees : List (Output × Nat) → TreeIndex → Except String TreeIndex
  | [], index => .ok index
  | (output, i) :: outputs, index =>
      match output.tree with
      | none => validateTrees outputs index
      | some tree => do
        let index ← validateNode tree i index
        validateTrees outputs index

/-- A malformed-topology guard. -/
def wellFormedOr (c : Bool) (message : String) : Except MoveOutcome Unit :=
  ensure c (rejected .malformedTopology message)

/-- Outputs have nonempty distinct ids and a workspace. -/
def checkOutputs : List Output → BTreeSet OutputId → Except MoveOutcome Unit
  | [], _ => .ok ()
  | output :: outputs, seen => do
    wellFormedOr (!output.id.isEmpty && !seen.contains output.id)
      "output identities must be non-empty and unique"
    wellFormedOr (!output.workspace.isEmpty) "output scope must be present"
    checkOutputs outputs (seen.insert output.id)

/-- Window associations are nonempty, unique on both sides, and each names a
leaf of its own output with that output's workspace. -/
def checkLinks (outputs : List Output) (index : TreeIndex) :
    List WindowLink → BTreeSet WindowId → BTreeSet NodeId →
      Except MoveOutcome (BTreeSet NodeId)
  | [], _, linked => .ok linked
  | link :: links, seen, linked => do
    wellFormedOr (!link.window.isEmpty && !link.leaf.isEmpty && !link.output.isEmpty)
      "window associations must be non-empty"
    wellFormedOr (!link.workspace.isEmpty) "window association workspace must be non-empty"
    wellFormedOr (!seen.contains link.window)
      "window associations must reference each window at most once"
    wellFormedOr (!linked.contains link.leaf)
      "window associations must reference each leaf at most once"
    match outputs.findIdx? fun output => output.id == link.output with
    | none =>
      .error (rejected .malformedTopology "window association references an unknown output")
    | some i => do
      wellFormedOr (index.leafOutput[link.leaf]? == some i)
        "window association is stale or nonreciprocal: leaf link mismatch"
      wellFormedOr (index.leafIsLeaf[link.leaf]? == some true)
        "window association targets a non-leaf node"
      wellFormedOr ((outputs[i]?.map Output.workspace) == some link.workspace)
        "window association workspace does not match the output scope"
      checkLinks outputs index links (seen.insert link.window) (linked.insert link.leaf)

/-- Validate the whole snapshot and return the source output. -/
def validateSnapshot (snapshot : Snapshot) (intent : MoveIntent) :
    Except MoveOutcome Output := do
  wellFormedOr (!snapshot.outputs.isEmpty) "at least one output topology is required"
  wellFormedOr (!intent.sourceOutput.isEmpty && !intent.focusedLeaf.isEmpty &&
      !intent.focusedWindow.isEmpty)
    "directional movement intent is malformed"
  checkOutputs snapshot.outputs ∅
  wellFormedOr (snapshot.outputs.all fun output => output.adjacent.toList.all fun (_, target) =>
      !target.isEmpty && target != output.id && snapshot.outputs.any (·.id == target))
    "output adjacency references an unknown, empty, or self output"
  match snapshot.outputs.find? (·.id == intent.sourceOutput) with
  | none => .error (rejected .malformedTopology "source output is not present")
  | some source => do
    let sourceIndex := (snapshot.outputs.findIdx? (·.id == intent.sourceOutput)).getD 0
    let index ← (validateTrees snapshot.outputs.zipIdx {}).mapError (rejected .malformedTopology)
    let linked ← checkLinks snapshot.outputs index snapshot.windows ∅ ∅
    wellFormedOr (index.leafOutput.keys.all fun leaf =>
        !(index.leafIsLeaf[leaf]? == some true && !linked.contains leaf))
      "every leaf requires exactly one window association"
    if snapshot.windows.any fun link =>
        link.window == intent.focusedWindow && link.leaf == intent.focusedLeaf then
      .ok source
    -- a focused leaf that does not exist at all is told apart from a stale link
    else if index.leafOutput[intent.focusedLeaf]? ≠ some sourceIndex then
      .error (rejected .focusedLeafNotFound "focused leaf is not present in the source topology")
    else
      .error (rejected .malformedTopology
        "focused window association is missing, stale, or nonreciprocal")

/-! ## Local planning -/

/-- The neighbor on the side of `step`, with its index. -/
def neighborOf (level : PathLevel) (step : Int) : Option (Nat × Node) :=
  let index := (level.childIndex : Int) + step
  if 0 ≤ index then (level.children[index.toNat]?).map fun n => (index.toNat, n) else none

/-- Planning at the deepest group, given the groups above it from the
innermost outward. -/
def planAtLevel (intent : MoveIntent) (source : Output) (ancestor : PathLevel)
    (parent? : Option PathLevel) : MoveOutcome :=
  let directionAxis := Axis.forDirection intent.direction
  let step := stepFor intent.direction
  let plan (operation : MoveOperation) : MoveOutcome :=
    .planned (.forOperation intent operation)
  if ancestor.axis ≠ directionAxis then
    plan (.wrapPerpendicular .r1 ancestor.groupId directionAxis)
  else
    match neighborOf ancestor step with
    | some (neighborIndex, neighbor) =>
      if ancestor.children.length = 2 then
        match neighbor with
        | .leaf id => plan (.swapNeighbor .r2a ancestor.groupId id)
        | .group id axis children _ =>
          if axis = ancestor.axis then
            let insertionIndex :=
              if ancestor.childIndex < neighborIndex then 0 else children.length
            plan (.insertIntoGroup .r2b ancestor.groupId id insertionIndex .nearEdge)
          else
            let targetChildIndex := children.length / 2
            if children.length % 2 = 0 then
              plan (.insertIntoGroup .r2b ancestor.groupId id targetChildIndex .midpoint)
            else
              match children[targetChildIndex]? with
              | none => .noop .boundary
              | some targetChild =>
                plan (.splitGroupChild .r2b ancestor.groupId id targetChild.id targetChildIndex
                  (if step = -1 then .first else .second) directionAxis)
      -- the swap setting replaces only the leaf-next-to-leaf case of R2c
      else if intent.sameAxisMove = .swapWithNeighbor ∧ neighbor.isLeaf ∧
          (ancestor.children[ancestor.childIndex]?).any Node.isLeaf then
        plan (.swapNeighbor .r2c ancestor.groupId neighbor.id)
      else
        plan (.wrapNeighbor .r2c ancestor.groupId neighbor.id
          (decide (ancestor.childIndex < neighborIndex)) ancestor.axis)
    | none =>
      match parent? with
      | none =>
        if source.adjacent.contains intent.direction then .noop .boundary
        else .noop .noAdjacentOutput
      | some parent =>
        let parentInsertionIndex := parent.childIndex + (if step = 1 then 1 else 0)
        let sameAxis : Bool := parent.axis = ancestor.axis
        plan (.escapeParent .r3 ancestor.groupId parent.groupId parent.childIndex
          (if sameAxis then some parentInsertionIndex else none)
          (if sameAxis then .none else .r1))

/-- Plan inside the source tree. Every branch returns at the deepest level. -/
def planLocal (intent : MoveIntent) (source : Output) (path : List PathLevel) : MoveOutcome :=
  match path.reverse with
  | [] => .noop .singleRootLeaf
  | ancestor :: above => planAtLevel intent source ancestor above.head?

/-! ## The planner -/

/-- The capability's name in the refusal message. -/
def Capability.debugName : Capability → String
  | .swapNeighbor => "SwapNeighbor"
  | .wrapPerpendicular => "WrapPerpendicular"
  | .wrapSiblings => "WrapSiblings"
  | .insertChild => "InsertChild"
  | .splitGroupChild => "SplitGroupChild"
  | .reparentLeaf => "ReparentLeaf"
  | .crossOutputTransfer => "CrossOutputTransfer"

/-- Refuse an undeclared capability before a plan is emitted. -/
def gate (outcome : MoveOutcome) (capabilities : Capabilities) : MoveOutcome :=
  match outcome with
  | .planned plan =>
    if capabilities.supports plan.requiredCapability then outcome
    else rejected .unsupportedTopology
      ("adapter does not declare required capability " ++ plan.requiredCapability.debugName ++
        "; refusing before plan emission")
  | _ => outcome

/-- Cross the root edge to the adjacent output in the requested direction. -/
def planCross (snapshot : Snapshot) (intent : MoveIntent) (source : Output)
    (sourceRootChildIndex : Nat) (capabilities : Capabilities) : MoveOutcome :=
  match source.adjacent[intent.direction]? with
  | none => .noop .noAdjacentOutput
  | some targetId =>
    match snapshot.outputs.find? (·.id == targetId) with
    | none => rejected .malformedTopology
        "output adjacency references an output missing from the snapshot"
    | some target =>
      if target.adjacent[oppositeDirection intent.direction]? ≠ some source.id then
        rejected .malformedTopology "output adjacency is not reciprocal in the requested direction"
      else
        gate (.planned (.forOperation intent
          (.crossOutput .r4 target.id target.workspace sourceRootChildIndex
            (if target.tree.isNone then .empty else .occupied)))) capabilities

def planMoveWithCapabilities (snapshot : Snapshot) (intent : MoveIntent)
    (capabilities : Capabilities) : MoveOutcome :=
  match validateSnapshot snapshot intent with
  | .error outcome => outcome
  | .ok source =>
    match source.tree with
    | none => .noop .boundary
    | some tree =>
      match pathTo intent.focusedLeaf tree with
      | none =>
        rejected .focusedLeafNotFound "focused leaf is not present in the source topology"
      | some path =>
        let outcome := planLocal intent source path
        match outcome with
        | .planned _ => gate outcome capabilities
        | _ =>
          let soleLeaf : Bool := outcome = .noop .singleRootLeaf ∧ path.isEmpty ∧ tree.isLeaf
          let rootEdge : Bool := outcome = .noop .boundary ∧ path.length = 1 ∧ !tree.isLeaf
          if !soleLeaf && !rootEdge then gate outcome capabilities
          else
            let sourceRootChildIndex :=
              if soleLeaf then 0 else (path.head?.map PathLevel.childIndex).getD 0
            planCross snapshot intent source sourceRootChildIndex capabilities

/-- Full capabilities are assumed. -/
def planMove (snapshot : Snapshot) (intent : MoveIntent) : MoveOutcome :=
  planMoveWithCapabilities snapshot intent Capabilities.full

/-! ## Tree-relative focus -/

/-- The same checks as every tree validation, as a yes or no. -/
def checkFocusNode (tree : Node) : Bool := (checkNode tree ∅).isOk

mutual

/-- Enter a subtree from the side the focus comes from: the near edge child
along the direction, the first child across it. The result is the leaf with
the route to it. -/
def descendFocusTarget (direction : Direction) : Node → Option (NodeId × List NodeId)
  | .leaf id => some (id, [id])
  | .group id axis children _ =>
      let entered :=
        if axis = Axis.forDirection direction ∧ stepFor direction ≠ 1 then
          descendFocusLast direction children
        else descendFocusFirst direction children
      entered.map fun (leaf, route) => (leaf, id :: route)

def descendFocusFirst (direction : Direction) : List Node → Option (NodeId × List NodeId)
  | [] => none
  | child :: _ => descendFocusTarget direction child

def descendFocusLast (direction : Direction) : List Node → Option (NodeId × List NodeId)
  | [] => none
  | [child] => descendFocusTarget direction child
  | _ :: next :: children => descendFocusLast direction (next :: children)

end

/-- The first ancestor, from the innermost out, with a sibling in the
direction along its own axis. -/
def focusSibling (wanted : Axis) (step : Int) : List PathLevel → Option Node
  | [] => none
  | ancestor :: above =>
      if ancestor.axis ≠ wanted then focusSibling wanted step above
      else
        match neighborOf ancestor step with
        | some (_, sibling) => some sibling
        | none => focusSibling wanted step above

def planFocus (tree : Node) (focusedLeaf : NodeId) (direction : Direction) : Option FocusPlan :=
  if focusedLeaf.isEmpty then none
  else if !checkFocusNode tree then none
  else do
    let path ← pathTo focusedLeaf tree
    match focusSibling (Axis.forDirection direction) (stepFor direction) path.reverse with
    | none => some .edge
    | some sibling =>
      (descendFocusTarget direction sibling).map fun (leaf, route) => .focused leaf route

end PlasmaTiler
