import PlasmaTiler.Resize

/-!
# Dragging

A drag captures the focused tile, resolves a point to a placement, and drops
it there. Preview and drop share one resolver, so that what is dropped is
what was shown. The capture is transient: it binds the session it was taken
in, and a release either stages a plan or snaps back, clearing it both ways.

A point is resolved in three stages. The descent finds the deepest node that
contains it, by the leaf rectangles of a plain projection and the group
layouts computed from them. At a group the edge zones are tried first, with a
margin that keeps the edge the pointer was on, then the gaps between its
children; at a leaf one of its four edges. The placement is then applied to
the tree without the source: as a sibling where the parent runs along the
axis, as a new group that wraps the target where it does not.

Everything here is in the order of the source. The three kinds of placement
are three functions there as here, each with the operation it binds.
-/

namespace PlasmaTiler

/-! ## Views -/

structure DragCapture where
  domain : DomainKey
  sourceLeaf : NodeId
  sourceWindow : WindowId
  revision : Nat
  sourceRect : Rect
  workArea : Rect
deriving DecidableEq

structure DragPreview where
  domain : DomainKey
  sourceLeaf : NodeId
  sourceWindow : WindowId
  revision : Nat
  sourceRect : Rect
  targetLeaf : NodeId
  targetWindow : WindowId
  targetRect : Rect
  proposedRect : Rect
  side : DragSide
  axis : Axis
  before : Bool
  wrap : Bool
  targetGroup : NodeId
  insertionIndex : Nat
  prior : Option PriorGroupEdge
deriving DecidableEq

/-- Sticky group-edge hover carried between single-shot previews. -/
structure DragHoverPrior where
  domain : DomainKey
  sourceLeaf : NodeId
  sourceWindow : WindowId
  revision : Nat
  prior : Option PriorGroupEdge
deriving DecidableEq

def DragPreview.hoverPrior (p : DragPreview) : DragHoverPrior :=
  ⟨p.domain, p.sourceLeaf, p.sourceWindow, p.revision, p.prior⟩

/-- The accepted rectangle to restore; carries no structure. -/
structure DragSnapBack where
  domain : DomainKey
  sourceLeaf : NodeId
  sourceWindow : WindowId
  sourceRect : Rect
deriving DecidableEq

inductive DragRelease
  | planned (plan : SessionDragPlan)
  | snapBack (snap : DragSnapBack)

/-! ## Placement -/

/-- The tree after a drop, with what its operation binds. -/
structure DragPlacement where
  tree : Node
  targetGroup : NodeId
  insertionIndex : Nat
  wrap : Bool
  newGroup : Option NodeId

def generateDragGroupId (sourceLeaf : NodeId) (baseRevision : Nat) (existing : BTreeSet NodeId) :
    NodeId :=
  freshId ("grp-" ++ sourceLeaf.raw ++ "-r" ++ toString baseRevision ++ "-drag") existing

/-- The tree without the source, which must be gone from it. -/
def liftSource (tree : Node) (sourceLeaf : NodeId) : Option Node := do
  let working ← removeLeafFromTree (some tree) sourceLeaf
  require (!working.leaves.contains sourceLeaf)
  return working

/-- Wrap a subtree with the source in a new group that takes its slot; at the
root the new group is the tree. -/
def wrapTarget (working : Node) (sourceLeaf target : NodeId) (targetNode : Node)
    (parent : Option NodeId) (axis : Axis) (before : Bool) (baseRevision : Nat) :
    Option DragPlacement := do
  let newId := generateDragGroupId sourceLeaf baseRevision (.ofList working.ids)
  let wrapper := graft newId axis before targetNode (.leaf sourceLeaf)
  if working.id = target then
    return ⟨wrapper, target, 0, true, some newId⟩
  else
    let parentId ← parent
    let (children, shares, _, _) ← findGroupFull working parentId
    let index ← children.findIdx? (isNamed target)
    let targetShare ← shares[index]?
    let updated ← replaceChildAt working parentId index wrapper targetShare
    return ⟨updated, parentId, index, true, some newId⟩

/-- Drop at a leaf's edge: a sibling when its parent runs along the axis, a
wrap of the leaf otherwise. -/
def applyDragPlacement (tree : Node) (sourceLeaf targetLeaf : NodeId) (side : DragSide)
    (baseRevision : Nat) : Option DragPlacement := do
  require (sourceLeaf != targetLeaf)
  let axis ← side.axis
  let before ← side.before
  let working ← liftSource tree sourceLeaf
  require (working.leaves.contains targetLeaf)
  let wrap := wrapTarget working sourceLeaf targetLeaf (.leaf targetLeaf)
    (directParentOfLeaf working targetLeaf) axis before baseRevision
  match directParentOfLeaf working targetLeaf with
  | none => wrap
  | some parentId =>
    let (children, parentAxis, _) ← findGroup working parentId
    if parentAxis = axis then
      let index ← children.findIdx? (isNamed targetLeaf)
      let insertionIndex := if before then index else index + 1
      require (decide (insertionIndex ≤ children.length))
      let updated ← insertLeafIntoGroup working parentId insertionIndex (.leaf sourceLeaf)
      return ⟨updated, parentId, insertionIndex, false, none⟩
    else wrap

/-- Drop at a group's edge: first or last along its axis, a wrap of the group
across it. -/
def applyGroupEdgePlacement (tree : Node) (sourceLeaf groupId : NodeId) (side : DragSide)
    (baseRevision : Nat) : Option DragPlacement := do
  let axis ← side.axis
  let before ← side.before
  require (sourceLeaf != groupId)
  let working ← liftSource tree sourceLeaf
  let (children, _, _, groupAxis) ← findGroupFull working groupId
  require (!children.isEmpty)
  if groupAxis = axis then
    let insertionIndex := if before then 0 else children.length
    let updated ← insertLeafIntoGroup working groupId insertionIndex (.leaf sourceLeaf)
    return ⟨updated, groupId, insertionIndex, false, none⟩
  else
    let groupNode ← findSubtree working groupId
    wrapTarget working sourceLeaf groupId groupNode (parentOfGroup working groupId) axis before
      baseRevision

/-- Drop between a group's children, past the predecessor. -/
def applyGroupInteriorPlacement (tree : Node) (sourceLeaf groupId : NodeId)
    (predecessor : Nat) : Option DragPlacement := do
  require (sourceLeaf != groupId)
  let working ← liftSource tree sourceLeaf
  let (children, _, _, _) ← findGroupFull working groupId
  let insertionIndex := min children.length (predecessor + 1)
  let updated ← insertLeafIntoGroup working groupId insertionIndex (.leaf sourceLeaf)
  return ⟨updated, groupId, insertionIndex, false, none⟩

/-! ## Resolving a point -/

def containsPoint (rect : Rect) (x y : Int) : Bool :=
  decide (rect.x ≤ x) && decide (rect.y ≤ y) &&
    (IntRange.i32.check (x - rect.x)).any (· < rect.w) &&
    (IntRange.i32.check (y - rect.y)).any (· < rect.h)

/-- Union rectangle of a group with the start of each child. -/
structure GroupLayout where
  id : NodeId
  axis : Axis
  rect : Rect
  childStarts : List Int

/-- The layout of one group from its leaves' rectangles. -/
def groupLayout (leafRects : BTreeMap NodeId Rect) : Node → Option GroupLayout
  | .leaf _ => none
  | .group id axis children shares => do
    let rects := (Node.group id axis children shares).leaves.filterMap fun leaf => leafRects[leaf]?
    let x0 ← (rects.map Rect.x).min?
    let y0 ← (rects.map Rect.y).min?
    let x1 ← (rects.map fun r => r.x + r.w).max?
    let y1 ← (rects.map fun r => r.y + r.h).max?
    let clamp (n : Int) (fallback : Int) : Int := (IntRange.i32.check n).getD fallback
    return {
      id, axis
      rect := ⟨clamp x0 IntRange.i32.lo, clamp y0 IntRange.i32.lo, clamp (x1 - x0) 0,
        clamp (y1 - y0) 0⟩
      childStarts := children.map fun child =>
        ((child.leaves.filterMap fun leaf => leafRects[leaf]?).map
          fun r => (r.along axis).1).min?.getD 0 }

def dragGroupLayouts (tree : Node) (leafRects : BTreeMap NodeId Rect) : List GroupLayout :=
  tree.nodes.filterMap (groupLayout leafRects)

mutual

/-- Descend through the first child that contains the point. -/
def deepestContaining (contains : Node → Bool) : Node → Node
  | .leaf id => .leaf id
  | .group id axis children shares =>
    (deepestOf contains children).getD (.group id axis children shares)

def deepestOf (contains : Node → Bool) : List Node → Option Node
  | [] => none
  | child :: children =>
    if contains child then some (deepestContaining contains child)
    else deepestOf contains children

end

/-- First member window of a group that is not the source. -/
def groupRepWindow (tree : Node) (group : NodeId) (windows : Links) (sourceWindow : WindowId)
    (domain : DomainKey) : Option WindowId := do
  let node ← findSubtree tree group
  node.leaves.findSome? fun leaf =>
    (windowAt windows domain leaf).filter (· ≠ sourceWindow)

/-- What a point resolves to. -/
structure SharedDragResolved where
  targetLeaf : NodeId
  targetWindow : WindowId
  targetRect : Rect
  side : DragSide
  axis : Axis
  before : Bool
  placement : DragPlacement
  nextPrior : Option PriorGroupEdge

/-- A group target: its edge zones first, then the gap between its children. -/
def resolveGroup (tree : Node) (windows : Links) (exceptions : Exceptions) (capture : DragState)
    (layout : GroupLayout) (x y : Int) : Except RefusalKind SharedDragResolved := do
  let edge? := classifyGroupPoint layout.rect layout.id x y capture.prior
  let rep ← okOr .malformedTopology
    (groupRepWindow tree layout.id windows capture.sourceWindow capture.domain)
  ensure (!exceptions.contains rep) .malformedTopology
  let side := edge?.getD (match layout.axis with | .horizontal => .left | .vertical => .top)
  match edge? with
  | some edge =>
    let axis ← okOr .unsupportedCapability edge.axis
    let before ← okOr .unsupportedCapability edge.before
    let placement ← okOr .malformedTopology
      (applyGroupEdgePlacement tree capture.sourceLeaf layout.id edge capture.revision)
    return ⟨layout.id, rep, layout.rect, edge, axis, before, placement, some ⟨layout.id, edge⟩⟩
  | none =>
    let offset := match layout.axis with | .horizontal => x | .vertical => y
    let placement ← okOr .malformedTopology
      (applyGroupInteriorPlacement tree capture.sourceLeaf layout.id
        (insertionIndexForOffset layout.childStarts offset))
    let axis ← okOr .unsupportedCapability side.axis
    let before ← okOr .unsupportedCapability side.before
    return ⟨layout.id, rep, layout.rect, side, axis, before, placement, none⟩

/-- A leaf target: one of its edges. -/
def resolveLeaf (tree : Node) (windows : Links) (exceptions : Exceptions) (capture : DragState)
    (leafRects : BTreeMap NodeId Rect) (id : NodeId) (x y : Int) :
    Except RefusalKind SharedDragResolved := do
  ensure (id != capture.sourceLeaf) .unchanged
  let rect ← okOr .malformedTopology leafRects[id]?
  let side ← okOr .unchanged (classifyWindowPoint rect x y)
  ensure (!side.isStack) .unsupportedCapability
  let targetWindow ← okOr .malformedTopology (windowAt windows capture.domain id)
  ensure (!exceptions.contains targetWindow) .malformedTopology
  let axis ← okOr .unsupportedCapability side.axis
  let before ← okOr .unsupportedCapability side.before
  let placement ← okOr .malformedTopology
    (applyDragPlacement tree capture.sourceLeaf id side capture.revision)
  return ⟨id, targetWindow, rect, side, axis, before, placement, none⟩

/-- The resolver's index of a projection. -/
def leafRectsOf (projected : List ProjectedLeaf) : BTreeMap NodeId Rect :=
  projected.foldl (fun rects leaf => rects.insert leaf.leaf leaf.rect) ∅

/-- The resolver's index of the groups. -/
def layoutsOf (tree : Node) (leafRects : BTreeMap NodeId Rect) : BTreeMap NodeId GroupLayout :=
  (dragGroupLayouts tree leafRects).foldl (fun byId layout => byId.insert layout.id layout) ∅

/-- Whether the resolver finds the point in a node: in its leaf rectangle, or
in its group layout. -/
def holdsPoint (leafRects : BTreeMap NodeId Rect) (layouts : BTreeMap NodeId GroupLayout) (x y : Int) :
    Node → Bool
  | .leaf id => leafRects[id]?.any (containsPoint · x y)
  | .group id .. => layouts[id]?.any fun layout => containsPoint layout.rect x y

/-- The node the resolver descends to. Node ids are distinct in a valid tree,
so descending by node is descending by id. -/
def deepestAt (tree : Node) (projected : List ProjectedLeaf) (x y : Int) : Node :=
  let leafRects := leafRectsOf projected
  deepestContaining (holdsPoint leafRects (layoutsOf tree leafRects) x y) tree

/-- The resolver preview and drop share. -/
def resolveDragShared (tree : Node) (domain : OutputDomain) (windows : Links)
    (exceptions : Exceptions) (capture : DragState) (x y : Int) :
    Except RefusalKind SharedDragResolved := do
  ensure (containsPoint capture.workArea x y) .crossDomainMismatch
  let projected ← (project tree domain.bounds domain.gap).mapError fun _ => .malformedTopology
  let leafRects := leafRectsOf projected
  let layoutById := layoutsOf tree leafRects
  match deepestAt tree projected x y with
  | .group id .. => do
    let layout ← okOr .malformedTopology layoutById[id]?
    resolveGroup tree windows exceptions capture layout x y
  | .leaf id => resolveLeaf tree windows exceptions capture leafRects id x y

namespace Session

/-! ## Begin and carry -/

def planBeginDrag (s : Session) (window : WindowId) (observed : SessionObservation) :
    Except ProposeError DragState := do
  s.checkIdle
  refuseUnless s.validateCurrentTopology .malformedTopology
  refuseUnless (!window.isEmpty) .malformedInput
  s.checkObserved observed.windows
  s.checkComplete observed.windows
  refuseUnless (observed.observation.owner == s.owner &&
    observed.observation.generation == s.generation &&
    observed.observation.revision == s.acceptedRevision) .malformedInput
  refuseUnless (!s.exceptions.contains window) .notTiled
  let link ← okOr (.refused .unknownWindow) s.windows[window]?
  let domain ← okOr (.refused .unknownDomain) (s.domainAt link.key)
  refuseUnless (s.focusedDomain == some link.key && s.focusedLeaf == some link.leaf) .focusMismatch
  refuseUnless (!(observed.windows.find? (·.window == window)).any (·.flags.any)) .notTiled
  let geometry ← (projectOutputGeometry (some domain) (treeAt s.trees link.key) s.windows link.key
    (hintsFromObserved observed.windows)).mapError fun _ => .refused .malformedTopology
  let source ← okOr (.refused .malformedTopology) (geometry.find? (·.leaf == link.leaf))
  return {
    domain := link.key
    sourceLeaf := link.leaf
    sourceWindow := window
    revision := s.acceptedRevision
    generation := s.generation
    trees := s.trees
    windows := s.windows
    exceptions := s.exceptions
    focusedDomain := s.focusedDomain
    focusedLeaf := s.focusedLeaf
    sourceRect := source.rect
    workArea := domain.bounds
    prior := none }

def beginDrag (s : Session) (window : WindowId) (observed : SessionObservation) :
    Session × Except ProposeError DragCapture :=
  s.attempt (s.planBeginDrag window observed) fun drag =>
    ({ s with drag := some drag },
      .ok ⟨drag.domain, drag.sourceLeaf, drag.sourceWindow, drag.revision, drag.sourceRect,
        drag.workArea⟩)

/-- Replace the stored hover when the carry names the live capture. -/
def carryDragPrior (s : Session) (carried : DragHoverPrior) : Session × Bool :=
  match s.drag with
  | none => (s, false)
  | some drag =>
    if drag.domain ≠ carried.domain ∨ drag.sourceLeaf ≠ carried.sourceLeaf ∨
        drag.sourceWindow ≠ carried.sourceWindow ∨ drag.revision ≠ carried.revision then (s, false)
    else ({ s with drag := some { drag with prior := carried.prior } }, true)

/-- Whether the session moved on since the capture; the hover may. -/
def dragCaptureStale (s : Session) (capture : DragState) : Bool :=
  capture.revision != s.acceptedRevision || capture.generation != s.generation ||
    decide (s.trees ≠ capture.trees) || decide (s.windows ≠ capture.windows) ||
    decide (s.exceptions ≠ capture.exceptions) ||
    s.focusedDomain != capture.focusedDomain || s.focusedLeaf != capture.focusedLeaf

/-! ## Preview -/

/-- What both preview and drop need of the live capture: its tree and its
domain. -/
def dragContext (s : Session) (capture : DragState) : Except RefusalKind (Node × OutputDomain) := do
  ensure (!s.dragCaptureStale capture) .malformedTopology
  let current ← okOr .malformedTopology (treeAt s.trees capture.domain)
  let domain ← okOr .unknownDomain (s.domainAt capture.domain)
  return (current, domain)

/-- The preview of a resolved placement. -/
def previewOf (s : Session) (capture : DragState) (current : Node)
    (resolved : SharedDragResolved) (observed : List ObservedWindow) :
    Except RefusalKind DragPreview := do
  let placement := resolved.placement
  ensure (decide (placement.tree ≠ current)) .unchanged
  let geometry ← (projectAffectedGeometry s.domains
    (s.trees.insert capture.domain (some placement.tree)) s.windows [capture.domain]
    (hintsFromObserved observed)).mapError fun _ => .malformedTopology
  let proposed ← okOr .malformedTopology (geometry.find? (·.leaf == capture.sourceLeaf))
  return {
    domain := capture.domain
    sourceLeaf := capture.sourceLeaf
    sourceWindow := capture.sourceWindow
    revision := capture.revision
    sourceRect := capture.sourceRect
    targetLeaf := resolved.targetLeaf
    targetWindow := resolved.targetWindow
    targetRect := resolved.targetRect
    proposedRect := proposed.rect
    side := resolved.side
    axis := resolved.axis
    before := resolved.before
    wrap := placement.wrap
    targetGroup := placement.targetGroup
    insertionIndex := placement.insertionIndex
    prior := resolved.nextPrior }

/-- The session with another stored hover. -/
def hovering (s : Session) (prior : Option PriorGroupEdge) : Session :=
  { s with drag := s.drag.map fun drag => { drag with prior } }

/-- Resolve a point without staging anything; only the stored hover moves. -/
def previewDrag (s : Session) (x y : Int) (observed : List ObservedWindow) :
    Session × Except ProposeError DragPreview :=
  match s.divergence with
  | some reason => (s, .error (.diverged reason))
  | none =>
    if !s.validateCurrentTopology then (s, .error (.refused .malformedTopology))
    else
      match s.drag with
      | none => (s, .error (.refused .malformedInput))
      | some capture =>
        match s.dragContext capture with
        | .error kind => (s, .error (.refused kind))
        | .ok (current, domain) =>
          match resolveDragShared current domain s.windows s.exceptions capture x y with
          | .error kind => (s.hovering none, .error (.refused kind))
          | .ok resolved =>
            (s.hovering resolved.nextPrior,
              (s.previewOf capture current resolved observed).mapError .refused)

/-! ## Release -/

/-- Clear the capture and report the accepted source rectangle, or the
captured one when the accepted world no longer projects it. -/
def clearDragSnapBack (s : Session) (capture : DragState) : Session × DragSnapBack :=
  let geometry := (s.domainAt capture.domain).bind fun domain =>
    match projectOutputGeometry (some domain) (treeAt s.trees capture.domain) s.windows
        capture.domain ∅ with
    | .ok geometry => geometry.find? (·.leaf == capture.sourceLeaf)
    | .error _ => none
  ({ s with drag := none },
    ⟨capture.domain, capture.sourceLeaf, capture.sourceWindow,
      (geometry.map DesiredGeometry.rect).getD capture.sourceRect⟩)

/-- Why a release stages nothing: it snaps back, or, at the stack zone, refuses. -/
inductive DropFault
  | snapBack
  | unsupported

/-- A check that snaps back. -/
def snapUnless (c : Bool) : Except DropFault Unit := ensure c .snapBack

def planDrop (s : Session) (capture : DragState) (x y : Int) (observed : SessionObservation)
    (capabilities : DragCapabilities) :
    Except DropFault (Staging DragPlan × Option PriorGroupEdge) := do
  snapUnless s.validateCurrentTopology
  snapUnless (validObservedShapes observed.windows && s.observedHomed observed.windows)
  snapUnless (decide (observedIds observed.windows = s.knownWindows))
  snapUnless (s.observedKnownMatch observed.windows none)
  let (current, domain) ← (s.dragContext capture).mapError fun _ => .snapBack
  let resolved ← (resolveDragShared current domain s.windows s.exceptions capture x y).mapError
    fun kind => if kind = .unsupportedCapability then .unsupported else .snapBack
  snapUnless (capabilities.supports .placeTiled)
  let placement := resolved.placement
  snapUnless (decide (placement.tree ≠ current))
  let trees := s.trees.insert capture.domain (some placement.tree)
  snapUnless (validateTopology s.domains trees s.windows s.exceptions (some capture.domain)
    (some capture.sourceLeaf))
  let geometry ← (projectAffectedGeometry s.domains trees s.windows [capture.domain]
    (hintsFromObserved observed.windows)).mapError fun _ => .snapBack
  snapUnless (geometryCoversAffected geometry s.windows [capture.domain])
  let intent : DragIntent :=
    { domainOutput := capture.domain.output, domainWorkspace := capture.domain.workspace
      sourceLeaf := capture.sourceLeaf, sourceWindow := capture.sourceWindow
      targetLeaf := resolved.targetLeaf, targetWindow := resolved.targetWindow
      side := resolved.side }
  let operation : DragOperation :=
    { domainOutput := capture.domain.output, domainWorkspace := capture.domain.workspace
      sourceLeaf := capture.sourceLeaf, sourceWindow := capture.sourceWindow
      targetLeaf := resolved.targetLeaf, targetWindow := resolved.targetWindow
      side := resolved.side, axis := resolved.axis, before := resolved.before
      targetGroup := placement.targetGroup, insertionIndex := placement.insertionIndex
      wrap := placement.wrap, newGroup := placement.newGroup }
  return ({
    plan := .forOperation intent operation
    desired := { s.accepted with
      trees, focusedDomain := some capture.domain, focusedLeaf := some capture.sourceLeaf }
    geometry }, resolved.nextPrior)

/-- Release the drag at a point: a staged plan or a snap-back. -/
def dropDrag (s : Session) (x y : Int) (observed : SessionObservation)
    (correlationId : CorrelationId) (capabilities : DragCapabilities) :
    Session × Except ProposeError DragRelease :=
  match s.divergence with
  | some reason => ({ s with pendingDesired := none, drag := none }, .error (.diverged reason))
  | none =>
    match s.drag with
    | none => (s, .error (.refused .malformedInput))
    | some capture =>
      if s.hasPending then (s, .error .pendingExists)
      else
        match s.planDrop capture x y observed capabilities with
        | .error .snapBack =>
          match s.clearDragSnapBack capture with
          | (s', snap) => (s', .ok (.snapBack snap))
        | .error .unsupported => ({ s with drag := none }, .error (.refused .unsupportedCapability))
        | .ok (staging, prior) =>
          match (s.hovering prior).proposeStaged (.ok staging)
              (fun plan =>
                s.reconciler.proposeDrag plan observed.observation correlationId capabilities)
              fun dispatch staging =>
                { s.planOf dispatch staging.desired staging.geometry with
                  dragPlan := staging.plan } with
          | (s', .ok plan) => ({ s' with drag := none }, .ok (.planned plan))
          | (s', .error e) => (s', .error e)

/-- Clear the active capture. -/
def cancelDrag (s : Session) : Session × Option DragSnapBack :=
  match s.drag with
  | none => (s, none)
  | some capture =>
    match s.clearDragSnapBack capture with
    | (s', snap) => (s', some snap)

end Session

end PlasmaTiler
