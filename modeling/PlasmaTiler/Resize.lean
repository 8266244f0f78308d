import PlasmaTiler.Focus

/-!
# Resizing

Keyboard and pointer resizes move one boundary between two adjacent children
of a group. Both walk the matching-axis groups above the leaf from the
innermost outward, compute the pixel split the policy allows at each, and
turn the first one that moves the boundary into integer shares the projector
maps back to exactly those pixels. A corner resize is a horizontal pointer
resize followed by a vertical one on its result.

The walk is one function over a step for one level (`walkLevels`). A level
sends it outward when it is off the axis, at the edge, or when the policy
leaves the boundary where it is; a malformed tree or geometry ends it. The
two routes differ in the step: a keyboard press moves by a number of pixels
and stops the shrinking child at its minimum, the pointer proposes a boundary
and clamps it on both sides.

Extents are read off the accepted geometry, hints included, while the shares
are computed for the plain projection. The result is checked once more on the
projected rectangles before it is staged.
-/

namespace PlasmaTiler

/-! ## Levels -/

/-- One group above the leaf, by its children's ids. -/
structure PointerLevel where
  groupId : NodeId
  axis : Axis
  children : List NodeId
  shares : List Nat
  childIndex : Nat

mutual

/-- The groups above a node, innermost first. -/
def pointerPath (focused : NodeId) : Node → Option (List PointerLevel)
  | .leaf _ => none
  | .group id axis children shares =>
    pointerPathFrom focused (⟨id, axis, children.map Node.id, shares, ·⟩) 0 children

def pointerPathFrom (focused : NodeId) (levelAt : Nat → PointerLevel) :
    Nat → List Node → Option (List PointerLevel)
  | _, [] => none
  | index, child :: children =>
    if child.id = focused then some [levelAt index]
    else if subtreeContainsId child focused then
      (pointerPath focused child).map (· ++ [levelAt index])
    else pointerPathFrom focused levelAt (index + 1) children

end

mutual

/-- The leaves below a node. -/
def pointerLeaves (target : NodeId) : Node → List NodeId
  | .leaf id => if id = target then [id] else []
  | .group id axis children shares =>
    if id = target then (Node.group id axis children shares).leaves
    else pointerLeavesOf target children

def pointerLeavesOf (target : NodeId) : List Node → List NodeId
  | [] => []
  | child :: children =>
    (if subtreeContainsId child target then pointerLeaves target child else []) ++
      pointerLeavesOf target children

end

/-- Origin and extent of a rectangle along an axis. -/
def Rect.along (rect : Rect) : Axis → Int × Int
  | .horizontal => (rect.x, rect.w)
  | .vertical => (rect.y, rect.h)

/-- Projected extent of a child: the bounding box of its leaves. -/
def pointerChildExtent (tree : Node) (child : NodeId) (axis : Axis)
    (geometry : List DesiredGeometry) : Option Int := do
  let spans ← (pointerLeaves child tree).mapM fun leaf => do
    let entry ← geometry.find? (·.leaf == leaf)
    require (decide (0 < entry.rect.w) && decide (0 < entry.rect.h))
    return entry.rect.along axis
  let lo ← (spans.map Prod.fst).min?
  let hi ← (spans.map fun span => span.1 + span.2).max?
  return hi - lo

/-- Origin of a group from its leaves. -/
def pointerGroupOrigin (tree : Node) (group : NodeId) (axis : Axis)
    (geometry : List DesiredGeometry) : Option Int := do
  let origins ← (pointerLeaves group tree).mapM fun leaf => do
    let entry ← geometry.find? (·.leaf == leaf)
    return (entry.rect.along axis).1
  origins.min?

/-! ## Shares for a pixel split -/

/-- Shares at one scale: outside the pair every share is scaled, inside it the
left one is the least the projector maps to `clampedLeft` pixels. `none` when
the arithmetic overflows, `some none` when this scale has no such share or
moves nothing. -/
def pixelSharesAtScale (shares : List Nat) (lo : Nat) (clampedLeft distributable oldPair : Nat)
    (scale : Nat) : Option (Option (List Nat)) := do
  let scaledTotal ← (← shares.mapM fun s => checkU64 (s * scale)) |> checkedTotal
  let scaledPair ← checkU64 (oldPair * scale)
  if scaledTotal = 0 ∨ scaledPair = 0 then return none
  let q := clampedLeft - 1
  -- floor(D * a / total) = q, solved for a
  let lower := (q * scaledTotal + (distributable - 1)) / distributable
  let upper := ((q + 1) * scaledTotal - 1) / distributable
  if upper < lower then return none
  let leftNew := max lower 1
  if min upper (scaledPair - 1) < leftNew then return none
  let leftNew ← checkU64 leftNew
  let rightNew := scaledPair - leftNew
  let scaledLo ← checkU64 (shares.getD lo 0 * scale)
  if leftNew = scaledLo then return none
  let newShares := (shares.map (· * scale)).mapIdx fun i share =>
    if i = lo then leftNew else if i = lo + 1 then rightNew else share
  require (!newShares.contains 0)
  return some newShares

/-- Exact pixel-projectable shares, at the smallest scale that has them. -/
def pixelSharesForClamped (shares : List Nat) (lo : Nat) (clampedLeft distributable : Int)
    (oldTotal oldPair : Nat) : Option (List Nat) := do
  require (decide (0 < distributable) && oldTotal != 0 && oldPair != 0 && decide (0 < clampedLeft))
  let requiredK := min ((distributable.toNat + (oldTotal - 1)) / oldTotal) (u64Size - 1)
  match ← pixelSharesAtScale shares lo clampedLeft.toNat distributable.toNat oldPair 1 with
  | some newShares => some newShares
  | none =>
    (← pixelSharesAtScale shares lo clampedLeft.toNat distributable.toNat oldPair requiredK)

/-! ## The walk -/

/-- The boundary a resize moves, with the shares it had. -/
structure PointerTarget where
  groupId : NodeId
  focusedIndex : Nat
  neighborIndex : Nat
  focusedChild : NodeId
  neighborChild : NodeId
  oldShares : List Nat
deriving DecidableEq

/-- What one level comes to. -/
inductive LevelStep (α : Type)
  | outward
  | belowMinimum
  | planned (a : α)

/-- What the walk comes to. -/
inductive Derived (α : Type)
  | unchanged
  | belowMinimum
  | planned (a : α)

/-- Innermost outward, to the first level that plans; `none` is a malformed
tree or geometry. -/
def walkLevels {α : Type} (step : PointerLevel → Option (LevelStep α)) :
    List PointerLevel → Bool → Option (Derived α)
  | [], below => some (if below then .belowMinimum else .unchanged)
  | level :: levels, below =>
    match step level with
    | none => none
    | some .outward => walkLevels step levels below
    | some .belowMinimum => walkLevels step levels true
    | some (.planned a) => some (.planned a)

/-- The adjacent pair of a level, in pixels. -/
structure ResizePair where
  level : PointerLevel
  neighborIndex : Nat
  sizes : List Int

namespace ResizePair

def focusedIndex (p : ResizePair) : Nat := p.level.childIndex

def lo (p : ResizePair) : Nat := min p.focusedIndex p.neighborIndex

def focusedSize (p : ResizePair) : Int := p.sizes.getD p.focusedIndex 0

def neighborSize (p : ResizePair) : Int := p.sizes.getD p.neighborIndex 0

def leftSize (p : ResizePair) : Int := p.sizes.getD p.lo 0

def target (p : ResizePair) : PointerTarget where
  groupId := p.level.groupId
  focusedIndex := p.focusedIndex
  neighborIndex := p.neighborIndex
  focusedChild := p.level.children.getD p.focusedIndex default
  neighborChild := p.level.children.getD p.neighborIndex default
  oldShares := p.level.shares

/-- The shares for a left size; `some none` when no scale has them. -/
def sharesFor (p : ResizePair) (clampedLeft : Int) : Option (Option (List Nat)) := do
  let availTotal ← p.sizes.foldlM (fun total size => IntRange.i64.check (total + size)) 0
  let distributable ← IntRange.i64.check (availTotal - p.sizes.length)
  let oldTotal ← checkedTotal p.level.shares
  let oldPair ← checkU64
    (p.level.shares.getD p.focusedIndex 0 + p.level.shares.getD p.neighborIndex 0)
  return pixelSharesForClamped p.level.shares p.lo clampedLeft distributable oldTotal oldPair

end ResizePair

/-- The pair at a level; `some none` off the axis or at the edge. -/
def resizePairAt (tree : Node) (geometry : List DesiredGeometry) (direction : Direction)
    (level : PointerLevel) : Option (Option ResizePair) :=
  if level.axis ≠ Axis.forDirection direction then some none
  else
    match stepIndex level.childIndex (stepFor direction) with
    | none => some none
    | some neighborIndex =>
      if level.children.length ≤ neighborIndex then some none
      else do
        require (level.shares.length == level.children.length &&
          decide (level.childIndex < level.shares.length) && !level.shares.contains 0)
        let sizes ← level.children.mapM fun child => do
          let size ← pointerChildExtent tree child (Axis.forDirection direction) geometry
          require (decide (0 < size))
          return size
        return some { level, neighborIndex, sizes }

/-! ## Keyboard -/

/-- A one-sided step at one level. -/
def keyboardLevel (tree : Node) (geometry : List DesiredGeometry) (edge : Direction)
    (mode : ResizeMode) (stepPx : Int) (level : PointerLevel) :
    Option (LevelStep (PointerTarget × List Nat)) := do
  match ← resizePairAt tree geometry edge level with
  | none => return .outward
  | some pair =>
    let axis := Axis.forDirection edge
    let pairSum ← IntRange.i64.check (pair.focusedSize + pair.neighborSize)
    if !pairAdmitsResize pairSum pairSum axis then return .belowMinimum
    let (shrink, grow) := match mode with
      | .inwards => (pair.focusedSize, pair.neighborSize)
      | .outwards => (pair.neighborSize, pair.focusedSize)
    match clampKeyboardShrinkPair shrink grow stepPx axis with
    | none => return if pairSum < pairMinForAxis axis then .belowMinimum else .outward
    | some (newShrink, newGrow) =>
      if newShrink = shrink ∧ newGrow = grow then return .outward
      -- the shrinking child is on the left exactly when the focused one is,
      -- inwards, or is not, outwards
      let shrinkLeft : Bool := (pair.focusedIndex == pair.lo) == (mode == .inwards)
      let clampedLeft := if shrinkLeft then newShrink else newGrow
      if clampedLeft = pair.leftSize then return .outward
      match ← pair.sharesFor clampedLeft with
      | none => return .outward
      | some newShares => return .planned (pair.target, newShares)

def deriveKeyboardPixelShares (tree : Node) (focusedLeaf : NodeId) (edge : Direction)
    (mode : ResizeMode) (stepPx : Int) (geometry : List DesiredGeometry) :
    Option (Derived (PointerTarget × List Nat)) :=
  if focusedLeaf.isEmpty ∨ stepPx ≤ 0 then none
  else
    match pointerPath focusedLeaf tree with
    | none => some .unchanged
    | some levels => walkLevels (keyboardLevel tree geometry edge mode stepPx) levels false

/-! ## Pointer -/

/-- A derived pointer boundary. -/
structure PointerPlan where
  target : PointerTarget
  newShares : List Nat
  effectiveBoundary : Int
  mode : ResizeMode

/-- A two-sided clamp of the proposed boundary at one level. -/
def pointerLevelStep (tree : Node) (geometry : List DesiredGeometry) (direction : Direction)
    (proposedBoundary gap : Int) (level : PointerLevel) : Option (LevelStep PointerPlan) := do
  match ← resizePairAt tree geometry direction level with
  | none => return .outward
  | some pair =>
    let axis := Axis.forDirection direction
    let pairAvail ← IntRange.i64.check (pair.focusedSize + pair.neighborSize)
    if !pairAdmitsResize pairAvail pairAvail axis then return .outward
    let groupOrigin ← pointerGroupOrigin tree level.groupId axis geometry
    let before ← (pair.sizes.take pair.lo).foldlM
      (fun total size => do IntRange.i64.check ((← IntRange.i64.check (total + size)) + gap)) 0
    let pairStart ← IntRange.i64.check (groupOrigin + before)
    let leftDesired ← IntRange.i64.check (proposedBoundary - pairStart)
    match clampPairSplit pairAvail leftDesired axis with
    | none => return .outward
    | some (clampedLeft, _) =>
      if clampedLeft = pair.leftSize then return .outward
      match ← pair.sharesFor clampedLeft with
      | none => return .outward
      | some newShares =>
        let effectiveBoundary ← (IntRange.i64.check (pairStart + clampedLeft)).bind IntRange.i32.check
        let grows := if pair.focusedIndex = pair.lo then decide (pair.leftSize < clampedLeft)
          else decide (clampedLeft < pair.leftSize)
        return .planned { target := pair.target, newShares, effectiveBoundary,
                          mode := if grows then .outwards else .inwards }

def derivePointerShares (tree : Node) (focusedLeaf : NodeId) (direction : Direction)
    (proposedBoundary : Int) (domain : OutputDomain) (geometry : List DesiredGeometry) :
    Option (Derived PointerPlan) :=
  if focusedLeaf.isEmpty then none
  else
    match pointerPath focusedLeaf tree with
    | none => some .unchanged
    | some levels =>
      walkLevels (pointerLevelStep tree geometry direction proposedBoundary domain.gap) levels false

/-! ## Applying shares -/

mutual

/-- The tree with the named group's shares replaced, and how often that
happened. -/
def applyResizeSharesChecked (targetGroup : NodeId) (newShares : List Nat) :
    Node → Option (Node × Nat)
  | .leaf id => some (.leaf id, 0)
  | .group id axis children shares => do
    let (nextChildren, replacements) ← applyResizeSharesIn targetGroup newShares children
    if id = targetGroup then
      require (children.length == newShares.length && shares.length == children.length)
      return (.group id axis nextChildren newShares, replacements + 1)
    else return (.group id axis nextChildren shares, replacements)

def applyResizeSharesIn (targetGroup : NodeId) (newShares : List Nat) :
    List Node → Option (List Node × Nat)
  | [] => some ([], 0)
  | child :: children => do
    let (next, replaced) ← applyResizeSharesChecked targetGroup newShares child
    let (rest, replacedRest) ← applyResizeSharesIn targetGroup newShares children
    return (next :: rest, replaced + replacedRest)

end

/-- Replace the shares of exactly one group of a valid tree. -/
def applyResizeShares (tree : Node) (targetGroup : NodeId) (newShares : List Nat) :
    Option Node := do
  require (!targetGroup.isEmpty && decide (2 ≤ newShares.length) && !newShares.contains 0)
  let _ ← checkedTotal newShares
  require (validateNodeShares tree)
  let (next, replacements) ← applyResizeSharesChecked targetGroup newShares tree
  require (replacements == 1)
  return next

/-! ## Checks on the result -/

/-- The geometry of a leaf; the last entry wins. -/
def geometryByLeaf (geometry : List DesiredGeometry) : BTreeMap NodeId DesiredGeometry :=
  geometry.foldl (fun byLeaf entry => byLeaf.insert entry.leaf entry) ∅

/-- Rectangles of the domain are positive, and each of these children that is
itself a leaf keeps the child minimum. -/
def minimumHolds (geometry : List DesiredGeometry) (domain : DomainKey) (axis : Axis)
    (children : List NodeId) : Bool :=
  let entries := geometry.filter fun g => g.output == domain.output && g.workspace == domain.workspace
  entries.all (fun g => decide (0 < g.rect.w) && decide (0 < g.rect.h)) &&
    children.all fun child => (geometryByLeaf entries)[child]?.all fun entry =>
      decide (childMinForAxis axis ≤ (entry.rect.along axis).2)

def pointerMinimumHolds (geometry : List DesiredGeometry) (target : PointerTarget)
    (domain : DomainKey) (axis : Axis) : Bool :=
  minimumHolds geometry domain axis [target.focusedChild, target.neighborChild]

/-- Only the shrinking side keeps the minimum. -/
def keyboardMinimumHolds (geometry : List DesiredGeometry) (target : PointerTarget)
    (domain : DomainKey) (axis : Axis) (mode : ResizeMode) : Bool :=
  minimumHolds geometry domain axis
    [if mode = .inwards then target.focusedChild else target.neighborChild]

/-- The end edge of the pair's left child after projection. -/
def pointerProjectedBoundary (geometry : List DesiredGeometry) (tree : Node)
    (target : PointerTarget) (axis : Axis) : Option Int := do
  let leftChild := if target.focusedIndex < target.neighborIndex then target.focusedChild
    else target.neighborChild
  let left ← findNodeById tree leftChild
  let ends ← left.leaves.mapM fun leaf => do
    let entry ← (geometryByLeaf geometry)[leaf]?
    return (entry.rect.along axis).1 + (entry.rect.along axis).2
  let boundary ← ends.max?
  IntRange.i32.check boundary

namespace Session

/-! ## Proposing -/

/-- Geometry of one domain as it is, complete. -/
def acceptedGeometry (s : Session) (domain : OutputDomain) (tree : Node)
    (observed : List ObservedWindow) : Except ProposeError (List DesiredGeometry) := do
  let geometry ← (projectOutputGeometry (some domain) (some tree) s.windows domain.key
    (hintsFromObserved observed)).mapError fun _ => .refused .malformedTopology
  refuseUnless (geometryCoversAffected geometry s.windows [domain.key]) .malformedTopology
  return geometry

/-- Geometry of one domain with these trees, complete. -/
def treesGeometry (s : Session) (trees : Trees) (key : DomainKey)
    (observed : List ObservedWindow) : Except ProposeError (List DesiredGeometry) := do
  let geometry ← (projectAffectedGeometry s.domains trees s.windows [key]
    (hintsFromObserved observed)).mapError fun _ => .refused .malformedTopology
  refuseUnless (geometryCoversAffected geometry s.windows [key]) .malformedTopology
  return geometry

/-- The desired trees of a resize and their geometry. -/
def resizedTrees (s : Session) (key : DomainKey) (focusedLeaf : NodeId) (updated : Node)
    (observed : List ObservedWindow) : Except ProposeError (Trees × List DesiredGeometry) := do
  let trees := s.trees.insert key (some updated)
  refuseUnless (decide (trees ≠ s.trees)) .unchanged
  refuseUnless (validateTopology s.domains trees s.windows s.exceptions (some key)
    (some focusedLeaf)) .malformedTopology
  let geometry ← s.treesGeometry trees key observed
  return (trees, geometry)

/-- A resize keeps the focus and touches nothing but shares. -/
def resized (s : Session) (key : DomainKey) (focusedLeaf : NodeId) (trees : Trees) :
    PendingDesired :=
  { s.accepted with trees, focusedDomain := some key, focusedLeaf := some focusedLeaf }

/-- The operation on one boundary. -/
def resizeOperation (key : DomainKey) (leaf : NodeId) (window : WindowId) (direction : Direction)
    (mode : ResizeMode) (target : PointerTarget) (newShares : List Nat) : ResizeOperation where
  domainOutput := key.output
  domainWorkspace := key.workspace
  focusedLeaf := leaf
  focusedWindow := window
  direction
  mode
  targetGroup := target.groupId
  focusedChild := target.focusedChild
  neighborChild := target.neighborChild
  focusedIndex := target.focusedIndex
  neighborIndex := target.neighborIndex
  oldShares := target.oldShares
  newShares

def resizeIntent (key : DomainKey) (leaf : NodeId) (window : WindowId) (direction : Direction)
    (mode : ResizeMode) : ResizeIntent where
  domainOutput := key.output
  domainWorkspace := key.workspace
  focusedLeaf := leaf
  focusedWindow := window
  direction
  mode

/-- The pointer route names its capability itself. -/
def pointerResizePlan (key : DomainKey) (leaf : NodeId) (window : WindowId)
    (direction : Direction) (plan : PointerPlan) : ResizePlan :=
  let operation := resizeOperation key leaf window direction plan.mode plan.target plan.newShares
  { intent := resizeIntent key leaf window direction plan.mode
    operation
    requiredCapability := .pointerResize
    preconditions := operation.preconditions }

/-- A resize plans one boundary, a corner two. -/
abbrev ResizeStaging := Staging (ResizePlan × Option ResizePlan)

def planKeyboardResize (s : Session) (domain : DomainKey) (window : WindowId)
    (direction : Direction) (mode : ResizeMode) (pressIndex : Nat) (observed : SessionObservation)
    (capabilities : ResizeCapabilities) : Except ProposeError ResizeStaging := do
  s.checkIdle
  s.checkFocusRequest domain window observed.windows
  refuseUnless (!s.exceptions.contains window) .notTiled
  let focusedLeaf ← s.checkFocusIs domain window true
  refuseUnless (!(observed.windows.find? (·.window == window)).any (·.flags.any)) .notTiled
  refuseUnless (capabilities.supports .keyboardResize) .unsupportedCapability
  let ownDomain ← okOr (.refused .unknownDomain) (s.domainAt domain)
  let tree ← okOr (.refused .focusMismatch) (treeAt s.trees domain)
  let accepted ← s.acceptedGeometry ownDomain tree observed.windows
  let derived ← okOr (.refused .malformedTopology) (deriveKeyboardPixelShares tree focusedLeaf
    direction mode (keyboardStepPx pressIndex) accepted)
  match derived with
  | .unchanged => .error (.refused .unchanged)
  | .belowMinimum => .error (.refused .pairBelowMinimum)
  | .planned (target, newShares) =>
    let updated ← okOr (.refused .malformedTopology)
      (applyResizeShares tree target.groupId newShares)
    let (trees, geometry) ← s.resizedTrees domain focusedLeaf updated observed.windows
    refuseUnless (keyboardMinimumHolds geometry target domain (Axis.forDirection direction) mode)
      .malformedTopology
    return {
      plan := (.forOperation (resizeIntent domain focusedLeaf window direction mode)
        (resizeOperation domain focusedLeaf window direction mode target newShares), none)
      desired := s.resized domain focusedLeaf trees
      geometry }

/-- The plan a resize reports. -/
def resizeReport (s : Session) (dispatch : ResizeDispatch) (staging : ResizeStaging) :
    SessionResizePlan :=
  { s.planOf dispatch staging.desired staging.geometry with
    resizePlan := staging.plan.1
    secondaryPlan := staging.plan.2 }

def proposeResize (s : Session) (domain : DomainKey) (window : WindowId) (direction : Direction)
    (mode : ResizeMode) (pressIndex : Nat) (observed : SessionObservation)
    (correlationId : CorrelationId) (capabilities : ResizeCapabilities) :
    Session × Except ProposeError SessionResizePlan :=
  s.proposeStaged
    (s.planKeyboardResize domain window direction mode pressIndex observed capabilities)
    (fun (plan, _) => s.reconciler.proposeResize plan observed.observation correlationId capabilities)
    s.resizeReport

/-- Pointer-only binding: overlays on other tiles are tolerated, the stored
flags of exceptions are not. -/
def pointerObservationMatches (s : Session) (observed : List ObservedWindow)
    (window : WindowId) : Bool :=
  let byId : BTreeMap WindowId ObservedWindow :=
    observed.foldl (fun byId entry => byId.insert entry.window entry) ∅
  s.windows.toList.all (fun (id, link) =>
    byId[id]?.any fun entry => entry.output == link.output && entry.workspace == link.workspace &&
      !(id == window && entry.flags.any)) &&
  s.exceptions.toList.all fun (id, record) =>
    byId[id]?.any fun entry => entry.output == record.output &&
      entry.workspace == record.workspace && entry.flags == record.flags

/-- What a pointer resize binds: its domain, the focused leaf it preserves and
the leaf of the dragged window. -/
structure PointerRequest where
  ownDomain : OutputDomain
  focusedLeaf : NodeId
  targetLeaf : NodeId

def checkPointerRequest (s : Session) (domain : DomainKey) (window : WindowId)
    (observed : List ObservedWindow) (capabilities : ResizeCapabilities) :
    Except ProposeError PointerRequest := do
  let ownDomain ← okOr (.refused .unknownDomain) (s.domainAt domain)
  refuseUnless s.validateCurrentTopology .malformedTopology
  refuseUnless (!window.isEmpty) .malformedInput
  s.checkObserved observed
  refuseUnless (decide (observedIds observed = s.knownWindows)) .partialObservation
  refuseUnless (s.pointerObservationMatches observed window) .partialObservation
  s.checkTiled window
  let focusedDomain ← okOr (.refused .focusMismatch) s.focusedDomain
  let focusedLeaf ← okOr (.refused .focusMismatch) s.focusedLeaf
  refuseUnless (focusedDomain == domain) .focusMismatch
  let focusedWindow ← okOr (.refused .notTiled) (s.focusedWindowFor focusedLeaf domain)
  refuseUnless (!s.exceptions.contains focusedWindow) .notTiled
  let overlaid := (observed.find? (·.window == window)).any (·.flags.any)
  refuseUnless (!(focusedWindow == window && overlaid)) .notTiled
  let link ← okOr (.refused .unknownWindow) s.windows[window]?
  refuseUnless (link.key == domain) .focusMismatch
  refuseUnless (!overlaid) .notTiled
  refuseUnless (capabilities.supports .pointerResize) .unsupportedCapability
  return { ownDomain, focusedLeaf, targetLeaf := link.leaf }

/-- A proposed coordinate lands in the work area along its axis. -/
def insideWorkArea (bounds : Rect) (axis : Axis) (boundary : Int) : Bool :=
  decide ((bounds.along axis).1 ≤ boundary) &&
    decide (boundary ≤ (bounds.along axis).1 + (bounds.along axis).2)

/-- The accepted tree of the request and its geometry. -/
def pointerTree (s : Session) (domain : DomainKey) (request : PointerRequest)
    (observed : List ObservedWindow) : Except ProposeError (Node × List DesiredGeometry) := do
  let tree ← okOr (.refused .focusMismatch) (treeAt s.trees domain)
  refuseUnless (tree.leaves.contains request.targetLeaf) .malformedTopology
  let accepted ← s.acceptedGeometry request.ownDomain tree observed
  return (tree, accepted)

/-- Derive a boundary on a tree and apply its shares. -/
def pointerDerive (tree : Node) (geometry : List DesiredGeometry) (request : PointerRequest)
    (direction : Direction) (boundary : Int) : Except ProposeError (PointerPlan × Node) := do
  let derived ← okOr (.refused .malformedTopology)
    (derivePointerShares tree request.targetLeaf direction boundary request.ownDomain geometry)
  match derived with
  | .planned plan =>
    let updated ← okOr (.refused .malformedTopology)
      (applyResizeShares tree plan.target.groupId plan.newShares)
    return (plan, updated)
  | _ => .error (.refused .unchanged)

def planPointerResize (s : Session) (domain : DomainKey) (window : WindowId)
    (direction : Direction) (boundary : Int) (observed : SessionObservation)
    (capabilities : ResizeCapabilities) : Except ProposeError ResizeStaging := do
  s.checkIdle
  let request ← s.checkPointerRequest domain window observed.windows capabilities
  let axis := Axis.forDirection direction
  refuseUnless (insideWorkArea request.ownDomain.bounds axis boundary) .malformedInput
  let (tree, accepted) ← s.pointerTree domain request observed.windows
  let (plan, updated) ← pointerDerive tree accepted request direction boundary
  let (trees, geometry) ← s.resizedTrees domain request.focusedLeaf updated observed.windows
  refuseUnless (pointerMinimumHolds geometry plan.target domain axis) .malformedTopology
  -- the projection must show the effective boundary exactly
  let projected ← okOr (.refused .malformedTopology)
    (pointerProjectedBoundary geometry updated plan.target axis)
  refuseUnless (projected == plan.effectiveBoundary) .unchanged
  return {
    plan := (pointerResizePlan domain request.targetLeaf window direction plan, none)
    desired := s.resized domain request.focusedLeaf trees
    geometry }

def proposePointerResize (s : Session) (domain : DomainKey) (window : WindowId)
    (direction : Direction) (boundary : Int) (observed : SessionObservation)
    (correlationId : CorrelationId) (capabilities : ResizeCapabilities) :
    Session × Except ProposeError SessionResizePlan :=
  s.proposeStaged (s.planPointerResize domain window direction boundary observed capabilities)
    (fun (plan, _) =>
      s.reconciler.proposePointerResize plan observed.observation correlationId capabilities)
    s.resizeReport

/-- Horizontal on the accepted tree, then vertical on the result. -/
def planPointerResizeCorner (s : Session) (domain : DomainKey) (window : WindowId)
    (directionH : Direction) (boundaryH : Int) (directionV : Direction) (boundaryV : Int)
    (observed : SessionObservation) (capabilities : ResizeCapabilities) :
    Except ProposeError ResizeStaging := do
  s.checkIdle
  refuseUnless (Axis.forDirection directionH == .horizontal &&
    Axis.forDirection directionV == .vertical) .malformedInput
  let request ← s.checkPointerRequest domain window observed.windows capabilities
  refuseUnless (insideWorkArea request.ownDomain.bounds .horizontal boundaryH &&
    insideWorkArea request.ownDomain.bounds .vertical boundaryV) .malformedInput
  let (tree, accepted) ← s.pointerTree domain request observed.windows
  let (planH, intermediate) ← pointerDerive tree accepted request directionH boundaryH
  let between ← s.treesGeometry (s.trees.insert domain (some intermediate)) domain observed.windows
  let (planV, updated) ← pointerDerive intermediate between request directionV boundaryV
  let (trees, geometry) ← s.resizedTrees domain request.focusedLeaf updated observed.windows
  refuseUnless (pointerMinimumHolds geometry planH.target domain .horizontal &&
    pointerMinimumHolds geometry planV.target domain .vertical) .malformedTopology
  let projectedH ← okOr (.refused .malformedTopology)
    (pointerProjectedBoundary geometry updated planH.target .horizontal)
  let projectedV ← okOr (.refused .malformedTopology)
    (pointerProjectedBoundary geometry updated planV.target .vertical)
  refuseUnless (projectedH == planH.effectiveBoundary && projectedV == planV.effectiveBoundary)
    .unchanged
  return {
    plan := (pointerResizePlan domain request.targetLeaf window directionH planH,
      some (pointerResizePlan domain request.targetLeaf window directionV planV))
    desired := s.resized domain request.focusedLeaf trees
    geometry }

def proposePointerResizeCorner (s : Session) (domain : DomainKey) (window : WindowId)
    (directionH : Direction) (boundaryH : Int) (directionV : Direction) (boundaryV : Int)
    (observed : SessionObservation) (correlationId : CorrelationId)
    (capabilities : ResizeCapabilities) : Session × Except ProposeError SessionResizePlan :=
  s.proposeStaged (s.planPointerResizeCorner domain window directionH boundaryH directionV boundaryV
      observed capabilities)
    (fun (primary, secondary) => s.reconciler.proposePointerResizeCorner primary
      (secondary.getD primary) observed.observation correlationId capabilities)
    s.resizeReport

end Session

end PlasmaTiler
