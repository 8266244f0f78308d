import PlasmaTiler.Retained

/-!
# The active group

The group to highlight is the one the focused leaf is a child of: all leaves
below it with their projected rectangles, and the rectangle around them. Only
the tree says what belongs to the group; observed rectangles are not asked.

The tree is laid out again for the query, under the hints it carries. The
query changes nothing and does not ask for the revision, but the session must
be settled and the focus the observed one; where there is no group to show,
as for a leaf alone in its tree, the answer is the reason (`NoGroupReason`).
-/

namespace PlasmaTiler

/-! ## The group of a leaf -/

mutual

/-- The group that has the leaf as a child, depth first. -/
def immediateParentGroup (focusedLeaf : NodeId) : Node → Option Node
  | .leaf _ => none
  | .group id axis children shares =>
    if children.any fun child => child.id == focusedLeaf then some (.group id axis children shares)
    else immediateParentAmong focusedLeaf children

def immediateParentAmong (focusedLeaf : NodeId) : List Node → Option Node
  | [] => none
  | child :: children =>
    match immediateParentGroup focusedLeaf child with
    | some parent => some parent
    | none => immediateParentAmong focusedLeaf children

end

structure ActiveGroupMember where
  window : WindowId
  leaf : NodeId
  rect : Rect
deriving DecidableEq

structure ActiveGroup where
  group : NodeId
  members : List ActiveGroupMember
  bounds : Rect
deriving DecidableEq

/-- The rectangle around some rectangles of positive size, in machine range;
`none` for none of them. -/
def unionRect (rects : List Rect) : Option Rect := do
  require (rects.all fun r => decide (0 < r.w) && decide (0 < r.h))
  let x ← (rects.map Rect.x).min?
  let y ← (rects.map Rect.y).min?
  let right ← (rects.map fun r => r.x + r.w).max?
  let bottom ← (rects.map fun r => r.y + r.h).max?
  let w ← IntRange.i32.check (right - x)
  let h ← IntRange.i32.check (bottom - y)
  require (decide (0 < w) && decide (0 < h))
  let x ← IntRange.i32.check x
  let y ← IntRange.i32.check y
  return ⟨x, y, w, h⟩

/-- The projected leaves below a group, each with its window. -/
def groupMembers (leaves : List NodeId) (leafToWindow : BTreeMap NodeId WindowId)
    (projected : List ProjectedLeaf) : Option (List ActiveGroupMember) :=
  (projected.filter fun entry => leaves.contains entry.leaf).mapM fun entry => do
    let window ← leafToWindow[entry.leaf]?
    require (isOpaqueId window.raw && isOpaqueId entry.leaf.raw)
    require (decide (0 < entry.rect.w) && decide (0 < entry.rect.h))
    return ⟨window, entry.leaf, entry.rect⟩

/-- The immediate parent group of a leaf, laid out under the carried hints. -/
def describeActiveGroupWithHints (tree : Node) (bounds : Rect) (gap : Int) (focusedLeaf : NodeId)
    (leafToWindow : BTreeMap NodeId WindowId) (resolve : NodeId → WindowSizeHints) :
    Option ActiveGroup := do
  require (isOpaqueId focusedLeaf.raw)
  let parent ← immediateParentGroup focusedLeaf tree
  require (isOpaqueId parent.id.raw)
  let leaves := parent.leaves
  require (decide (2 ≤ leaves.length))
  require (leaves.contains focusedLeaf)
  let hinted ← (projectWithHints tree bounds gap resolve).toOption
  let members ← groupMembers leaves leafToWindow hinted.leaves
  require (decide (members.length = leaves.length))
  let bounds ← unionRect (members.map ActiveGroupMember.rect)
  return ⟨parent.id, members, bounds⟩

/-- Without hints. -/
def describeActiveGroup (tree : Node) (bounds : Rect) (gap : Int) (focusedLeaf : NodeId)
    (leafToWindow : BTreeMap NodeId WindowId) : Option ActiveGroup :=
  describeActiveGroupWithHints tree bounds gap focusedLeaf leafToWindow fun _ => {}

/-! ## The query -/

structure ActiveGroupFound where
  baseRevision : Nat
  group : NodeId
  focusedLeaf : NodeId
  focusedWindow : WindowId
  members : List ActiveGroupMember
  bounds : Rect
deriving DecidableEq

inductive NoGroupReason
  | noSession
  | diverged
  | pending
  | domainMismatch
  | staleRevision
  | focusMismatch
  | focusUnmapped
  | noTree
  | noParentGroup
deriving DecidableEq, Repr

def NoGroupReason.asStr : NoGroupReason → String
  | .noSession => "no-session"
  | .diverged => "diverged"
  | .pending => "pending"
  | .domainMismatch => "domain-mismatch"
  | .staleRevision => "stale-revision"
  | .focusMismatch => "focus-mismatch"
  | .focusUnmapped => "focus-unmapped"
  | .noTree => "no-tree"
  | .noParentGroup => "no-parent-group"

/-- The group of the focused window of a session; the carried revision is not
asked for. -/
def resolveActiveGroup (s : Session) (event : CoreEvent) :
    Except NoGroupReason ActiveGroupFound := do
  ensure s.divergence.isNone .diverged
  ensure (!(s.hasPending || s.hasPendingDesired || s.hasDrag)) .pending
  let domain ← okOr .domainMismatch (s.domainAt event.domain.key)
  ensure (domain.bounds == event.domain.bounds && domain.gap == event.domain.gap) .domainMismatch
  let focusDomain ← okOr .focusMismatch s.focusedDomain
  let focusLeaf ← okOr .focusMismatch s.focusedLeaf
  ensure (focusDomain == event.domain.key) .focusMismatch
  let tree ← okOr .noTree (s.treeFor event.domain.key)
  let byLeaf := leafToWindow s.windows event.domain.key
  ensure (byLeaf[focusLeaf]? == some event.focusedWindow) .focusUnmapped
  let hints := carriedHints event.windows
  let resolve (leaf : NodeId) : WindowSizeHints :=
    (byLeaf[leaf]?.bind fun window => hints[window]?).getD {}
  let group ← okOr .noParentGroup
    (describeActiveGroupWithHints tree domain.bounds domain.gap focusLeaf byLeaf resolve)
  return ⟨s.acceptedRevision, group.group, focusLeaf, event.focusedWindow, group.members,
    group.bounds⟩

end PlasmaTiler
