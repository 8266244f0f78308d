import Mathlib.Data.List.Lex
import Mathlib.Data.List.Sort
import Mathlib.Data.Prod.Lex
import PlasmaTiler.Movement
import PlasmaTiler.World

/-!
# The startup fit

Windows that are already on screen when a domain is first seen keep their
arrangement if it can be read as a tree of cuts. `buildRegion` takes every
cut of a region along its axis, or else along the other one, and recurses on
the parts with the axis turned; a region without any cut is split once at the
widest gap between window centres. The finished tree counts only if it
projects.

A cut may be crossed by up to a tolerance, and sorts are stable, so the order
in which windows are listed could matter where rectangles are equal. Nodes
are numbered in the order they are built, and the windows' extents become the
shares of a group.
-/

namespace PlasmaTiler

/-! ## Stable sorting -/

section
variable {α κ : Type} [LinearOrder κ] {key : α → κ} {l : List α}

/-- Sort by a key; elements with equal keys stay in order. -/
def sortByKey (key : α → κ) (l : List α) : List α := l.insertionSort fun a b => key a ≤ key b

theorem perm_sortByKey : (sortByKey key l).Perm l := List.perm_insertionSort _ _

theorem sortByKey_pairwise : (sortByKey key l).Pairwise fun a b => key a ≤ key b := by
  have : IsTrans α fun a b => key a ≤ key b := ⟨fun _ _ _ => le_trans⟩
  have : Std.Total fun a b : α => key a ≤ key b := ⟨fun _ _ => le_total _ _⟩
  exact List.pairwise_insertionSort _ _

end

namespace Seed

def geometryBound : Int := 16384

def validCarriedRect (r : Rect) : Bool :=
  decide (0 < r.w) && decide (0 < r.h) &&
    decide (-geometryBound ≤ r.x) && decide (r.x ≤ geometryBound) &&
    decide (-geometryBound ≤ r.y) && decide (r.y ≤ geometryBound) &&
    decide (r.w ≤ geometryBound) && decide (r.h ≤ geometryBound) &&
    decide (r.x + r.w ≤ IntRange.i32.hi) && decide (r.y + r.h ≤ IntRange.i32.hi)

def rectContained (inner outer : Rect) : Bool :=
  decide (outer.x ≤ inner.x) && decide (outer.y ≤ inner.y) &&
    decide (inner.x + inner.w ≤ outer.x + outer.w) &&
    decide (inner.y + inner.h ≤ outer.y + outer.h)

/-- What the fit reads of an observed window. -/
structure EngineWindow where
  window : WindowId
  rect : Rect
  floating : Bool := false
  fitExcluded : Bool := false
deriving DecidableEq

inductive FitDeclineReason
  | singleWindow
  | fitExcluded
  | invalidGeometry
  | noCut
  | projectionInvalid
  | centreSplit
  | minInfeasible
deriving DecidableEq, Repr

abbrev Item := WindowId × Rect

def tolerance (domain : OutputDomain) (axis : Axis) : Int :=
  max (max domain.gap 0) (max (domain.bounds.extent axis) 0 * 3 / 100)

def primaryStart (r : Rect) (axis : Axis) : Int := r.start axis

def primaryEnd (r : Rect) (axis : Axis) : Int := r.start axis + r.extent axis

def primarySpan (r : Rect) (axis : Axis) : Int := r.extent axis

/-- Geometry first along the axis, then across it; equal keys are equal
rectangles. -/
def sortKey (axis : Axis) (r : Rect) : Int ×ₗ Int ×ₗ Int ×ₗ Int :=
  match axis with
  | .horizontal => toLex (r.x, toLex (r.y, toLex (r.w, r.h)))
  | .vertical => toLex (r.y, toLex (r.x, toLex (r.h, r.w)))

def sortForAxis (items : List Item) (axis : Axis) : List Item :=
  sortByKey (fun item => sortKey axis item.2) items

/-! ## Cuts -/

/-- The greatest end so far, for every position. -/
def prefixMax (reach : Int) : List Int → List Int
  | [] => []
  | e :: es => max reach e :: prefixMax (max reach e) es

/-- The least start from here on, for every position. -/
def suffixMin (floor : Int) : List Int → List Int
  | [] => []
  | s :: ss => min ((suffixMin floor ss).headD floor) s :: suffixMin floor ss

/-- The positions after which a line crosses no window by more than the
tolerance on either side. -/
def validCuts (members : List Item) (axis : Axis) (tol : Int) : List Nat :=
  let ordered := sortForAxis members axis
  let ends := prefixMax IntRange.i64.lo (ordered.map fun item => primaryEnd item.2 axis)
  let starts := suffixMin IntRange.i64.hi (ordered.map fun item => primaryStart item.2 axis)
  (List.range (ordered.length - 1)).filter fun i =>
    decide (ends.getD i 0 - starts.getD (i + 1) 0 ≤ 2 * tol)

/-- The parts of an ordered region between its cuts. -/
def cutParts (ordered : List Item) (start : Nat) : List Nat → List (List Item)
  | [] => [ordered.drop start]
  | c :: cuts => (ordered.take (c + 1)).drop start :: cutParts ordered (c + 1) cuts

/-- Extent of a part from its first start to its last end. -/
def partShare (axis : Axis) (part : List Item) : Option Nat :=
  let start := part.foldl (fun m item => min m (primaryStart item.2 axis)) IntRange.i64.hi
  let last := part.foldl (fun m item => max m (primaryEnd item.2 axis)) IntRange.i64.lo
  if 0 < last - start then some (last - start).toNat else none

/-! ## Centre splits -/

/-- Twice the centre, then the start and the span. -/
def centreKey (axis : Axis) (r : Rect) : Int ×ₗ Int ×ₗ Int :=
  toLex (2 * primaryStart r axis + primarySpan r axis,
    toLex (primaryStart r axis, primarySpan r axis))

def centreKeys (members : List Item) (axis : Axis) : List (Int ×ₗ Int ×ₗ Int) :=
  sortByKey id (members.map fun item => centreKey axis item.2)

/-- Twice the centre of the window at a position. -/
def centreAt (keys : List (Int ×ₗ Int ×ₗ Int)) (i : Nat) : Int :=
  (ofLex (keys.getD i (toLex (0, toLex (0, 0))))).1

/-- The first widest gap between neighbouring centres, and the position
before it. -/
def centreGap (members : List Item) (axis : Axis) : Int × Nat :=
  let keys := centreKeys members axis
  (List.range (keys.length - 1)).foldl (fun best i =>
    let gap := centreAt keys (i + 1) - centreAt keys i
    if best.1 < gap then (gap, i) else best) (0, 0)

def maxSpan (members : List Item) (axis : Axis) : Int :=
  ((members.map fun item => primarySpan item.2 axis).max?).getD 0

/-- Order of a centre split: the centre, then the start on either axis. -/
def centreOrder (axis : Axis) (r : Rect) : Int ×ₗ Int ×ₗ Int :=
  match axis with
  | .horizontal => toLex (2 * r.x + r.w, toLex (r.x, r.y))
  | .vertical => toLex (2 * r.y + r.h, toLex (r.y, r.x))

def sortByCentre (items : List Item) (axis : Axis) : List Item :=
  sortByKey (fun item => centreOrder axis item.2) items

/-! ## Building -/

/-- Numbers already given out, and the centre splits made. -/
structure Alloc where
  nextLeaf : Nat := 0
  nextGroup : Nat := 0
  centreSplits : Nat := 0
deriving DecidableEq

def fitLeaf (n : Nat) : NodeId := ⟨s!"fit-l{n}"⟩

def fitGroup (n : Nat) : NodeId := ⟨s!"fit-g{n}"⟩

structure Built where
  tree : Node
  links : List WindowLink
  alloc : Alloc
deriving DecidableEq

structure BuiltParts where
  children : List Node
  shares : List Nat
  links : List WindowLink
  alloc : Alloc
deriving DecidableEq

/-- How a region of at least two windows is built. -/
abbrev Region := List Item → Axis → Alloc → Option Built

/-- A single window is a leaf; any other part is a region of its own. -/
def buildPart (region : Region) (domain : OutputDomain) (axis : Axis) (alloc : Alloc) :
    List Item → Option Built
  | [item] => some {
      tree := .leaf (fitLeaf alloc.nextLeaf)
      links := [⟨item.1, fitLeaf alloc.nextLeaf, domain.id, domain.workspace⟩]
      alloc := { alloc with nextLeaf := alloc.nextLeaf + 1 } }
  | part => region part (Rect.cross axis) alloc

def buildParts (region : Region) (domain : OutputDomain) (axis : Axis)
    (share : List Item → Option Nat) : List (List Item) → Alloc → Option BuiltParts
  | [], alloc => some ⟨[], [], [], alloc⟩
  | part :: parts, alloc => do
    let partShare ← share part
    let child ← buildPart region domain axis alloc part
    let rest ← buildParts region domain axis share parts child.alloc
    return ⟨child.tree :: rest.children, partShare :: rest.shares, child.links ++ rest.links,
      rest.alloc⟩

/-- A group over the parts, numbered before anything in it. -/
def buildGroup (region : Region) (domain : OutputDomain) (axis : Axis)
    (share : List Item → Option Nat) (parts : List (List Item)) (alloc : Alloc) :
    Option Built := do
  let built ← buildParts region domain axis share parts
    { alloc with nextGroup := alloc.nextGroup + 1 }
  return ⟨.group (fitGroup alloc.nextGroup) axis built.children built.shares, built.links,
    built.alloc⟩

def buildClean (region : Region) (domain : OutputDomain) (members : List Item) (axis : Axis)
    (cuts : List Nat) (alloc : Alloc) : Option Built :=
  buildGroup region domain axis (partShare axis) (cutParts (sortForAxis members axis) 0 cuts) alloc

def buildCentre (region : Region) (domain : OutputDomain) (members : List Item) (axis : Axis)
    (at_ : Nat) (alloc : Alloc) : Option Built := do
  let ordered := sortByCentre members axis
  let left := ordered.take (at_ + 1)
  let right := ordered.drop (at_ + 1)
  require (decide (0 < maxSpan left axis) && decide (0 < maxSpan right axis))
  buildGroup region domain axis (fun part => some (maxSpan part axis).toNat) [left, right]
    { alloc with centreSplits := alloc.centreSplits + 1 }

/-- One region, with the regions inside it built by `region`. -/
def buildRegionWith (region : Region) (domain : OutputDomain) : Region := fun members axis alloc =>
  if members.length < 2 then none
  else
    let cuts := validCuts members axis (tolerance domain axis)
    let other := Rect.cross axis
    let otherCuts := validCuts members other (tolerance domain other)
    if !cuts.isEmpty then buildClean region domain members axis cuts alloc
    else if !otherCuts.isEmpty then buildClean region domain members other otherCuts alloc
    else
      let h := centreGap members .horizontal
      let v := centreGap members .vertical
      if h.1 ≤ 0 ∧ v.1 ≤ 0 then none
      else if v.1 ≤ h.1 then buildCentre region domain members .horizontal h.2 alloc
      else buildCentre region domain members .vertical v.2 alloc

/-- Regions nest at most as deep as they have windows. -/
def buildRegion (domain : OutputDomain) : Nat → Region
  | 0 => fun _ _ _ => none
  | depth + 1 => buildRegionWith (buildRegion domain depth) domain

/-! ## The fit -/

def fitItems (bounds : Rect) : List EngineWindow → Except FitDeclineReason (List Item)
  | [] => .ok []
  | entry :: windows => do
    ensure (validCarriedRect entry.rect) .invalidGeometry
    ensure (rectContained entry.rect bounds) .invalidGeometry
    let items ← fitItems bounds windows
    return (entry.window, entry.rect) :: items

/-- The fitted tree, its links and the number of centre splits in it. -/
def tryRecursiveCutFitWithCentreCount (domain : OutputDomain) (windows : List EngineWindow) :
    Except FitDeclineReason (Node × List WindowLink × Nat) := do
  ensure (decide (2 ≤ windows.length)) .singleWindow
  ensure (!windows.any fun w => w.floating || w.fitExcluded) .fitExcluded
  let items ← fitItems domain.bounds windows
  let built ← okOr .noCut (buildRegion domain items.length items .horizontal {})
  let projected ← (project built.tree domain.bounds domain.gap).mapError fun _ =>
    .projectionInvalid
  ensure (projected.length == items.length) .projectionInvalid
  return (built.tree, built.links, built.alloc.centreSplits)

def tryRecursiveCutFit (domain : OutputDomain) (windows : List EngineWindow) :
    Except FitDeclineReason (Node × List WindowLink) :=
  (tryRecursiveCutFitWithCentreCount domain windows).map fun fit => (fit.1, fit.2.1)

end Seed

end PlasmaTiler
