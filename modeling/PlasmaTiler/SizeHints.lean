import PlasmaTiler.Geometry

/-!
# Client size hints

Hints are per-observation inputs: the session never keeps them. Minimums
move extent between siblings at projection time, and a fixed-size window
can be kept out of the tree altogether. Every hint value is sanitized
where it is used, so absurd values behave as absent.

The hint-aware projector is the plain one with a different splitter: the
same proportional base sizes, then `enforceMinimums` against what each
child subtree needs. Its splitter refuses nothing the plain projector
would refuse, because the plain projector has already run.
-/

namespace PlasmaTiler

/-- Bounded carried-geometry extent. -/
def geometryBound : Int := 16384

/-- Client size hints of one observed window; `none` where the host
reported no bound. -/
structure WindowSizeHints where
  minW : Option Int := none
  minH : Option Int := none
  maxW : Option Int := none
  maxH : Option Int := none
deriving DecidableEq, Repr, Inhabited

/-- Keep only positive, in-bound hint values. -/
def meaningful : Option Int → Option Int
  | some v => if 1 ≤ v ∧ v ≤ geometryBound then some v else none
  | none => none

namespace WindowSizeHints

def meaningfulMinW (hints : WindowSizeHints) : Option Int := meaningful hints.minW

def meaningfulMinH (hints : WindowSizeHints) : Option Int := meaningful hints.minH

/-- Minimum along `axis`, if meaningful. -/
def minForAxis (hints : WindowSizeHints) : Axis → Option Int
  | .horizontal => hints.meaningfulMinW
  | .vertical => hints.meaningfulMinH

end WindowSizeHints

/-! ## Fixed-size windows -/

/-- Keep only nonnegative, in-bound values: zero is usable here, so that a
partly zero vector is not mistaken for a missing one. -/
def usableFixedBound : Option Int → Option Int
  | some v => if 0 ≤ v ∧ v ≤ geometryBound then some v else none
  | none => none

/-- Which axes have to be pinned for a window to count as fixed-size. -/
inductive FixedSizePredicate
  | bothAxes
  | eitherAxis
deriving DecidableEq, Repr, Inhabited

/-- The fixed-size decision token for one hint vector. -/
def fixedSizeReasonWith (hints : WindowSizeHints) (predicate : FixedSizePredicate) : String :=
  let raw := [hints.minW, hints.minH, hints.maxW, hints.maxH]
  -- a present negative bound reports before a missing one
  if raw.any fun bound => bound.any (· < 0) then "not-fixed-negative"
  else if raw.any fun bound => bound.isNone then "not-fixed-missing"
  else if raw.any fun bound => bound == some IntRange.i32.hi then "not-fixed-sentinel"
  else if raw.any fun bound => (usableFixedBound bound).isNone then "not-fixed-out-of-range"
  else if hints.minW = some 0 ∧ hints.minH = some 0 ∧ hints.maxW = some 0 ∧ hints.maxH = some 0 then
    "not-fixed-zero"
  else
    let widthFixed := hints.minW == hints.maxW && hints.minW != some 0
    let heightFixed := hints.minH == hints.maxH && hints.minH != some 0
    let fixed := match predicate with
      | .bothAxes => widthFixed && heightFixed
      | .eitherAxis => widthFixed || heightFixed
    if fixed then "fixed-equal" else "not-fixed-unequal"

/-- Whether the hints pin a fixed size under `predicate`. -/
def isFixedSizeWith (hints : WindowSizeHints) (predicate : FixedSizePredicate) : Bool :=
  fixedSizeReasonWith hints predicate == "fixed-equal"

/-! ## Enforcing minimums -/

/-- What an entry lacks below its floor, what it can spare above it. -/
def deficitOf (entry : Int × Int) : Int :=
  if entry.1 < entry.2 then entry.2 - entry.1 else 0

def slackOf (entry : Int × Int) : Int :=
  if entry.1 < entry.2 then 0 else entry.1 - entry.2

/-- The floor part of the deficit one entry gives up, in proportion to its
slack. -/
def proportionalTake (deficit slackTotal : Int) (entry : Int × Int) : Int :=
  if entry.2 < entry.1 ∧ 0 < slackTotal then
    let slack := entry.1 - entry.2
    min ((deficit * slack).tdiv slackTotal) slack
  else 0

/-- Hand out the remaining units one by one, in child order, to entries that
can still spare one. Returns the takes and what is left over. -/
def distributeRemaining : Int → List ((Int × Int) × Int) → List Int × Int
  | remaining, [] => ([], remaining)
  | remaining, (entry, take) :: rest =>
      if remaining = 0 then (take :: rest.map Prod.snd, remaining)
      else if entry.2 < entry.1 - take then
        let (takes, left) := distributeRemaining (remaining - 1) rest
        ((take + 1) :: takes, left)
      else
        let (takes, left) := distributeRemaining remaining rest
        (take :: takes, left)

/-- The new size of one entry: raised to its floor, or reduced by its take. -/
def settle (entry : Int × Int) (take : Int) : Int :=
  if entry.1 < entry.2 then entry.2 else entry.1 - take

/-- Raise entries below their minimums by taking the deficit from siblings in
proportion to their slack. Every entry keeps at least one unit. The flag is
`false`, and the sizes untouched, when the floors do not fit. -/
def enforceMinimums (sizes mins : List Int) : Bool × List Int :=
  if sizes.length ≠ mins.length then (false, sizes)
  else
    let total := sizes.sum
    let floors := mins.map fun m => max m 1
    if total < floors.sum then (false, sizes)
    else
      let entries := sizes.zip floors
      let deficit := (entries.map deficitOf).sum
      let slackTotal := (entries.map slackOf).sum
      if deficit = 0 then (true, sizes)
      else
        let takes := entries.map (proportionalTake deficit slackTotal)
        let (takes, remaining) := distributeRemaining (deficit - takes.sum) (entries.zip takes)
        if remaining ≠ 0 then (false, sizes)
        else (true, List.zipWith settle entries takes)

section
variable (resolve : NodeId → WindowSizeHints) (gap : Int) (axis : Axis)

mutual

/-- Minimum extent a subtree asks for along `axis`: a same-axis group the sum
of its children and gaps, a cross-axis group the largest child. A leaf
without a meaningful minimum asks for nothing. -/
def subtreeMin : Node → Int
  | .leaf id => ((resolve id).minForAxis axis).getD 0
  | .group _ groupAxis children _ =>
      if groupAxis = axis then
        let sum := subtreeMinSum 0 children
        IntRange.i64.saturate (sum + IntRange.i64.saturate (gap * (children.length - 1 : Nat)))
      else
        (subtreeMinMax children).getD 0

/-- Saturating running sum over the children. -/
def subtreeMinSum (sum : Int) : List Node → Int
  | [] => sum
  | child :: children =>
      subtreeMinSum (IntRange.i64.saturate (sum + subtreeMin child)) children

/-- Largest child minimum, `none` without children. -/
def subtreeMinMax : List Node → Option Int
  | [] => none
  | child :: children =>
      let here := subtreeMin child
      match subtreeMinMax children with
      | none => some here
      | some rest => some (max here rest)

end

end

/-! ## The hint-aware projector -/

/-- Fail-closed hinted-projection rejection with a fixed diagnostic message. -/
structure HintProjectionError where
  message : String
deriving DecidableEq, Repr

/-- Child sizes of the hint-aware projector: the proportional base sizes with
the child minimums enforced where they fit. -/
def splitHinted (gap : Int) (resolve : NodeId → WindowSizeHints) (axis : Axis)
    (children : List Node) (shares : List Nat) (extent : Int) :
    Except HintProjectionError (List Int) := do
  let n : Int := children.length
  let total ← okOr ⟨"group shares total overflows"⟩ (checkedTotal shares)
  let gapsTotal ← okOr ⟨"gap budget overflows"⟩ (IntRange.i64.check (gap * (n - 1)))
  let avail := extent - gapsTotal
  let sizes := proportionalBaseSizes shares total (avail - n) avail
  let mins := children.map (subtreeMin resolve gap axis)
  return (enforceMinimums sizes mins).2

def layoutHinted (gap : Int) (resolve : NodeId → WindowSizeHints) (node : Node) (rect : Rect) :
    Except HintProjectionError (List ProjectedLeaf) :=
  layoutWith HintProjectionError.mk (splitHinted gap resolve) (fun _ => .ok ()) gap node rect

/-- Whether `rect` violates the leaf's own meaningful minimums. -/
def violatesMinimum (rect : Rect) (hints : WindowSizeHints) : Bool :=
  hints.meaningfulMinW.any (rect.w < ·) || hints.meaningfulMinH.any (rect.h < ·)

/-- Leaves below their own minimum, each once, in visitation order. -/
def overconstrainedLeaves (resolve : NodeId → WindowSizeHints) :
    List ProjectedLeaf → BTreeSet NodeId → List NodeId
  | [], _ => []
  | p :: out, seen =>
      if violatesMinimum p.rect (resolve p.leaf) && !seen.contains p.leaf then
        p.leaf :: overconstrainedLeaves resolve out (seen.insert p.leaf)
      else overconstrainedLeaves resolve out seen

/-- Hinted projection result. -/
structure HintedProjection where
  leaves : List ProjectedLeaf
  overconstrained : List NodeId
deriving DecidableEq, Repr

/-- Project `tree` into `bounds`, honoring per-leaf minimums. The plain
projector runs first, so every refusal of its is preserved. -/
def projectWithHints (tree : Node) (bounds : Rect) (gap : Int)
    (resolve : NodeId → WindowSizeHints) : Except HintProjectionError HintedProjection := do
  let _ ← (project tree bounds gap).mapError fun error => ⟨error.message⟩
  let leaves ← layoutHinted gap resolve tree bounds
  return { leaves, overconstrained := overconstrainedLeaves resolve leaves ∅ }

end PlasmaTiler
