import PlasmaTiler.WorldOps
import PlasmaTiler.Events

/-!
# Projecting a retained tree

Two requests ask for nothing but the rectangles of a domain: the work area or
the gap may have changed, the tree has not. The projection is that of a plan,
into the bounds and the gap of the request.

An observed rectangle never enters it; it only decides whether the window is
left alone, because it is as close to its rectangle as its size hints let it
be. A client may keep another size than it was given, within the range its
hints allow and a slack for rounding, but never another place.
-/

namespace PlasmaTiler

/-! ## Clamps -/

/-- Rounding slack of an accepted clamp. -/
def clampTolerancePx : Int := 2

/-- Clamp into the meaningful range of a hint; a minimum above the maximum
wins. -/
def clampAxis (desired : Int) (minimum maximum : Option Int) : Int :=
  let raised := match meaningful minimum with
    | some lo => if desired < lo then lo else desired
    | none => desired
  let lowered := match meaningful maximum with
    | some hi => if hi < raised then hi else raised
    | none => raised
  match meaningful minimum, meaningful maximum with
  | some lo, some hi => if hi < lo ∧ lowered < lo then lo else lowered
  | _, _ => lowered

/-- Whether an observed extent is the client's clamp of a desired one. Drift
without a hint is never accepted. -/
def axisAcceptsClamp (observed desired : Int) (minimum maximum : Option Int) : Bool :=
  if (meaningful minimum).isNone && (meaningful maximum).isNone then false
  else decide (|observed - clampAxis desired minimum maximum| ≤ clampTolerancePx)

structure ClampAssessment where
  accepted : Bool
  widthAccepted : Bool
  heightAccepted : Bool
deriving DecidableEq, Repr

/-- A client may keep another size than it was given, never another place. -/
def assessWindowClamp (observed desired : Rect) (hints : WindowSizeHints) : ClampAssessment :=
  if observed.x ≠ desired.x ∨ observed.y ≠ desired.y then ⟨false, false, false⟩
  else
    let widthAccepted := observed.w == desired.w ||
      axisAcceptsClamp observed.w desired.w hints.minW hints.maxW
    let heightAccepted := observed.h == desired.h ||
      axisAcceptsClamp observed.h desired.h hints.minH hints.maxH
    ⟨widthAccepted && heightAccepted, widthAccepted, heightAccepted⟩

/-! ## The projection -/

/-- The tree a session keeps for a domain it knows. -/
def Session.treeFor (s : Session) (key : DomainKey) : Option Node :=
  (s.domainAt key).bind fun d => treeAt s.trees d.key

inductive ProjectionKind
  | reconcile
  | updateGaps
deriving DecidableEq, Repr

/-- The rectangles of a retained tree; no plan stands behind them. -/
structure ProjectionPlan where
  baseRevision : Nat
  kind : ProjectionKind
  geometry : List DesiredGeometry
  focusDomain : Option DomainKey
  focusLeaf : Option NodeId
deriving DecidableEq

/-- A projection of nothing. -/
def ProjectionPlan.empty (baseRevision : Nat) (kind : ProjectionKind) : ProjectionPlan :=
  ⟨baseRevision, kind, [], none, none⟩

/-- The carried hints; the last entry of a window wins. -/
def carriedHints (windows : List EngineWindow) : BTreeMap WindowId WindowSizeHints :=
  windows.foldl (fun hints entry => hints.insert entry.window entry.hints) ∅

/-- The rectangles the layout is responsible for. -/
def observedRects (windows : List EngineWindow) (fitExcluded : BTreeSet WindowId) :
    BTreeMap WindowId Rect :=
  (windows.filter fun entry => !(entry.floating || fitExcluded.contains entry.window)).foldl
    (fun rects entry => rects.insert entry.window entry.rect) ∅

/-- Whether a window is left at the rectangle it was observed with. -/
def clientClamped (rects : BTreeMap WindowId Rect) (hints : BTreeMap WindowId WindowSizeHints)
    (entry : DesiredGeometry) : Bool :=
  !entry.overconstrained && rects[entry.window]?.any fun rect =>
    rect != entry.rect && (assessWindowClamp rect entry.rect (hints[entry.window]?.getD {})).accepted

/-- The retained tree in the bounds and the gap of a request, with every linked
window in it; `none` when it does not project or misses one. -/
def projectRetainedTiledGeometry (s : Session) (key : DomainKey) (bounds : Rect) (gap : Int)
    (focus : Option (DomainKey × NodeId)) (kind : ProjectionKind)
    (hints : BTreeMap WindowId WindowSizeHints) (observed : List EngineWindow)
    (fitExcluded : BTreeSet WindowId) : Option ProjectionPlan := do
  let tree ← s.treeFor key
  let domain : OutputDomain := ⟨key.output, key.workspace, bounds, gap, ∅⟩
  let projected ← (projectOutputGeometry (some domain) (some tree) s.windows key hints).toOption
  let rects := observedRects observed fitExcluded
  let geometry := (projected.map fun entry =>
    { entry with clientClamped := clientClamped rects hints entry }).insertionSort (geometryLe · ·)
  require (decide (geometry.length = (leafToWindow s.windows key).size))
  return ⟨s.acceptedRevision, kind, geometry, focus.map Prod.fst, focus.map Prod.snd⟩

end PlasmaTiler
