import Mathlib.Data.List.Sort
import PlasmaTiler.World

/-!
# Desired geometry

The rectangles a plan asks for: the hinted projection of each affected
domain, one entry per tiled window. Size hints come from one observation and
resolve through the domain's own links; a projection that yields an unlinked
or empty leaf refuses.

Whatever a plan stages, its geometry must cover the affected domains exactly,
every link with its own positive rectangle and nothing besides
(`geometryCoversAffected`).
-/

namespace PlasmaTiler

structure DesiredGeometry where
  window : WindowId
  leaf : NodeId
  output : OutputId
  workspace : WorkspaceId
  rect : Rect
  overconstrained : Bool
  clientClamped : Bool
deriving DecidableEq, Repr

def DesiredGeometry.key (g : DesiredGeometry) : DomainKey := ⟨g.output, g.workspace⟩

/-- Per-window size hints of one observation; the last entry of a window
wins. -/
def hintsFromObserved (observed : List ObservedWindow) : BTreeMap WindowId WindowSizeHints :=
  observed.foldl (fun hints entry => hints.insert entry.window entry.hints) ∅

/-- The window of each leaf of one domain. -/
def leafToWindow (windows : Links) (key : DomainKey) : BTreeMap NodeId WindowId :=
  ((values windows).filter fun l => l.output == key.output && l.workspace == key.workspace).foldl
    (fun byLeaf l => byLeaf.insert l.leaf l.window) ∅

/-- Geometry of one domain; none without a domain or a tree. -/
def projectOutputGeometry (domain : Option OutputDomain) (tree : Option Node) (windows : Links)
    (key : DomainKey) (hints : BTreeMap WindowId WindowSizeHints) :
    Except Unit (List DesiredGeometry) :=
  match domain, tree with
  | some domain, some tree => do
    let byLeaf := leafToWindow windows key
    let resolve (leaf : NodeId) : WindowSizeHints :=
      (byLeaf[leaf]?.bind fun window => hints[window]?).getD {}
    let hinted ← (projectWithHints tree domain.bounds domain.gap resolve).mapError fun _ => ()
    hinted.leaves.mapM fun leaf => do
      let window ← okOr () byLeaf[leaf.leaf]?
      ensure (decide (0 < leaf.rect.w) && decide (0 < leaf.rect.h)) ()
      return { window, leaf := leaf.leaf, output := key.output, workspace := key.workspace,
               rect := leaf.rect,
               overconstrained := hinted.overconstrained.contains leaf.leaf,
               clientClamped := false }
  | _, _ => .ok []

/-- The report order: output, workspace, leaf. -/
def geometryLe (a b : DesiredGeometry) : Bool :=
  (((compare a.output b.output).then (compare a.workspace b.workspace)).then
    (compare a.leaf b.leaf)).isLE

def projectAffectedGeometry (domains : List OutputDomain) (trees : Trees) (windows : Links)
    (affected : List DomainKey) (hints : BTreeMap WindowId WindowSizeHints) :
    Except Unit (List DesiredGeometry) := do
  let parts ← affected.mapM fun key => do
    let domain ← okOr () (domains.find? (·.key == key))
    projectOutputGeometry (some domain) (treeAt trees key) windows key hints
  return parts.flatten.insertionSort (geometryLe · ·)

/-- Every link of an affected domain has exactly its own positive rectangle,
and no rectangle lies outside the affected domains. -/
def geometryCoversAffected (geometry : List DesiredGeometry) (windows : Links)
    (affected : List DomainKey) : Bool :=
  affected.all (fun key =>
    let expected : BTreeSet NodeId :=
      .ofList (((values windows).filter fun l => l.key == key).map WindowLink.leaf)
    let entries := geometry.filter fun g => g.key == key
    let got : BTreeSet NodeId := .ofList (entries.map DesiredGeometry.leaf)
    decide (expected = got) &&
      entries.all fun entry =>
        !entry.window.isEmpty && !entry.leaf.isEmpty && decide (0 < entry.rect.w) &&
          decide (0 < entry.rect.h) &&
          match windows[entry.window]? with
          | none => false
          | some link => link.leaf == entry.leaf && link.output == entry.output &&
              link.workspace == entry.workspace) &&
  geometry.all fun entry => affected.any (· == entry.key)

/-- Admission target: the projected rectangle of an eligible focus, else the
whole domain. -/
def admissionPlacementFor (domain : OutputDomain) (tree : Option Node)
    (eligible : Option NodeId) : Rect :=
  match tree, eligible with
  | some tree, some leaf =>
    match project tree domain.bounds domain.gap with
    | .ok projected => ((projected.find? (·.leaf == leaf)).map ProjectedLeaf.rect).getD domain.bounds
    | .error _ => domain.bounds
  | _, _ => domain.bounds

end PlasmaTiler
