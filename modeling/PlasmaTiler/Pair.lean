import PlasmaTiler.Fit

/-!
# Canonical pairs

Two retained single-domain sessions become one two-domain session for a
transfer between them, and are split again afterwards. Node ids need only be
unique within a domain, so the target's are renamed to fresh ones for the
time of the pair; the pair keeps the map back.

Assembly checks each component (settled, valid, over the domain it is
presented for), that no window is in both, and that both belong to the same
owner and generation; for a directional request the two outputs must name
each other as well. Then everything is transplanted map by map.

Splitting asks of each tree, link, stack, mark and rectangle whose it is, and
renames back what was the target's. The leaf a transfer carried in was never
renamed, so its id may be taken in the target; `movedTargetRemap` finds these
and mints another name. A side that ends empty is given back as such.
-/

namespace PlasmaTiler

inductive CanonicalPairError
  | mismatchedIdentity
  | unusableInput
  | domainMismatch
  | duplicateState
deriving DecidableEq, Repr

/-! ## Renaming -/

/-- Rename an id the mapping knows. -/
def remapNodeId (mapping : BTreeMap NodeId NodeId) (id : NodeId) : NodeId := mapping[id]?.getD id

mutual

def remapTreeNodeIds (mapping : BTreeMap NodeId NodeId) : Node → Node
  | .leaf id => .leaf (remapNodeId mapping id)
  | .group id axis children shares =>
    .group (remapNodeId mapping id) axis (remapChildren mapping children) shares

def remapChildren (mapping : BTreeMap NodeId NodeId) : List Node → List Node
  | [] => []
  | child :: children => remapTreeNodeIds mapping child :: remapChildren mapping children

end

def remapLink (mapping : BTreeMap NodeId NodeId) (link : WindowLink) : WindowLink :=
  { link with leaf := remapNodeId mapping link.leaf }

/-- Fresh names for a list of ids, one after the other. -/
def mintAll (name : Nat → NodeId) :
    List NodeId → BTreeSet NodeId → BTreeMap NodeId NodeId → BTreeMap NodeId NodeId
  | [], _, mapping => mapping
  | id :: ids, occupied, mapping =>
    let candidate := firstFree name occupied
    mintAll name ids (occupied.insert candidate) (mapping.insert id candidate)

def pairTargetName (index : Nat) : NodeId := ⟨"pair-target-" ++ toString index⟩

def pairMovedName (index : Nat) : NodeId := ⟨"pair-moved-" ++ toString index⟩

/-- Every target id becomes one that neither component uses in the pair. -/
def pairTargetNodeRemap (source target : Session) : BTreeMap NodeId NodeId :=
  mintAll pairTargetName target.allNodeIds.toList source.allNodeIds ∅

/-- The mapping back. -/
def inverseMap (mapping : BTreeMap NodeId NodeId) : BTreeMap NodeId NodeId :=
  mapping.toList.foldl (fun inverse (source, target) => inverse.insert target source) ∅

/-! ## Assembly -/

namespace Session

/-- A component is settled and valid. -/
def canonicalComponentUsable (s : Session) : Bool :=
  s.settledWorld && s.validateCurrentTopology

def canonicalComponentError (s : Session) : CanonicalPairError :=
  if s.domains.length ≠ 1 then .domainMismatch
  else if !s.canonicalComponentUsable then .unusableInput
  else .domainMismatch

/-- The single domain of a usable component, which must be the given pair
domain without adjacency. -/
def checkComponent (s : Session) (pairDomain : OutputDomain) :
    Except CanonicalPairError Unit :=
  match s.domains with
  | [domain] =>
    if !s.canonicalComponentUsable then .error s.canonicalComponentError
    else if !domain.adjacent.isEmpty then .error .domainMismatch
    else if domain.key ≠ pairDomain.key then .error .domainMismatch
    else .ok ()
  | _ => .error s.canonicalComponentError

/-- No window, exception or retained rectangle is in both. -/
def disjointState (source target : Session) : Bool :=
  target.windows.keys.all (fun id => !source.isKnown id) &&
    target.exceptions.keys.all (fun id => !source.isKnown id) &&
    target.windows.keys.all (fun id => !target.exceptions.contains id) &&
    source.retainedFloatGeometry.keys.all fun id => !target.retainedFloatGeometry.contains id

/-- Cross-output pairs name each other in some direction. -/
def pairAdjacent (a b : OutputDomain) : Bool :=
  a.id == b.id || ((values a.adjacent).contains b.id && (values b.adjacent).contains a.id)

/-- Insert all entries of the second map. -/
def extendMap {κ ν : Type} [Ord κ] [Std.TransOrd κ] (m : BTreeMap κ ν) (entries : List (κ × ν)) :
    BTreeMap κ ν :=
  entries.foldl (fun m (k, v) => m.insert k v) m

/-- The pair with the source's state only. -/
def withSource (pair source : Session) (sourceKey targetKey : DomainKey) : Session :=
  { pair with
    trees := ((∅ : Trees).insert sourceKey (treeAt source.trees sourceKey)).insert targetKey none
    windows := source.windows
    focusedDomain := source.focusedDomain
    focusedLeaf := source.focusedLeaf
    focusStack := source.focusStack
    lastActive := source.lastActive
    exceptions := source.exceptions
    retainedFloatGeometry := source.retainedFloatGeometry
    fixedAdmission := source.fixedAdmission
    fixedPredicate := source.fixedPredicate
    maximizedFocusFence := source.maximizedFocusFence
    automaticFixed := source.automaticFixed
    fixedTileOverride := source.fixedTileOverride }

/-- Transplant the target's state under its renamed ids. Its focus is the
pair's when the source has none. -/
def withTarget (pair target : Session) (targetKey : DomainKey) (mapping : BTreeMap NodeId NodeId) :
    Session :=
  { pair with
    trees := pair.trees.insert targetKey
      ((treeAt target.trees targetKey).map (remapTreeNodeIds mapping))
    windows := extendMap pair.windows
      (target.windows.toList.map fun (id, link) => (id, remapLink mapping link))
    exceptions := extendMap pair.exceptions target.exceptions.toList
    retainedFloatGeometry := extendMap pair.retainedFloatGeometry
      target.retainedFloatGeometry.toList
    focusStack := extendMap pair.focusStack
      (target.focusStack.toList.map fun (key, leaves) => (key, leaves.map (remapNodeId mapping)))
    lastActive := extendMap pair.lastActive
      (target.lastActive.toList.map fun (key, leaf) => (key, remapNodeId mapping leaf))
    focusedDomain := if pair.focusedDomain.isNone then target.focusedDomain else pair.focusedDomain
    focusedLeaf := if pair.focusedDomain.isNone then target.focusedLeaf.map (remapNodeId mapping)
      else pair.focusedLeaf
    automaticFixed := pair.automaticFixed.insertMany target.automaticFixed.toList
    fixedTileOverride := pair.fixedTileOverride.insertMany target.fixedTileOverride.toList
    canonicalPairTargetRestore := inverseMap mapping }

/-- Component and pair keys are equal once the components are checked, so
nothing needs rekeying. -/
def pairedFromCanonicalImpl (source : Session) (target : Option Session)
    (sourceDomain targetDomain : OutputDomain) (requireAdjacency : Bool) :
    Except CanonicalPairError Session := do
  ensure (sourceDomain.validate && targetDomain.validate && sourceDomain.key != targetDomain.key &&
    validateAdjacency [sourceDomain, targetDomain]) .domainMismatch
  ensure (!requireAdjacency || pairAdjacent sourceDomain targetDomain) .domainMismatch
  source.checkComponent sourceDomain
  match target with
  | none => pure ()
  | some target =>
    target.checkComponent targetDomain
    ensure (target.owner == source.owner && target.generation == source.generation)
      .mismatchedIdentity
    ensure (disjointState source target) .duplicateState
  let newest := match target with
    | some target => if source.acceptedRevision < target.acceptedRevision then target else source
    | none => source
  let pair ← (Session.new source.owner source.generation newest.acceptedRevision
    newest.acceptedFingerprint [sourceDomain, targetDomain]).mapError fun _ => .domainMismatch
  let pair := pair.withSource source sourceDomain.key targetDomain.key
  let pair := match target with
    | some target => pair.withTarget target targetDomain.key (pairTargetNodeRemap source target)
    | none => pair
  ensure pair.validateCurrentTopology .domainMismatch
  return pair

/-- Cross-output pairs must be adjacent. -/
def pairedFromCanonical (source : Session) (target : Option Session)
    (sourceDomain targetDomain : OutputDomain) : Except CanonicalPairError Session :=
  pairedFromCanonicalImpl source target sourceDomain targetDomain true

/-- An explicit send names both ends, adjacent or not. -/
def pairedFromCanonicalForSend (source : Session) (target : Option Session)
    (sourceDomain targetDomain : OutputDomain) : Except CanonicalPairError Session :=
  pairedFromCanonicalImpl source target sourceDomain targetDomain false

/-! ## Splitting -/

/-- Focus of one side: the pair's when it is there, else the top of the side's
stack when it resolves. -/
def sideFocus (s : Session) (key : DomainKey) : Option NodeId :=
  if s.focusedDomain = some key then s.focusedLeaf
  else (s.focusStack[key]?.bind List.getLast?).filter fun leaf =>
    validFocus s.trees s.windows (some key) (some leaf)

/-- The target leaves that came with the transfer and whose id the renaming
back would duplicate get a fresh name. -/
def movedTargetRemap (s : Session) (targetWindows : Links) : BTreeMap NodeId NodeId :=
  let restore := s.canonicalPairTargetRestore
  let restored : BTreeSet NodeId := .ofList (values restore)
  mintAll pairMovedName
    (((values targetWindows).map WindowLink.leaf).filter fun leaf =>
      !restore.contains leaf && restored.contains leaf)
    (s.allNodeIds.insertMany (values restore)) ∅

/-- The part of a window set that one side keeps; orphans stay with the
source. -/
def sideMarks (marks : BTreeSet WindowId) (source target : Session) (isSource : Bool) :
    BTreeSet WindowId :=
  retain marks fun id =>
    if source.isKnown id then isSource else if target.isKnown id then !isSource else isSource

/-- One side of the split before its marks, retained rectangles and focus. -/
def sideOf (s : Session) (domain : OutputDomain) : Except CanonicalPairError Session := do
  let side ← (Session.new s.owner s.generation s.acceptedRevision s.acceptedFingerprint
    [{ domain with adjacent := ∅ }]).mapError fun _ => .domainMismatch
  return { side with
    trees := (∅ : Trees).insert domain.key (treeAt s.trees domain.key)
    windows := s.windows.filter fun _ link => link.key == domain.key
    exceptions := s.exceptions.filter fun _ record => record.key == domain.key
    fixedAdmission := s.fixedAdmission
    fixedPredicate := s.fixedPredicate
    maximizedFocusFence := s.maximizedFocusFence }

/-- Focus, stack and last active leaf of one side, renamed. -/
def withSideFocus (side pair : Session) (key : DomainKey) (rename : NodeId → NodeId) : Session :=
  let focus := pair.sideFocus key
  { side with
    focusStack := match pair.focusStack[key]? with
      | some leaves => (∅ : BTreeMap DomainKey (List NodeId)).insert key (leaves.map rename)
      | none => ∅
    lastActive := match pair.lastActive[key]? with
      | some leaf => (∅ : BTreeMap DomainKey NodeId).insert key (rename leaf)
      | none => ∅
    focusedDomain := focus.map fun _ => key
    focusedLeaf := focus.map rename }

/-- Marks and retained rectangles of one side. -/
def withSideMarks (side pair source target : Session) (isSource : Bool) : Session :=
  { side with
    retainedFloatGeometry := pair.retainedFloatGeometry.filter fun id _ =>
      if source.isKnown id then isSource else if target.isKnown id then !isSource else isSource
    automaticFixed := sideMarks pair.automaticFixed source target isSource
    fixedTileOverride := sideMarks pair.fixedTileOverride source target isSource }

/-- Rename a side's leaves back. -/
def renamed (side : Session) (key : DomainKey) (moved restore : BTreeMap NodeId NodeId) : Session :=
  { side with
    trees := (∅ : Trees).insert key ((treeAt side.trees key).map fun tree =>
      remapTreeNodeIds restore (remapTreeNodeIds moved tree))
    windows := side.windows.map fun _ link => remapLink restore (remapLink moved link) }

/-- Nothing in the trees and nothing outside them. -/
def isEmptyAt (s : Session) (key : DomainKey) : Bool :=
  (treeAt s.trees key).isNone && s.windows.isEmpty && s.exceptions.isEmpty

def splitCanonicalPair (s : Session) : Except CanonicalPairError (Session × Option Session) :=
  match s.domains with
  | [sourceDomain, targetDomain] => do
    ensure (s.settledWorld && s.validateCurrentTopology) .unusableInput
    let sourceKey := sourceDomain.key
    let targetKey := targetDomain.key
    let homed (key : DomainKey) : Bool := key == sourceKey || key == targetKey
    let source ← s.sideOf sourceDomain
    let target ← s.sideOf targetDomain
    ensure ((values s.windows).all (fun link => homed link.key)) .domainMismatch
    ensure ((values s.exceptions).all (fun record => homed record.key)) .domainMismatch
    let moved := s.movedTargetRemap target.windows
    let restore := s.canonicalPairTargetRestore
    let source' := (source.withSideMarks s source target true).withSideFocus s sourceKey id
    let target' := ((target.withSideMarks s source target false).renamed targetKey moved
      restore).withSideFocus s targetKey fun leaf => remapNodeId restore (remapNodeId moved leaf)
    ensure (source'.validateCurrentTopology && target'.validateCurrentTopology) .domainMismatch
    return (source', if target'.isEmptyAt targetKey then none else some target')
  | _ => .error .domainMismatch

end Session

end PlasmaTiler
