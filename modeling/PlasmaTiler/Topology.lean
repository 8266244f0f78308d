import Mathlib.Data.List.Nodup
import PlasmaTiler.Checked
import PlasmaTiler.Ids

/-!
# Ordered N-ary topology

The tree a domain is laid out from: leaves carry windows, groups split
their extent along an axis among at least two children in proportion to
one positive share each. Nothing in the type enforces the two-children
and share rules — the validators do, and the session keeps them.

Functions over `Node` come in pairs, one on a node and one (suffix `F`)
on a list of children; `Node.induct` is the matching induction principle,
whose group case hands over the claim for every child.
-/

namespace PlasmaTiler

/-- Movement direction. -/
inductive Direction
  | left
  | right
  | up
  | down
deriving DecidableEq, Repr, Inhabited

instance : Ord Direction := ⟨compareOn Direction.ctorIdx⟩

instance : Std.TransOrd Direction := inferInstanceAs (Std.TransCmp (compareOn Direction.ctorIdx))

instance : Std.LawfulEqOrd Direction where
  eq_of_compare {a b} h := by cases a <;> cases b <;> first | rfl | exact absurd h (by decide)

/-- Split axis of a group. -/
inductive Axis
  | horizontal
  | vertical
deriving DecidableEq, Repr, Inhabited

/-- Axis a direction moves along. -/
def Axis.forDirection : Direction → Axis
  | .left | .right => .horizontal
  | .up | .down => .vertical

/-- Step along the axis. -/
def stepFor : Direction → Int
  | .right | .down => 1
  | .left | .up => -1

/-- Opposite direction, for reciprocal adjacency checks. -/
def oppositeDirection : Direction → Direction
  | .left => .right
  | .right => .left
  | .up => .down
  | .down => .up

/-- Ordered N-ary tree node: one share per child, in child order. -/
inductive Node
  | leaf (id : NodeId)
  | group (id : NodeId) (axis : Axis) (children : List Node) (shares : List Nat)
deriving Repr, Inhabited

namespace Node

/-- Structural induction with the claim available for every child. -/
@[induction_eliminator]
theorem induct {motive : Node → Prop} (leaf : ∀ id, motive (.leaf id))
    (group : ∀ id axis children shares, (∀ c ∈ children, motive c) →
      motive (.group id axis children shares)) (n : Node) : motive n :=
  @Node.rec motive (fun children => ∀ c ∈ children, motive c) leaf
    (fun id axis children shares ih => group id axis children shares ih)
    (fun _ h => nomatch h)
    (fun _ _ hhead htail _ hc => by
      rcases List.mem_cons.mp hc with rfl | hc
      · exact hhead
      · exact htail _ hc) n

/-- Node identity. -/
def id : Node → NodeId
  | .leaf id => id
  | .group id _ _ _ => id

@[simp] theorem id_leaf (i : NodeId) : (Node.leaf i).id = i := rfl

@[simp] theorem id_group (i : NodeId) (axis : Axis) (cs : List Node) (shares : List Nat) :
    (Node.group i axis cs shares).id = i := rfl

def isLeaf : Node → Bool
  | .leaf _ => true
  | .group .. => false

/-! ## Decidable equality -/

mutual

/-- Structural equality test. -/
def beq : Node → Node → Bool
  | .leaf i, .leaf j => i == j
  | .group i ax cs ss, .group j bx ds ts => i == j && ax == bx && beqF cs ds && ss == ts
  | _, _ => false

def beqF : List Node → List Node → Bool
  | [], [] => true
  | c :: cs, d :: ds => beq c d && beqF cs ds
  | _, _ => false

end

theorem beqF_iff {cs ds : List Node} (h : ∀ c ∈ cs, ∀ d, beq c d = true ↔ c = d) :
    beqF cs ds = true ↔ cs = ds := by
  induction cs generalizing ds with
  | nil => cases ds <;> simp [beqF]
  | cons c cs ih =>
    cases ds with
    | nil => simp [beqF]
    | cons d ds =>
      simp only [beqF, Bool.and_eq_true, h c List.mem_cons_self,
        ih (fun c hc => h c (List.mem_cons_of_mem _ hc)), List.cons.injEq]

theorem beq_iff {m n : Node} : beq m n = true ↔ m = n := by
  induction m generalizing n with
  | leaf i => cases n <;> simp [beq]
  | group i ax cs ss ih =>
    cases n with
    | leaf j => simp [beq]
    | group j bx ds ts =>
      simp [beq, beqF_iff (fun c hc d => ih c hc (n := d)), and_assoc]

instance : DecidableEq Node := fun m n => decidable_of_iff (beq m n = true) beq_iff

/-! ## Identities and leaves -/

mutual

/-- All node ids, in preorder. -/
def ids : Node → List NodeId
  | .leaf i => [i]
  | .group i _ cs _ => i :: idsF cs

def idsF : List Node → List NodeId
  | [] => []
  | c :: cs => c.ids ++ idsF cs

end

mutual

/-- Leaf ids, left to right. -/
def leaves : Node → List NodeId
  | .leaf i => [i]
  | .group _ _ cs _ => leavesF cs

def leavesF : List Node → List NodeId
  | [] => []
  | c :: cs => c.leaves ++ leavesF cs

end

@[simp] theorem idsF_eq (cs : List Node) : idsF cs = cs.flatMap ids := by
  induction cs with
  | nil => rfl
  | cons c cs ih => simp [idsF, ih]

@[simp] theorem leavesF_eq (cs : List Node) : leavesF cs = cs.flatMap leaves := by
  induction cs with
  | nil => rfl
  | cons c cs ih => simp [leavesF, ih]

@[simp] theorem ids_leaf (i : NodeId) : (Node.leaf i).ids = [i] := by simp [ids]

@[simp] theorem ids_group (i : NodeId) (axis : Axis) (cs : List Node) (shares : List Nat) :
    (Node.group i axis cs shares).ids = i :: cs.flatMap ids := by simp [ids]

@[simp] theorem leaves_leaf (i : NodeId) : (Node.leaf i).leaves = [i] := by simp [leaves]

@[simp] theorem leaves_group (i : NodeId) (axis : Axis) (cs : List Node) (shares : List Nat) :
    (Node.group i axis cs shares).leaves = cs.flatMap leaves := by simp [leaves]

theorem leaves_sublist_ids (n : Node) : n.leaves.Sublist n.ids := by
  induction n with
  | leaf i => simp
  | group i axis cs shares ih =>
    simp only [leaves_group, ids_group]
    refine List.Sublist.cons _ ?_
    induction cs with
    | nil => simp
    | cons c cs ihc =>
      simp only [List.flatMap_cons]
      exact (ih c List.mem_cons_self).append (ihc fun d hd => ih d (List.mem_cons_of_mem _ hd))

theorem mem_ids_of_mem_leaves {n : Node} {i : NodeId} (h : i ∈ n.leaves) : i ∈ n.ids :=
  n.leaves_sublist_ids.subset h

theorem id_mem_ids (n : Node) : n.id ∈ n.ids := by
  cases n <;> simp

/-! ## Subtrees -/

mutual

/-- All subtrees, the node itself first, in preorder. -/
def nodes : Node → List Node
  | .leaf i => [.leaf i]
  | .group i axis cs shares => .group i axis cs shares :: nodesF cs

def nodesF : List Node → List Node
  | [] => []
  | c :: cs => c.nodes ++ nodesF cs

end

@[simp] theorem nodesF_eq (cs : List Node) : nodesF cs = cs.flatMap nodes := by
  induction cs with
  | nil => rfl
  | cons c cs ih => simp [nodesF, ih]

@[simp] theorem nodes_leaf (i : NodeId) : (Node.leaf i).nodes = [.leaf i] := by simp [nodes]

@[simp] theorem nodes_group (i : NodeId) (axis : Axis) (cs : List Node) (shares : List Nat) :
    (Node.group i axis cs shares).nodes = .group i axis cs shares :: cs.flatMap nodes := by
  simp [nodes]

theorem self_mem_nodes (n : Node) : n ∈ n.nodes := by
  cases n <;> simp

/-! ## Group rules -/

/-- What the validators ask of one node: a group has at least two children
and one positive share for each, with a total that fits `u64`. -/
def GroupOk : Node → Prop
  | .leaf _ => True
  | .group _ _ cs shares =>
      2 ≤ cs.length ∧ shares.length = cs.length ∧ (∀ s ∈ shares, 0 < s) ∧ shares.sum < u64Size

/-- Every group of the tree, at any depth, obeys the group rules: two children
at least, and as many positive shares. -/
def WellFormed (n : Node) : Prop := ∀ m ∈ n.nodes, m.GroupOk

@[simp] theorem wellFormed_leaf (i : NodeId) : (Node.leaf i).WellFormed := by
  simp [WellFormed, GroupOk]

@[simp] theorem wellFormed_group {i : NodeId} {axis : Axis} {cs : List Node} {shares : List Nat} :
    (Node.group i axis cs shares).WellFormed ↔
      (2 ≤ cs.length ∧ shares.length = cs.length ∧ (∀ s ∈ shares, 0 < s) ∧
        shares.sum < u64Size) ∧ ∀ c ∈ cs, c.WellFormed := by
  simp only [WellFormed, nodes_group, List.forall_mem_cons, GroupOk, List.mem_flatMap]
  constructor
  · rintro ⟨hgroup, hcs⟩
    exact ⟨hgroup, fun c hc m hm => hcs m ⟨c, hc, hm⟩⟩
  · rintro ⟨hgroup, hcs⟩
    exact ⟨hgroup, fun m ⟨c, hc, hm⟩ => hcs c hc m hm⟩

end Node

/-! ## The shared tree validation -/

/-- Why a tree is refused. Each module that validates a tree words these in
its own messages, or only reports that there is one. -/
inductive TreeDefect
  | emptyId
  | duplicateId
  | fewChildren
  | sharesMismatch
  | zeroShare
  | totalOverflow
deriving DecidableEq, Repr

/-- An id must be nonempty and not seen before. -/
def checkId (id : NodeId) (seen : BTreeSet NodeId) : Except TreeDefect (BTreeSet NodeId) :=
  if id.isEmpty then .error .emptyId
  else if id ∈ seen then .error .duplicateId
  else .ok (seen.insert id)

mutual

/-- Preorder validation, threading the ids seen so far. -/
def checkNode : Node → BTreeSet NodeId → Except TreeDefect (BTreeSet NodeId)
  | .leaf id, seen => checkId id seen
  | .group id _ children shares, seen => do
    let seen ← checkId id seen
    ensure (2 ≤ children.length) .fewChildren
    ensure (shares.length = children.length) .sharesMismatch
    ensure (!shares.contains 0) .zeroShare
    let total ← okOr .totalOverflow (checkedTotal shares)
    ensure (total ≠ 0) .zeroShare
    checkNodes children seen

def checkNodes : List Node → BTreeSet NodeId → Except TreeDefect (BTreeSet NodeId)
  | [], seen => .ok seen
  | c :: cs, seen => do
    let seen ← checkNode c seen
    checkNodes cs seen

end

/-- The ids `l` are nonempty, distinct and not among `seen`, so they can be
added to `seen` and stay unique. -/
def FreshIds (l : List NodeId) (seen : BTreeSet NodeId) : Prop :=
  (∀ i ∈ l, i.isEmpty = false) ∧ l.Nodup ∧ ∀ i ∈ l, i ∉ seen

theorem FreshIds.append_iff {l m : List NodeId} {seen : BTreeSet NodeId} :
    FreshIds (l ++ m) seen ↔ FreshIds l seen ∧ FreshIds m (seen.insertMany l) := by
  simp only [FreshIds, List.mem_append, List.nodup_append, Std.ExtTreeSet.mem_insertMany_list,
    List.contains_eq_mem]
  grind

theorem insertMany_append (seen : BTreeSet NodeId) (l m : List NodeId) :
    seen.insertMany (l ++ m) = (seen.insertMany l).insertMany m := by
  ext k
  simp only [Std.ExtTreeSet.mem_insertMany_list, List.contains_eq_mem, List.mem_append]
  grind

theorem checkId_eq_ok {id : NodeId} {seen seen' : BTreeSet NodeId} :
    checkId id seen = .ok seen' ↔ FreshIds [id] seen ∧ seen' = seen.insertMany [id] := by
  have hinsert : seen.insertMany [id] = seen.insert id := by
    ext k
    simp [eq_comm]
  rw [checkId, hinsert]
  simp only [FreshIds, List.mem_singleton, forall_eq, List.nodup_singleton, true_and]
  cases id.isEmpty with
  | true => simp
  | false => by_cases hid : id ∈ seen <;> simp [hid, eq_comm]

/-- Validation succeeds exactly on trees whose groups obey the group rules
and whose ids are fresh, and then has recorded exactly those ids. -/
theorem checkNode_eq_ok {n : Node} {seen seen' : BTreeSet NodeId} :
    checkNode n seen = .ok seen' ↔
      n.WellFormed ∧ FreshIds n.ids seen ∧ seen' = seen.insertMany n.ids := by
  induction n generalizing seen seen' with
  | leaf i => simp [checkNode, checkId_eq_ok]
  | group i axis cs shares ih =>
    have hcs : ∀ {seen seen'}, checkNodes cs seen = .ok seen' ↔
        (∀ c ∈ cs, c.WellFormed) ∧ FreshIds (cs.flatMap Node.ids) seen ∧
          seen' = seen.insertMany (cs.flatMap Node.ids) := by
      clear shares
      induction cs with
      | nil =>
        intro seen seen'
        have hnil : seen.insertMany ([] : List NodeId) = seen := by ext k; simp
        simp only [checkNodes, Except.ok.injEq, List.flatMap_nil, hnil]
        exact ⟨fun h => ⟨by simp, ⟨by simp, by simp, by simp⟩, h.symm⟩, fun h => h.2.2.symm⟩
      | cons c cs ihc =>
        intro seen seen'
        have ihc := @ihc (fun c hc => ih c (List.mem_cons_of_mem _ hc))
        simp only [checkNodes, bind_eq_ok, ih c List.mem_cons_self, ihc, List.forall_mem_cons,
          List.flatMap_cons, FreshIds.append_iff, insertMany_append]
        grind
    have hids : (Node.group i axis cs shares).ids = [i] ++ cs.flatMap Node.ids := by simp
    rw [checkNode, hids, FreshIds.append_iff, insertMany_append, Node.wellFormed_group]
    simp only [bind_eq_ok, checkId_eq_ok, ensure_eq_ok, okOr_eq_ok, checkedTotal_eq_some, hcs]
    constructor
    · rintro ⟨_, ⟨hi, rfl⟩, _, hlen, _, hshares, _, hzero, _, ⟨rfl, htotal⟩, _, -, hwf, hfresh, rfl⟩
      simp only [decide_eq_true_eq, Bool.not_eq_true', List.contains_eq_mem,
        decide_eq_false_iff_not] at hlen hshares hzero
      exact ⟨⟨⟨hlen, hshares, fun s hs => Nat.pos_of_ne_zero fun h0 => hzero (h0 ▸ hs), htotal⟩,
        hwf⟩, ⟨hi, hfresh⟩, rfl⟩
    · rintro ⟨⟨⟨hlen, hshares, hpos, htotal⟩, hwf⟩, ⟨hi, hfresh⟩, rfl⟩
      have hne : shares.sum ≠ 0 := by
        obtain ⟨s, hs⟩ := List.exists_mem_of_length_pos (l := shares) (by omega)
        exact Nat.pos_iff_ne_zero.mp (List.sum_pos_iff_exists_pos_nat.mpr ⟨s, hs, hpos s hs⟩)
      refine ⟨_, ⟨hi, rfl⟩, (), by simpa using hlen, (), by simpa using hshares, (), ?_,
        _, ⟨rfl, htotal⟩, (), by simpa using hne, hwf, hfresh, rfl⟩
      simp only [List.contains_eq_mem, Bool.not_eq_true', decide_eq_false_iff_not]
      exact fun h0 => absurd (hpos 0 h0) (by omega)

end PlasmaTiler
