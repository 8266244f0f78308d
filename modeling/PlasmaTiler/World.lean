import Mathlib.Data.List.Nodup
import PlasmaTiler.Contract
import PlasmaTiler.SizeHints

/-!
# Session worlds

The durable world of a session: logical domains, one tree slot per domain,
the windows tiled in the trees, the windows kept out of them, and the focus.
A domain is a workspace on an output, so that an output has several.

`validateTopology` is the check every operation runs before it accepts a
world; `WorldOk` says what it checks, one field per rule. The check is a
sequence of loops with early exits, and none of the later proofs looks at it
again: `validateTopology_iff` says that it accepts exactly the valid worlds.
-/

namespace PlasmaTiler

/-! ## Domains -/

/-- Logical domain key: the same output may appear with several workspaces. -/
@[ext] structure DomainKey where
  output : OutputId
  workspace : WorkspaceId
deriving DecidableEq, Repr, Inhabited

namespace DomainKey

instance : Ord DomainKey := ⟨compareLex (compareOn DomainKey.output) (compareOn DomainKey.workspace)⟩

instance : Std.TransOrd DomainKey :=
  inferInstanceAs (Std.TransCmp
    (compareLex (compareOn DomainKey.output) (compareOn DomainKey.workspace)))

instance : Std.LawfulEqOrd DomainKey where
  eq_of_compare {a b} h := by
    obtain ⟨houtput, hworkspace⟩ := compareLex_eq_eq.mp h
    exact DomainKey.ext (Std.LawfulEqOrd.eq_of_compare houtput)
      (Std.LawfulEqOrd.eq_of_compare hworkspace)

end DomainKey

/-- The key a link or a record is homed on. -/
def WindowLink.key (l : WindowLink) : DomainKey := ⟨l.output, l.workspace⟩

/-- Logical output domain with the bounds and gap its tree is projected
with, and its neighbors by direction. -/
structure OutputDomain where
  id : OutputId
  workspace : WorkspaceId
  bounds : Rect
  gap : Int
  adjacent : BTreeMap Direction OutputId
deriving DecidableEq

namespace OutputDomain

/-- Shape of one domain; how domains name each other is checked apart. -/
def validate (d : OutputDomain) : Bool :=
  !d.id.isEmpty && !d.workspace.isEmpty && decide (0 < d.bounds.w) && decide (0 < d.bounds.h) &&
    (IntRange.i32.checkedAdd d.bounds.x d.bounds.w).isSome &&
    (IntRange.i32.checkedAdd d.bounds.y d.bounds.h).isSome &&
    decide (0 ≤ d.gap) && decide (d.adjacent.size ≤ 4) &&
    (values d.adjacent).all fun target => !target.isEmpty && target != d.id

def key (d : OutputDomain) : DomainKey := ⟨d.id, d.workspace⟩

end OutputDomain

/-- Every adjacency names exactly one domain, which names the source back in
the opposite direction. -/
def validateAdjacency (domains : List OutputDomain) : Bool :=
  domains.all fun domain => domain.adjacent.toList.all fun (direction, target) =>
    !target.isEmpty && target != domain.id &&
      match domains.filter (·.id == target) with
      | [targetDomain] => targetDomain.adjacent[oppositeDirection direction]? == some domain.id
      | _ => false

/-! ## Windows outside the trees -/

/-- Explicit observed exception flags for one window. -/
structure ExceptionFlags where
  floating : Bool
  fullscreen : Bool
  maximized : Bool
  sticky : Bool
deriving DecidableEq, Repr

namespace ExceptionFlags

def none : ExceptionFlags := ⟨false, false, false, false⟩

def any (f : ExceptionFlags) : Bool := f.floating || f.fullscreen || f.maximized || f.sticky

/-- Floating and nothing else. -/
def plainFloat : ExceptionFlags := ⟨true, false, false, false⟩

end ExceptionFlags

/-- Explicit caller-selected behavior for an observed exception window. -/
inductive ExceptionBehavior
  | defer
deriving DecidableEq, Repr

/-- One adapter-observed window. -/
structure ObservedWindow where
  window : WindowId
  output : OutputId
  workspace : WorkspaceId
  floating : Bool
  fullscreen : Bool
  maximized : Bool
  sticky : Bool
  fixedAuto : Bool
  fixedSuppress : Bool
  hints : WindowSizeHints
deriving DecidableEq, Repr

namespace ObservedWindow

def flags (e : ObservedWindow) : ExceptionFlags := ⟨e.floating, e.fullscreen, e.maximized, e.sticky⟩

def key (e : ObservedWindow) : DomainKey := ⟨e.output, e.workspace⟩

end ObservedWindow

/-- The identity-bound revision with the complete observed window list. -/
structure SessionObservation where
  observation : Observation
  windows : List ObservedWindow
deriving DecidableEq

/-- Stored exception record for a deferred window. -/
structure ExceptionRecord where
  window : WindowId
  output : OutputId
  workspace : WorkspaceId
  flags : ExceptionFlags
  floatingGeometry : Option Rect
deriving DecidableEq, Repr

def ExceptionRecord.key (r : ExceptionRecord) : DomainKey := ⟨r.output, r.workspace⟩

/-! ## Trees and links -/

instance : LawfulBEq (Option Node) := inferInstance

abbrev Trees := BTreeMap DomainKey (Option Node)
abbrev Links := BTreeMap WindowId WindowLink
abbrev Exceptions := BTreeMap WindowId ExceptionRecord

/-- The tree of a domain: absent for an empty domain and for an unknown one. -/
def treeAt (trees : Trees) (key : DomainKey) : Option Node := (trees[key]?).join

/-- Whether the tree of the domain has the leaf. -/
def hasLeaf (trees : Trees) (key : DomainKey) (leaf : NodeId) : Bool :=
  (treeAt trees key).any fun tree => tree.leaves.contains leaf

/-- Whether some tiled window is linked to the leaf in the domain. -/
def linkedAt (windows : Links) (key : DomainKey) (leaf : NodeId) : Bool :=
  (values windows).any fun l => l.leaf == leaf && l.output == key.output &&
    l.workspace == key.workspace

/-! ## The topology check -/

/-- A positive rectangle whose far edges are representable. -/
def validRectShape (rect : Rect) : Bool :=
  decide (0 < rect.w) && decide (0 < rect.h) && (IntRange.i32.checkedAdd rect.x rect.w).isSome &&
    (IntRange.i32.checkedAdd rect.y rect.h).isSome

/-- Group rules and distinct nonempty ids, over one tree. -/
def validateNodeShares (node : Node) : Bool := (checkNode node ∅).isOk

/-- One exception record names a known domain. -/
def validException (domains : List OutputDomain) (record : ExceptionRecord) : Bool :=
  !record.window.isEmpty && !record.output.isEmpty && !record.workspace.isEmpty &&
    domains.any fun d => d.id == record.output && d.workspace == record.workspace

/-- One link names a leaf of its own domain's tree. -/
def validLink (domains : List OutputDomain) (trees : Trees) (link : WindowLink) : Bool :=
  !link.window.isEmpty && !link.leaf.isEmpty && !link.output.isEmpty &&
    !link.workspace.isEmpty && domains.any (·.key == link.key) && hasLeaf trees link.key link.leaf

/-- Focus is absent, or a linked leaf of its domain. -/
def validFocus (trees : Trees) (windows : Links) : Option DomainKey → Option NodeId → Bool
  | none, none => true
  | some key, some leaf => hasLeaf trees key leaf && linkedAt windows key leaf
  | _, _ => false

def validateTopology (domains : List OutputDomain) (trees : Trees) (windows : Links)
    (exceptions : Exceptions) (focusedDomain : Option DomainKey) (focusedLeaf : Option NodeId) :
    Bool :=
  !domains.isEmpty &&
  -- every domain has exactly one tree slot, and no other key has one
  trees.size == domains.length &&
  domains.all (fun d => d.validate && trees.contains d.key) &&
  trees.keys.all (fun key => domains.any (·.key == key)) &&
  domains.all (fun d => (treeAt trees d.key).all validateNodeShares) &&
  windows.keys.all (fun id => !exceptions.contains id) &&
  (values exceptions).all (validException domains) &&
  -- reciprocal bindings between links and leaves, scoped to the domain
  decide (((values windows).map WindowLink.leaf).Nodup) &&
  (values windows).all (validLink domains trees) &&
  domains.all (fun d => (treeAt trees d.key).all fun tree =>
    tree.leaves.all (linkedAt windows d.key)) &&
  validFocus trees windows focusedDomain focusedLeaf

/-! ## What the check says -/

/-- A valid tree: every group obeys the group rules, and the ids of groups and
leaves are distinct and not empty. -/
structure TreeOk (tree : Node) : Prop where
  wellFormed : tree.WellFormed
  nodup : tree.ids.Nodup
  nonempty : ∀ i ∈ tree.ids, i.isEmpty = false

/-- A valid world, one field for each rule of the source's topology check. The
checks are many and nested there; proofs about worlds cite the rule they need.
-/
structure WorldOk (domains : List OutputDomain) (trees : Trees) (windows : Links)
    (exceptions : Exceptions) (focusedDomain : Option DomainKey) (focusedLeaf : Option NodeId) :
    Prop where
  domains_ne : domains ≠ []
  slot_count : trees.size = domains.length
  domain_valid : ∀ d ∈ domains, d.validate = true
  slot_of_domain : ∀ d ∈ domains, d.key ∈ trees
  domain_of_slot : ∀ key ∈ trees, ∃ d ∈ domains, d.key = key
  tree_ok : ∀ {key tree}, treeAt trees key = some tree → TreeOk tree
  disjoint : ∀ {w : WindowId}, w ∈ windows → w ∉ exceptions
  exception_valid : ∀ {w : WindowId} {r}, exceptions[w]? = some r → validException domains r = true
  link_valid : ∀ {w : WindowId} {l}, windows[w]? = some l → validLink domains trees l = true
  leaf_inj : ∀ {w w' : WindowId} {l l'}, windows[w]? = some l → windows[w']? = some l' → l.leaf = l'.leaf →
    w = w'
  leaf_linked : ∀ {key tree leaf}, treeAt trees key = some tree → leaf ∈ tree.leaves →
    ∃ (w : WindowId) (l : WindowLink), windows[w]? = some l ∧ l.leaf = leaf ∧ l.key = key
  focus : validFocus trees windows focusedDomain focusedLeaf = true

section
variable {domains : List OutputDomain} {trees : Trees} {windows : Links}
  {exceptions : Exceptions} {focusedDomain : Option DomainKey} {focusedLeaf : Option NodeId}
  {key : DomainKey} {tree : Node} {leaf : NodeId}

theorem treeAt_eq_some : treeAt trees key = some tree ↔ trees[key]? = some (some tree) := by
  rw [treeAt, Option.join_eq_some_iff]

theorem treeAt_insert {value : Option Node} {k : DomainKey} :
    treeAt (trees.insert key value) k = if key = k then value else treeAt trees k := by
  unfold treeAt
  rw [lookup_insert]
  split <;> rfl

theorem hasLeaf_iff : hasLeaf trees key leaf = true ↔
    ∃ tree, treeAt trees key = some tree ∧ leaf ∈ tree.leaves := by
  simp [hasLeaf, Option.any_eq_true]

theorem linkedAt_iff : linkedAt windows key leaf = true ↔
    ∃ (w : WindowId) (l : WindowLink), windows[w]? = some l ∧ l.leaf = leaf ∧ l.key = key := by
  simp only [linkedAt, List.any_eq_true, mem_values, Bool.and_eq_true, beq_iff_eq,
    WindowLink.key, DomainKey.ext_iff]
  grind

theorem validateNodeShares_iff : validateNodeShares tree = true ↔ TreeOk tree := by
  have hempty : ∀ l, FreshIds l ∅ ↔ (∀ i ∈ l, i.isEmpty = false) ∧ l.Nodup := by
    intro l
    simp [FreshIds]
  rw [validateNodeShares]
  constructor
  · intro h
    cases hcheck : checkNode tree ∅ with
    | error e => rw [hcheck] at h; cases h
    | ok seen =>
      obtain ⟨hwf, hfresh, -⟩ := checkNode_eq_ok.mp hcheck
      obtain ⟨hne, hnodup⟩ := (hempty _).mp hfresh
      exact ⟨hwf, hnodup, hne⟩
  · rintro ⟨hwf, hnodup, hne⟩
    rw [checkNode_eq_ok.mpr ⟨hwf, (hempty _).mpr ⟨hne, hnodup⟩, rfl⟩]
    rfl

/-- The topology check accepts exactly the valid worlds. -/
theorem validateTopology_iff :
    validateTopology domains trees windows exceptions focusedDomain focusedLeaf = true ↔
      WorldOk domains trees windows exceptions focusedDomain focusedLeaf := by
  simp only [validateTopology, Bool.and_eq_true, List.all_eq_true, Std.ExtTreeMap.mem_keys,
    decide_eq_true_eq, beq_iff_eq, List.any_eq_true, mem_values, Bool.not_eq_true',
    Option.all_eq_true, validateNodeShares_iff, forall_exists_index, nodup_map_values,
    List.isEmpty_eq_false_iff, Std.ExtTreeMap.contains_iff_mem, linkedAt_iff]
  constructor
  · rintro ⟨⟨⟨⟨⟨⟨⟨⟨⟨⟨hne, hcount⟩, hdomains⟩, hslots⟩, htrees⟩, hdisjoint⟩, hexceptions⟩, hinj⟩,
      hlinks⟩, hleaves⟩, hfocus⟩
    have hdomain : ∀ {key tree}, treeAt trees key = some tree → ∃ d ∈ domains, d.key = key :=
      fun {key tree} h => hslots key (mem_iff_lookup.mpr ⟨_, treeAt_eq_some.mp h⟩)
    refine ⟨hne, hcount, fun d hd => (hdomains d hd).1, fun d hd => (hdomains d hd).2, hslots,
      fun {key tree} h => ?_, fun {w} hw => ?_, fun {w r} h => hexceptions r w h,
      fun {w l} h => hlinks l w h, hinj, fun {key tree leaf} h hleaf => ?_, hfocus⟩
    · obtain ⟨d, hd, rfl⟩ := hdomain h
      exact htrees d hd tree h
    · exact contains_eq_false.mp (hdisjoint w hw)
    · obtain ⟨d, hd, rfl⟩ := hdomain h
      exact hleaves d hd tree h leaf hleaf
  · intro hok
    refine ⟨⟨⟨⟨⟨⟨⟨⟨⟨⟨hok.domains_ne, hok.slot_count⟩,
      fun d hd => ⟨hok.domain_valid d hd, hok.slot_of_domain d hd⟩⟩, hok.domain_of_slot⟩,
      fun d _ tree h => hok.tree_ok h⟩, fun w hw => ?_⟩, fun r w h => hok.exception_valid h⟩,
      hok.leaf_inj⟩, fun l w h => hok.link_valid h⟩,
      fun d _ tree h leaf hleaf => hok.leaf_linked h hleaf⟩, hok.focus⟩
    exact contains_eq_false.mpr (hok.disjoint hw)

end

end PlasmaTiler
