import PlasmaTiler.Pair
import PlasmaTiler.Folds

/-!
# Renaming node ids

A tree renamed by a function of ids, and the finite maps a pair renames its
target by: minted maps send their ids to distinct free names, and the inverse
of such a map undoes it.

The code renames by looking ids up in a map and keeping those it does not
find, so a renaming is a total function and may send two ids to one although
the map is injective. What is asked of it is therefore injectivity on the ids
of a tree, and a renaming that tells these apart keeps a valid tree valid.
-/

namespace PlasmaTiler

namespace Node

/-! ## Trees -/

mutual

/-- Rename every id of a tree. -/
def rename (f : NodeId → NodeId) : Node → Node
  | .leaf id => .leaf (f id)
  | .group id axis children shares => .group (f id) axis (renameF f children) shares

def renameF (f : NodeId → NodeId) : List Node → List Node
  | [] => []
  | child :: children => rename f child :: renameF f children

end

section
variable {f g : NodeId → NodeId} {n : Node}

@[simp] theorem renameF_eq (cs : List Node) : renameF f cs = cs.map (rename f) := by
  induction cs with
  | nil => simp [renameF]
  | cons c cs ih => simp [renameF, ih]

@[simp] theorem rename_leaf (i : NodeId) : (Node.leaf i).rename f = .leaf (f i) := by simp [rename]

@[simp] theorem rename_group (i : NodeId) (axis : Axis) (cs : List Node) (shares : List Nat) :
    (Node.group i axis cs shares).rename f = .group (f i) axis (cs.map (rename f)) shares := by
  simp [rename]

theorem ids_rename : (n.rename f).ids = n.ids.map f := by
  induction n with
  | leaf i => simp
  | group i axis cs shares ih =>
    simp only [rename_group, ids_group, List.map_cons, List.map_flatMap, List.flatMap_map]
    rw [List.flatMap_congr ih]

theorem leaves_rename : (n.rename f).leaves = n.leaves.map f := by
  induction n with
  | leaf i => simp
  | group i axis cs shares ih =>
    simp only [rename_group, leaves_group, List.map_flatMap, List.flatMap_map]
    rw [List.flatMap_congr ih]

theorem rename_rename : (n.rename f).rename g = n.rename (g ∘ f) := by
  induction n with
  | leaf i => simp
  | group i axis cs shares ih =>
    simp only [rename_group, List.map_map, Function.comp_apply, Node.group.injEq, true_and, and_true]
    exact List.map_congr_left ih

theorem rename_self : n.rename (fun i => i) = n := by
  induction n with
  | leaf i => simp
  | group i axis cs shares ih =>
    simp only [rename_group, Node.group.injEq, true_and, and_true]
    exact (List.map_congr_left ih).trans (List.map_id' cs)

theorem rename_of_fixed (h : ∀ i ∈ n.ids, f i = i) : n.rename f = n := by
  induction n with
  | leaf i => rw [rename_leaf, h i (by simp)]
  | group i axis cs shares ih =>
    rw [ids_group, List.forall_mem_cons] at h
    have hcs : cs.map (rename f) = cs := by
      refine (List.map_congr_left fun c hc => ?_).trans (List.map_id' cs)
      exact ih c hc fun j hj => h.2 j (List.mem_flatMap.mpr ⟨c, hc, hj⟩)
    rw [rename_group, h.1, hcs]

theorem WellFormed.rename (h : n.WellFormed) : (n.rename f).WellFormed := by
  induction n with
  | leaf i => simp
  | group i axis cs shares ih =>
    obtain ⟨hgroup, hcs⟩ := wellFormed_group.mp h
    rw [rename_group, wellFormed_group]
    refine ⟨by simpa using hgroup, fun c' hc' => ?_⟩
    obtain ⟨c, hc, rfl⟩ := List.mem_map.mp hc'
    exact ih c hc (hcs c hc)

end

end Node

/-- A renaming that tells the ids of a valid tree apart keeps it valid. -/
theorem TreeOk.rename {n : Node} {f : NodeId → NodeId} (h : TreeOk n)
    (hinj : ∀ i ∈ n.ids, ∀ j ∈ n.ids, f i = f j → i = j)
    (hne : ∀ i ∈ n.ids, (f i).isEmpty = false) : TreeOk (n.rename f) where
  wellFormed := h.wellFormed.rename
  nodup := by
    rw [Node.ids_rename]
    exact List.Nodup.map_on hinj h.nodup
  nonempty i hi := by
    rw [Node.ids_rename] at hi
    obtain ⟨j, hj, rfl⟩ := List.mem_map.mp hi
    exact hne j hj

/-- Renaming by a map is renaming by its function. -/
theorem remapTreeNodeIds_eq {mapping : BTreeMap NodeId NodeId} {n : Node} :
    remapTreeNodeIds mapping n = n.rename (remapNodeId mapping) := by
  have hchildren : ∀ cs : List Node, remapChildren mapping cs = cs.map (remapTreeNodeIds mapping) := by
    intro cs
    induction cs with
    | nil => simp [remapChildren]
    | cons c cs ih => simp [remapChildren, ih]
  induction n with
  | leaf i => simp [remapTreeNodeIds]
  | group i axis cs shares ih =>
    simp only [remapTreeNodeIds, hchildren, Node.rename_group, Node.group.injEq, true_and, and_true]
    exact List.map_congr_left ih

/-! ## Minted maps -/

section
variable {m : BTreeMap NodeId NodeId} {occupied : BTreeSet NodeId} {i j v : NodeId}
  {ids : List NodeId}

theorem remapNodeId_of_lookup (h : m[i]? = some v) : remapNodeId m i = v := by
  rw [remapNodeId, h]
  rfl

theorem remapNodeId_of_none (h : m[i]? = none) : remapNodeId m i = i := by
  rw [remapNodeId, h]
  rfl

/-- A map of exactly the listed ids to new names: nonempty, pairwise distinct,
and none that is occupied. Renaming by it keeps ids apart. -/
structure Minted (m : BTreeMap NodeId NodeId) (ids : List NodeId) (occupied : BTreeSet NodeId) :
    Prop where
  domain : ∀ {i : NodeId}, i ∈ ids ↔ ∃ v, m[i]? = some v
  free : ∀ {i v : NodeId}, m[i]? = some v → v ∉ occupied
  named : ∀ {i v : NodeId}, m[i]? = some v → v.isEmpty = false
  inj : ∀ {i j v : NodeId}, m[i]? = some v → m[j]? = some v → i = j

theorem Minted.lookup_none (h : Minted m ids occupied) (hi : i ∉ ids) : m[i]? = none := by
  cases hv : m[i]? with
  | none => rfl
  | some v => exact absurd (h.domain.mpr ⟨v, hv⟩) hi

theorem mintAll_lookup {name : Nat → NodeId} (hname : name.Injective) (hnodup : ids.Nodup) :
    (∀ i, i ∉ ids → (mintAll name ids occupied m)[i]? = m[i]?) ∧
      (∀ i ∈ ids, ∃ n, (mintAll name ids occupied m)[i]? = some (name n) ∧ name n ∉ occupied) ∧
      ∀ i ∈ ids, ∀ j ∈ ids, (mintAll name ids occupied m)[i]? = (mintAll name ids occupied m)[j]? →
        i = j := by
  induction ids generalizing occupied m with
  | nil => exact ⟨fun _ _ => rfl, nofun, nofun⟩
  | cons i ids ih =>
    obtain ⟨hfresh, hnodup⟩ := List.nodup_cons.mp hnodup
    obtain ⟨hfree, n, hn⟩ := firstFree_spec hname occupied
    have hrest := @ih (m.insert i (firstFree name occupied)) (occupied.insert (firstFree name occupied))
      hnodup
    rw [← mintAll] at hrest
    obtain ⟨hkept, hminted, hinj⟩ := hrest
    have hhere : (mintAll name (i :: ids) occupied m)[i]? = some (firstFree name occupied) :=
      (hkept i hfresh).trans (lookup_insert.trans (if_pos rfl))
    -- the ids minted later avoid the name minted here
    have hlater : ∀ j ∈ ids, (mintAll name (i :: ids) occupied m)[i]? ≠
        (mintAll name (i :: ids) occupied m)[j]? := by
      intro j hj heq
      obtain ⟨k, hk, hfreeK⟩ := hminted j hj
      rw [hhere, hk, Option.some.injEq] at heq
      exact hfreeK (mem_set_insert.mpr (.inl heq))
    refine ⟨fun j hj => ?_, fun j hj => ?_, fun j hj k hk heq => ?_⟩
    · rw [List.mem_cons, not_or] at hj
      obtain ⟨hne, hj⟩ := hj
      exact (hkept j hj).trans (lookup_insert.trans (if_neg (Ne.symm hne)))
    · rcases List.mem_cons.mp hj with rfl | hj
      · exact ⟨n, hhere.trans (congrArg some hn), hn ▸ hfree⟩
      · obtain ⟨k, hk, hfreeK⟩ := hminted j hj
        exact ⟨k, hk, fun hmem => hfreeK (mem_set_insert.mpr (.inr hmem))⟩
    · rcases List.mem_cons.mp hj with hji | hj' <;> rcases List.mem_cons.mp hk with hki | hk'
      · exact hji.trans hki.symm
      · subst hji
        exact absurd heq (hlater k hk')
      · subst hki
        exact absurd heq.symm (hlater j hj')
      · exact hinj j hj' k hk' heq

theorem mintAll_minted {name : Nat → NodeId} (hname : name.Injective)
    (hnamed : ∀ n, (name n).isEmpty = false) (hnodup : ids.Nodup) :
    Minted (mintAll name ids occupied ∅) ids occupied := by
  obtain ⟨hkept, hminted, hinj⟩ := @mintAll_lookup ∅ occupied ids name hname hnodup
  have hmem : ∀ {i v : NodeId}, (mintAll name ids occupied ∅)[i]? = some v → i ∈ ids := by
    intro i v hv
    by_contra hi
    rw [hkept i hi, Std.ExtTreeMap.getElem?_empty] at hv
    cases hv
  have hvalue : ∀ {i v : NodeId}, (mintAll name ids occupied ∅)[i]? = some v →
      ∃ n, v = name n ∧ v ∉ occupied := by
    intro i v hv
    obtain ⟨n, hn, hfree⟩ := hminted i (hmem hv)
    obtain rfl := Option.some.inj (hv.symm.trans hn)
    exact ⟨n, rfl, hfree⟩
  refine ⟨fun {i} => ⟨fun hi => ?_, fun ⟨v, hv⟩ => hmem hv⟩, fun hv => ?_, fun hv => ?_,
    fun hi hj => hinj _ (hmem hi) _ (hmem hj) (hi.trans hj.symm)⟩
  · obtain ⟨n, hn, -⟩ := hminted i hi
    exact ⟨_, hn⟩
  · exact (hvalue hv).choose_spec.2
  · obtain ⟨n, rfl, -⟩ := hvalue hv
    exact hnamed n

/-- The inverse of an injective map reads it backwards. -/
theorem inverseMap_lookup
    (hinj : ∀ {i j v : NodeId}, m[i]? = some v → m[j]? = some v → i = j) :
    (inverseMap m)[v]? = some i ↔ m[i]? = some v := by
  have hlocal : Local (fun (m : BTreeMap NodeId NodeId) (p : NodeId × NodeId) m' =>
      m.insert p.2 p.1 = m') m.toList (fun (m : BTreeMap NodeId NodeId) (v : NodeId) => m[v]?)
      Prod.snd fun p _ => some p.1 := by
    rintro p _ m₁ m₂ rfl
    exact ⟨lookup_insert.trans (if_pos rfl), fun k hk => lookup_insert.trans (if_neg hk)⟩
  have hpass := @folded_foldl (BTreeMap NodeId NodeId) (NodeId × NodeId) ∅ m.toList
    fun inverse p => inverse.insert p.2 p.1
  have hentry : ∀ {p : NodeId × NodeId}, p ∈ m.toList ↔ m[p.1]? = some p.2 :=
    Std.ExtTreeMap.mem_toList_iff_getElem?_eq_some
  have hnodup : (m.toList.map Prod.snd).Nodup := by
    refine List.Nodup.map_on ?_ nodup_toList
    rintro ⟨i, v⟩ hi ⟨j, w⟩ hj heq
    obtain rfl : v = w := heq
    have hiv : m[i]? = some v := hentry.mp hi
    have hjv : m[j]? = some v := hentry.mp hj
    rw [hinj hiv hjv]
  have hfold : inverseMap m = m.toList.foldl (fun inverse p => inverse.insert p.2 p.1) ∅ := rfl
  rw [hfold]
  constructor
  · intro h
    by_cases hmem : ∃ p ∈ m.toList, p.2 = v
    · obtain ⟨p, hp, rfl⟩ := hmem
      obtain rfl := Option.some.inj ((hpass.view_of_mem hlocal hnodup hp).symm.trans h)
      exact hentry.mp hp
    · have hview := hpass.view_of_not_mem hlocal (k := v) fun p hp heq => hmem ⟨p, hp, heq⟩
      have hnone : (∅ : BTreeMap NodeId NodeId)[v]? = some i := hview.symm.trans h
      rw [Std.ExtTreeMap.getElem?_empty] at hnone
      cases hnone
  · intro h
    exact hpass.view_of_mem hlocal hnodup (hentry (p := (i, v)).mpr h)

/-- The inverse of a minted map undoes it on its ids. -/
theorem Minted.remap_inverse (h : Minted m ids occupied) (hi : i ∈ ids) :
    remapNodeId (inverseMap m) (remapNodeId m i) = i := by
  obtain ⟨v, hv⟩ := h.domain.mp hi
  rw [remapNodeId_of_lookup hv]
  exact remapNodeId_of_lookup ((inverseMap_lookup h.inj).mpr hv)

theorem Minted.remap_inj (h : Minted m ids occupied) (hi : i ∈ ids) (hj : j ∈ ids)
    (heq : remapNodeId m i = remapNodeId m j) : i = j := by
  rw [← h.remap_inverse hi, heq, h.remap_inverse hj]

theorem Minted.remap_free (h : Minted m ids occupied) (hi : i ∈ ids) :
    remapNodeId m i ∉ occupied ∧ (remapNodeId m i).isEmpty = false := by
  obtain ⟨v, hv⟩ := h.domain.mp hi
  rw [remapNodeId_of_lookup hv]
  exact ⟨h.free hv, h.named hv⟩

end

end PlasmaTiler
