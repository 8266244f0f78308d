import Mathlib.Data.List.Nodup
import Std.Data.ExtTreeMap
import Std.Data.ExtTreeSet

/-!
# Ordered collections

Ordered maps and sets with lawful keys, as the extensional trees of the
standard library: two maps with the same entries are equal, and iteration is
in key order, as it is in the source. The lookup lemmas are restated with key
equality in place of the comparison, which is the form every later proof
rewrites with.
-/

namespace PlasmaTiler

/-- Ordered map: iteration (`toList`) is in key order. -/
abbrev BTreeMap (κ : Type) (ν : Type) [Ord κ] := Std.ExtTreeMap κ ν compare

/-- Ordered set. -/
abbrev BTreeSet (κ : Type) [Ord κ] := Std.ExtTreeSet κ compare

section
variable {κ ν : Type} [Ord κ] [Std.TransOrd κ] {m : BTreeMap κ ν} {s : BTreeSet κ} {a k : κ} {v w : ν}

/-! ## Lookups -/

theorem mem_iff_lookup : k ∈ m ↔ ∃ v, m[k]? = some v := by
  rw [Std.ExtTreeMap.mem_iff_isSome_getElem?, Option.isSome_iff_exists]

theorem contains_eq_false : m.contains k = false ↔ k ∉ m := by
  rw [Bool.eq_false_iff, ne_eq, Std.ExtTreeMap.contains_iff_mem]

variable [Std.LawfulEqOrd κ]

theorem lookup_insert [DecidableEq κ] : (m.insert a v)[k]? = if a = k then some v else m[k]? := by
  rw [Std.ExtTreeMap.getElem?_insert]
  simp only [Std.LawfulEqOrd.compare_eq_iff_eq]

theorem lookup_erase [DecidableEq κ] : (m.erase a)[k]? = if a = k then none else m[k]? := by
  rw [Std.ExtTreeMap.getElem?_erase]
  simp only [Std.LawfulEqOrd.compare_eq_iff_eq]

theorem mem_set_insert : k ∈ s.insert a ↔ a = k ∨ k ∈ s := by
  rw [Std.ExtTreeSet.mem_insert, Std.LawfulEqOrd.compare_eq_iff_eq]

theorem mem_set_erase : k ∈ s.erase a ↔ a ≠ k ∧ k ∈ s := by
  rw [Std.ExtTreeSet.mem_erase, ne_eq, Std.LawfulEqOrd.compare_eq_iff_eq]

/-! ## Values -/

/-- The values, in key order. -/
def values (m : BTreeMap κ ν) : List ν := m.toList.map Prod.snd

theorem mem_values : v ∈ values m ↔ ∃ k : κ, m[k]? = some v := by
  simp only [values, List.mem_map, Prod.exists, exists_eq_right,
    Std.ExtTreeMap.mem_toList_iff_getElem?_eq_some]

theorem mem_values_of_lookup (h : m[k]? = some v) : v ∈ values m := mem_values.mpr ⟨k, h⟩

omit [Std.LawfulEqOrd κ] in
theorem nodup_toList : m.toList.Nodup := by
  refine Std.ExtTreeMap.distinct_keys_toList.imp fun {p q} hne heq => ?_
  rw [heq] at hne
  exact hne Std.ReflCmp.compare_self

/-- A projection of the values is duplicate-free when it tells the keys
apart. -/
theorem nodup_map_values {β : Type} {f : ν → β} : ((values m).map f).Nodup ↔
    ∀ {k k' : κ} {v w : ν}, m[k]? = some v → m[k']? = some w → f v = f w → k = k' := by
  rw [values, List.map_map]
  constructor
  · intro hnodup k k' v w hv hw hf
    have heq := List.inj_on_of_nodup_map hnodup
      (Std.ExtTreeMap.mem_toList_iff_getElem?_eq_some.mpr hv)
      (Std.ExtTreeMap.mem_toList_iff_getElem?_eq_some.mpr hw) hf
    exact congrArg Prod.fst heq
  · intro hinj
    refine List.Nodup.map_on ?_ nodup_toList
    rintro ⟨k, v⟩ hv ⟨k', w⟩ hw hf
    rw [Std.ExtTreeMap.mem_toList_iff_getElem?_eq_some] at hv hw
    obtain rfl := hinj hv hw hf
    rw [hv] at hw
    rw [Option.some.inj hw]

/-! ## Retaining -/

/-- The elements that pass a test. -/
def retain (s : BTreeSet κ) (p : κ → Bool) : BTreeSet κ :=
  (∅ : BTreeSet κ).insertMany (s.toList.filter p)

theorem mem_retain [DecidableEq κ] {p : κ → Bool} : k ∈ retain s p ↔ k ∈ s ∧ p k = true := by
  rw [retain, Std.ExtTreeSet.mem_insertMany_list]
  simp

end

end PlasmaTiler
