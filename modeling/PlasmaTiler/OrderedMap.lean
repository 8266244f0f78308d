import Mathlib.Data.List.Nodup

/-!
# Maps in insertion order

A finite map as a list of entries with distinct keys. Setting a present key
keeps its place, setting a new key appends it; so iteration follows the order
of insertion, as it does for the maps of the language modelled here.

Everything about a map is read off `get`, with one lemma for each operation;
that two maps have the same entries in another order is never asked.
-/

structure OrderedMap (κ ν : Type) where
  entries : List (κ × ν)
  nodup : (entries.map Prod.fst).Nodup

namespace OrderedMap

variable {κ ν ω : Type} [DecidableEq κ]

def empty : OrderedMap κ ν := ⟨[], List.nodup_nil⟩

instance : Inhabited (OrderedMap κ ν) := ⟨empty⟩

def keys (m : OrderedMap κ ν) : List κ := m.entries.map Prod.fst

def values (m : OrderedMap κ ν) : List ν := m.entries.map Prod.snd

def get (m : OrderedMap κ ν) (k : κ) : Option ν := (m.entries.find? fun p => p.1 == k).map Prod.snd

/-- Change every value. -/
def map (f : κ → ν → ω) (m : OrderedMap κ ν) : OrderedMap κ ω where
  entries := m.entries.map fun p => (p.1, f p.1 p.2)
  nodup := by
    rw [List.map_map]
    exact m.nodup

/-- Keep some entries. -/
def filter (p : κ → ν → Bool) (m : OrderedMap κ ν) : OrderedMap κ ν where
  entries := m.entries.filter fun e => p e.1 e.2
  nodup := m.nodup.sublist (List.filter_sublist.map _)

def delete (m : OrderedMap κ ν) (k : κ) : OrderedMap κ ν := m.filter fun k' _ => k' != k

def set (m : OrderedMap κ ν) (k : κ) (v : ν) : OrderedMap κ ν :=
  if h : k ∈ m.keys then m.map fun k' v' => if k' = k then v else v'
  else ⟨m.entries ++ [(k, v)], by
    rw [List.map_append, List.nodup_append]
    refine ⟨m.nodup, List.nodup_singleton _, fun a ha b hb => ?_⟩
    rw [List.map_singleton, List.mem_singleton] at hb
    exact fun hab => h ((hab.trans hb : a = k) ▸ ha)⟩

section
variable {m : OrderedMap κ ν} {k k' : κ} {v : ν}

@[simp] theorem get_empty : (empty : OrderedMap κ ν).get k = none := rfl

theorem mem_entries_of_get (h : m.get k = some v) : (k, v) ∈ m.entries := by
  obtain ⟨⟨k', v'⟩, hfind, rfl⟩ := Option.map_eq_some_iff.mp h
  have hkey := List.find?_some hfind
  rw [beq_iff_eq] at hkey
  subst hkey
  exact List.mem_of_find?_eq_some hfind

theorem get_of_mem_entries (h : (k, v) ∈ m.entries) : m.get k = some v := by
  obtain ⟨entries, hnodup⟩ := m
  induction entries with
  | nil => cases h
  | cons e entries ih =>
    rw [List.map_cons, List.nodup_cons] at hnodup
    rcases List.mem_cons.mp h with rfl | h
    · simp [get]
    · have hne : e.1 ≠ k := fun hek => hnodup.1 (hek ▸ List.mem_map_of_mem (f := Prod.fst) h)
      have := ih hnodup.2 h
      simpa [get, List.find?_cons_of_neg, hne] using this

theorem mem_entries_iff : (k, v) ∈ m.entries ↔ m.get k = some v :=
  ⟨get_of_mem_entries, mem_entries_of_get⟩

theorem mem_keys_iff : k ∈ m.keys ↔ ∃ v, m.get k = some v := by
  simp only [keys, List.mem_map, Prod.exists, exists_and_right, exists_eq_right, mem_entries_iff]

theorem mem_values_iff : v ∈ m.values ↔ ∃ k, m.get k = some v := by
  simp only [values, List.mem_map, Prod.exists, exists_eq_right, mem_entries_iff]

@[simp] theorem get_map {f : κ → ν → ω} : (m.map f).get k = (m.get k).map (f k) := by
  cases h : m.get k with
  | some v =>
    exact get_of_mem_entries (List.mem_map.mpr ⟨(k, v), mem_entries_of_get h, rfl⟩)
  | none =>
    cases h' : (m.map f).get k with
    | none => rfl
    | some w =>
      obtain ⟨⟨k', v⟩, hmem, heq⟩ := List.mem_map.mp (mem_entries_of_get h')
      obtain ⟨rfl, -⟩ := Prod.mk.inj heq
      rw [get_of_mem_entries hmem] at h
      cases h

omit [DecidableEq κ] in
@[simp] theorem keys_map {f : κ → ν → ω} : (m.map f).keys = m.keys := by
  simp [keys, map]

theorem get_filter {p : κ → ν → Bool} : (m.filter p).get k = (m.get k).filter (p k) := by
  cases h : (m.filter p).get k with
  | some v =>
    obtain ⟨hmem, hp⟩ := List.mem_filter.mp (mem_entries_of_get h)
    rw [get_of_mem_entries hmem]
    exact (Option.filter_some_pos hp).symm
  | none =>
    cases h' : m.get k with
    | none => rfl
    | some v =>
      cases hp : p k v with
      | false => exact (Option.filter_some_neg (by simp [hp])).symm
      | true =>
        have : (k, v) ∈ (m.filter p).entries :=
          List.mem_filter.mpr ⟨mem_entries_of_get h', hp⟩
        rw [get_of_mem_entries this] at h
        cases h

@[simp] theorem get_delete : (m.delete k).get k' = if k' = k then none else m.get k' := by
  rw [delete, get_filter]
  split
  · rename_i h
    subst h
    cases m.get k' <;> simp
  · rename_i h
    cases m.get k' <;> simp [h]

@[simp] theorem get_set : (m.set k v).get k' = if k' = k then some v else m.get k' := by
  rw [set]
  split
  · rename_i hmem
    obtain ⟨w, hw⟩ := mem_keys_iff.mp hmem
    rw [get_map]
    split
    · rename_i h
      subst h
      rw [hw]
      simp
    · cases m.get k' <;> simp
  · rename_i hmem
    rw [keys, List.mem_map] at hmem
    simp only [get, List.find?_append]
    split
    · rename_i h
      subst h
      rw [List.find?_eq_none.mpr fun p hp hpk => hmem ⟨p, hp, by simpa using hpk⟩]
      simp
    · rename_i h
      have : ¬ k = k' := fun hk => h hk.symm
      simp [this]

end

end OrderedMap
