import PlasmaTiler.OrderedMap

/-!
# Partitions into ordered buckets

A map from keys to lists in which no element occurs twice, within one list or
across two. The lists are ordered and the order matters to whoever reads
them, but not to the question whether the lists are a partition.

What matters about an operation is where it puts an element (`On`); whether
it keeps the partition follows from that. So each operation (setting a
bucket, pushing, taking out, moving a list) has a lemma that says who is on
which bucket afterwards, as an equivalence, and one that the result is still
a partition; the latter is derived from the former wherever an element's new
place is determined by its old one.
-/

abbrev Buckets (κ α : Type) := OrderedMap κ (List α)

namespace Buckets

variable {κ α : Type} [DecidableEq κ]

/-- The element is in the bucket of the key. Everything an operation does to a
partition is stated in this. -/
def On (m : Buckets κ α) (k : κ) (a : α) : Prop := ∃ xs, m.get k = some xs ∧ a ∈ xs

/-- No element twice within a bucket, and none in two buckets. Buckets may be
empty, and elements in none. -/
structure Partition (m : Buckets κ α) : Prop where
  nodup : ∀ k xs, m.get k = some xs → xs.Nodup
  one : ∀ k k' a, m.On k a → m.On k' a → k = k'

/-- Every element of every bucket. -/
def all (m : Buckets κ α) : List α := m.values.flatten

def retain (p : α → Bool) (m : Buckets κ α) : Buckets κ α := m.map fun _ xs => xs.filter p

section
variable {m : Buckets κ α} {k k' : κ} {a : α} {xs : List α} {p : α → Bool}

theorem mem_all : a ∈ m.all ↔ ∃ k, m.On k a := by
  simp only [all, List.mem_flatten, OrderedMap.mem_values_iff, On]
  constructor
  · rintro ⟨xs, ⟨k, hk⟩, ha⟩
    exact ⟨k, xs, hk, ha⟩
  · rintro ⟨k, xs, hk, ha⟩
    exact ⟨xs, ⟨k, hk⟩, ha⟩

theorem on_iff_getD : m.On k a ↔ a ∈ (m.get k).getD [] := by
  unfold On
  cases m.get k <;> simp

@[simp] theorem not_on_empty : ¬ On (OrderedMap.empty : Buckets κ α) k a := by
  simp [On]

@[simp] theorem on_set : On (m.set k xs) k' a ↔ if k' = k then a ∈ xs else m.On k' a := by
  unfold On
  rw [OrderedMap.get_set]
  split <;> simp

@[simp] theorem on_delete : On (m.delete k) k' a ↔ k' ≠ k ∧ m.On k' a := by
  unfold On
  rw [OrderedMap.get_delete]
  split
  · rename_i h
    simp [h]
  · rename_i h
    simp [h]

@[simp] theorem on_retain : (m.retain p).On k a ↔ m.On k a ∧ p a = true := by
  unfold On retain
  rw [OrderedMap.get_map]
  cases m.get k <;> simp

theorem partition_empty : Partition (OrderedMap.empty : Buckets κ α) where
  nodup _ _ h := by cases h
  one _ _ _ h := absurd h not_on_empty

namespace Partition

theorem retain (h : m.Partition) : (m.retain p).Partition where
  nodup k xs hget := by
    rw [Buckets.retain, OrderedMap.get_map] at hget
    obtain ⟨ys, hys, rfl⟩ := Option.map_eq_some_iff.mp hget
    exact (h.nodup k ys hys).filter _
  one k k' b hb hb' := h.one k k' b (on_retain.mp hb).1 (on_retain.mp hb').1

theorem delete (h : m.Partition) : Partition (m.delete k) where
  nodup k' xs hget := by
    rw [OrderedMap.get_delete] at hget
    split at hget
    · cases hget
    · exact h.nodup k' xs hget
  one k' k'' b hb hb' := h.one k' k'' b (on_delete.mp hb).2 (on_delete.mp hb').2

theorem filter {keep : κ → List α → Bool} (h : m.Partition) : Partition (m.filter keep) where
  nodup k xs hget := by
    rw [OrderedMap.get_filter, Option.filter_eq_some_iff] at hget
    exact h.nodup k xs hget.1
  one k k' b hb hb' := by
    have hon : ∀ k, On (m.filter keep) k b → m.On k b := by
      rintro k ⟨xs, hget, hmem⟩
      rw [OrderedMap.get_filter, Option.filter_eq_some_iff] at hget
      exact ⟨xs, hget.1, hmem⟩
    exact h.one k k' b (hon k hb) (hon k' hb')

/-- A bucket may be set to elements that no other bucket has. -/
theorem set (h : m.Partition) (hxs : xs.Nodup) (hown : ∀ a ∈ xs, ∀ k', m.On k' a → k' = k) :
    Partition (m.set k xs) where
  nodup k' ys hget := by
    rw [OrderedMap.get_set] at hget
    split at hget
    · obtain rfl := Option.some.inj hget
      exact hxs
    · exact h.nodup k' ys hget
  one k' k'' b hb hb' := by
    rw [on_set] at hb hb'
    split at hb <;> split at hb'
    · rename_i h' h''
      rw [h', h'']
    · rename_i h' _
      rw [h', hown b hb k'' hb']
    · rename_i h'
      rw [h', hown b hb' k' hb]
    · exact h.one k' k'' b hb hb'

theorem nodup_getD (h : m.Partition) : ((m.get k).getD []).Nodup := by
  cases hget : m.get k with
  | none => exact List.nodup_nil
  | some xs => exact h.nodup k xs hget

end Partition

end

/-! ## Where elements can be told apart -/

variable [DecidableEq α]

/-- The elements of `ys` that are not there yet, appended in order. -/
def pushNew (xs ys : List α) : List α := ys.foldl (fun xs y => if y ∈ xs then xs else xs ++ [y]) xs

instance (m : Buckets κ α) (k : κ) (a : α) : Decidable (m.On k a) :=
  decidable_of_iff (a ∈ (m.get k).getD []) <| by
    unfold On
    cases m.get k <;> simp

def removeEverywhere (m : Buckets κ α) (a : α) : Buckets κ α := m.map fun _ xs => xs.erase a

/-- Out of one bucket. -/
def takeFrom (k : κ) (a : α) (m : Buckets κ α) : Buckets κ α :=
  m.map fun k' xs => if k' = k then xs.erase a else xs

def push (k : κ) (ys : List α) (m : Buckets κ α) : Buckets κ α :=
  m.set k (pushNew ((m.get k).getD []) ys)

/-- Out of every bucket, then into one. -/
def moveTo (ys : List α) (k : κ) (m : Buckets κ α) : Buckets κ α :=
  push k ys (ys.foldl removeEverywhere m)

section
variable {m : Buckets κ α} {k k' : κ} {a b : α} {xs ys : List α}

@[simp] theorem mem_pushNew : a ∈ pushNew xs ys ↔ a ∈ xs ∨ a ∈ ys := by
  unfold pushNew
  induction ys generalizing xs with
  | nil => simp
  | cons y ys ih =>
    rw [List.foldl_cons, ih]
    split
    · rename_i h
      constructor
      · rintro (h | h) <;> simp [h]
      · rintro (h' | h')
        · exact Or.inl h'
        · rcases List.mem_cons.mp h' with rfl | h'
          · exact Or.inl h
          · exact Or.inr h'
    · simp [or_assoc]

theorem nodup_pushNew (h : xs.Nodup) : (pushNew xs ys).Nodup := by
  unfold pushNew
  induction ys generalizing xs with
  | nil => exact h
  | cons y ys ih =>
    rw [List.foldl_cons]
    refine ih ?_
    split
    · exact h
    · rename_i hy
      exact List.nodup_append.mpr ⟨h, List.nodup_singleton _, fun a ha b hb => by
        rw [List.mem_singleton.mp hb]
        exact fun hab => hy (hab ▸ ha)⟩

@[simp] theorem on_push : (m.push k ys).On k' a ↔ m.On k' a ∨ k' = k ∧ a ∈ ys := by
  rw [push, on_set]
  split
  · rename_i h
    subst h
    rw [mem_pushNew, ← on_iff_getD]
    simp
  · rename_i h
    simp [h]

namespace Partition

theorem on_removeEverywhere (h : m.Partition) :
    (m.removeEverywhere a).On k b ↔ m.On k b ∧ b ≠ a := by
  unfold On removeEverywhere
  rw [OrderedMap.get_map]
  cases hget : m.get k with
  | none => simp
  | some xs => simp [(h.nodup k xs hget).mem_erase_iff, and_comm]

theorem removeEverywhere (h : m.Partition) : (m.removeEverywhere a).Partition where
  nodup k xs hget := by
    rw [Buckets.removeEverywhere, OrderedMap.get_map] at hget
    obtain ⟨ys, hys, rfl⟩ := Option.map_eq_some_iff.mp hget
    exact (h.nodup k ys hys).erase a
  one k k' b hb hb' := h.one k k' b (h.on_removeEverywhere.mp hb).1 (h.on_removeEverywhere.mp hb').1

theorem on_takeFrom (h : m.Partition) :
    (m.takeFrom k a).On k' b ↔ m.On k' b ∧ ¬ (k' = k ∧ b = a) := by
  unfold On takeFrom
  rw [OrderedMap.get_map]
  cases hget : m.get k' with
  | none => simp
  | some xs =>
    by_cases hk : k' = k
    · simp [hk, (h.nodup k' xs hget).mem_erase_iff, and_comm]
    · simp [hk]

theorem takeFrom (h : m.Partition) : (m.takeFrom k a).Partition where
  nodup k' xs hget := by
    rw [Buckets.takeFrom, OrderedMap.get_map] at hget
    obtain ⟨ys, hys, rfl⟩ := Option.map_eq_some_iff.mp hget
    split
    · exact (h.nodup k' ys hys).erase a
    · exact h.nodup k' ys hys
  one k' k'' b hb hb' := h.one k' k'' b (h.on_takeFrom.mp hb).1 (h.on_takeFrom.mp hb').1

theorem push (h : m.Partition) (hown : ∀ a ∈ ys, ∀ k', m.On k' a → k' = k) :
    (m.push k ys).Partition := by
  refine h.set (nodup_pushNew h.nodup_getD) fun a ha k' hk' => ?_
  rcases mem_pushNew.mp ha with ha | ha
  · exact h.one k' k a hk' (on_iff_getD.mpr ha)
  · exact hown a ha k' hk'

theorem removeAll (h : m.Partition) : (ys.foldl Buckets.removeEverywhere m).Partition ∧
    ∀ k a, (ys.foldl Buckets.removeEverywhere m).On k a ↔ m.On k a ∧ a ∉ ys := by
  induction ys generalizing m with
  | nil => exact ⟨h, fun k a => by simp⟩
  | cons y ys ih =>
    obtain ⟨hpartition, hon⟩ := ih h.removeEverywhere
    refine ⟨hpartition, fun k a => ?_⟩
    rw [List.foldl_cons, hon, h.on_removeEverywhere, List.mem_cons, not_or, and_assoc]

theorem moveTo (h : m.Partition) : (m.moveTo ys k).Partition :=
  h.removeAll.1.push fun a ha k' hk' => absurd ha ((h.removeAll.2 k' a).mp hk').2

theorem on_moveTo (h : m.Partition) :
    (m.moveTo ys k).On k' a ↔ if a ∈ ys then k' = k else m.On k' a := by
  rw [Buckets.moveTo, on_push, h.removeAll.2]
  by_cases ha : a ∈ ys <;> simp [ha]

end Partition

end

end Buckets
