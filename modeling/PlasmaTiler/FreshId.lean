import Mathlib.Data.List.Nodup
import Mathlib.Data.List.Perm.Subperm
import Std.Data.String.ToNat
import PlasmaTiler.Ids

/-!
# Minting node ids

Every generator of the session formats a base text, takes it when no node has
it yet, and otherwise counts `base-1`, `base-2`, … up to the first free one.
The search is over as many numbers as there are ids plus one, so by counting
one of them is free: the numbered texts are pairwise distinct, and a list
does not hold more texts than it is long.

The source loops without a bound; the bound here is one the loop never gets
to.
-/

namespace PlasmaTiler

/-- The first of a family of names that is no existing id. -/
def firstFree (name : Nat → NodeId) (existing : BTreeSet NodeId) : NodeId :=
  (((List.range (existing.size + 1)).map name).find? (· ∉ existing)).getD (name 0)

/-- The `n`-th numbered candidate, counted from one. -/
def numbered (base : String) (n : Nat) : NodeId := ⟨base ++ ("-" ++ toString (n + 1))⟩

/-- The base text, or its first numbered variant, that is no existing id. -/
def freshId (base : String) (existing : BTreeSet NodeId) : NodeId :=
  if ⟨base⟩ ∈ existing then firstFree (numbered base) existing else ⟨base⟩

section
variable {base : String} {existing : BTreeSet NodeId} {m n : Nat} {name : Nat → NodeId}

theorem exists_name_not_mem (hname : name.Injective) (existing : BTreeSet NodeId) :
    ∃ n ∈ List.range (existing.size + 1), name n ∉ existing := by
  refine Classical.byContradiction fun h => ?_
  have hall : ∀ n ∈ List.range (existing.size + 1), name n ∈ existing := fun n hn =>
    Classical.byContradiction fun hmem => h ⟨n, hn, hmem⟩
  have hnodup : ((List.range (existing.size + 1)).map name).Nodup :=
    List.Nodup.map hname List.nodup_range
  have hsub : (List.range (existing.size + 1)).map name ⊆ existing.toList := by
    intro i hi
    obtain ⟨n, hn, rfl⟩ := List.mem_map.mp hi
    exact Std.ExtTreeSet.mem_toList.mpr (hall n hn)
  have hlen := (hnodup.subperm hsub).length_le
  rw [List.length_map, List.length_range, Std.ExtTreeSet.length_toList] at hlen
  omega

/-- The search finds one of its names, and a free one. -/
theorem firstFree_spec (hname : name.Injective) (existing : BTreeSet NodeId) :
    firstFree name existing ∉ existing ∧ ∃ n, firstFree name existing = name n := by
  obtain ⟨n, hn, hfree⟩ := exists_name_not_mem hname existing
  unfold firstFree
  cases hfind : ((List.range (existing.size + 1)).map name).find? (· ∉ existing) with
  | none =>
    rw [List.find?_eq_none] at hfind
    exact absurd (by simpa using hfree) (hfind _ (List.mem_map_of_mem hn))
  | some i =>
    have hi := List.find?_some hfind
    obtain ⟨m, -, rfl⟩ := List.mem_map.mp (List.mem_of_find?_eq_some hfind)
    exact ⟨by simpa using hi, m, rfl⟩

theorem numbered_inj : numbered base m = numbered base n ↔ m = n := by
  constructor
  · intro h
    have hraw := congrArg Id.raw h
    simp only [numbered, String.append_right_inj] at hraw
    exact Nat.succ.inj (Nat.repr_inj.mp hraw)
  · rintro rfl
    rfl

/-- What the search returns: the base text, or a numbered variant when the
base is taken; never an existing id. -/
theorem freshId_cases (base : String) (existing : BTreeSet NodeId) :
    freshId base existing ∉ existing ∧
      (freshId base existing = ⟨base⟩ ∨
        (⟨base⟩ ∈ existing ∧ ∃ n, freshId base existing = numbered base n)) := by
  unfold freshId
  split
  · rename_i hbase
    have hinj : (numbered base).Injective := fun _ _ => numbered_inj.mp
    obtain ⟨hfree, n, hn⟩ := firstFree_spec hinj existing
    exact ⟨hfree, .inr ⟨hbase, n, hn⟩⟩
  · exact ⟨‹_›, .inl rfl⟩

theorem freshId_not_mem : freshId base existing ∉ existing := (freshId_cases base existing).1

/-- A minted id starts with its base. -/
theorem freshId_raw (base : String) (existing : BTreeSet NodeId) :
    ∃ rest, (freshId base existing).raw = base ++ rest ∧
      (rest = "" ∨ ∃ n : Nat, rest = "-" ++ toString (n + 1)) := by
  rcases (freshId_cases base existing).2 with h | ⟨-, n, h⟩
  · exact ⟨"", by rw [h]; simp, .inl rfl⟩
  · exact ⟨_, by rw [h]; rfl, .inr ⟨n, rfl⟩⟩

theorem freshId_isEmpty (h : base ≠ "") : (freshId base existing).isEmpty = false := by
  obtain ⟨rest, hraw, -⟩ := freshId_raw base existing
  rw [Id.isEmpty, hraw]
  simp [h]

end

end PlasmaTiler
