import Mathlib.Data.List.Sort

/-!
# The first of a sort

Sorting by a comparator and taking the first element picks one that no other
precedes. Where the comparator tells the elements apart there is only one
such element, whatever order they came in. So a choice made by sorting is a
function of the set of candidates.
-/

namespace PlasmaTiler

section
variable {α : Type} {cmp : α → α → Ordering} {l : List α} {a : α}

/-- A stable sort by a comparator. -/
def sortBy (cmp : α → α → Ordering) (l : List α) : List α :=
  l.insertionSort fun a b => (cmp a b).isLE = true

/-- The element comes before every other element of the list, so a choice of
the least is a choice of this one. -/
def First (cmp : α → α → Ordering) (l : List α) (a : α) : Prop :=
  a ∈ l ∧ ∀ b ∈ l, b ≠ a → cmp a b = .lt

theorem mem_sortBy : a ∈ sortBy cmp l ↔ a ∈ l := List.mem_insertionSort _

/-- The comparison tells the elements of the list apart. Sorting by it then
puts the first element, of which there is one at most, at the head. -/
def Separates (cmp : α → α → Ordering) (l : List α) : Prop :=
  ∀ a ∈ l, ∀ b ∈ l, cmp a b = .eq → a = b

variable [Std.TransCmp cmp]

theorem pairwise_sortBy : (sortBy cmp l).Pairwise fun a b => (cmp a b).isLE = true := by
  have : IsTrans α fun a b => (cmp a b).isLE = true := ⟨fun _ _ _ => Std.TransCmp.isLE_trans⟩
  have : Std.Total fun a b : α => (cmp a b).isLE = true := by
    refine ⟨fun a b => ?_⟩
    by_cases hle : (cmp a b).isLE = true
    · exact .inl hle
    · exact .inr (by rw [Std.OrientedCmp.lt_of_not_isLE hle]; rfl)
  exact List.pairwise_insertionSort _ _

/-- At most one element is the first. -/
theorem First.unique {b : α} (ha : First cmp l a) (hb : First cmp l b) : a = b := by
  by_contra hne
  have hab := ha.2 b hb.1 (Ne.symm hne)
  have hba := hb.2 a ha.1 hne
  rw [@Std.OrientedCmp.eq_swap _ cmp, hab] at hba
  cases hba

theorem head?_sortBy (hsep : Separates cmp l) : (sortBy cmp l).head? = some a ↔ First cmp l a := by
  have hfirst : ∀ c, (sortBy cmp l).head? = some c → First cmp l c := by
    intro c hc
    obtain ⟨rest, hsorted⟩ := List.head?_eq_some_iff.mp hc
    have hmem : c ∈ l := mem_sortBy.mp (hsorted ▸ List.mem_cons_self)
    refine ⟨hmem, fun b hb hne => ?_⟩
    have hin : b ∈ c :: rest := hsorted ▸ mem_sortBy.mpr hb
    have hle : (cmp c b).isLE = true := by
      have hpairwise := @pairwise_sortBy _ cmp l _
      rw [hsorted] at hpairwise
      exact (List.pairwise_cons.mp hpairwise).1 b ((List.mem_cons.mp hin).resolve_left hne)
    rcases Ordering.isLE_iff_eq_lt_or_eq_eq.mp hle with hlt | heq
    · exact hlt
    · exact absurd (hsep c hmem b hb heq).symm hne
  refine ⟨hfirst a, fun h => ?_⟩
  cases hhead : (sortBy cmp l).head? with
  | none =>
    have hnil : sortBy cmp l = [] := List.head?_eq_none_iff.mp hhead
    have hin : a ∈ sortBy cmp l := mem_sortBy.mpr h.1
    rw [hnil] at hin
    cases hin
  | some c => rw [(hfirst c hhead).unique h]

end

end PlasmaTiler
