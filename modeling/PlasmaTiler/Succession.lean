import Mathlib.Data.List.Chain

/-!
# Displacement

A register holds one value and takes another exactly when that one is newer.
Where of two different values exactly one is newer, a value that was
displaced can only be taken again over a cycle of three values: if newness is
transitive on the values taken, each is newer than all before it; and if it
is not, there are three that are newer than one another in a circle.

Nothing is assumed of the values but that of two different ones exactly one
is newer (`Displacement`).
-/

namespace PlasmaTiler

/-- Of two different values exactly one is newer, as one asks of the marks by
which later messages displace earlier ones; transitivity is left open. -/
structure Displacement {α : Type} (newer : α → α → Bool) : Prop where
  irrefl : ∀ a, newer a a = false
  asymm : ∀ a b, newer a b = true → newer b a = false
  total : ∀ a b, a ≠ b → newer a b = true ∨ newer b a = true

/-- Each value of the list is newer than the one taken before it: this is what
a stream that takes newer values only has taken. -/
def Succession {α : Type} (newer : α → α → Bool) : List α → Prop :=
  List.IsChain fun old new => newer new old = true

/-- A value was taken, displaced by another one, and taken again, so what came
later did not settle the matter. -/
def ComesBack {α : Type} (values : List α) : Prop :=
  ∃ c d, c ≠ d ∧ [c, d, c].Sublist values

/-- Each of three values is newer than the next one round. Such a circle is
what a displacement that is not transitive has. -/
def Cyclic {α : Type} (newer : α → α → Bool) (a b c : α) : Prop :=
  newer a b = true ∧ newer b c = true ∧ newer c a = true

section
variable {α : Type} {newer : α → α → Bool} {S : α → Prop} {values : List α} {a b c : α}

/-- Without cycles newness is transitive. -/
theorem Displacement.trans (h : Displacement newer)
    (hS : ∀ a b c, S a → S b → S c → ¬Cyclic newer a b c) (ha : S a) (hb : S b) (hc : S c)
    (hab : newer a b = true) (hbc : newer b c = true) : newer a c = true := by
  have hne : a ≠ c := by
    rintro rfl
    rw [h.asymm a b hab] at hbc
    cases hbc
  rcases h.total a c hne with hac | hca
  · exact hac
  · exact absurd ⟨hab, hbc, hca⟩ (hS a b c ha hb hc)

theorem Succession.pairwise (hsucc : Succession newer values) (h : Displacement newer)
    (hS : ∀ a b c, S a → S b → S c → ¬Cyclic newer a b c) (hvalues : ∀ v ∈ values, S v) :
    values.Pairwise fun old new => newer new old = true := by
  induction values with
  | nil => exact List.Pairwise.nil
  | cons x values ih =>
    obtain ⟨hx, hrest⟩ := List.forall_mem_cons.mp hvalues
    cases values with
    | nil => exact List.pairwise_singleton _ _
    | cons y values =>
      obtain ⟨hyx, hsucc⟩ := List.isChain_cons_cons.mp hsucc
      have hpairs := ih hsucc hrest
      refine List.pairwise_cons.mpr ⟨fun z hz => ?_, hpairs⟩
      rcases List.mem_cons.mp hz with rfl | hz
      · exact hyx
      · have hzy := List.rel_of_pairwise_cons hpairs hz
        exact h.trans hS (hrest z (.tail _ hz)) (hrest y (.head _)) hx hzy hyx

/-- Without cycles no value comes back. -/
theorem Succession.not_comesBack (hsucc : Succession newer values) (h : Displacement newer)
    (hS : ∀ a b c, S a → S b → S c → ¬Cyclic newer a b c) (hvalues : ∀ v ∈ values, S v) :
    ¬ComesBack values := by
  rintro ⟨c, d, -, hsub⟩
  have hpairs := (hsucc.pairwise h hS hvalues).sublist hsub
  have hcc : newer c c = true := List.rel_of_pairwise_cons hpairs (by simp)
  rw [h.irrefl c] at hcc
  cases hcc

theorem Cyclic.rotate (h : Cyclic newer a b c) : Cyclic newer b c a := ⟨h.2.1, h.2.2, h.1⟩

/-- Over a cycle one does. -/
theorem Cyclic.succession (h : Cyclic newer a b c) : Succession newer [a, c, b, a] := by
  obtain ⟨hab, hbc, hca⟩ := h
  simp [Succession, hab, hbc, hca]

theorem Cyclic.comesBack (h : Cyclic newer a b c) (hnewer : Displacement newer) :
    ComesBack [a, c, b, a] := by
  refine ⟨a, c, ?_, by simp⟩
  rintro rfl
  have haa := h.2.2
  rw [hnewer.irrefl] at haa
  cases haa

end

end PlasmaTiler
