import Mathlib.Data.List.Nodup

/-!
# Passes over a list

A pass is a fold of a step over a list, total or fallible. `Folded R c l c'`
says that `c'` is what a pass leads to whose step at `i` is `R · i ·`; the
folds of the libraries are instances, and so is any loop that visits the
entries of a collection in turn.

Three rules do the work of an induction over the list. What every step
preserves survives the pass. A step that reads and writes the view of its own
key only, acts on each key once, so that a pass over many entries can be
followed one entry at a time. And a pass all whose steps keep a state keeps
it.

Nothing is assumed of the states; a view is any function from keys that the
steps are local to.
-/

namespace PlasmaTiler

variable {σ ι κ V ε : Type}

/-- The states a pass leads to. -/
inductive Folded (R : σ → ι → σ → Prop) : σ → List ι → σ → Prop
  | nil {c : σ} : Folded R c [] c
  | cons {c c₁ c₂ : σ} {i : ι} {l : List ι} (h : R c i c₁) (hrest : Folded R c₁ l c₂) :
      Folded R c (i :: l) c₂

section
variable {R : σ → ι → σ → Prop} {c c' : σ} {l : List ι}

theorem folded_foldl {f : σ → ι → σ} : Folded (fun c i c' => f c i = c') c l (l.foldl f c) := by
  induction l generalizing c with
  | nil => exact .nil
  | cons i l ih => exact .cons rfl ih

theorem folded_of_foldlM_some {f : σ → ι → Option σ} (h : l.foldlM f c = some c') :
    Folded (fun c i c' => f c i = some c') c l c' := by
  induction l generalizing c with
  | nil =>
    cases h
    exact .nil
  | cons i l ih =>
    obtain ⟨c₁, hhead, hrest⟩ := Option.bind_eq_some_iff.mp (List.foldlM_cons.symm.trans h)
    exact .cons hhead (ih hrest)

theorem folded_of_foldlM_ok {f : σ → ι → Except ε σ} (h : l.foldlM f c = .ok c') :
    Folded (fun c i c' => f c i = .ok c') c l c' := by
  induction l generalizing c with
  | nil =>
    cases h
    exact .nil
  | cons i l ih =>
    rw [List.foldlM_cons] at h
    cases hhead : f c i with
    | error e =>
      rw [hhead] at h
      cases h
    | ok c₁ =>
      rw [hhead] at h
      exact .cons hhead (ih h)

/-! ## What every step preserves -/

/-- The invariant rule; the step may use that its item is in the list. -/
theorem Folded.preserves {P : σ → Prop} (h : Folded R c l c')
    (hstep : ∀ c i c', i ∈ l → R c i c' → P c → P c') (hc : P c) : P c' := by
  induction h with
  | nil => exact hc
  | cons hhead _ ih =>
    exact ih (fun c i c' hi => hstep c i c' (List.mem_cons_of_mem _ hi))
      (hstep _ _ _ List.mem_cons_self hhead hc)

/-- A pass that changes nothing but at one item acts as its step there. -/
theorem Folded.once {i : ι} (h : Folded R c l c') (hnodup : l.Nodup) (hi : i ∈ l)
    (hbefore : ∀ j ∈ l, j ≠ i → ∀ c₁, R c j c₁ → c₁ = c)
    (hafter : ∀ c₁, R c i c₁ → ∀ j ∈ l, j ≠ i → ∀ c₂, R c₁ j c₂ → c₂ = c₁) : R c i c' := by
  induction h with
  | nil => cases hi
  | @cons c c₁ c₂ j l hhead hrest ih =>
    obtain ⟨hfresh, hnodup⟩ := List.nodup_cons.mp hnodup
    rcases List.mem_cons.mp hi with rfl | hi
    · have hkept : c₂ = c₁ := by
        refine hrest.preserves (P := fun c => c = c₁) (fun a k b hk hstep ha => ?_) rfl
        subst ha
        refine hafter _ hhead k (List.mem_cons_of_mem _ hk) ?_ b hstep
        rintro rfl
        exact hfresh hk
      exact hkept ▸ hhead
    · have hne : j ≠ i := by
        rintro rfl
        exact hfresh hi
      obtain rfl := hbefore j List.mem_cons_self hne c₁ hhead
      exact ih hnodup hi (fun k hk => hbefore k (List.mem_cons_of_mem _ hk))
        fun a ha k hk => hafter a ha k (List.mem_cons_of_mem _ hk)

/-! ## Passes that act key by key -/

/-- The step at an item of `l` changes the view of that item's key by the
effect of the item, and no other view. -/
def Local (R : σ → ι → σ → Prop) (l : List ι) (view : σ → κ → V) (key : ι → κ)
    (effect : ι → V → V) : Prop :=
  ∀ i ∈ l, ∀ c c', R c i c' →
    view c' (key i) = effect i (view c (key i)) ∧ ∀ k, key i ≠ k → view c' k = view c k

variable {view : σ → κ → V} {key : ι → κ} {effect : ι → V → V} {i : ι} {k : κ}

/-- A pass leaves the keys it does not visit. -/
theorem Folded.view_of_not_mem (hlocal : Local R l view key effect) (h : Folded R c l c')
    (hk : ∀ i ∈ l, key i ≠ k) : view c' k = view c k :=
  h.preserves (P := fun c' => view c' k = view c k)
    (fun c₁ i c₂ hi hR hc => ((hlocal i hi c₁ c₂ hR).2 k (hk i hi)).trans hc) rfl

/-- A pass acts once on each key it visits. -/
theorem Folded.view_of_mem (hlocal : Local R l view key effect) (h : Folded R c l c')
    (hnodup : (l.map key).Nodup) (hi : i ∈ l) :
    view c' (key i) = effect i (view c (key i)) := by
  induction h with
  | nil => cases hi
  | @cons c c₁ c₂ j l hhead hrest ih =>
    rw [List.map_cons, List.nodup_cons, List.mem_map, not_exists] at hnodup
    obtain ⟨hfresh, hnodup⟩ := hnodup
    have hlocalRest : Local R l view key effect := fun i hi =>
      hlocal i (List.mem_cons_of_mem _ hi)
    have hhere := hlocal j List.mem_cons_self _ _ hhead
    rcases List.mem_cons.mp hi with rfl | hi
    · rw [hrest.view_of_not_mem hlocalRest fun j hj heq => hfresh j ⟨hj, heq⟩]
      exact hhere.1
    · rw [ih hlocalRest hnodup hi, hhere.2 _ fun heq => hfresh i ⟨hi, heq.symm⟩]

end

/-! ## Passes that change nothing -/

section
variable {P : σ → Prop} {c : σ} {l : List ι}

theorem foldl_keeps {f : σ → ι → σ} (hstep : ∀ c, ∀ i ∈ l, P c → P (f c i)) (hc : P c) :
    P (l.foldl f c) :=
  folded_foldl.preserves (fun _ i _ hi heq hP => heq ▸ hstep _ i hi hP) hc

theorem foldlM_keeps {m : Type → Type} [Monad m] [LawfulMonad m] {f : σ → ι → m σ}
    (hstep : ∀ c, ∀ i ∈ l, P c → ∃ c', f c i = pure c' ∧ P c') (hc : P c) :
    ∃ c', l.foldlM f c = pure c' ∧ P c' := by
  induction l generalizing c with
  | nil => exact ⟨c, rfl, hc⟩
  | cons i l ih =>
    obtain ⟨c₁, hhead, hc₁⟩ := hstep c i List.mem_cons_self hc
    obtain ⟨c', hrest, hc'⟩ := ih (fun c i hi => hstep c i (List.mem_cons_of_mem _ hi)) hc₁
    exact ⟨c', by rw [List.foldlM_cons, hhead, pure_bind, hrest], hc'⟩

end

end PlasmaTiler
