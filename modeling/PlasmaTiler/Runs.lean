/-!
# Runs of a machine

A machine starts in one of its initial states and answers every operation
with a next state, whether or not the operation succeeded. What holds
initially and survives every operation holds of every reachable state;
`Invariant.strengthen` lets a later invariant be proved on the strength of an
earlier one.

Some properties hold only while the operations meet a condition that looks at
the state they are taken in. `Leads` is reachability by such steps, with its
own rule for what they preserve; `Meets` says the same of a list of
operations, so that a concrete run can be put in.
-/

namespace PlasmaTiler

/-- A machine is a set of initial states and the state every operation leads
to, a refused operation among them: its next state is the one it was refused
in. -/
structure Machine (σ ω : Type) where
  initial : σ → Prop
  next : σ → ω → σ

namespace Machine

variable {σ ω : Type} {M : Machine σ ω} {I J : σ → Prop} {s : σ} {ops more : List ω}

/-- The state after a sequence of operations. -/
def run (M : Machine σ ω) (s : σ) (ops : List ω) : σ := ops.foldl M.next s

@[simp] theorem run_nil : M.run s [] = s := rfl

@[simp] theorem run_cons {op : ω} : M.run s (op :: ops) = M.run (M.next s op) ops := rfl

/-- The states some run from an initial state ends in. A run may take any
operations in any order. -/
inductive Reachable (M : Machine σ ω) : σ → Prop
  | initial {s : σ} (h : M.initial s) : Reachable M s
  | next {s : σ} (h : Reachable M s) (op : ω) : Reachable M (M.next s op)

theorem Reachable.run (h : M.Reachable s) (ops : List ω) : M.Reachable (M.run s ops) := by
  induction ops generalizing s with
  | nil => exact h
  | cons op ops ih => exact ih (h.next op)

/-- What every operation preserves, whatever its arguments and its outcome;
this is the step half of an invariant. -/
def Preserved (M : Machine σ ω) (I : σ → Prop) : Prop := ∀ s op, I s → I (M.next s op)

theorem Preserved.run (hI : M.Preserved I) (h : I s) (ops : List ω) : I (M.run s ops) := by
  induction ops generalizing s with
  | nil => exact h
  | cons op ops ih => exact ih (hI s op h)

/-- An invariant holds initially and is preserved. `Reachable` then has it of
every state, by the one induction below. -/
structure Invariant (M : Machine σ ω) (I : σ → Prop) : Prop where
  initial : ∀ s, M.initial s → I s
  preserved : M.Preserved I

theorem Invariant.reachable (hI : M.Invariant I) (h : M.Reachable s) : I s := by
  induction h with
  | initial h => exact hI.initial _ h
  | next _ op ih => exact hI.preserved _ op ih

/-- A property that is preserved where an invariant already holds is an
invariant together with it. -/
theorem Invariant.strengthen (hI : M.Invariant I) (hinitial : ∀ s, M.initial s → J s)
    (hpreserved : ∀ s op, I s → J s → J (M.next s op)) :
    M.Invariant fun s => I s ∧ J s where
  initial s h := ⟨hI.initial s h, hinitial s h⟩
  preserved s op h := ⟨hI.preserved s op h.1, hpreserved s op h.1 h.2⟩

/-! ## Runs under a condition -/

/-- A run from a state whose steps all meet a condition leads here. The
condition may look at the state a step is taken in. -/
inductive Leads (M : Machine σ ω) (G : σ → ω → Prop) (s : σ) : σ → Prop
  | refl : Leads M G s s
  | next {t : σ} (h : Leads M G s t) {op : ω} (hop : G t op) : Leads M G s (M.next t op)

/-- What every step under the condition preserves. -/
theorem Leads.preserved {G : σ → ω → Prop} {t : σ} (h : M.Leads G s t) (hs : I s)
    (hI : ∀ t op, I t → G t op → I (M.next t op)) : I t := by
  induction h with
  | refl => exact hs
  | next _ hop ih => exact hI _ _ ih hop

/-- A run meets a condition when its operations do, one after the other, each
in the state the ones before it have led to. -/
def Meets (M : Machine σ ω) (G : σ → ω → Prop) : σ → List ω → Prop
  | _, [] => True
  | s, op :: ops => G s op ∧ Meets M G (M.next s op) ops

instance decidableMeets {G : σ → ω → Prop} [hG : ∀ s op, Decidable (G s op)] :
    ∀ (s : σ) (ops : List ω), Decidable (M.Meets G s ops)
  | _, [] => isTrue trivial
  | s, op :: ops => @instDecidableAnd _ _ (hG s op) (decidableMeets (M.next s op) ops)

theorem Leads.run {G : σ → ω → Prop} {t : σ} (h : M.Leads G s t) (hops : M.Meets G t ops) :
    M.Leads G s (M.run t ops) := by
  induction ops generalizing t with
  | nil => exact h
  | cons op ops ih => exact ih (h.next hops.1) hops.2

end Machine

end PlasmaTiler
