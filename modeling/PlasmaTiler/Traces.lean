import PlasmaTiler.Runs

/-!
# Traces of a machine

A machine whose operations may emit an event leaves a trace behind. An
automaton over the events, partial where an event must not occur, accepts the
trace of every run once every single operation moves the machine's phase the
way the automaton does (`Simulates`), or emits nothing and keeps it.

So a protocol is stated as an automaton that knows nothing of the machine,
and the proof is one case analysis of an operation. Counting is the other
rule: a counter that every operation raises by the weight of its event counts
the trace.
-/

namespace PlasmaTiler

/-- A machine whose operations emit at most one event each. -/
structure Emitter (σ ω η : Type) where
  step : σ → ω → σ × Option η

namespace Emitter

variable {σ ω η φ : Type} {E : Emitter σ ω η} {δ : φ → η → Option φ} {phase : σ → φ} {s : σ}
  {ops : List ω}

/-- The state after a sequence of operations. -/
def run (E : Emitter σ ω η) (s : σ) (ops : List ω) : σ := ops.foldl (fun s op => (E.step s op).1) s

/-- The events a sequence of operations emits, in order. -/
def trace (E : Emitter σ ω η) (s : σ) : List ω → List η
  | [] => []
  | op :: ops => (E.step s op).2.toList ++ E.trace (E.step s op).1 ops

@[simp] theorem run_nil : E.run s [] = s := rfl

@[simp] theorem run_cons {op : ω} : E.run s (op :: ops) = E.run (E.step s op).1 ops := rfl

/-- What every operation preserves holds along the run. -/
theorem run_preserves {I : σ → Prop} (hI : ∀ s op, I s → I (E.step s op).1) (h : I s)
    (ops : List ω) : I (E.run s ops) := by
  induction ops generalizing s with
  | nil => exact h
  | cons op ops ih => exact ih (hI s op h)

/-- Every operation moves the phase the way the automaton moves on its
event. -/
def Simulates (E : Emitter σ ω η) (δ : φ → η → Option φ) (phase : σ → φ) : Prop :=
  ∀ s op, match (E.step s op).2 with
    | none => phase (E.step s op).1 = phase s
    | some e => δ (phase s) e = some (phase (E.step s op).1)

/-- The automaton accepts the trace of every run. -/
theorem Simulates.accepts (h : Simulates E δ phase) (s : σ) (ops : List ω) :
    (E.trace s ops).foldlM δ (phase s) = some (phase (E.run s ops)) := by
  induction ops generalizing s with
  | nil => rfl
  | cons op ops ih =>
    have hstep := h s op
    rw [trace, List.foldlM_append, run_cons]
    cases hevent : (E.step s op).2 with
    | none =>
      rw [hevent] at hstep
      simp only [Option.toList_none, List.foldlM_nil, pure_bind]
      rw [← hstep]
      exact ih _
    | some e =>
      rw [hevent] at hstep
      simp only [Option.toList_some, List.foldlM_cons, List.foldlM_nil, bind_pure, hstep]
      exact ih _

/-- A counter that every operation raises by the weight of its event counts
the trace. -/
theorem run_counts {count : σ → Nat} {weight : η → Bool} {I : σ → Prop}
    (hI : ∀ s op, I s → I (E.step s op).1)
    (h : ∀ s op, I s → count (E.step s op).1 =
      count s + (E.step s op).2.toList.countP weight) (hs : I s) (ops : List ω) :
    count (E.run s ops) = count s + (E.trace s ops).countP weight := by
  induction ops generalizing s with
  | nil => rfl
  | cons op ops ih =>
    rw [run_cons, ih (hI s op hs), h s op hs, trace, List.countP_append, Nat.add_assoc]

end Emitter

end PlasmaTiler
