import PlasmaTiler.Checked

/-!
# How a computation can end

Long chains of checks are easy to write with `do` and hard to speak about
afterwards: to say which errors a function can end with one would have to
split every guard. Two predicates make it compositional.

`FailsWith P x` says that whatever error `x` ends with is `P`. A sequence
fails as its parts do, a guard as its own error says, so a chain is gone
through check by check. `Except.isOk` is the counterpart for success: a
sequence succeeds when its parts do, and a guard when its condition holds;
the lemmas for it are equivalences and rewrite a whole chain into the
conjunction of its conditions.
-/

namespace PlasmaTiler

/-- Every error the computation can end with is `P`. -/
def FailsWith {ε α : Type} (P : ε → Prop) (x : Except ε α) : Prop := ∀ e, x = .error e → P e

section
variable {ε α β : Type} {P : ε → Prop} {x : Except ε α} {f : α → Except ε β} {e : ε}

theorem failsWith_ok {a : α} : FailsWith P (.ok a : Except ε α) := fun _ h => by cases h

theorem failsWith_pure {a : α} : FailsWith P (pure a : Except ε α) := failsWith_ok

theorem failsWith_error (h : P e) : FailsWith P (.error e : Except ε α) := by
  rintro _ ⟨⟩
  exact h

theorem FailsWith.bind (hx : FailsWith P x) (hf : ∀ a, FailsWith P (f a)) :
    FailsWith P (x >>= f) := by
  cases x with
  | error e => exact failsWith_error (hx e rfl)
  | ok a => exact hf a

theorem failsWith_ensure {c : Bool} (h : P e) : FailsWith P (ensure c e) := by
  cases c with
  | false => exact failsWith_error h
  | true => exact failsWith_ok

theorem failsWith_okOr {o : Option α} (h : P e) : FailsWith P (okOr e o) := by
  cases o with
  | none => exact failsWith_error h
  | some a => exact failsWith_ok

/-- A guard before a computation. -/
theorem FailsWith.guarded {c : Bool} (hx : FailsWith P x) (h : P e) :
    FailsWith P (ensure c e >>= fun _ => x) :=
  (failsWith_ensure h).bind fun _ => hx

theorem FailsWith.mapM {l : List α} (hf : ∀ a, FailsWith P (f a)) : FailsWith P (l.mapM f) := by
  induction l with
  | nil => exact failsWith_pure
  | cons a l ih =>
    rw [List.mapM_cons]
    exact (hf a).bind fun _ => ih.bind fun _ => failsWith_pure

theorem FailsWith.optionMapM {o : Option α} (hf : ∀ a, FailsWith P (f a)) :
    FailsWith P (o.mapM f) := by
  cases o with
  | none => exact failsWith_pure
  | some a =>
    intro e he
    rcases hfa : f a with e' | b
    · simp only [Option.mapM_some, hfa] at he
      cases he
      exact hf a _ hfa
    · simp only [Option.mapM_some, hfa] at he
      cases he

/-! ## Success -/

theorem ok_bind {a : α} : ((.ok a : Except ε α) >>= f) = f a := rfl

theorem isOk_iff : x.isOk = true ↔ ∃ a, x = .ok a := by
  cases x with
  | error e => simp [Except.isOk, Except.toBool]
  | ok a => simp [Except.isOk, Except.toBool]

theorem isOk_bind : (x >>= f).isOk = true ↔ ∃ a, x = .ok a ∧ (f a).isOk = true := by
  cases x with
  | error e => simp [bind, Except.bind, Except.isOk, Except.toBool]
  | ok a => simp [bind, Except.bind]

/-- A check before a computation. -/
theorem isOk_check {c : Except ε Unit} :
    (c >>= fun _ => x).isOk = true ↔ c.isOk = true ∧ x.isOk = true := by
  cases c with
  | error e => simp [bind, Except.bind, Except.isOk, Except.toBool]
  | ok u => simp [bind, Except.bind, Except.isOk, Except.toBool]

@[simp] theorem isOk_ensure {c : Bool} : (ensure c e).isOk = c := by
  cases c with
  | false => rfl
  | true => rfl

@[simp] theorem isOk_okOr {o : Option α} : (okOr e o).isOk = o.isSome := by
  cases o with
  | none => rfl
  | some a => rfl

@[simp] theorem isOk_pure {a : α} : (pure a : Except ε α).isOk = true := rfl

@[simp] theorem isOk_ok {a : α} : (.ok a : Except ε α).isOk = true := rfl

end

end PlasmaTiler
