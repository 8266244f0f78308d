import Std.Data.ExtTreeSet
import Mathlib.Algebra.Order.Ring.Int

/-!
# Checked machine arithmetic

Machine integers are mathematical ones, and every operation the code makes
checked is a range test on the exact result: `none` is the overflow branch.
Saturating operations clamp instead. What is never checked in the source is
plain arithmetic here, and where it could wrap there is a lemma that it does
not.

The second half are guards and conversions of fallible steps, with the
equations that take a chain of them apart.
-/

namespace PlasmaTiler

/-- The range of one integer type. -/
structure IntRange where
  lo : Int
  hi : Int
deriving DecidableEq, Repr

namespace IntRange

def i32 : IntRange := ⟨-2147483648, 2147483647⟩
def i64 : IntRange := ⟨-9223372036854775808, 9223372036854775807⟩

/-- `try_from` / a checked operation: the exact result when it is in range. -/
def check (r : IntRange) (n : Int) : Option Int :=
  if r.lo ≤ n ∧ n ≤ r.hi then some n else none

/-- A checked addition of two values of the type. Operands outside the type's
range are no values of it, so they have no sum either. -/
def checkedAdd (r : IntRange) (m n : Int) : Option Int :=
  (r.check m).bind fun m => (r.check n).bind fun n => r.check (m + n)

/-- A saturating operation: the exact result clamped into range. -/
def saturate (r : IntRange) (n : Int) : Int := max r.lo (min r.hi n)

variable {r : IntRange} {m n : Int}

theorem check_eq_some : r.check n = some m ↔ m = n ∧ r.lo ≤ n ∧ n ≤ r.hi := by
  unfold check
  split <;> simp_all [eq_comm]

theorem isSome_checkedAdd : (r.checkedAdd m n).isSome = true ↔
    (r.lo ≤ m ∧ m ≤ r.hi) ∧ (r.lo ≤ n ∧ n ≤ r.hi) ∧ r.lo ≤ m + n ∧ m + n ≤ r.hi := by
  simp only [checkedAdd, Option.isSome_iff_exists, Option.bind_eq_some_iff, check_eq_some]
  constructor
  · rintro ⟨_, _, ⟨rfl, hm⟩, _, ⟨rfl, hn⟩, -, hsum⟩
    exact ⟨hm, hn, hsum⟩
  · rintro ⟨hm, hn, hsum⟩
    exact ⟨_, m, ⟨rfl, hm⟩, n, ⟨rfl, hn⟩, rfl, hsum⟩

end IntRange

/-- The number of `u64` values. -/
def u64Size : Nat := 18446744073709551616

/-- A checked `u64` operation. -/
def checkU64 (n : Nat) : Option Nat := if n < u64Size then some n else none

theorem checkU64_eq_some {m n : Nat} : checkU64 n = some m ↔ m = n ∧ n < u64Size := by
  unfold checkU64
  split <;> simp_all [eq_comm]

/-- The running total every share loop computes, `none` once it overflows. -/
def checkedTotalFrom (total : Nat) : List Nat → Option Nat
  | [] => some total
  | share :: shares => (checkU64 (total + share)).bind fun total => checkedTotalFrom total shares

/-- Checked sum of a share vector. -/
def checkedTotal (shares : List Nat) : Option Nat := checkedTotalFrom 0 shares

theorem checkedTotalFrom_eq_some {total t : Nat} {shares : List Nat} :
    checkedTotalFrom total shares = some t ↔
      t = total + shares.sum ∧ (shares = [] ∨ total + shares.sum < u64Size) := by
  induction shares generalizing total with
  | nil => simp [checkedTotalFrom, eq_comm]
  | cons s shares ih =>
    simp only [checkedTotalFrom, Option.bind_eq_some_iff, checkU64_eq_some, ih, List.sum_cons]
    constructor
    · rintro ⟨_, ⟨rfl, hlt⟩, rfl, hsum⟩
      refine ⟨by omega, Or.inr ?_⟩
      rcases hsum with rfl | hsum
      · simpa using hlt
      · omega
    · rintro ⟨rfl, hsum⟩
      have hlt : total + (s + shares.sum) < u64Size := by simpa using hsum
      exact ⟨total + s, ⟨rfl, by omega⟩, by omega, Or.inr (by omega)⟩

theorem checkedTotal_eq_some {t : Nat} {shares : List Nat} :
    checkedTotal shares = some t ↔ t = shares.sum ∧ shares.sum < u64Size := by
  rw [checkedTotal, checkedTotalFrom_eq_some]
  constructor
  · rintro ⟨rfl, rfl | h⟩
    · exact ⟨by simp, by simp [u64Size]⟩
    · exact ⟨by simp, by simpa using h⟩
  · rintro ⟨rfl, h⟩
    exact ⟨by simp, Or.inr (by simpa using h)⟩

/-! ## Fallible steps -/

/-- `ok_or`: a missing value becomes the given error. -/
def okOr {ε α : Type} (e : ε) : Option α → Except ε α
  | some a => .ok a
  | none => .error e

/-- A guard that fails with the given error. -/
def ensure {ε : Type} (c : Bool) (e : ε) : Except ε Unit :=
  if c then .ok () else .error e

/-- A guard on an optional result. -/
def require (c : Bool) : Option Unit := if c then some () else none

section
variable {ε α β : Type} {e : ε} {c : Bool}

@[simp] theorem require_true : require true = some () := rfl

@[simp] theorem require_false : require false = none := rfl

theorem require_eq_some {u : Unit} : require c = some u ↔ c = true := by
  cases c <;> simp

@[simp] theorem okOr_some (a : α) : okOr e (some a) = .ok a := rfl

@[simp] theorem okOr_none : okOr e (none : Option α) = .error e := rfl

theorem okOr_eq_ok {o : Option α} {a : α} : okOr e o = .ok a ↔ o = some a := by
  cases o <;> simp

@[simp] theorem ensure_true : ensure true e = .ok () := rfl

@[simp] theorem ensure_false : ensure false e = .error e := rfl

theorem ensure_eq_ok {u : Unit} : ensure c e = .ok u ↔ c = true := by
  cases c <;> simp

/-- A sequenced computation succeeds exactly when both parts do. -/
theorem bind_eq_ok {x : Except ε α} {f : α → Except ε β} {b : β} :
    (x >>= f) = .ok b ↔ ∃ a, x = .ok a ∧ f a = .ok b := by
  cases x <;> simp [bind, Except.bind]

theorem mapError_eq_ok {ε' : Type} {f : ε → ε'} {x : Except ε α} {a : α} :
    x.mapError f = .ok a ↔ x = .ok a := by
  cases x with
  | error e => exact ⟨(fun h => by cases h), (fun h => by cases h)⟩
  | ok b => exact ⟨(fun h => by cases h; rfl), (fun h => by cases h; rfl)⟩

theorem map_eq_ok {f : α → β} {x : Except ε α} {b : β} :
    x.map f = .ok b ↔ ∃ a, x = .ok a ∧ f a = b := by
  cases x <;> simp [Except.map]

theorem map_map {γ : Type} {f : α → β} {g : β → γ} {x : Except ε α} :
    (x.map f).map g = x.map fun a => g (f a) := by
  cases x <;> rfl

theorem toOption_eq_ok {x : Except ε α} {a : α} : x.toOption = some a ↔ x = .ok a := by
  cases x <;> simp [Except.toOption]

theorem pure_eq_ok {a b : α} : (pure a : Except ε α) = .ok b ↔ a = b := by
  simp [pure, Except.pure]

end

end PlasmaTiler
