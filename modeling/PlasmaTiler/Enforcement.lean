import Mathlib.Algebra.Order.BigOperators.Group.List
import PlasmaTiler.HintedProjection

/-!
# Enforcement is exact

`enforceMinimums` raises sizes below their floors and takes the deficit from
those above, in proportion to what each can spare. It refuses when the floors
do not fit, and a second time when the takes have not found the deficit. The
question is whether that second refusal can happen to floors that fit.

The proportional takes are rounded down, so they never exceed the deficit;
what they leave of it is at most one unit for each entry whose part was
rounded, and such an entry has that unit to spare. So the remainder always
finds takers, the second refusal is never reached, and a donor gives its part
of the deficit to within a unit.

`enforceMinimums_exact` states both directions and what becomes of every
entry (`Enforced`).
-/

namespace PlasmaTiler

/-! ## The remainder finds takers -/

/-- The entry can give up another unit. -/
def CanSpare (taken : (Int × Int) × Int) : Bool := decide (taken.1.2 < taken.1.1 - taken.2)

theorem distributeRemaining_left {taken : List ((Int × Int) × Int)} {remaining : Int}
    (hnonneg : 0 ≤ remaining) (hle : remaining ≤ taken.countP CanSpare) :
    (distributeRemaining remaining taken).2 = 0 := by
  induction taken generalizing remaining with
  | nil =>
    simp only [List.countP_nil] at hle
    simp only [distributeRemaining]
    omega
  | cons first taken ih =>
    obtain ⟨entry, take⟩ := first
    rw [distributeRemaining]
    split
    · assumption
    · rename_i hsome
      rw [List.countP_cons] at hle
      split
      · rename_i hspare
        have hcan : CanSpare (entry, take) = true := decide_eq_true hspare
        rw [if_pos hcan] at hle
        exact ih (by omega) (by push_cast at hle; omega)
      · rename_i hspare
        rw [if_neg (by simpa [CanSpare] using hspare)] at hle
        exact ih hnonneg (by omega)

/-- A take grows by at most one unit. -/
theorem distributeRemaining_near (remaining : Int) (taken : List ((Int × Int) × Int)) :
    List.Forall₂ (fun (t : (Int × Int) × Int) take => t.2 ≤ take ∧ take ≤ t.2 + 1) taken
      (distributeRemaining remaining taken).1 := by
  induction taken generalizing remaining with
  | nil => exact .nil
  | cons first taken ih =>
    obtain ⟨entry, take⟩ := first
    rw [distributeRemaining]
    split
    · refine .cons ⟨Int.le_refl _, by omega⟩ ?_
      exact List.forall₂_map_right_iff.mpr (List.forall₂_same.mpr fun t _ => ⟨Int.le_refl _, by omega⟩)
    · split
      · exact .cons ⟨by omega, Int.le_refl _⟩ (ih _)
      · exact .cons ⟨Int.le_refl _, by omega⟩ (ih _)

section
variable {deficit slackTotal : Int} {entry : Int × Int} {entries : List (Int × Int)}

theorem slackOf_nonneg : 0 ≤ slackOf entry := by
  rw [slackOf]
  split <;> omega

theorem deficitOf_nonneg : 0 ≤ deficitOf entry := by
  rw [deficitOf]
  split <;> omega

/-- Within the slack the proportional take is its exact part rounded down. -/
theorem proportionalTake_eq (hpos : 0 < deficit) (hle : deficit ≤ slackTotal) :
    proportionalTake deficit slackTotal entry = deficit * slackOf entry / slackTotal := by
  by_cases hslack : entry.2 < entry.1
  · have hof : slackOf entry = entry.1 - entry.2 := by
      rw [slackOf, if_neg (by omega)]
    have hprod : 0 ≤ deficit * (entry.1 - entry.2) := Int.mul_nonneg (by omega) (by omega)
    have hwhole : deficit * (entry.1 - entry.2) ≤ slackTotal * (entry.1 - entry.2) :=
      Int.mul_le_mul_of_nonneg_right hle (by omega)
    have hpart : deficit * (entry.1 - entry.2) / slackTotal ≤ entry.1 - entry.2 :=
      Int.ediv_le_of_le_mul (by omega) (by rwa [Int.mul_comm (entry.1 - entry.2)])
    rw [proportionalTake, if_pos ⟨hslack, by omega⟩, hof]
    simp only [Int.tdiv_eq_ediv_of_nonneg hprod]
    exact min_eq_left hpart
  · have hof : slackOf entry = 0 := by
      rw [slackOf]
      split <;> omega
    rw [proportionalTake, if_neg (fun h => hslack h.1), hof, Int.mul_zero, Int.zero_ediv]

/-- An entry without another unit to spare was not rounded. -/
theorem proportionalTake_bounds (hpos : 0 < deficit) (hle : deficit ≤ slackTotal) :
    slackTotal * proportionalTake deficit slackTotal entry ≤ deficit * slackOf entry ∧
      deficit * slackOf entry ≤ slackTotal * proportionalTake deficit slackTotal entry +
        if CanSpare (entry, proportionalTake deficit slackTotal entry) then slackTotal else 0 := by
  have htake := @proportionalTake_eq deficit slackTotal entry hpos hle
  have hfloor := Int.mul_ediv_self_le (x := deficit * slackOf entry) (k := slackTotal) (by omega)
  have hceil := Int.lt_mul_ediv_self_add (x := deficit * slackOf entry) (k := slackTotal) (by omega)
  rw [← htake] at hfloor hceil
  refine ⟨hfloor, ?_⟩
  split
  · omega
  · rename_i hcan
    -- nothing to spare: the take is the whole slack
    have hslack : slackOf entry ≤ proportionalTake deficit slackTotal entry := by
      have hspares := @spares_proportionalTake deficit slackTotal entry
      simp only [CanSpare, decide_eq_true_eq] at hcan
      rw [slackOf]
      split
      · rename_i hlt
        rw [hspares.1 hlt]
      · omega
    have hwhole : deficit * slackOf entry ≤ slackTotal * slackOf entry :=
      Int.mul_le_mul_of_nonneg_right hle slackOf_nonneg
    have hall := Int.mul_le_mul_of_nonneg_left hslack (by omega : 0 ≤ slackTotal)
    omega

/-- What the proportional takes leave of the deficit is at most one unit for
each entry that can still spare one. -/
theorem proportionalTakes_left (hpos : 0 < deficit) (hle : deficit ≤ slackTotal) :
    slackTotal * (entries.map (proportionalTake deficit slackTotal)).sum ≤
        deficit * (entries.map slackOf).sum ∧
      deficit * (entries.map slackOf).sum ≤
        slackTotal * (entries.map (proportionalTake deficit slackTotal)).sum +
          slackTotal * (entries.zip (entries.map (proportionalTake deficit slackTotal))).countP
            CanSpare := by
  induction entries with
  | nil => simp
  | cons entry entries ih =>
    obtain ⟨hlo, hhi⟩ := @proportionalTake_bounds _ _ entry hpos hle
    simp only [List.map_cons, List.sum_cons, List.zip_cons_cons, List.countP_cons, Int.mul_add]
    refine ⟨by omega, ?_⟩
    push_cast
    rw [Int.mul_add]
    split at hhi
    · rename_i hcan
      rw [if_pos hcan]
      omega
    · rename_i hcan
      rw [if_neg hcan]
      omega

/-- Sizes above and below their floors: slack and deficit balance. -/
theorem sum_slackOf : (entries.map Prod.fst).sum + (entries.map deficitOf).sum =
    (entries.map Prod.snd).sum + (entries.map slackOf).sum := by
  induction entries with
  | nil => rfl
  | cons entry entries ih =>
    have hentry : entry.1 + deficitOf entry = entry.2 + slackOf entry := by
      rw [deficitOf, slackOf]
      split <;> omega
    simp only [List.map_cons, List.sum_cons]
    omega

theorem sum_deficitOf_nonneg : 0 ≤ (entries.map deficitOf).sum := by
  refine List.sum_nonneg fun d hd => ?_
  obtain ⟨entry, -, rfl⟩ := List.mem_map.mp hd
  exact deficitOf_nonneg

theorem deficitOf_eq_zero (h : (entries.map deficitOf).sum = 0) (hentry : entry ∈ entries) :
    entry.2 ≤ entry.1 := by
  have hdeficit : ∀ d ∈ entries.map deficitOf, 0 ≤ d := by
    intro d hd
    obtain ⟨entry, -, rfl⟩ := List.mem_map.mp hd
    exact deficitOf_nonneg
  have hnone : deficitOf entry ≤ 0 :=
    h ▸ List.single_le_sum hdeficit _ (List.mem_map_of_mem hentry)
  rw [deficitOf] at hnone
  split at hnone <;> omega

end

/-! ## What enforcement does -/

/-- A take within a unit of its part of the deficit. -/
def Apportioned (deficit slackTotal : Int) (entry : Int × Int) (take : Int) : Prop :=
  deficit * slackOf entry / slackTotal ≤ take ∧ take ≤ deficit * slackOf entry / slackTotal + 1

section
variable {sizes mins : List Int}

/-- The sizes with their floors. -/
def floored (sizes mins : List Int) : List (Int × Int) := sizes.zip (mins.map fun m => max m 1)

theorem floored_fst (hlen : sizes.length = mins.length) :
    (floored sizes mins).map Prod.fst = sizes :=
  List.map_fst_zip (by rw [List.length_map]; omega)

theorem floored_snd (hlen : sizes.length = mins.length) :
    (floored sizes mins).map Prod.snd = mins.map fun m => max m 1 :=
  List.map_snd_zip (by rw [List.length_map]; omega)

/-- When the floors fit, the deficit is taken from those who can spare it, in
proportion to what they can, and the units lost to rounding are taken in
order. -/
theorem enforceMinimums_fits (hlen : sizes.length = mins.length)
    (hfit : (mins.map fun m => max m 1).sum ≤ sizes.sum) :
    ∃ takes, enforceMinimums sizes mins = (true, List.zipWith settle (floored sizes mins) takes) ∧
      List.Forall₂ Spares (floored sizes mins) takes ∧
      List.Forall₂ (Apportioned ((floored sizes mins).map deficitOf).sum
        ((floored sizes mins).map slackOf).sum) (floored sizes mins) takes ∧
      takes.sum = ((floored sizes mins).map deficitOf).sum := by
  have hfst := floored_fst hlen
  have hbalance := @sum_slackOf (floored sizes mins)
  rw [hfst, floored_snd hlen] at hbalance
  unfold enforceMinimums
  unfold floored at hfst hbalance ⊢
  rw [if_neg (not_not.mpr hlen)]
  dsimp only
  rw [if_neg (by omega)]
  generalize sizes.zip (mins.map fun m => max m 1) = entries at hfst hbalance ⊢
  have hdeficit := @sum_deficitOf_nonneg entries
  generalize htotal : (entries.map deficitOf).sum = deficit at hbalance hdeficit ⊢
  generalize hslack : (entries.map slackOf).sum = slackTotal at hbalance ⊢
  split
  · rename_i hzero
    subst hzero
    -- nothing lies below its floor
    refine ⟨entries.map fun _ => 0, ?_, ?_, ?_, ?_⟩
    · rw [List.zipWith_map_right, List.zipWith_self]
      refine Prod.ext rfl (hfst.symm.trans (List.map_congr_left fun entry hentry => ?_))
      have hreached := deficitOf_eq_zero htotal hentry
      rw [settle, if_neg (by omega), Int.sub_zero]
    · refine List.forall₂_map_right_iff.mpr (List.forall₂_same.mpr fun entry _ => ?_)
      exact ⟨fun _ => rfl, fun h => by omega⟩
    · refine List.forall₂_map_right_iff.mpr (List.forall₂_same.mpr fun entry _ => ?_)
      rw [Apportioned, Int.zero_mul, Int.zero_ediv]
      exact ⟨Int.le_refl 0, by omega⟩
    · exact List.sum_eq_zero fun d hd => by
        obtain ⟨_, -, rfl⟩ := List.mem_map.mp hd
        rfl
  · rename_i hsome
    have hpos : 0 < deficit := by omega
    have hle : deficit ≤ slackTotal := by omega
    obtain ⟨hlo, hhi⟩ := @proportionalTakes_left _ _ entries hpos hle
    rw [hslack, Int.mul_comm deficit] at hlo hhi
    rw [← Int.mul_add] at hhi
    have hover := Int.le_of_mul_le_mul_left hlo (by omega)
    have hunder := Int.le_of_mul_le_mul_left hhi (by omega)
    have htakes : List.Forall₂ Spares entries (entries.map (proportionalTake deficit slackTotal)) :=
      List.forall₂_map_right_iff.mpr (List.forall₂_same.mpr fun _ _ => spares_proportionalTake)
    obtain ⟨hspares, hsum⟩ := distributeRemaining_spec
      (deficit - (entries.map (proportionalTake deficit slackTotal)).sum) htakes
    have hnear := distributeRemaining_near
      (deficit - (entries.map (proportionalTake deficit slackTotal)).sum)
      (entries.zip (entries.map (proportionalTake deficit slackTotal)))
    have hleft : (distributeRemaining (deficit - (entries.map (proportionalTake deficit slackTotal)).sum)
        (entries.zip (entries.map (proportionalTake deficit slackTotal)))).2 = 0 :=
      distributeRemaining_left (by omega) (Int.sub_left_le_of_le_add hunder)
    rw [if_neg (not_not.mpr hleft)]
    refine ⟨_, rfl, hspares, ?_, by omega⟩
    have hzip : entries.zip (entries.map (proportionalTake deficit slackTotal)) =
        entries.map fun entry => (entry, proportionalTake deficit slackTotal entry) := by
      simpa using @List.zip_map' _ _ _ id (proportionalTake deficit slackTotal) entries
    have hmapped := hzip ▸ hnear
    rw [List.forall₂_map_left_iff, ← hzip] at hmapped
    refine hmapped.imp fun entry take h => ?_
    rw [Apportioned, ← proportionalTake_eq hpos hle]
    exact h

theorem enforceMinimums_short (hshort : sizes.sum < (mins.map fun m => max m 1).sum) :
    enforceMinimums sizes mins = (false, sizes) := by
  unfold enforceMinimums
  split
  · rfl
  · exact if_pos hshort

/-- When the floors fit, every size reaches its floor. -/
theorem enforceMinimums_reaches (hlen : sizes.length = mins.length)
    (hfit : (mins.map fun m => max m 1).sum ≤ sizes.sum) :
    List.Forall₂ (fun size (entry : Int × Int) => entry.2 ≤ size) (enforceMinimums sizes mins).2
      (sizes.zip (mins.map fun m => max m 1)) := by
  obtain ⟨takes, heq, hspares, -⟩ := enforceMinimums_fits hlen hfit
  rw [heq]
  exact (settle_spec hspares).2

/-- How an entry ends: at its floor if it was below, otherwise no larger than
it was and less its part of the deficit. -/
structure Enforced (deficit slackTotal : Int) (entry : Int × Int) (size : Int) : Prop where
  floor : entry.2 ≤ size
  raised : entry.1 < entry.2 → size = entry.2
  kept : entry.2 ≤ entry.1 → size ≤ entry.1
  part : entry.2 ≤ entry.1 → Apportioned deficit slackTotal entry (entry.1 - size)

theorem Apportioned.nonneg {deficit slackTotal take : Int} {entry : Int × Int}
    (h : Apportioned deficit slackTotal entry take) (hdeficit : 0 ≤ deficit)
    (hslack : 0 ≤ slackTotal) : 0 ≤ take := by
  have hpart : 0 ≤ deficit * slackOf entry / slackTotal :=
    Int.ediv_nonneg (Int.mul_nonneg hdeficit slackOf_nonneg) hslack
  exact hpart.trans h.1

theorem enforced_settle {deficit slackTotal take : Int} {entry : Int × Int}
    (hspare : Spares entry take) (hpart : Apportioned deficit slackTotal entry take)
    (hdeficit : 0 ≤ deficit) (hslack : 0 ≤ slackTotal) :
    Enforced deficit slackTotal entry (settle entry take) := by
  have hnonneg := hpart.nonneg hdeficit hslack
  by_cases hlt : entry.1 < entry.2
  · have heq : settle entry take = entry.2 := by rw [settle, if_pos hlt]
    rw [heq]
    exact ⟨Int.le_refl _, fun _ => rfl, fun h => by omega, fun h => by omega⟩
  · have heq : settle entry take = entry.1 - take := by rw [settle, if_neg hlt]
    have hle := hspare.2 (by omega)
    rw [heq]
    refine ⟨by omega, fun h => absurd h hlt, fun _ => by omega, fun _ => ?_⟩
    rwa [Int.sub_sub_self]

theorem enforced_all {deficit slackTotal : Int} {entries : List (Int × Int)} {takes : List Int}
    (hdeficit : 0 ≤ deficit) (hslack : 0 ≤ slackTotal) (hspares : List.Forall₂ Spares entries takes)
    (hparts : List.Forall₂ (Apportioned deficit slackTotal) entries takes) :
    List.Forall₂ (Enforced deficit slackTotal) entries (List.zipWith settle entries takes) := by
  induction hspares with
  | nil => exact .nil
  | cons hspare _ ih =>
    cases hparts with
    | cons hpart hrest => exact .cons (enforced_settle hspare hpart hdeficit hslack) (ih hrest)

theorem sum_slackOf_nonneg {entries : List (Int × Int)} : 0 ≤ (entries.map slackOf).sum := by
  refine List.sum_nonneg fun d hd => ?_
  obtain ⟨entry, -, rfl⟩ := List.mem_map.mp hd
  exact slackOf_nonneg

/-- An entry has no more to spare than its size. -/
theorem sum_slackOf_le (hsizes : ∀ size ∈ sizes, 0 ≤ size) (hlen : sizes.length = mins.length) :
    ((floored sizes mins).map slackOf).sum ≤ sizes.sum := by
  refine (List.sum_le_sum fun entry hentry => ?_).trans (congrArg List.sum (floored_fst hlen)).le
  obtain ⟨hsize, hfloor⟩ := List.of_mem_zip hentry
  obtain ⟨m, -, hm⟩ := List.mem_map.mp hfloor
  have hnonneg := hsizes _ hsize
  rw [slackOf]
  split <;> omega

/-- Enforcement succeeds exactly when the floors fit, and then moves units
from the entries above their floors to those below. The products it computes
fit its integers. -/
theorem enforceMinimums_exact (hlen : sizes.length = mins.length)
    (hsizes : ∀ size ∈ sizes, 0 ≤ size) (hsum : sizes.sum < 2 ^ 31) :
    ((enforceMinimums sizes mins).1 = true ↔ (mins.map fun m => max m 1).sum ≤ sizes.sum) ∧
      ((enforceMinimums sizes mins).1 = true →
        (enforceMinimums sizes mins).2.sum = sizes.sum ∧
          List.Forall₂ (Enforced ((floored sizes mins).map deficitOf).sum
              ((floored sizes mins).map slackOf).sum) (floored sizes mins)
            (enforceMinimums sizes mins).2 ∧
          ∀ entry ∈ floored sizes mins, 0 ≤ ((floored sizes mins).map deficitOf).sum * slackOf entry ∧
            ((floored sizes mins).map deficitOf).sum * slackOf entry < 2 ^ 62) ∧
      ((enforceMinimums sizes mins).1 = false → (enforceMinimums sizes mins).2 = sizes) := by
  by_cases hfit : (mins.map fun m => max m 1).sum ≤ sizes.sum
  · obtain ⟨takes, heq, hspares, hparts, -⟩ := enforceMinimums_fits hlen hfit
    refine ⟨by simp [heq, hfit], fun _ => ⟨sum_enforceMinimums, ?_, fun entry hentry => ?_⟩, ?_⟩
    · rw [heq]
      exact enforced_all sum_deficitOf_nonneg sum_slackOf_nonneg hspares hparts
    · have hbalance := @sum_slackOf (floored sizes mins)
      rw [floored_fst hlen, floored_snd hlen] at hbalance
      have hslacks : ∀ d ∈ (floored sizes mins).map slackOf, 0 ≤ d := by
        intro d hd
        obtain ⟨entry, -, rfl⟩ := List.mem_map.mp hd
        exact slackOf_nonneg
      have hone := List.single_le_sum hslacks _ (List.mem_map_of_mem hentry)
      have hall := sum_slackOf_le hsizes hlen
      have hdeficit := @sum_deficitOf_nonneg (floored sizes mins)
      refine ⟨Int.mul_nonneg hdeficit slackOf_nonneg, ?_⟩
      calc ((floored sizes mins).map deficitOf).sum * slackOf entry
        _ ≤ (2 ^ 31 - 1) * (2 ^ 31 - 1) :=
          Int.mul_le_mul (by omega) (by omega) slackOf_nonneg (by omega)
        _ < 2 ^ 62 := by omega
    · rw [heq]
      exact nofun
  · have heq := enforceMinimums_short (Int.not_le.mp hfit)
    rw [heq]
    exact ⟨⟨nofun, fun h => absurd h hfit⟩, nofun, fun _ => rfl⟩

/-- One donor pays most of what the first entry lacks, the other the rest. -/
theorem enforceMinimums_exact_three : (enforceMinimums [1, 6, 4] [5, 2, 0]).1 = true ∧
    (enforceMinimums [1, 6, 4] [5, 2, 0]).2.sum = 11 := by
  obtain ⟨hfits, hdone, -⟩ := @enforceMinimums_exact [1, 6, 4] [5, 2, 0] rfl (by decide) (by decide)
  have hok := hfits.mpr (by decide)
  exact ⟨hok, (hdone hok).1⟩

end

end PlasmaTiler
