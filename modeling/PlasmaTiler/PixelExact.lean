import PlasmaTiler.Boundary
import PlasmaTiler.PlainProjection
import PlasmaTiler.ShareHistory

/-!
# From shares back to pixels

The derived shares are handed to the projector, which rounds every share down
and leaves the remainder to the last child. The scale is chosen so that the
left child of the pair comes out with exactly the pixels asked for; all
children outside the pair keep what their share was worth; the right child
takes the rest of the pair when it is the last, and is within one pixel of it
otherwise.

The arithmetic is that of quotients with one divisor. Scaling all shares and
the total by a factor changes no quotient; two parts of a fixed sum have
quotients that add up to within one; and at a total of at least what is
distributed some share is worth any number of pixels (`ceil_le_floor`), which
is why a scale that reaches the pixels exists at all.

`Resplit` collects what a move does to the sizes of a group, and is all that
the pointer resize needs from here.
-/

namespace PlasmaTiler

/-! ## Quotients -/

/-- Two splits of one sum have quotients that add up to within one. -/
theorem ediv_add_ediv_le_of_add_eq {a b c d t : Int} (ht : 0 < t) (h : a + b = c + d) :
    a / t + b / t ≤ c / t + d / t + 1 := by
  have hle : a / t + b / t ≤ (a + b) / t := Int.ediv_add_ediv_le_add_ediv ht
  have hc := Int.lt_ediv_add_one_mul_self c ht
  have hd := Int.lt_ediv_add_one_mul_self d ht
  have hlt : (a + b) / t < c / t + d / t + 2 := by
    rw [Int.ediv_lt_iff_lt_mul ht, h]
    have hsplit : (c / t + d / t + 2) * t = (c / t + 1) * t + (d / t + 1) * t := by ring
    omega
  omega

/-- A quotient from its two bounds. -/
theorem ediv_eq_of_bounds {a t q : Int} (ht : 0 < t) (hlo : q * t ≤ a) (hhi : a < (q + 1) * t) :
    a / t = q := by
  have h₁ := (Int.le_ediv_iff_mul_le ht).mpr hlo
  have h₂ := (Int.ediv_lt_iff_lt_mul ht).mpr hhi
  omega

/-! ## What a share is worth after a move -/

namespace MovedPair

variable {old new : List Nat} {lo scale i : Nat} {d : Int}

theorem sum_cast (h : MovedPair old new lo scale) :
    (new.sum : Int) = old.sum * scale ∧ (0 : Int) < new.sum := by
  have htotal := h.total
  have hpos := Nat.mul_pos h.old_sum_pos h.scale_pos
  constructor
  · rw [htotal, Nat.cast_mul]
  · omega

/-- A rescaled share is worth what it was. -/
theorem shareSize_scaled (h : MovedPair old new lo scale) {n : Nat} :
    d * ((n * scale : Nat) : Int) / new.sum = d * n / old.sum := by
  have hscale : (0 : Int) < scale := by exact_mod_cast h.scale_pos
  rw [h.sum_cast.1, Nat.cast_mul, ← Int.mul_assoc]
  exact Int.mul_ediv_mul_of_pos_left _ _ hscale

theorem shareSize_outside (h : MovedPair old new lo scale) (hlo : i ≠ lo) (hhi : i ≠ lo + 1) :
    shareSize new i d = shareSize old i d := by
  rw [shareSize, shareSize, h.outside i hlo hhi, h.shareSize_scaled]

/-- The pair's two worths keep their sum within one. -/
theorem shareSize_pair (h : MovedPair old new lo scale) :
    shareSize new lo d + shareSize new (lo + 1) d ≤
        shareSize old lo d + shareSize old (lo + 1) d + 1 ∧
      shareSize old lo d + shareSize old (lo + 1) d ≤
        shareSize new lo d + shareSize new (lo + 1) d + 1 := by
  have hpair : d * (new.getD lo 0 : Int) + d * new.getD (lo + 1) 0 =
      d * ((old.getD lo 0 * scale : Nat) : Int) + d * ((old.getD (lo + 1) 0 * scale : Nat) : Int) := by
    rw [← Int.mul_add, ← Int.mul_add]
    congr 1
    have hsum := h.pair
    rw [Nat.add_mul] at hsum
    exact_mod_cast hsum
  have h₁ := ediv_add_ediv_le_of_add_eq h.sum_cast.2 hpair
  have h₂ := ediv_add_ediv_le_of_add_eq h.sum_cast.2 hpair.symm
  rw [h.shareSize_scaled, h.shareSize_scaled] at h₁ h₂
  simp only [shareSize]
  omega

end MovedPair

/-! ## The scale hits the pixels -/

section
variable {shares newShares : List Nat} {lo left distributable oldPair scale : Nat}

/-- The left share also stays below the next pixel. -/
theorem pixelSharesAtScale_upper
    (h : pixelSharesAtScale shares lo left distributable oldPair scale = some (some newShares)) :
    max (((left - 1) * (shares.sum * scale) + (distributable - 1)) / distributable) 1 ≤
      ((left - 1 + 1) * (shares.sum * scale) - 1) / distributable := by
  simp only [pixelSharesAtScale, Option.bind_eq_bind, Option.bind_eq_some_iff] at h
  obtain ⟨scaled, hscaled, scaledTotal, htotal, scaledPair, -, h⟩ := h
  obtain rfl := mapM_checkU64 hscaled
  obtain ⟨rfl, -⟩ := checkedTotal_eq_some.mp htotal
  rw [sum_map_scale] at h
  split at h
  · cases h
  split at h
  · cases h
  split at h
  · cases h
  rename_i hfits
  omega

/-- The derived shares project the left child to exactly the pixels asked
for. -/
theorem pixelSharesForClamped_exact {clampedLeft d : Int}
    (h : pixelSharesForClamped shares lo clampedLeft d shares.sum
      (shares.getD lo 0 + shares.getD (lo + 1) 0) = some newShares)
    (hinside : lo + 1 < shares.length) (hpos : 0 ∉ shares) :
    ∃ scale, MovedPair shares newShares lo scale ∧ shareSize newShares lo d = clampedLeft := by
  obtain ⟨hd, hclamped, -, scale, hscale, hnew⟩ := exists_scale_of_pixelSharesForClamped h
  obtain ⟨hmoved, hleft⟩ := pixelSharesAtScale_moved hnew hinside rfl hpos hscale
  have hupper := pixelSharesAtScale_upper hnew
  refine ⟨scale, hmoved, ?_⟩
  obtain ⟨hsum, hsumPos⟩ := hmoved.sum_cast
  obtain ⟨d, rfl⟩ := Int.eq_ofNat_of_zero_le hd.le
  obtain ⟨c, rfl⟩ := Int.eq_ofNat_of_zero_le hclamped.le
  simp only [Int.toNat_natCast] at hleft hupper
  rw [← hleft, Nat.le_div_iff_mul_le (by omega)] at hupper
  have hlower : (c - 1) * (shares.sum * scale) ≤ d * newShares.getD lo 0 := by
    rw [← ceil_le_iff (by omega : 0 < d), hleft]
    exact le_max_left _ _
  have hquot : (d : Int) * newShares.getD lo 0 / newShares.sum = c - 1 := by
    rw [hmoved.total] at hsumPos ⊢
    have hone : 1 ≤ c := by omega
    refine ediv_eq_of_bounds hsumPos ?_ ?_
    · have hcast : ((c - 1 : Nat) : Int) = c - 1 := by omega
      rw [← hcast]
      exact_mod_cast hlower
    · have hcast : ((c - 1 + 1 : Nat) : Int) = c - 1 + 1 := by omega
      rw [← hcast]
      rw [Nat.mul_comm (newShares.getD lo 0)] at hupper
      have hprod : 0 < (c - 1 + 1) * (shares.sum * scale) :=
        Nat.mul_pos (by omega) (by exact_mod_cast hsumPos)
      have hlt : d * newShares.getD lo 0 < (c - 1 + 1) * (shares.sum * scale) := by omega
      exact_mod_cast hlt
  rw [shareSize, hquot]
  omega

end

/-! ## A scale that reaches the pixels -/

section
variable {shares : List Nat} {lo left d pair scale : Nat}

/-- At a total of at least what is distributed, some share is worth any
number of pixels. -/
theorem ceil_le_floor {q total : Nat} (hd : 0 < d) (htotal : d ≤ total) :
    (q * total + (d - 1)) / d ≤ ((q + 1) * total - 1) / d := by
  rw [ceil_le_iff hd]
  have hfloor := Nat.lt_mul_div_succ ((q + 1) * total - 1) hd
  rw [Nat.mul_add, Nat.mul_one] at hfloor
  rw [Nat.add_mul, Nat.one_mul] at hfloor ⊢
  omega

/-- Without overflow a scale yields shares when it can represent the pixels
inside the pair and they are not the share's own. -/
theorem exists_pixelSharesAtScale (hinside : lo + 1 < shares.length) (hpos : 0 ∉ shares)
    (hscale : 0 < scale) (hbound : shares.sum * scale < u64Size)
    (hpair : pair = shares.getD lo 0 + shares.getD (lo + 1) 0) :
    ∃ found, pixelSharesAtScale shares lo left d pair scale = some found ∧
      (0 < d → d ≤ shares.sum * scale → 2 ≤ left →
        (left - 1) * (shares.sum * scale) ≤ d * (pair * scale - 1) →
        (left : Int) ≠ shareSize shares lo d → found ≠ none) := by
  have hsum : 0 < shares.sum :=
    (MovedPair.getD_pos hpos (by omega : lo < shares.length)).trans_le (MovedPair.getD_le_sum shares lo)
  have hlo : 0 < shares.getD lo 0 := MovedPair.getD_pos hpos (by omega)
  have hhi : 0 < shares.getD (lo + 1) 0 := MovedPair.getD_pos hpos hinside
  have hpairSum := MovedPair.getD_add_le_sum shares lo
  have hscaled : (shares.mapM fun s => checkU64 (s * scale)) = some (shares.map (· * scale)) := by
    rw [mapM_scaled, if_pos fun s hs => (Nat.mul_le_mul_right scale (List.le_sum_of_mem hs)).trans_lt
      hbound]
  have htotal : checkedTotal (shares.map (· * scale)) = some (shares.sum * scale) :=
    checkedTotal_eq_some.mpr ⟨sum_map_scale.symm, sum_map_scale ▸ hbound⟩
  have hchecked : ∀ {n}, n ≤ shares.sum * scale → checkU64 n = some n := fun hn =>
    checkU64_eq_some.mpr ⟨rfl, hn.trans_lt hbound⟩
  have hpairScaled : pair * scale ≤ shares.sum * scale :=
    Nat.mul_le_mul_right scale (by omega)
  have hpairPos : 2 * scale ≤ pair * scale := Nat.mul_le_mul_right scale (by omega)
  have hloScaled : shares.getD lo 0 * scale ≤ shares.sum * scale :=
    Nat.mul_le_mul_right scale (MovedPair.getD_le_sum shares lo)
  have hsumScaled : 0 < shares.sum * scale := Nat.mul_pos hsum hscale
  simp only [pixelSharesAtScale, Option.bind_eq_bind, hscaled, Option.bind_some, htotal,
    hchecked hpairScaled]
  rw [if_neg (by omega)]
  by_cases hempty : ((left - 1 + 1) * (shares.sum * scale) - 1) / d <
      ((left - 1) * (shares.sum * scale) + (d - 1)) / d
  · rw [if_pos hempty]
    refine ⟨none, rfl, fun hd htotal _ _ _ => ?_⟩
    have := ceil_le_floor (q := left - 1) hd htotal
    omega
  rw [if_neg hempty]
  generalize hlower : ((left - 1) * (shares.sum * scale) + (d - 1)) / d = lower at hempty ⊢
  generalize hupper : ((left - 1 + 1) * (shares.sum * scale) - 1) / d = upper at hempty ⊢
  by_cases hfits : min upper (pair * scale - 1) < max lower 1
  · rw [if_pos hfits]
    refine ⟨none, rfl, fun hd htotal hleft hroom _ => ?_⟩
    have hlowerLe : lower ≤ pair * scale - 1 := by
      rw [← hlower, ceil_le_iff hd]
      exact hroom
    have hupperOne : 1 ≤ upper := by
      rw [← hupper, Nat.le_div_iff_mul_le hd]
      have := Nat.mul_le_mul_right (shares.sum * scale) (show 2 ≤ left - 1 + 1 by omega)
      omega
    omega
  rw [if_neg hfits, hchecked (by omega), Option.bind_some, hchecked hloScaled, Option.bind_some]
  by_cases hsame : max lower 1 = shares.getD lo 0 * scale
  · rw [if_pos hsame]
    refine ⟨none, rfl, fun hd htotal hleft hroom hne => absurd ?_ hne⟩
    -- the share already there is worth these pixels
    have hlow : (left - 1) * (shares.sum * scale) ≤ d * (shares.getD lo 0 * scale) := by
      rw [← ceil_le_iff hd, hlower]
      omega
    have hhigh : d * (shares.getD lo 0 * scale) < (left - 1 + 1) * (shares.sum * scale) := by
      have hle : shares.getD lo 0 * scale ≤ upper := by omega
      rw [← hupper, Nat.le_div_iff_mul_le hd, Nat.mul_comm _ d] at hle
      have hprod := Nat.mul_pos (show 0 < left - 1 + 1 by omega) hsumScaled
      omega
    rw [← Nat.mul_assoc, ← Nat.mul_assoc] at hlow hhigh
    have hlow' := Nat.le_of_mul_le_mul_right hlow hscale
    have hhigh' := Nat.lt_of_mul_lt_mul_right hhigh
    have hquot : d * shares.getD lo 0 / shares.sum = left - 1 :=
      (Nat.div_eq_iff hsum).mpr ⟨hlow', by rw [Nat.add_mul, Nat.one_mul] at hhigh'; omega⟩
    rw [shareSize]
    norm_cast
    omega
  rw [if_neg hsame]
  have hzero : (!(((shares.map (· * scale)).mapIdx fun i share => if i = lo then max lower 1
      else if i = lo + 1 then pair * scale - max lower 1 else share).contains 0)) = true := by
    rw [Bool.not_eq_true', List.contains_eq_mem, decide_eq_false_iff_not, List.mem_mapIdx]
    rintro ⟨i, hi, hzero⟩
    rw [List.getElem_map] at hzero
    have hshare := hpos
    split at hzero
    · omega
    split at hzero
    · omega
    · rcases Nat.mul_eq_zero.mp hzero with hzero | hzero
      · exact hpos (hzero ▸ List.getElem_mem _)
      · omega
  rw [hzero]
  exact ⟨_, rfl, fun _ _ _ _ _ heq => by cases heq⟩

/-- The pixels asked of a pair are found at scale one or at the scale that
makes the total reach what is distributed. -/
theorem exists_pixelSharesForClamped {clampedLeft distributable : Int}
    (hinside : lo + 1 < shares.length) (hpos : 0 ∉ shares) (htotal : shares.sum < u64Size)
    (hd : 0 < distributable) (hdmax : distributable < 2 ^ 32) (hleft : 2 ≤ clampedLeft)
    (hroom : clampedLeft * shares.sum ≤
      distributable * (shares.getD lo 0 + shares.getD (lo + 1) 0 : Nat))
    (hne : clampedLeft ≠ shareSize shares lo distributable) :
    ∃ newShares, pixelSharesForClamped shares lo clampedLeft distributable shares.sum
      (shares.getD lo 0 + shares.getD (lo + 1) 0) = some newShares := by
  obtain ⟨d, rfl⟩ := Int.eq_ofNat_of_zero_le hd.le
  obtain ⟨left, rfl⟩ := Int.eq_ofNat_of_zero_le (by omega : 0 ≤ clampedLeft)
  have hlo : 0 < shares.getD lo 0 := MovedPair.getD_pos hpos (by omega)
  have hpairSum := MovedPair.getD_add_le_sum shares lo
  generalize hpair : shares.getD lo 0 + shares.getD (lo + 1) 0 = pair at hroom hpairSum ⊢
  norm_cast at hd hdmax hleft hroom
  have hk : 0 < (d + (shares.sum - 1)) / shares.sum := Nat.div_pos (by omega) (by omega)
  have hkSmall : (d + (shares.sum - 1)) / shares.sum ≤ u64Size - 1 := by
    have := Nat.div_le_of_le_mul (show d + (shares.sum - 1) ≤ shares.sum * d by
      have := Nat.mul_le_mul (show 1 ≤ shares.sum by omega) (show 1 ≤ d by omega)
      obtain ⟨s, hs⟩ : ∃ s, shares.sum = s + 1 := ⟨shares.sum - 1, by omega⟩
      obtain ⟨e, he⟩ : ∃ e, d = e + 1 := ⟨d - 1, by omega⟩
      rw [hs, he, Nat.add_mul, Nat.mul_add]
      omega)
    simp only [u64Size]
    omega
  generalize hscale : (d + (shares.sum - 1)) / shares.sum = k at hk hkSmall
  -- the total at that scale reaches `d`, and is below `d` and one more total
  have hreach : d ≤ shares.sum * k := by
    have := Nat.lt_mul_div_succ (d + (shares.sum - 1)) (by omega : 0 < shares.sum)
    rw [hscale, Nat.mul_add, Nat.mul_one] at this
    omega
  have hbelow : shares.sum * k < u64Size := by
    have hle := Nat.mul_div_le (d + (shares.sum - 1)) shares.sum
    rw [hscale] at hle
    by_cases hsmall : shares.sum ≤ d
    · simp only [u64Size] at hkSmall ⊢
      omega
    · have hone : k = 1 := by
        rw [← hscale]
        exact Nat.div_eq_of_lt_le (by omega) (by omega)
      rw [hone]
      omega
  obtain ⟨first, hfirst, -⟩ := @exists_pixelSharesAtScale shares lo left d pair 1 hinside hpos
    Nat.one_pos (by omega) hpair.symm
  obtain ⟨second, hsecond, hfound⟩ := @exists_pixelSharesAtScale shares lo left d pair k hinside
    hpos hk hbelow hpair.symm
  have hguard : (decide ((0 : Int) < (d : Int)) && shares.sum != 0 && pair != 0 &&
      decide ((0 : Int) < (left : Int))) = true := by
    simp only [Bool.and_eq_true, decide_eq_true_eq, bne_iff_ne]
    omega
  have hfoundNe : second ≠ none := by
    refine hfound hd hreach hleft ?_ hne
    have hscaled := Nat.mul_le_mul_right k hroom
    rw [Nat.mul_assoc, Nat.mul_assoc] at hscaled
    have hpairPos : 1 ≤ pair * k := Nat.mul_pos (by omega) hk
    rw [Nat.mul_sub, Nat.sub_mul]
    omega
  obtain ⟨newShares, rfl⟩ := Option.ne_none_iff_exists'.mp hfoundNe
  rw [pixelSharesForClamped, hguard, Int.toNat_natCast, Int.toNat_natCast, hfirst]
  cases first with
  | some found => exact ⟨found, rfl⟩
  | none =>
    refine ⟨newShares, ?_⟩
    simp only [Option.bind_eq_bind]
    rw [hscale, Nat.min_eq_left hkSmall, hsecond]
    rfl

end

/-! ## Sizes of a resized group -/

section
variable {gap extent : Int} {children : List Node} {shares old new : List Nat} {lo scale i : Nat}

/-- What a group distributes over its shares. -/
def groupDistributable (gap : Int) (children : List Node) (extent : Int) : Int :=
  extent - gap * (children.length - 1) - children.length

theorem length_groupSizes : (groupSizes gap children shares extent).length = shares.length := by
  rw [groupSizes, proportionalBaseSizes, length_proportionalBaseSizesFrom]

theorem sum_groupSizes (hne : shares ≠ []) :
    (groupSizes gap children shares extent).sum = extent - gap * (children.length - 1) := by
  rw [groupSizes, proportionalBaseSizes, sum_proportionalBaseSizesFrom hne, Int.sub_zero]

theorem proportionalBaseSizesFrom_getD {total : Nat} {d avail used : Int} (hd : 0 ≤ d)
    (hi : i + 1 < shares.length) :
    (proportionalBaseSizesFrom total d avail used shares).getD i 0 =
      1 + d * shares.getD i 0 / total := by
  induction shares generalizing used i with
  | nil => exact absurd hi (by simp)
  | cons share shares ih =>
    cases shares with
    | nil => exact absurd hi (by simp)
    | cons next shares =>
      rw [proportionalBaseSizesFrom_cons_cons]
      cases i with
      | zero =>
        have hproduct : 0 ≤ d * (share : Int) := Int.mul_nonneg hd (by omega)
        rw [List.getD_cons_zero, List.getD_cons_zero, Int.tdiv_eq_ediv_of_nonneg hproduct, Int.add_comm]
      | succ i =>
        rw [List.getD_cons_succ, List.getD_cons_succ]
        exact ih (by simpa using hi)

/-- Every child but the last gets what its share is worth. -/
theorem groupSizes_getD (hd : 0 ≤ groupDistributable gap children extent)
    (hi : i + 1 < shares.length) :
    (groupSizes gap children shares extent).getD i 0 =
      shareSize shares i (groupDistributable gap children extent) :=
  proportionalBaseSizesFrom_getD hd hi

theorem take_eq_of_getD {l m : List Int} {k : Nat} (hl : k ≤ l.length) (hm : k ≤ m.length)
    (h : ∀ i < k, l.getD i 0 = m.getD i 0) : l.take k = m.take k := by
  refine List.ext_getElem (by simp; omega) fun i hi hi' => ?_
  simp only [List.length_take] at hi hi'
  have := h i (by omega)
  rw [List.getD_eq_getElem _ _ (by omega), List.getD_eq_getElem _ _ (by omega)] at this
  rw [List.getElem_take, List.getElem_take, this]

theorem sum_take_succ_getD {M : Type} [AddMonoid M] {l : List M} {k : Nat} (hk : k < l.length) :
    (l.take (k + 1)).sum = (l.take k).sum + l.getD k 0 := by
  rw [List.sum_take_succ _ _ hk, List.getD_eq_getElem _ _ hk]

theorem sum_eq_take_pair {M : Type} [AddMonoid M] {l : List M} (h : l.length = lo + 2) :
    l.sum = (l.take lo).sum + l.getD lo 0 + l.getD (lo + 1) 0 := by
  have hall : l.take (lo + 2) = l := List.take_of_length_le (by omega)
  rw [← sum_take_succ_getD (by omega), ← sum_take_succ_getD (by omega), hall]

/-- A size is more than its share of what is distributed. -/
theorem mul_take_le_sum_take {k : Nat} (hd : 0 ≤ groupDistributable gap children extent)
    (hsum : 0 < shares.sum) (hk : k < shares.length) :
    groupDistributable gap children extent * ((shares.take k).sum : Nat) ≤
      ((groupSizes gap children shares extent).take k).sum * shares.sum := by
  induction k with
  | zero => simp
  | succ k ih =>
    have hprev := ih (by omega)
    have hquot := Int.lt_ediv_add_one_mul_self
      (groupDistributable gap children extent * shares.getD k 0) (by omega : (0 : Int) < shares.sum)
    rw [sum_take_succ_getD (by omega), sum_take_succ_getD (by rw [length_groupSizes]; omega),
      groupSizes_getD hd hk, shareSize, Nat.cast_add, Int.mul_add, Int.add_mul, Int.add_comm 1]
    omega

/-- What a pair's sizes are over what its shares are worth: two pixels, or
one for each child when the pair takes the remainder. -/
theorem pair_room (hd : 0 ≤ groupDistributable gap children extent) (hsum : 0 < shares.sum)
    (hlength : shares.length = children.length) (hinside : lo + 1 < shares.length) :
    ((groupSizes gap children shares extent).getD lo 0 +
          (groupSizes gap children shares extent).getD (lo + 1) 0 -
        (if lo + 2 < shares.length then 2 else shares.length : Nat)) * shares.sum ≤
      groupDistributable gap children extent *
        (shares.getD lo 0 + shares.getD (lo + 1) 0 : Nat) := by
  have htotal : (0 : Int) < shares.sum := by omega
  split
  · rename_i hlast
    have hleft := Int.ediv_mul_le (groupDistributable gap children extent * shares.getD lo 0) htotal.ne'
    have hright := Int.ediv_mul_le (groupDistributable gap children extent * shares.getD (lo + 1) 0)
      htotal.ne'
    rw [groupSizes_getD hd hinside, groupSizes_getD hd hlast, shareSize, shareSize, Nat.cast_add,
      Int.mul_add]
    have hsplit : ∀ a b t : Int, (1 + a + (1 + b) - (2 : Nat)) * t = a * t + b * t := by
      intro a b t
      push_cast
      ring
    rw [hsplit]
    omega
  · rename_i hlast
    have hlen : shares.length = lo + 2 := by omega
    have hprefix := mul_take_le_sum_take hd hsum (by omega : lo < shares.length)
    have hsizes := sum_eq_take_pair (l := groupSizes gap children shares extent)
      (by rw [length_groupSizes]; exact hlen)
    have hshares := sum_eq_take_pair hlen
    rw [sum_groupSizes (List.ne_nil_of_length_pos (by omega))] at hsizes
    generalize ((groupSizes gap children shares extent).take lo).sum = prefixSize at *
    generalize (groupSizes gap children shares extent).getD lo 0 = left at *
    generalize (groupSizes gap children shares extent).getD (lo + 1) 0 = right at *
    have hpair : left + right = groupDistributable gap children extent + shares.length - prefixSize := by
      rw [groupDistributable, hlength]
      omega
    generalize groupDistributable gap children extent = d at *
    have hcast : (shares.sum : Int) = (shares.take lo).sum +
        ((shares.getD lo 0 + shares.getD (lo + 1) 0 : Nat) : Int) := by omega
    rw [hpair]
    generalize ((shares.getD lo 0 + shares.getD (lo + 1) 0 : Nat) : Int) = pair at *
    have hexpand : d * (shares.sum : Int) = d * (shares.take lo).sum + d * pair := by
      rw [hcast, Int.mul_add]
    have hsplit : (d + shares.length - prefixSize - shares.length) * (shares.sum : Int) =
        d * shares.sum - prefixSize * shares.sum := by
      ring
    rw [hsplit]
    omega

/-- Before and after a move: nothing outside the pair but the last child
changes, the left child is worth its new share, and the right one has the
rest of the pair, to within one pixel when it is not the last. -/
structure Resplit (before after : List Int) (lo : Nat) (left : Int) : Prop where
  length : after.length = before.length
  inside : lo + 1 < before.length
  aimed : after.getD lo 0 = left
  outside : ∀ i, i ≠ lo → i ≠ lo + 1 → i + 1 < before.length → after.getD i 0 = before.getD i 0
  right_last : lo + 2 = before.length →
    after.getD (lo + 1) 0 = before.getD lo 0 + before.getD (lo + 1) 0 - left
  right_near : after.getD (lo + 1) 0 ≤ before.getD lo 0 + before.getD (lo + 1) 0 - left + 1 ∧
    before.getD lo 0 + before.getD (lo + 1) 0 - left - 1 ≤ after.getD (lo + 1) 0

namespace Resplit

variable {before after : List Int} {left : Int}

theorem take_eq (h : Resplit before after lo left) : after.take lo = before.take lo := by
  have hlength := h.length
  have hinside := h.inside
  refine take_eq_of_getD (by omega) (by omega) fun i hi => ?_
  exact h.outside i (by omega) (by omega) (by omega)

/-- The boundary of the pair moves by what the left child gains. -/
theorem boundary (h : Resplit before after lo left) :
    (after.take (lo + 1)).sum - (before.take (lo + 1)).sum = left - before.getD lo 0 := by
  have hlength := h.length
  have hinside := h.inside
  rw [sum_take_succ_getD (by omega), sum_take_succ_getD (by omega), h.take_eq, h.aimed]
  omega

end Resplit

/-- The projector's sizes of a group whose shares were moved between two
neighbors: all others but the last keep their size, and the left one is worth
its new share. -/
theorem MovedPair.resplit (h : MovedPair old new lo scale)
    (hd : 0 ≤ groupDistributable gap children extent) :
    Resplit (groupSizes gap children old extent) (groupSizes gap children new extent) lo
      (shareSize new lo (groupDistributable gap children extent)) := by
  have hlength := h.length
  have hinside := h.inside
  have hpair := h.shareSize_pair (d := groupDistributable gap children extent)
  have hleft : (groupSizes gap children new extent).getD lo 0 =
      shareSize new lo (groupDistributable gap children extent) :=
    groupSizes_getD hd (by omega)
  have hleftOld : (groupSizes gap children old extent).getD lo 0 =
      shareSize old lo (groupDistributable gap children extent) :=
    groupSizes_getD hd hinside
  have houtside : ∀ i, i ≠ lo → i ≠ lo + 1 → i + 1 < (groupSizes gap children old extent).length →
      (groupSizes gap children new extent).getD i 0 =
        (groupSizes gap children old extent).getD i 0 := by
    intro i hi hi' hlast
    rw [length_groupSizes] at hlast
    rw [groupSizes_getD hd (by omega), groupSizes_getD hd hlast, h.shareSize_outside hi hi']
  have hrightLast : lo + 2 = (groupSizes gap children old extent).length →
      (groupSizes gap children new extent).getD (lo + 1) 0 =
        (groupSizes gap children old extent).getD lo 0 +
          (groupSizes gap children old extent).getD (lo + 1) 0 -
          shareSize new lo (groupDistributable gap children extent) := by
    intro hlast
    rw [length_groupSizes] at hlast
    have hne : ∀ {l : List Nat}, l.length = lo + 2 → l ≠ [] := fun hl =>
      List.ne_nil_of_length_pos (by omega)
    have hnew := sum_eq_take_pair (show (groupSizes gap children new extent).length = lo + 2 by
      rw [length_groupSizes]; omega)
    have hold := sum_eq_take_pair (show (groupSizes gap children old extent).length = lo + 2 by
      rw [length_groupSizes]; omega)
    have htake : (groupSizes gap children new extent).take lo =
        (groupSizes gap children old extent).take lo :=
      take_eq_of_getD (by rw [length_groupSizes]; omega) (by rw [length_groupSizes]; omega)
        fun i hi => houtside i (by omega) (by omega) (by rw [length_groupSizes]; omega)
    rw [sum_groupSizes (hne (by omega)), htake] at hnew
    rw [sum_groupSizes (hne (by omega))] at hold
    omega
  refine ⟨by rw [length_groupSizes, length_groupSizes, hlength],
    by rw [length_groupSizes]; exact hinside, hleft, houtside, hrightLast, ?_⟩
  by_cases hlast : lo + 2 = old.length
  · rw [hrightLast (by rw [length_groupSizes]; exact hlast)]
    omega
  · have hright : (groupSizes gap children new extent).getD (lo + 1) 0 =
        shareSize new (lo + 1) (groupDistributable gap children extent) :=
      groupSizes_getD hd (by omega)
    have hrightOld : (groupSizes gap children old extent).getD (lo + 1) 0 =
        shareSize old (lo + 1) (groupDistributable gap children extent) :=
      groupSizes_getD hd (by omega)
    rw [hright, hleftOld, hrightOld]
    omega

end

end PlasmaTiler
