import PlasmaTiler.SizeHints
import PlasmaTiler.Tiling

/-!
# When minimum hints keep a projectable tree projectable

The hint-aware splitter always hands out the whole extent, so whatever it
lays out is tiled: the leaves come in child order and sibling segments are
exactly the gap apart. What it does not guarantee is that a nested group
gets one unit per child. `subtreeMin` counts a leaf without a meaningful
minimum as needing nothing, so a group of `k` such leaves is weighed as
`gap * (k - 1)` and a large sibling minimum may take its extent below
`gap * (k - 1) + k`.

`hasRoom` at the hinted splitter is that condition at every group, and the
hinted projection is well formed exactly when it holds.
-/

namespace PlasmaTiler

/-! ## The proportional base sizes -/

section
variable {total : Nat} {distributable avail used : Int} {shares : List Nat}

theorem proportionalBaseSizesFrom_cons_cons {share next : Nat} :
    proportionalBaseSizesFrom total distributable avail used (share :: next :: shares) =
      ((distributable * share).tdiv total + 1) ::
        proportionalBaseSizesFrom total distributable avail
          (used + ((distributable * share).tdiv total + 1)) (next :: shares) :=
  rfl

theorem length_proportionalBaseSizesFrom :
    (proportionalBaseSizesFrom total distributable avail used shares).length = shares.length := by
  induction shares generalizing used with
  | nil => rfl
  | cons share shares ih =>
    cases shares with
    | nil => rfl
    | cons next shares =>
      rw [proportionalBaseSizesFrom_cons_cons, List.length_cons, ih]
      rfl

/-- The last sibling takes the remainder, so nothing is lost. -/
theorem sum_proportionalBaseSizesFrom (hne : shares ≠ []) :
    (proportionalBaseSizesFrom total distributable avail used shares).sum = avail - used := by
  induction shares generalizing used with
  | nil => exact absurd rfl hne
  | cons share shares ih =>
    cases shares with
    | nil => simp [proportionalBaseSizesFrom]
    | cons next shares =>
      rw [proportionalBaseSizesFrom_cons_cons, List.sum_cons, ih (by simp)]
      omega

/-- Every sibling gets its reserved unit. `k` siblings with shares summing to
`p` come before; what they used beyond their units is at most their
proportional part, which leaves at least one unit for the last one. -/
theorem one_le_of_mem_proportionalBaseSizesFrom {k p : Nat} (hne : shares ≠ [])
    (hd : 0 ≤ distributable) (htotal : 0 < total) (hshares : p + shares.sum ≤ total)
    (havail : avail = distributable + k + shares.length)
    (hused : (total : Int) * (used - k) ≤ distributable * p) :
    ∀ size ∈ proportionalBaseSizesFrom total distributable avail used shares, 1 ≤ size := by
  have htotal' : (0 : Int) < total := by exact_mod_cast htotal
  induction shares generalizing used k p with
  | nil => exact absurd rfl hne
  | cons share shares ih =>
    cases shares with
    | nil =>
      have hp : (p : Int) ≤ total := by
        have : p ≤ total := by simp at hshares; omega
        exact_mod_cast this
      have hle : (total : Int) * (used - k) ≤ total * distributable := by
        calc (total : Int) * (used - k) ≤ distributable * p := hused
          _ ≤ distributable * total := Int.mul_le_mul_of_nonneg_left hp hd
          _ = total * distributable := Int.mul_comm _ _
      have := Int.le_of_mul_le_mul_left hle htotal'
      simp only [proportionalBaseSizesFrom, List.mem_singleton, forall_eq]
      simp only [List.length_cons, List.length_nil] at havail
      omega
    | cons next shares =>
      have hnum : (0 : Int) ≤ distributable * share := Int.mul_nonneg hd (by omega)
      have hquot := Int.mul_tdiv_self_le (x := distributable * share) (k := total) hnum
      have hpart : 0 ≤ (distributable * share).tdiv total := Int.tdiv_nonneg hnum (by omega)
      rw [proportionalBaseSizesFrom_cons_cons]
      refine List.forall_mem_cons.mpr ⟨by omega, ih (k := k + 1) (p := p + share) (by simp)
        (by simpa [Nat.add_assoc] using hshares) ?_ ?_⟩
      · rw [havail, List.length_cons]
        push_cast
        ring
      · push_cast
        linarith [hused, hquot]

end

/-! ## What enforcement preserves -/

/-- A take an entry can spare: nothing below the floor, at most the slack
above it. -/
def Spares (entry : Int × Int) (take : Int) : Prop :=
  (entry.1 < entry.2 → take = 0) ∧ (entry.2 ≤ entry.1 → take ≤ entry.1 - entry.2)

theorem spares_proportionalTake {deficit slackTotal : Int} {entry : Int × Int} :
    Spares entry (proportionalTake deficit slackTotal entry) := by
  unfold Spares proportionalTake
  split
  · exact ⟨fun h => by omega, fun _ => Int.min_le_right _ _⟩
  · exact ⟨fun _ => rfl, fun h => by omega⟩

/-- Handing out the remaining units keeps every take spareable and hands out
exactly what is no longer left. -/
theorem distributeRemaining_spec {entries : List (Int × Int)} {takes : List Int} (remaining : Int)
    (h : List.Forall₂ Spares entries takes) :
    List.Forall₂ Spares entries (distributeRemaining remaining (entries.zip takes)).1 ∧
      (distributeRemaining remaining (entries.zip takes)).1.sum +
        (distributeRemaining remaining (entries.zip takes)).2 = takes.sum + remaining := by
  induction h generalizing remaining with
  | nil => exact ⟨.nil, by simp [distributeRemaining]⟩
  | @cons entry take entries takes hspare hrest ih =>
    have hlen : entries.length = takes.length := hrest.length_eq
    rw [List.zip_cons_cons, distributeRemaining]
    split
    · rw [List.map_snd_zip (by omega)]
      exact ⟨.cons hspare hrest, by simp⟩
    · split
      · obtain ⟨hspares, hsum⟩ := @ih (remaining - 1)
        refine ⟨.cons ⟨fun h => ?_, fun h => by omega⟩ hspares, ?_⟩
        · have := hspare.1 h
          omega
        · simp only [List.sum_cons]
          omega
      · obtain ⟨hspares, hsum⟩ := @ih remaining
        refine ⟨.cons hspare hspares, ?_⟩
        simp only [List.sum_cons]
        omega

/-- Settling spareable takes moves the sum by deficit minus takes and leaves
every entry at or above its floor. -/
theorem settle_spec {entries : List (Int × Int)} {takes : List Int}
    (h : List.Forall₂ Spares entries takes) :
    (List.zipWith settle entries takes).sum + takes.sum =
        (entries.map Prod.fst).sum + (entries.map deficitOf).sum ∧
      List.Forall₂ (fun size entry => entry.2 ≤ size) (List.zipWith settle entries takes)
        entries := by
  induction h with
  | nil => exact ⟨by simp, .nil⟩
  | @cons entry take entries takes hspare hrest ih =>
    obtain ⟨hsum, hfloors⟩ := ih
    simp only [List.zipWith_cons_cons, List.sum_cons, List.map_cons, List.forall₂_cons]
    have hentry : settle entry take + take = entry.1 + deficitOf entry ∧
        entry.2 ≤ settle entry take := by
      unfold settle deficitOf
      split
      · next hlt =>
        have := hspare.1 hlt
        omega
      · next hge =>
        have := hspare.2 (by omega)
        omega
    exact ⟨by omega, hentry.2, hfloors⟩

section
variable {sizes mins : List Int}

/-- What enforcement returns: either the sizes as they were, or sizes with the
same total that reach every floor. -/
theorem enforceMinimums_cases (sizes mins : List Int) :
    (enforceMinimums sizes mins).2 = sizes ∨
      ((enforceMinimums sizes mins).2.sum = sizes.sum ∧
        List.Forall₂ (fun size (entry : Int × Int) => entry.2 ≤ size) (enforceMinimums sizes mins).2
          (sizes.zip (mins.map fun m => max m 1)) ∧ sizes.length = mins.length) := by
  unfold enforceMinimums
  split
  · exact Or.inl rfl
  · next hlen =>
    dsimp only
    split
    · exact Or.inl rfl
    · split
      · exact Or.inl rfl
      · split
        · exact Or.inl rfl
        · next hleft =>
          refine Or.inr ?_
          dsimp only
          generalize hentries : sizes.zip (mins.map fun m => max m 1) = entries at hleft ⊢
          generalize hdeficit : (entries.map deficitOf).sum = deficit at hleft ⊢
          generalize (entries.map slackOf).sum = slackTotal at hleft ⊢
          have htakes : List.Forall₂ Spares entries
              (entries.map (proportionalTake deficit slackTotal)) :=
            List.forall₂_map_right_iff.mpr
              (List.forall₂_same.mpr fun _ _ => spares_proportionalTake)
          obtain ⟨hspares, htaken⟩ := distributeRemaining_spec
            (deficit - (entries.map (proportionalTake deficit slackTotal)).sum) htakes
          obtain ⟨hsum, hfloors⟩ := settle_spec hspares
          have hsizes : entries.map Prod.fst = sizes := by
            rw [← hentries, List.map_fst_zip (by rw [List.length_map]; omega)]
          rw [hsizes] at hsum
          exact ⟨by omega, hfloors, by omega⟩

theorem length_enforceMinimums : (enforceMinimums sizes mins).2.length = sizes.length := by
  rcases enforceMinimums_cases sizes mins with h | ⟨-, h, hlen⟩
  · rw [h]
  · rw [h.length_eq, List.length_zip, List.length_map, hlen, Nat.min_self]

theorem sum_enforceMinimums : (enforceMinimums sizes mins).2.sum = sizes.sum := by
  rcases enforceMinimums_cases sizes mins with h | ⟨h, -⟩
  · rw [h]
  · exact h

/-- Enforcement never takes a positive size below one unit. -/
theorem one_le_of_mem_enforceMinimums (h : ∀ size ∈ sizes, 1 ≤ size) :
    ∀ size ∈ (enforceMinimums sizes mins).2, 1 ≤ size := by
  rcases enforceMinimums_cases sizes mins with hsame | ⟨-, hfloors, -⟩
  · rwa [hsame]
  · intro size hsize
    obtain ⟨hlen, hget⟩ := List.forall₂_iff_get.mp hfloors
    obtain ⟨i, rfl⟩ := List.mem_iff_get.mp hsize
    have hle : _ ≤ (enforceMinimums sizes mins).2.get i := hget i i.2 (hlen ▸ i.2)
    have hentry := List.get_mem (sizes.zip (mins.map fun m => max m 1)) ⟨i, hlen ▸ i.2⟩
    obtain ⟨m, -, hm⟩ := List.mem_map.mp (List.of_mem_zip hentry).2
    omega

end

/-! ## The hinted splitter -/

section
variable {gap : Int} {resolve : NodeId → WindowSizeHints}

theorem splitHinted_eq_ok {axis : Axis} {children : List Node} {shares : List Nat}
    {extent : Int} {sizes : List Int} : splitHinted gap resolve axis children shares extent =
        .ok sizes ↔
      shares.sum < u64Size ∧
        (IntRange.i64.lo ≤ gap * (children.length - 1) ∧
          gap * (children.length - 1) ≤ IntRange.i64.hi) ∧
        sizes = (enforceMinimums
          (proportionalBaseSizes shares shares.sum
            (extent - gap * (children.length - 1) - children.length)
            (extent - gap * (children.length - 1)))
          (children.map (subtreeMin resolve gap axis))).2 := by
  simp only [splitHinted, bind_eq_ok, okOr_eq_ok, checkedTotal_eq_some, IntRange.check_eq_some,
    pure_eq_ok]
  constructor
  · rintro ⟨_, ⟨rfl, htotal⟩, _, ⟨rfl, hgaps⟩, rfl⟩
    exact ⟨htotal, hgaps, rfl⟩
  · rintro ⟨htotal, hgaps, rfl⟩
    exact ⟨_, ⟨rfl, htotal⟩, _, ⟨rfl, hgaps⟩, rfl⟩

/-- Enforced or not, the child sizes use up the whole extent. -/
theorem exhausts_splitHinted : Exhausts (splitHinted gap resolve) gap := by
  intro axis children shares extent sizes hshares hne h
  obtain ⟨-, -, rfl⟩ := splitHinted_eq_ok.mp h
  have hne : shares ≠ [] := by
    rintro rfl
    exact hne (List.eq_nil_of_length_eq_zero hshares.symm)
  rw [length_enforceMinimums, sum_enforceMinimums, proportionalBaseSizes,
    length_proportionalBaseSizesFrom, sum_proportionalBaseSizesFrom hne]
  exact ⟨hshares, by omega⟩

/-- With one unit per child available, every child gets one. -/
theorem reserves_splitHinted : Reserves (splitHinted gap resolve) gap := by
  intro axis children shares extent sizes hgroup hroom h
  obtain ⟨hlen, hshares, hpos, -⟩ := hgroup
  obtain ⟨-, -, rfl⟩ := splitHinted_eq_ok.mp h
  have hne : shares ≠ [] := List.ne_nil_of_length_pos (by omega)
  obtain ⟨share, hshare⟩ := List.exists_mem_of_ne_nil shares hne
  exact one_le_of_mem_enforceMinimums
    (one_le_of_mem_proportionalBaseSizesFrom (k := 0) (p := 0) hne (by omega)
      (List.sum_pos_iff_exists_pos_nat.mpr ⟨share, hshare, hpos share hshare⟩) (by omega)
      (by rw [hshares]; push_cast; ring) (by simp))

end

/-! ## Well-formed output -/

/-- What a caller expects of projected rectangles: exactly the leaves in child
order, positive, inside the bounds, pairwise apart, and sibling segments
exactly the gap apart at every level. -/
structure ProjectionWellFormed (tree : Node) (bounds : Rect) (gap : Int)
    (out : List ProjectedLeaf) : Prop where
  leaves : out.map ProjectedLeaf.leaf = tree.leaves
  positive : ∀ p ∈ out, 1 ≤ p.rect.w ∧ 1 ≤ p.rect.h
  contained : ∀ p ∈ out, p.rect.Within bounds
  apart : out.Pairwise fun p q => p.rect.Apart q.rect
  tiled : Tiled gap tree bounds out

theorem Rect.positive_iff {r : Rect} : r.Positive ↔ 1 ≤ r.w ∧ 1 ≤ r.h :=
  ⟨fun h => ⟨h .horizontal, h .vertical⟩, fun h axis => by cases axis; exacts [h.1, h.2]⟩

/-- A tiled layout is well formed as soon as its leaves are positive. -/
theorem projectionWellFormed_of_tiled {tree : Node} {bounds : Rect} {gap : Int}
    {out : List ProjectedLeaf} (hwf : tree.WellFormed) (hgap : 0 ≤ gap)
    (h : Tiled gap tree bounds out) (hpos : AllPositive out) :
    ProjectionWellFormed tree bounds gap out where
  leaves := h.leaves
  positive p hp := Rect.positive_iff.mp (hpos p hp)
  contained := (h.separated hwf hgap hpos).1
  apart := (h.separated hwf hgap hpos).2
  tiled := h

/-- What a successful plain projection has checked. -/
theorem project_eq_ok {tree : Node} {bounds : Rect} {gap : Int} {out : List ProjectedLeaf} :
    project tree bounds gap = .ok out ↔
      validRect bounds = true ∧ 0 ≤ gap ∧ (tree.WellFormed ∧ FreshIds tree.ids ∅) ∧
        layoutInto gap tree bounds = .ok out := by
  simp only [project, validateTree, bind_eq_ok, ensure_eq_ok, mapError_eq_ok, checkNode_eq_ok,
    decide_eq_true_eq]
  constructor
  · rintro ⟨_, hrect, _, hgap, _, ⟨hwf, hfresh, -⟩, hout⟩
    exact ⟨hrect, hgap, ⟨hwf, hfresh⟩, hout⟩
  · rintro ⟨hrect, hgap, ⟨hwf, hfresh⟩, hout⟩
    exact ⟨(), hrect, (), hgap, _, ⟨hwf, hfresh, rfl⟩, hout⟩

theorem projectWithHints_eq_ok {tree : Node} {bounds : Rect} {gap : Int}
    {resolve : NodeId → WindowSizeHints} {plain : List ProjectedLeaf} {hinted : HintedProjection}
    (hplain : project tree bounds gap = .ok plain) :
    projectWithHints tree bounds gap resolve = .ok hinted ↔
      layoutHinted gap resolve tree bounds = .ok hinted.leaves ∧
        hinted.overconstrained = overconstrainedLeaves resolve hinted.leaves ∅ := by
  simp only [projectWithHints, bind_eq_ok, mapError_eq_ok, hplain, pure_eq_ok]
  constructor
  · rintro ⟨_, -, leaves, hleaves, rfl⟩
    exact ⟨hleaves, rfl⟩
  · rintro ⟨hleaves, hover⟩
    exact ⟨plain, rfl, hinted.leaves, hleaves, by rw [← hover]⟩

/-- The hinted projection of a projectable tree is well formed exactly when
every group, at the extent its ancestors' minimum enforcement hands down,
has room for its gaps and one unit per child. -/
theorem projectWithHints_wellFormed_iff {tree : Node} {bounds : Rect} {gap : Int}
    {resolve : NodeId → WindowSizeHints} {plain : List ProjectedLeaf}
    (hplain : project tree bounds gap = .ok plain) :
    (∃ hinted, projectWithHints tree bounds gap resolve = .ok hinted ∧
      ProjectionWellFormed tree bounds gap hinted.leaves) ↔
      hasRoom (splitHinted gap resolve) gap tree bounds.extent = true := by
  obtain ⟨hrect, hgap, ⟨hwf, -⟩, -⟩ := project_eq_ok.mp hplain
  simp only [projectWithHints_eq_ok hplain, layoutHinted]
  constructor
  · rintro ⟨hinted, ⟨hout, -⟩, hwell⟩
    exact hasRoom_of_layoutWith exhausts_splitHinted hgap hwf hout
      fun p hp => Rect.positive_iff.mpr (hwell.positive p hp)
  · intro hroom
    obtain ⟨out, hout, hpos⟩ := layoutWith_of_hasRoom HintProjectionError.mk
      exhausts_splitHinted reserves_splitHinted
      (fun _ _ => rfl) hgap hwf (fits_of_validRect hrect) hroom
    exact ⟨⟨out, overconstrainedLeaves resolve out ∅⟩, ⟨hout, rfl⟩, projectionWellFormed_of_tiled hwf hgap
      (layoutWith_tiled exhausts_splitHinted hwf hout) hpos⟩

/-! A leaf that needs 99 of 100 units next to a two-leaf group without hints:
the group is weighed as needing nothing and is left one unit, so its last
leaf gets none. -/

def squeezedTree : Node :=
  .group ⟨"root"⟩ .horizontal
    [.leaf ⟨"a"⟩, .group ⟨"inner"⟩ .horizontal [.leaf ⟨"b"⟩, .leaf ⟨"c"⟩] [1, 1]] [1, 1]

def squeezedHints (id : NodeId) : WindowSizeHints :=
  if id = ⟨"a"⟩ then { minW := some 99 } else {}

/-- Without hints the same tree projects well. -/
theorem projectWithHints_unhinted_wellFormed :
    ∃ hinted, projectWithHints squeezedTree ⟨0, 0, 100, 50⟩ 0 (fun _ => {}) = .ok hinted ∧
      ProjectionWellFormed squeezedTree ⟨0, 0, 100, 50⟩ 0 hinted.leaves :=
  (projectWithHints_wellFormed_iff
    (show project squeezedTree ⟨0, 0, 100, 50⟩ 0 = .ok [⟨⟨"a"⟩, ⟨0, 0, 50, 50⟩⟩,
      ⟨⟨"b"⟩, ⟨50, 0, 25, 50⟩⟩, ⟨⟨"c"⟩, ⟨75, 0, 25, 50⟩⟩] by decide)).mpr (by decide)

/-- Squeezed by its neighbor's minimum the inner group is handed a single
pixel for two leaves, and the second is left without any. -/
theorem projectWithHints_squeezed_not_wellFormed :
    ¬ ∀ (tree : Node) (bounds : Rect) (gap : Int) (resolve : NodeId → WindowSizeHints),
      (∃ plain, project tree bounds gap = .ok plain) →
        ∃ hinted, projectWithHints tree bounds gap resolve = .ok hinted ∧
          ProjectionWellFormed tree bounds gap hinted.leaves := by
  intro h
  have hplain : project squeezedTree ⟨0, 0, 100, 50⟩ 0 =
      .ok [⟨⟨"a"⟩, ⟨0, 0, 50, 50⟩⟩, ⟨⟨"b"⟩, ⟨50, 0, 25, 50⟩⟩, ⟨⟨"c"⟩, ⟨75, 0, 25, 50⟩⟩] := by
    decide
  have hhinted : projectWithHints squeezedTree ⟨0, 0, 100, 50⟩ 0 squeezedHints =
      .ok ⟨[⟨⟨"a"⟩, ⟨0, 0, 99, 50⟩⟩, ⟨⟨"b"⟩, ⟨99, 0, 1, 50⟩⟩, ⟨⟨"c"⟩, ⟨100, 0, 0, 50⟩⟩], []⟩ := by
    decide
  obtain ⟨hinted, hok, hwell⟩ := h squeezedTree ⟨0, 0, 100, 50⟩ 0 squeezedHints ⟨_, hplain⟩
  obtain rfl := Except.ok.inj (hhinted.symm.trans hok)
  have hpos := hwell.positive ⟨⟨"c"⟩, ⟨100, 0, 0, 50⟩⟩ (by decide)
  exact absurd hpos.1 (by decide)

end PlasmaTiler
