import Mathlib.Data.List.Perm.Subperm
import Mathlib.Tactic.Ring
import PlasmaTiler.HintedProjection
import PlasmaTiler.Seed

/-!
# Arrangements that can be cut

A cut is a line that meets no rectangle and has rectangles on both sides. An
arrangement is guillotine when any two or more of its rectangles can be cut.
This is weaker than coming from a tree, and it is what a fit can hope to see:
windows may be missing from the arrangement, and any choice of rectangles
from a guillotine arrangement is one again.

Every tiled layout is guillotine (`Tiled.guillotine`): of the rectangles
chosen, the first group that holds them in more than one child is cut between
its children. That includes the layouts of both projectors.

The fit looks for cuts by sweeps over the rectangles sorted along an axis,
comparing the greatest end so far with the least start to come. The sweeps
find a cut wherever there is one (`validCuts_ne_nil`): the rectangles on one
side of it are a prefix of the sorted list.
-/

namespace PlasmaTiler

open Seed

/-! ## Sorted lists -/

section
variable {α : Type} {l : List α}

/-- A property that holds down to the start of a sorted list holds of one
of its prefixes, and nowhere after it. -/
theorem exists_prefix_of_pairwise {R : α → α → Prop} {p : α → Prop} [DecidablePred p]
    (h : l.Pairwise R) (hp : ∀ a b, R a b → p b → p a) :
    ∃ k ≤ l.length, (∀ x ∈ l.take k, p x) ∧ ∀ x ∈ l.drop k, ¬ p x := by
  induction l with
  | nil => exact ⟨0, by simp, by simp, by simp⟩
  | cons a l ih =>
    obtain ⟨hhead, htail⟩ := List.pairwise_cons.mp h
    by_cases ha : p a
    · obtain ⟨k, hk, hleft, hright⟩ := ih htail
      refine ⟨k + 1, by simpa using hk, ?_, by simpa using hright⟩
      simpa [ha] using hleft
    · refine ⟨0, by simp, by simp, ?_⟩
      simp only [List.drop_zero, List.forall_mem_cons]
      exact ⟨ha, fun x hx hpx => ha (hp a x (hhead x hx) hpx)⟩

/-- A prefix is what a test selects when the test separates it from the
rest. -/
theorem filter_eq_take {p : α → Bool} {k : Nat} (hleft : ∀ x ∈ l.take k, p x = true)
    (hright : ∀ x ∈ l.drop k, p x = false) : l.filter p = l.take k := by
  conv_lhs => rw [← List.take_append_drop k l]
  rw [List.filter_append, List.filter_eq_self.mpr hleft,
    List.filter_eq_nil_iff.mpr fun x hx => by simp [hright x hx], List.append_nil]

theorem filter_eq_drop {p : α → Bool} {k : Nat} (hleft : ∀ x ∈ l.take k, p x = false)
    (hright : ∀ x ∈ l.drop k, p x = true) : l.filter p = l.drop k := by
  conv_lhs => rw [← List.take_append_drop k l]
  rw [List.filter_append, List.filter_eq_self.mpr hright,
    List.filter_eq_nil_iff.mpr fun x hx => by simp [hleft x hx], List.nil_append]

end

/-! ## Sweeps -/

section
variable {c reach floor : Int} {xs : List Int} {i : Nat}

theorem prefixMax_le (hreach : reach ≤ c) (hi : i < xs.length) (h : ∀ x ∈ xs.take (i + 1), x ≤ c) :
    (prefixMax reach xs).getD i 0 ≤ c := by
  induction xs generalizing reach i with
  | nil => simp at hi
  | cons x xs ih =>
    simp only [List.take_succ_cons, List.forall_mem_cons] at h
    have hnext : max reach x ≤ c := max_le hreach h.1
    cases i with
    | zero => simpa [prefixMax] using hnext
    | succ i =>
      have := ih hnext (i := i) (by simpa using hi) h.2
      simpa [prefixMax] using this

theorem le_headD_suffixMin (hfloor : c ≤ floor) (h : ∀ x ∈ xs, c ≤ x) :
    c ≤ (suffixMin floor xs).headD floor := by
  induction xs with
  | nil => simpa [suffixMin] using hfloor
  | cons x xs ih =>
    obtain ⟨hx, hxs⟩ := List.forall_mem_cons.mp h
    simp only [suffixMin, List.headD_cons]
    exact le_min (ih hxs) hx

theorem le_suffixMin (hfloor : c ≤ floor) (hi : i < xs.length) (h : ∀ x ∈ xs.drop i, c ≤ x) :
    c ≤ (suffixMin floor xs).getD i 0 := by
  induction xs generalizing i with
  | nil => simp at hi
  | cons x xs ih =>
    cases i with
    | zero =>
      obtain ⟨hx, hxs⟩ := List.forall_mem_cons.mp (by simpa using h)
      simp only [suffixMin, List.getD_cons_zero]
      exact le_min (le_headD_suffixMin hfloor hxs) hx
    | succ i =>
      have := ih (i := i) (by simpa using hi) (by simpa using h)
      simpa [suffixMin] using this

end

/-! ## Cuts of an arrangement -/

/-- The line at `c` across the axis meets no rectangle and has some on
either side. -/
def Cut (axis : Axis) (c : Int) (rects : List Rect) : Prop :=
  (∀ r ∈ rects, primaryEnd r axis ≤ c ∨ c ≤ primaryStart r axis) ∧
    (∃ r ∈ rects, primaryEnd r axis ≤ c) ∧ ∃ r ∈ rects, c ≤ primaryStart r axis

/-- Any two or more of the rectangles can be cut, also when the others are
left out. -/
def Guillotine (rects : List Rect) : Prop :=
  ∀ part : List Rect, part.Nodup → part ⊆ rects → 2 ≤ part.length → ∃ axis c, Cut axis c part

theorem Guillotine.mono {rects rects' : List Rect} (h : Guillotine rects) (hsub : rects' ⊆ rects) :
    Guillotine rects' :=
  fun part hnodup hpart => h part hnodup (List.Subset.trans hpart hsub)

section
variable {gap : Int} {n : Node} {rect : Rect} {out : List ProjectedLeaf}

/-- Children laid out from the cursor on start after it. -/
theorem TiledFrom.start_le {children : List Node} {axis : Axis} {cursor : Int} (hgap : 0 ≤ gap)
    (hwf : ∀ c ∈ children, c.WellFormed) (h : TiledFrom gap children axis rect cursor out)
    (hpos : AllPositive out) : ∀ p ∈ out, cursor ≤ p.rect.start axis := by
  induction children generalizing cursor out with
  | nil =>
    rw [TiledFrom] at h
    simp [h]
  | cons child children ih =>
    have hchild := hwf child List.mem_cons_self
    cases children with
    | nil =>
      rw [TiledFrom] at h
      intro p hp
      simpa using ((h.separated hchild hgap hpos).1 p hp axis).1
    | cons next children =>
      rw [TiledFrom] at h
      obtain ⟨size, here, rest, rfl, hhere, hrest⟩ := h
      obtain ⟨hposHere, hposRest⟩ := allPositive_append.mp hpos
      have hsize := hhere.positive hchild hgap hposHere axis
      rw [Rect.segment_extent] at hsize
      intro p hp
      rcases List.mem_append.mp hp with hp | hp
      · simpa using ((hhere.separated hchild hgap hposHere).1 p hp axis).1
      · have := ih (fun c hc => hwf c (List.mem_cons_of_mem _ hc)) hrest hposRest p hp
        omega

/-- The leaves of a layout are a guillotine arrangement: any two or more of
them are cut by the line between the first child that has some and the rest,
or lie in one child. By induction on the tree and along its children. -/
theorem Tiled.guillotine (hwf : n.WellFormed) (hgap : 0 ≤ gap) (h : Tiled gap n rect out)
    (hpos : AllPositive out) : Guillotine (out.map ProjectedLeaf.rect) := by
  induction n generalizing rect out with
  | leaf id =>
    rw [Tiled] at h
    subst h
    intro part hnodup hsub hlen
    have hle := (List.subperm_of_subset hnodup hsub).length_le
    simp only [List.map_cons, List.map_nil, List.length_cons, List.length_nil] at hle
    omega
  | group id axis children shares ih =>
    replace hwf := (Node.wellFormed_group.mp hwf).2
    rw [Tiled] at h
    generalize rect.start axis = cursor at h
    induction children generalizing cursor out with
    | nil =>
      rw [TiledFrom] at h
      subst h
      intro part _ hsub hlen
      obtain rfl := List.subset_nil.mp hsub
      simp at hlen
    | cons child children ihc =>
      have hchild := hwf child List.mem_cons_self
      cases children with
      | nil =>
        rw [TiledFrom] at h
        exact ih child List.mem_cons_self hchild h hpos
      | cons next children =>
        rw [TiledFrom] at h
        obtain ⟨size, here, rest, rfl, hhere, hrest⟩ := h
        obtain ⟨hposHere, hposRest⟩ := allPositive_append.mp hpos
        have hwfRest : ∀ c ∈ next :: children, c.WellFormed :=
          fun c hc => hwf c (List.mem_cons_of_mem _ hc)
        intro part hnodup hsub hlen
        rw [List.map_append] at hsub
        -- all in the first child, all in the later ones, or on both sides of the gap
        by_cases hleft : part ⊆ here.map ProjectedLeaf.rect
        · exact ih child List.mem_cons_self hchild hhere hposHere part hnodup hleft hlen
        by_cases hright : part ⊆ rest.map ProjectedLeaf.rect
        · exact ihc (fun c hc => ih c (List.mem_cons_of_mem _ hc)) hposRest hwfRest _ hrest part
            hnodup hright hlen
        have hbefore : ∀ r ∈ here.map ProjectedLeaf.rect, primaryEnd r axis ≤ cursor + size := by
          intro r hr
          obtain ⟨p, hp, rfl⟩ := List.mem_map.mp hr
          simpa [primaryEnd] using ((hhere.separated hchild hgap hposHere).1 p hp axis).2
        have hafter : ∀ r ∈ rest.map ProjectedLeaf.rect, cursor + size ≤ primaryStart r axis := by
          intro r hr
          obtain ⟨p, hp, rfl⟩ := List.mem_map.mp hr
          have := hrest.start_le hgap hwfRest hposRest p hp
          simp only [primaryStart]
          omega
        have hside : ∀ r ∈ part, r ∈ here.map ProjectedLeaf.rect ∨
            r ∈ rest.map ProjectedLeaf.rect := fun r hr => List.mem_append.mp (hsub hr)
        obtain ⟨late, hlate, hnotHere⟩ : ∃ r ∈ part, r ∉ here.map ProjectedLeaf.rect := by
          simpa [List.subset_def] using hleft
        obtain ⟨early, hearly, hnotRest⟩ : ∃ r ∈ part, r ∉ rest.map ProjectedLeaf.rect := by
          simpa [List.subset_def] using hright
        exact ⟨axis, cursor + size, fun r hr => (hside r hr).imp (hbefore r) (hafter r),
          ⟨early, hearly, hbefore early ((hside early hearly).resolve_right hnotRest)⟩,
          ⟨late, hlate, hafter late ((hside late hlate).resolve_left hnotHere)⟩⟩

end

/-! ## Projections are guillotine -/

section
variable {ε : Type} {err : String → ε}
  {split : Axis → List Node → List Nat → Int → Except ε (List Int)}
  {checkSize : Int → Except ε Unit} {gap : Int}

/-- Every size a splitter hands to a child is positive. -/
def Generous (split : Axis → List Node → List Nat → Int → Except ε (List Int)) : Prop :=
  ∀ {axis children shares extent sizes}, Node.GroupOk (.group default axis children shares) →
    split axis children shares extent = .ok sizes → ∀ size ∈ sizes, 1 ≤ size

theorem layoutChildren_positive {children : List Node} {axis : Axis} {rect : Rect}
    {sizes : List Int} {cursor : Int} {out : List ProjectedLeaf}
    (ih : ∀ c ∈ children, ∀ {rect out}, rect.Positive →
      layoutWith err split checkSize gap c rect = .ok out → AllPositive out)
    (hrect : rect.Positive) (hsizes : ∀ size ∈ sizes, 1 ≤ size)
    (h : layoutChildren err split checkSize gap axis rect children sizes cursor = .ok out) :
    AllPositive out := by
  have hsegment : ∀ {cursor size : Int}, 1 ≤ size → (rect.segment axis cursor size).Positive := by
    intro cursor size hsize axis'
    have := hrect axis'
    cases axis <;> cases axis' <;> simp only [Rect.segment, Rect.extent] at * <;> omega
  induction children generalizing sizes cursor out with
  | nil =>
    rw [layoutChildren] at h
    obtain rfl := Except.ok.inj h
    exact fun p hp => absurd hp List.not_mem_nil
  | cons child children ihc =>
    cases sizes with
    | nil =>
      rw [layoutChildren] at h
      · obtain rfl := Except.ok.inj h
        exact fun p hp => absurd hp List.not_mem_nil
      · simp
    | cons size sizes =>
      obtain ⟨hsize, hrestSizes⟩ := List.forall_mem_cons.mp hsizes
      cases children with
      | nil =>
        obtain ⟨-, -, -, hchild⟩ := layoutChildren_last_eq_ok.mp h
        exact ih child List.mem_cons_self (hsegment hsize) hchild
      | cons next children =>
        obtain ⟨-, -, -, -, -, here, rest, rfl, hchild, hrest⟩ := layoutChildren_cons_eq_ok.mp h
        exact allPositive_append.mpr ⟨ih child List.mem_cons_self (hsegment hsize) hchild,
          ihc (fun c hc => ih c (List.mem_cons_of_mem _ hc)) hrestSizes hrest⟩

theorem layoutWith_positive (hsplit : Generous split) {n : Node} {rect : Rect}
    {out : List ProjectedLeaf} (hwf : n.WellFormed) (hrect : rect.Positive)
    (h : layoutWith err split checkSize gap n rect = .ok out) : AllPositive out := by
  induction n generalizing rect out with
  | leaf id =>
    rw [layoutWith] at h
    obtain rfl := Except.ok.inj h
    intro p hp
    rwa [List.mem_singleton.mp hp]
  | group id axis children shares ih =>
    obtain ⟨hgroup, hcs⟩ := Node.wellFormed_group.mp hwf
    rw [layoutWith, bind_eq_ok] at h
    obtain ⟨sizes, hsizes, h⟩ := h
    exact layoutChildren_positive (fun c hc => ih c hc (hcs c hc)) hrect
      (hsplit hgroup hsizes) h

theorem splitProportional_eq_ok {axis : Axis} {children : List Node} {shares : List Nat}
    {extent : Int} {sizes : List Int}
    (h : splitProportional gap axis children shares extent = .ok sizes) :
    (children.length : Int) ≤ extent - gap * (children.length - 1) ∧
      sizes = proportionalBaseSizes shares shares.sum
        (extent - gap * (children.length - 1) - children.length)
        (extent - gap * (children.length - 1)) := by
  simp only [splitProportional, bind_eq_ok, okOr_eq_ok, checkedTotal_eq_some,
    IntRange.check_eq_some, ensure_eq_ok, decide_eq_true_eq, pure_eq_ok] at h
  obtain ⟨_, ⟨rfl, -⟩, _, -, _, ⟨rfl, -⟩, _, -, _, hroom, rfl⟩ := h
  exact ⟨hroom, rfl⟩

theorem exhausts_splitProportional : Exhausts (splitProportional gap) gap := by
  intro axis children shares extent sizes hshares hne h
  obtain ⟨-, rfl⟩ := splitProportional_eq_ok h
  have hne : shares ≠ [] := by
    rintro rfl
    exact hne (List.eq_nil_of_length_eq_zero hshares.symm)
  rw [proportionalBaseSizes, length_proportionalBaseSizesFrom,
    sum_proportionalBaseSizesFrom hne]
  exact ⟨hshares, by omega⟩

theorem generous_splitProportional : Generous (splitProportional gap) := by
  intro axis children shares extent sizes hgroup h
  obtain ⟨hlen, hshares, hpos, -⟩ := hgroup
  obtain ⟨hroom, rfl⟩ := splitProportional_eq_ok h
  have hne : shares ≠ [] := List.ne_nil_of_length_pos (by omega)
  obtain ⟨share, hshare⟩ := List.exists_mem_of_ne_nil shares hne
  exact one_le_of_mem_proportionalBaseSizesFrom (k := 0) (p := 0) hne (by omega)
    (List.sum_pos_iff_exists_pos_nat.mpr ⟨share, hshare, hpos share hshare⟩) (by omega)
    (by rw [hshares]; push_cast; ring) (by simp)

/-- A plain projection is always well formed. -/
theorem project_wellFormed {tree : Node} {bounds : Rect} {out : List ProjectedLeaf}
    (h : project tree bounds gap = .ok out) : ProjectionWellFormed tree bounds gap out := by
  obtain ⟨hrect, hgap, ⟨hwf, -⟩, hout⟩ := project_eq_ok.mp h
  exact projectionWellFormed_of_tiled hwf hgap (layoutWith_tiled exhausts_splitProportional hwf hout)
    (layoutWith_positive generous_splitProportional hwf (fun axis => (fits_of_validRect hrect axis).1)
      hout)

theorem ProjectionWellFormed.guillotine {tree : Node} {bounds : Rect} {out : List ProjectedLeaf}
    (h : ProjectionWellFormed tree bounds gap out) (hwf : tree.WellFormed) (hgap : 0 ≤ gap) :
    Guillotine (out.map ProjectedLeaf.rect) :=
  h.tiled.guillotine hwf hgap fun p hp => Rect.positive_iff.mpr (h.positive p hp)

end

/-! ## The order along an axis -/

namespace Seed

section
variable {members : List Item} {axis : Axis}

theorem perm_sortForAxis : (sortForAxis members axis).Perm members := perm_sortByKey

theorem sortForAxis_pairwise :
    (sortForAxis members axis).Pairwise fun a b => sortKey axis a.2 ≤ sortKey axis b.2 :=
  sortByKey_pairwise

theorem primaryStart_le_of_sortKey {r s : Rect} (h : sortKey axis r ≤ sortKey axis s) :
    primaryStart r axis ≤ primaryStart s axis := by
  cases axis <;>
    · simp only [sortKey, Prod.Lex.toLex_le_toLex] at h
      simp only [primaryStart, Rect.start]
      rcases h with h | h
      · exact h.le
      · exact h.1.le

theorem sortKey_inj {r s : Rect} (h : sortKey axis r = sortKey axis s) : r = s := by
  cases r
  cases s
  cases axis <;> simp_all [sortKey]

/-- What every window that passed the fit's checks has: positive extents, and
edges that fit in 64 bits along either axis. -/
def Bounded (r : Rect) : Prop :=
  ∀ axis, 1 ≤ primarySpan r axis ∧ IntRange.i64.lo ≤ primaryStart r axis ∧
    primaryEnd r axis ≤ IntRange.i64.hi

theorem bounded_of_validCarriedRect {r : Rect} (h : validCarriedRect r = true) : Bounded r := by
  simp only [validCarriedRect, Bool.and_eq_true, decide_eq_true_eq] at h
  obtain ⟨⟨⟨⟨⟨⟨⟨⟨⟨hw, hh⟩, hx⟩, -⟩, hy⟩, -⟩, -⟩, -⟩, hright⟩, hbottom⟩ := h
  intro axis
  cases axis <;>
    · simp only [primarySpan, primaryStart, primaryEnd, Rect.extent, Rect.start, IntRange.i64,
        IntRange.i32, geometryBound] at *
      omega

/-- Wherever the members can be cut, the sweeps find a cut: sorted along the
axis, those before the line come first, and the sweep meets a gap between the
last of them and the first behind. -/
theorem validCuts_ne_nil {c tol : Int} (hbounded : ∀ item ∈ members, Bounded item.2)
    (htol : 0 ≤ tol) (hcut : Cut axis c (members.map Prod.snd)) :
    validCuts members axis tol ≠ [] := by
  obtain ⟨hclear, ⟨early, hearly, hearlyEnd⟩, ⟨late, hlate, hlateStart⟩⟩ := hcut
  have hmem : ∀ item, item ∈ sortForAxis members axis ↔ item ∈ members := fun item =>
    perm_sortForAxis.mem_iff
  obtain ⟨k, hk, hleft, hright⟩ := exists_prefix_of_pairwise (@sortForAxis_pairwise members axis)
      (p := fun item => primaryStart item.2 axis < c) fun a b hab hb =>
      (primaryStart_le_of_sortKey hab).trans_lt hb
  obtain ⟨first, hfirst, rfl⟩ := List.mem_map.mp hearly
  obtain ⟨last, hlast, rfl⟩ := List.mem_map.mp hlate
  have hspan := (hbounded first hfirst axis).1
  have hfirstLeft : first ∈ (sortForAxis members axis).take k := by
    have := (hmem first).mpr hfirst
    rw [← List.take_append_drop k (sortForAxis members axis), List.mem_append] at this
    refine this.resolve_right fun hdrop => hright first hdrop ?_
    simp only [primaryEnd, primarySpan, primaryStart] at *
    omega
  have hlastRight : last ∈ (sortForAxis members axis).drop k := by
    have := (hmem last).mpr hlast
    rw [← List.take_append_drop k (sortForAxis members axis), List.mem_append] at this
    exact this.resolve_left fun htake => absurd (hleft last htake) (by omega)
  have hkpos : 0 < k := by
    rcases Nat.eq_zero_or_pos k with rfl | h
    · simp at hfirstLeft
    · exact h
  have hklt : k < (sortForAxis members axis).length := by
    by_contra hge
    rw [List.drop_eq_nil_of_le (by omega)] at hlastRight
    simp at hlastRight
  refine List.ne_nil_of_mem (a := k - 1) ?_
  simp only [validCuts, List.mem_filter, List.mem_range, decide_eq_true_eq]
  refine ⟨by omega, ?_⟩
  rw [Nat.sub_add_cancel hkpos]
  have hends := @prefixMax_le c IntRange.i64.lo ((sortForAxis members axis).map fun item =>
      primaryEnd item.2 axis) (k - 1)
    (by
      have := (hbounded first hfirst axis).2.1
      simp only [primaryEnd, primarySpan, primaryStart] at *
      omega)
    (by rw [List.length_map]; omega)
    (by
      rw [Nat.sub_add_cancel hkpos, ← List.map_take]
      intro x hx
      obtain ⟨item, hitem, rfl⟩ := List.mem_map.mp hx
      have hin := (hmem item).mp (List.mem_of_mem_take hitem)
      rcases hclear item.2 (List.mem_map_of_mem hin) with h | h
      · exact h
      · exact absurd (hleft item hitem) (by omega))
  have hstarts := @le_suffixMin c IntRange.i64.hi ((sortForAxis members axis).map fun item =>
      primaryStart item.2 axis) k
    (by
      have := (hbounded last hlast axis)
      simp only [primaryEnd, primarySpan, primaryStart] at *
      omega)
    (by simpa using hklt)
    (by
      rw [← List.map_drop]
      intro x hx
      obtain ⟨item, hitem, rfl⟩ := List.mem_map.mp hx
      have := hright item hitem
      omega)
  omega

end

end Seed

end PlasmaTiler
