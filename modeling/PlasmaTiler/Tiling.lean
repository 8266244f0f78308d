import Mathlib.Tactic.Linarith
import Mathlib.Tactic.Ring
import PlasmaTiler.Geometry

/-!
# What a correct layout is

`Tiled gap tree rect out` is the specification side of the projectors: it
mentions no shares. Every group cuts its rectangle along its axis into one
segment per child, the first at the rectangle's start, each next one
exactly `gap` after the end of the one before, the last ending where the
rectangle ends; a leaf takes the whole rectangle it is handed.

Two general facts connect it to `layoutWith`. A splitter whose sizes always
exhaust the extent lays out tiled (`layoutWith_tiled`); and such a splitter
succeeds with all leaves positive exactly when every group is handed enough
extent for its gaps and one unit per child (`layoutWith_positive_iff`).
-/

namespace PlasmaTiler

/-! ## The specification -/

mutual

def Tiled (gap : Int) : Node → Rect → List ProjectedLeaf → Prop
  | .leaf id, rect, out => out = [⟨id, rect⟩]
  | .group _ axis children _, rect, out =>
      TiledFrom gap children axis rect (rect.start axis) out

/-- The children fill `rect` from `cursor` to its end, one after the other
with a gap between two, and the last takes what is left. -/
def TiledFrom (gap : Int) : List Node → Axis → Rect → Int → List ProjectedLeaf → Prop
  | [], _, _, _, out => out = []
  | [child], axis, rect, cursor, out =>
      Tiled gap child
        (rect.segment axis cursor (rect.start axis + rect.extent axis - cursor)) out
  | child :: next :: children, axis, rect, cursor, out =>
      ∃ size here rest, out = here ++ rest ∧
        Tiled gap child (rect.segment axis cursor size) here ∧
        TiledFrom gap (next :: children) axis rect (cursor + size + gap) rest

end

section
variable {gap : Int} {n : Node} {rect : Rect} {out : List ProjectedLeaf}

/-- A tiled layout lists exactly the leaves, in child order. -/
theorem Tiled.leaves (h : Tiled gap n rect out) : out.map ProjectedLeaf.leaf = n.leaves := by
  induction n generalizing rect out with
  | leaf id =>
    rw [Tiled] at h
    simp [h]
  | group id axis children shares ih =>
    rw [Tiled] at h
    rw [Node.leaves_group]
    generalize rect.start axis = cursor at h
    induction children generalizing cursor out with
    | nil =>
      rw [TiledFrom] at h
      simp [h]
    | cons child children ihc =>
      cases children with
      | nil =>
        rw [TiledFrom] at h
        simpa using ih child List.mem_cons_self h
      | cons next children =>
        rw [TiledFrom] at h
        obtain ⟨size, here, rest, rfl, hhere, hrest⟩ := h
        rw [List.map_append, List.flatMap_cons, ih child List.mem_cons_self hhere,
          ihc (fun c hc => ih c (List.mem_cons_of_mem _ hc)) _ hrest]

/-- All leaves of the layout have positive extents, so each of them can be
shown. -/
def AllPositive (out : List ProjectedLeaf) : Prop := ∀ p ∈ out, p.rect.Positive

theorem allPositive_append {here rest : List ProjectedLeaf} :
    AllPositive (here ++ rest) ↔ AllPositive here ∧ AllPositive rest := by
  simp [AllPositive, or_imp, forall_and]

/-- One more child costs one more gap. -/
theorem gaps_cons {child next : Node} {children : List Node} :
    gap * (((child :: next :: children).length : Int) - 1) =
      gap * (((next :: children).length : Int) - 1) + gap := by
  simp only [List.length_cons]
  push_cast
  ring

theorem gaps_nonneg (hgap : 0 ≤ gap) (child : Node) (children : List Node) :
    0 ≤ gap * (((child :: children).length : Int) - 1) :=
  Int.mul_nonneg hgap (by simp)

/-! ## Positive leaves

With every leaf positive, every segment on the way is: a rectangle without
extent along some axis always holds a leaf without extent along it. -/

/-- The part of `rect` from `cursor` on. -/
def Rect.strip (rect : Rect) (axis : Axis) (cursor : Int) : Rect :=
  rect.segment axis cursor (rect.start axis + rect.extent axis - cursor)

theorem Rect.strip_start (rect : Rect) (axis : Axis) : rect.strip axis (rect.start axis) = rect := by
  cases axis <;> simp [strip, segment, start, extent]

theorem TiledFrom.positive {children : List Node} {axis : Axis} {cursor : Int}
    (ih : ∀ c ∈ children, ∀ {rect out}, Tiled gap c rect out → AllPositive out → rect.Positive)
    (hne : children ≠ []) (h : TiledFrom gap children axis rect cursor out)
    (hpos : AllPositive out) :
    cursor + children.length + gap * (children.length - 1) ≤ rect.start axis + rect.extent axis ∧
      1 ≤ rect.extent (Rect.cross axis) := by
  induction children generalizing cursor out with
  | nil => exact absurd rfl hne
  | cons child children ihc =>
    cases children with
    | nil =>
      rw [TiledFrom] at h
      have hrect := ih child List.mem_cons_self h hpos
      have haxis := hrect axis
      have hcross := hrect (Rect.cross axis)
      simp only [Rect.segment_extent, Rect.segment_extent_cross] at haxis hcross
      simp only [List.length_cons, List.length_nil]
      omega
    | cons next children =>
      rw [TiledFrom] at h
      obtain ⟨size, here, rest, rfl, hhere, hrest⟩ := h
      obtain ⟨hpos, hposRest⟩ := allPositive_append.mp hpos
      have haxis := ih child List.mem_cons_self hhere hpos axis
      have htail := ihc (fun c hc => ih c (List.mem_cons_of_mem _ hc)) (by simp) hrest hposRest
      simp only [Rect.segment_extent] at haxis
      refine ⟨?_, htail.2⟩
      rw [gaps_cons, List.length_cons]
      push_cast
      omega

/-- A layout with positive leaves was handed a positive rectangle. -/
theorem Tiled.positive (hwf : n.WellFormed) (hgap : 0 ≤ gap) (h : Tiled gap n rect out)
    (hpos : AllPositive out) : rect.Positive := by
  induction n generalizing rect out with
  | leaf id =>
    rw [Tiled] at h
    exact hpos ⟨id, rect⟩ (by simp [h])
  | group id axis children shares ih =>
    obtain ⟨⟨hlen, -⟩, hwf⟩ := Node.wellFormed_group.mp hwf
    rw [Tiled] at h
    have hrect := TiledFrom.positive (fun c hc _ _ => ih c hc (hwf c hc))
      (List.ne_nil_of_length_pos (by omega)) h hpos
    have hgaps : 0 ≤ gap * ((children.length : Int) - 1) :=
      Int.mul_nonneg hgap (by omega)
    intro axis'
    cases axis <;> cases axis' <;> simp only [Rect.cross] at hrect <;> omega

/-! ## Containment and disjointness -/

/-- Every leaf of the layout lies in `rect`, and no two of them meet: a
partition of the rectangle but for the gaps. -/
def Separated (rect : Rect) (out : List ProjectedLeaf) : Prop :=
  (∀ p ∈ out, p.rect.Within rect) ∧ out.Pairwise fun p q => p.rect.Apart q.rect

theorem Separated.append {axis : Axis} {cursor size : Int} {here rest : List ProjectedLeaf}
    (hgap : 0 ≤ gap) (hsize : 1 ≤ size)
    (hroom : cursor + size + gap ≤ rect.start axis + rect.extent axis)
    (hhere : Separated (rect.segment axis cursor size) here)
    (hrest : Separated (rect.strip axis (cursor + size + gap)) rest) :
    Separated (rect.strip axis cursor) (here ++ rest) := by
  have hleft : (rect.segment axis cursor size).Within (rect.strip axis cursor) := by
    intro axis'
    cases axis <;> cases axis' <;>
      simp only [Rect.strip, Rect.segment, Rect.start, Rect.extent] at hroom ⊢ <;> omega
  have hright : (rect.strip axis (cursor + size + gap)).Within (rect.strip axis cursor) := by
    intro axis'
    cases axis <;> cases axis' <;>
      simp only [Rect.strip, Rect.segment, Rect.start, Rect.extent] at hroom ⊢ <;> omega
  have hapart : (rect.segment axis cursor size).Apart (rect.strip axis (cursor + size + gap)) := by
    refine ⟨axis, Or.inl ?_⟩
    simp only [Rect.strip, Rect.segment_start, Rect.segment_extent]
    omega
  refine ⟨fun p hp => ?_, List.pairwise_append.mpr ⟨hhere.2, hrest.2, fun p hp q hq => ?_⟩⟩
  · rcases List.mem_append.mp hp with hp | hp
    · exact (hhere.1 p hp).trans hleft
    · exact (hrest.1 p hp).trans hright
  · exact hapart.mono (hhere.1 p hp) (hrest.1 q hq)

/-- A tiled layout with positive leaves stays inside its rectangle and
overlaps nowhere. -/
theorem Tiled.separated (hwf : n.WellFormed) (hgap : 0 ≤ gap) (h : Tiled gap n rect out)
    (hpos : AllPositive out) : Separated rect out := by
  induction n generalizing rect out with
  | leaf id =>
    rw [Tiled] at h
    subst h
    exact ⟨by simp [Rect.Within.refl], by simp⟩
  | group id axis children shares ih =>
    replace hwf := (Node.wellFormed_group.mp hwf).2
    rw [Tiled] at h
    rw [← Rect.strip_start rect axis]
    generalize rect.start axis = cursor at h
    induction children generalizing cursor out with
    | nil =>
      rw [TiledFrom] at h
      subst h
      exact ⟨by simp, by simp⟩
    | cons child children ihc =>
      cases children with
      | nil =>
        rw [TiledFrom] at h
        exact ih child List.mem_cons_self (hwf child List.mem_cons_self) h hpos
      | cons next children =>
        rw [TiledFrom] at h
        obtain ⟨size, here, rest, rfl, hhere, hrest⟩ := h
        obtain ⟨hpos, hposRest⟩ := allPositive_append.mp hpos
        have hwfRest : ∀ c ∈ next :: children, c.WellFormed :=
          fun c hc => hwf c (List.mem_cons_of_mem _ hc)
        have hsize := Tiled.positive (hwf child List.mem_cons_self) hgap hhere hpos axis
        have hroom := (TiledFrom.positive
          (fun c hc _ _ h => Tiled.positive (hwfRest c hc) hgap h) (by simp) hrest hposRest).1
        have hgaps := gaps_nonneg hgap next children
        rw [Rect.segment_extent] at hsize
        refine Separated.append hgap hsize (by omega)
          (ih child List.mem_cons_self (hwf child List.mem_cons_self) hhere hpos)
          (ihc (fun c hc => ih c (List.mem_cons_of_mem _ hc)) hposRest hwfRest _ hrest)

end

/-! ## Layouts are tiled -/

section
variable {ε : Type} {err : String → ε}
  {split : Axis → List Node → List Nat → Int → Except ε (List Int)}
  {checkSize : Int → Except ε Unit} {gap : Int}

/-- The sizes a splitter returns are one for each child, and with the gaps
they account for the whole extent it was given. -/
def Exhausts (split : Axis → List Node → List Nat → Int → Except ε (List Int)) (gap : Int) :
    Prop :=
  ∀ {axis children shares extent sizes}, shares.length = children.length → children ≠ [] →
    split axis children shares extent = .ok sizes →
    sizes.length = children.length ∧ sizes.sum + gap * (children.length - 1) = extent

/-- The success case of placing the last child. -/
theorem layoutChildren_last_eq_ok {axis : Axis} {rect : Rect} {child : Node}
    {size cursor : Int} {sizes : List Int} {out : List ProjectedLeaf} :
    layoutChildren err split checkSize gap axis rect [child] (size :: sizes) cursor = .ok out ↔
      (IntRange.i32.lo ≤ size ∧ size ≤ IntRange.i32.hi) ∧ checkSize size = .ok () ∧
      (IntRange.i32.lo ≤ cursor ∧ cursor ≤ IntRange.i32.hi) ∧
      layoutWith err split checkSize gap child (rect.segment axis cursor size) = .ok out := by
  rw [layoutChildren]
  simp only [bind_eq_ok, okOr_eq_ok, IntRange.check_eq_some, List.isEmpty_nil, if_true,
    pure_eq_ok]
  constructor
  · rintro ⟨_, ⟨rfl, hsize⟩, _, hcheck, _, ⟨rfl, hcursor⟩, _, hchild, rfl⟩
    exact ⟨hsize, hcheck, hcursor, hchild⟩
  · rintro ⟨hsize, hcheck, hcursor, hchild⟩
    exact ⟨_, ⟨rfl, hsize⟩, _, hcheck, _, ⟨rfl, hcursor⟩, _, hchild, rfl⟩

/-- The success case of placing one child and the ones after it. -/
theorem layoutChildren_cons_eq_ok {axis : Axis} {rect : Rect} {child next : Node}
    {children : List Node} {size cursor : Int} {sizes : List Int} {out : List ProjectedLeaf} :
    layoutChildren err split checkSize gap axis rect (child :: next :: children) (size :: sizes)
        cursor = .ok out ↔
      (IntRange.i32.lo ≤ size ∧ size ≤ IntRange.i32.hi) ∧ checkSize size = .ok () ∧
      (IntRange.i32.lo ≤ cursor ∧ cursor ≤ IntRange.i32.hi) ∧
      (IntRange.i64.lo ≤ cursor + size ∧ cursor + size ≤ IntRange.i64.hi) ∧
      (IntRange.i64.lo ≤ cursor + size + gap ∧ cursor + size + gap ≤ IntRange.i64.hi) ∧
      ∃ here rest, out = here ++ rest ∧
        layoutWith err split checkSize gap child (rect.segment axis cursor size) = .ok here ∧
        layoutChildren err split checkSize gap axis rect (next :: children) sizes
          (cursor + size + gap) = .ok rest := by
  rw [layoutChildren]
  simp only [bind_eq_ok, okOr_eq_ok, IntRange.check_eq_some, List.isEmpty_cons,
    Bool.false_eq_true, if_false, pure_eq_ok, Option.bind_eq_some_iff]
  constructor
  · rintro ⟨_, ⟨rfl, hsize⟩, _, hcheck, _, ⟨rfl, hcursor⟩, here, hchild, _,
      ⟨_, ⟨rfl, hend⟩, rfl, hnext⟩, rest, hrest, rfl⟩
    exact ⟨hsize, hcheck, hcursor, hend, hnext, here, rest, rfl, hchild, hrest⟩
  · rintro ⟨hsize, hcheck, hcursor, hend, hnext, here, rest, rfl, hchild, hrest⟩
    exact ⟨_, ⟨rfl, hsize⟩, _, hcheck, _, ⟨rfl, hcursor⟩, here, hchild, _,
      ⟨_, ⟨rfl, hend⟩, rfl, hnext⟩, rest, hrest, rfl⟩

/-- Placing children whose sizes end exactly where the rectangle does. -/
theorem layoutChildren_tiled {children : List Node} {axis : Axis} {rect : Rect}
    {sizes : List Int} {cursor : Int} {out : List ProjectedLeaf}
    (ih : ∀ c ∈ children, ∀ {rect out},
      layoutWith err split checkSize gap c rect = .ok out → Tiled gap c rect out)
    (hne : children ≠ []) (hcount : sizes.length = children.length)
    (hsum : cursor + sizes.sum + gap * (children.length - 1) =
      rect.start axis + rect.extent axis)
    (h : layoutChildren err split checkSize gap axis rect children sizes cursor = .ok out) :
    TiledFrom gap children axis rect cursor out := by
  induction children generalizing sizes cursor out with
  | nil => exact absurd rfl hne
  | cons child children ihc =>
    obtain ⟨size, sizes, rfl⟩ := List.exists_cons_of_length_eq_add_one hcount
    rw [List.length_cons, List.length_cons, Nat.add_right_cancel_iff] at hcount
    cases children with
    | nil =>
      obtain rfl := List.eq_nil_of_length_eq_zero hcount
      obtain ⟨-, -, -, hchild⟩ := layoutChildren_last_eq_ok.mp h
      have hsize : rect.start axis + rect.extent axis - cursor = size := by
        simp only [List.sum_cons, List.sum_nil, List.length_cons, List.length_nil] at hsum
        omega
      rw [TiledFrom, hsize]
      exact ih child List.mem_cons_self hchild
    | cons next children =>
      obtain ⟨-, -, -, -, -, here, rest, rfl, hchild, hrest⟩ := layoutChildren_cons_eq_ok.mp h
      rw [TiledFrom]
      refine ⟨size, here, rest, rfl, ih child List.mem_cons_self hchild,
        ihc (fun c hc => ih c (List.mem_cons_of_mem _ hc)) (by simp) hcount ?_ hrest⟩
      simp only [List.sum_cons, List.length_cons] at hsum ⊢
      push_cast at hsum ⊢
      linarith

/-- A splitter whose sizes exhaust the extent lays every tree out tiled. -/
theorem layoutWith_tiled (hsplit : Exhausts split gap) {n : Node} {rect : Rect}
    {out : List ProjectedLeaf} (hwf : n.WellFormed)
    (h : layoutWith err split checkSize gap n rect = .ok out) : Tiled gap n rect out := by
  induction n generalizing rect out with
  | leaf id =>
    rw [layoutWith] at h
    rw [Tiled]
    exact (Except.ok.inj h).symm
  | group id axis children shares ih =>
    obtain ⟨⟨hlen, hshares, -⟩, hcs⟩ := Node.wellFormed_group.mp hwf
    have hne : children ≠ [] := List.ne_nil_of_length_pos (by omega)
    rw [layoutWith, bind_eq_ok] at h
    obtain ⟨sizes, hsizes, h⟩ := h
    obtain ⟨hcount, hsum⟩ := hsplit hshares hne hsizes
    rw [Tiled]
    exact layoutChildren_tiled (fun c hc => ih c hc (hcs c hc)) hne hcount (by omega) h

/-! ## Room -/

section
variable (split gap)

mutual

/-- Every group is handed enough extent for its gaps and one unit per child,
where the extents handed down are those the splitter gives. -/
def hasRoom : Node → (Axis → Int) → Bool
  | .leaf _, _ => true
  | .group _ axis children shares, extent =>
      decide (gap * (children.length - 1) + children.length ≤ extent axis) &&
        match split axis children shares (extent axis) with
        | .error _ => false
        | .ok sizes => hasRoomChildren children axis extent sizes

def hasRoomChildren : List Node → Axis → (Axis → Int) → List Int → Bool
  | child :: children, axis, extent, size :: sizes =>
      hasRoom child (fun a => if a = axis then size else extent a) &&
        hasRoomChildren children axis extent sizes
  | _, _, _, _ => true

end

end

theorem Rect.extent_segment {rect : Rect} {axis : Axis} (offset : Int) {size : Int} :
    (rect.segment axis offset size).extent = fun a => if a = axis then size else rect.extent a := by
  funext a
  cases axis <;> cases a <;> rfl

theorem hasRoom_group {id : NodeId} {axis : Axis} {children : List Node} {shares : List Nat}
    {extent : Axis → Int} : hasRoom split gap (.group id axis children shares) extent = true ↔
      gap * (children.length - 1) + children.length ≤ extent axis ∧
        ∃ sizes, split axis children shares (extent axis) = .ok sizes ∧
          hasRoomChildren split gap children axis extent sizes = true := by
  rw [hasRoom, Bool.and_eq_true, decide_eq_true_eq]
  cases split axis children shares (extent axis) <;> simp

theorem hasRoomChildren_of_layoutChildren {children : List Node} {axis : Axis} {rect : Rect}
    {sizes : List Int} {cursor : Int} {out : List ProjectedLeaf}
    (ih : ∀ c ∈ children, ∀ {rect out}, layoutWith err split checkSize gap c rect = .ok out →
      AllPositive out → hasRoom split gap c rect.extent = true)
    (hcount : sizes.length = children.length)
    (h : layoutChildren err split checkSize gap axis rect children sizes cursor = .ok out)
    (hpos : AllPositive out) :
    hasRoomChildren split gap children axis rect.extent sizes = true := by
  induction children generalizing sizes cursor out with
  | nil => rw [hasRoomChildren]; simp
  | cons child children ihc =>
    obtain ⟨size, sizes, rfl⟩ := List.exists_cons_of_length_eq_add_one hcount
    rw [List.length_cons, List.length_cons, Nat.add_right_cancel_iff] at hcount
    rw [hasRoomChildren, Bool.and_eq_true, ← Rect.extent_segment cursor]
    cases children with
    | nil =>
      obtain ⟨-, -, -, hchild⟩ := layoutChildren_last_eq_ok.mp h
      exact ⟨ih child List.mem_cons_self hchild hpos, by rw [hasRoomChildren]; simp⟩
    | cons next children =>
      obtain ⟨-, -, -, -, -, here, rest, rfl, hchild, hrest⟩ := layoutChildren_cons_eq_ok.mp h
      obtain ⟨hpos, hposRest⟩ := allPositive_append.mp hpos
      exact ⟨ih child List.mem_cons_self hchild hpos,
        ihc (fun c hc => ih c (List.mem_cons_of_mem _ hc)) hcount hrest hposRest⟩

/-- A layout with positive leaves found room everywhere. -/
theorem hasRoom_of_layoutWith (hsplit : Exhausts split gap) (hgap : 0 ≤ gap) {n : Node}
    {rect : Rect} {out : List ProjectedLeaf} (hwf : n.WellFormed)
    (h : layoutWith err split checkSize gap n rect = .ok out) (hpos : AllPositive out) :
    hasRoom split gap n rect.extent = true := by
  induction n generalizing rect out with
  | leaf id => rw [hasRoom]
  | group id axis children shares ih =>
    have htiled := layoutWith_tiled hsplit hwf h
    obtain ⟨⟨hlen, hshares, -⟩, hcs⟩ := Node.wellFormed_group.mp hwf
    have hne : children ≠ [] := List.ne_nil_of_length_pos (by omega)
    rw [Tiled] at htiled
    have hroom := (TiledFrom.positive
      (fun c hc _ _ h => Tiled.positive (hcs c hc) hgap h) hne htiled hpos).1
    rw [layoutWith, bind_eq_ok] at h
    obtain ⟨sizes, hsizes, h⟩ := h
    exact hasRoom_group.mpr ⟨by omega, sizes, hsizes,
      hasRoomChildren_of_layoutChildren (fun c hc => ih c hc (hcs c hc))
        (hsplit hshares hne hsizes).1 h hpos⟩

theorem length_le_sum {sizes : List Int} (h : ∀ size ∈ sizes, 1 ≤ size) :
    (sizes.length : Int) ≤ sizes.sum := by
  induction sizes with
  | nil => simp
  | cons size sizes ih =>
    obtain ⟨hsize, hsizes⟩ := List.forall_mem_cons.mp h
    rw [List.length_cons, List.sum_cons]
    push_cast
    linarith [ih hsizes]

/-- With room for the gaps and a unit per child, every size a splitter returns
is positive. -/
def Reserves (split : Axis → List Node → List Nat → Int → Except ε (List Int)) (gap : Int) :
    Prop :=
  ∀ {axis children shares extent sizes}, Node.GroupOk (.group default axis children shares) →
    gap * (children.length - 1) + children.length ≤ extent →
    split axis children shares extent = .ok sizes → ∀ size ∈ sizes, 1 ≤ size

/-- A rectangle with positive extents whose edges are all `i32` values, so no
coordinate inside it overflows. -/
def Rect.Fits (r : Rect) : Prop :=
  ∀ axis, 1 ≤ r.extent axis ∧ IntRange.i32.lo ≤ r.start axis ∧
    r.extent axis ≤ IntRange.i32.hi ∧ r.start axis + r.extent axis ≤ IntRange.i32.hi

theorem fits_of_validRect {r : Rect} (h : validRect r = true) : r.Fits := by
  simp only [validRect, Bool.and_eq_true, decide_eq_true_eq, IntRange.isSome_checkedAdd] at h
  intro axis
  cases axis <;> simp only [Rect.extent, Rect.start] <;> omega

theorem Rect.Fits.segment {rect : Rect} {axis : Axis} {offset size : Int} (h : rect.Fits)
    (hsize : 1 ≤ size) (hlo : rect.start axis ≤ offset)
    (hhi : offset + size ≤ rect.start axis + rect.extent axis) :
    (rect.segment axis offset size).Fits := by
  intro axis'
  have haxis := h axis
  have haxis' := h axis'
  cases axis <;> cases axis' <;>
    simp only [Rect.segment, Rect.start, Rect.extent] at haxis haxis' hlo hhi ⊢ <;> omega

theorem layoutChildren_of_hasRoomChildren (err : String → ε) {children : List Node}
    {axis : Axis} {rect : Rect} {sizes : List Int} (cursor : Int) (hgap : 0 ≤ gap)
    (hcheck : ∀ size, 0 ≤ size → checkSize size = .ok ())
    (ih : ∀ c ∈ children, ∀ {rect : Rect}, rect.Fits → hasRoom split gap c rect.extent = true →
      ∃ out, layoutWith err split checkSize gap c rect = .ok out ∧ AllPositive out)
    (hne : children ≠ []) (hcount : sizes.length = children.length) (hfits : rect.Fits)
    (hstart : rect.start axis ≤ cursor)
    (hsum : cursor + sizes.sum + gap * (children.length - 1) =
      rect.start axis + rect.extent axis)
    (hsizes : ∀ size ∈ sizes, 1 ≤ size)
    (h : hasRoomChildren split gap children axis rect.extent sizes = true) :
    ∃ out, layoutChildren err split checkSize gap axis rect children sizes cursor = .ok out ∧
      AllPositive out := by
  induction children generalizing sizes cursor with
  | nil => exact absurd rfl hne
  | cons child children ihc =>
    obtain ⟨size, sizes, rfl⟩ := List.exists_cons_of_length_eq_add_one hcount
    rw [List.length_cons, List.length_cons, Nat.add_right_cancel_iff] at hcount
    rw [hasRoomChildren, Bool.and_eq_true, ← Rect.extent_segment cursor] at h
    obtain ⟨hsize, hsizes⟩ := List.forall_mem_cons.mp hsizes
    have haxis := hfits axis
    cases children with
    | nil =>
      obtain rfl := List.eq_nil_of_length_eq_zero hcount
      simp only [List.sum_cons, List.sum_nil, List.length_cons, List.length_nil] at hsum
      obtain ⟨out, hout, hpos⟩ := ih child List.mem_cons_self
        (hfits.segment hsize hstart (by omega)) h.1
      refine ⟨out, layoutChildren_last_eq_ok.mpr
        ⟨?_, hcheck size (by omega), ?_, hout⟩, hpos⟩ <;>
        simp only [IntRange.i32] at haxis ⊢ <;> omega
    | cons next children =>
      have hgaps := gaps_nonneg hgap next children
      have htotal := length_le_sum hsizes
      rw [gaps_cons, List.sum_cons] at hsum
      rw [hcount, List.length_cons] at htotal
      push_cast at htotal
      obtain ⟨here, hhere, hpos⟩ := ih child List.mem_cons_self
        (hfits.segment hsize hstart (by omega)) h.1
      obtain ⟨rest, hrest, hposRest⟩ := ihc (cursor + size + gap)
        (fun c hc => ih c (List.mem_cons_of_mem _ hc)) (by simp) hcount (by omega) (by omega) hsizes h.2
      refine ⟨here ++ rest, layoutChildren_cons_eq_ok.mpr
        ⟨?_, hcheck size (by omega), ?_, ?_, ?_, here, rest, rfl, hhere, hrest⟩,
        allPositive_append.mpr ⟨hpos, hposRest⟩⟩ <;>
        simp only [IntRange.i32, IntRange.i64] at haxis ⊢ <;> omega

/-- With room everywhere the layout succeeds and every leaf is positive. -/
theorem layoutWith_of_hasRoom (err : String → ε) (hsplit : Exhausts split gap) (hunit : Reserves split gap)
    (hcheck : ∀ size, 0 ≤ size → checkSize size = .ok ()) (hgap : 0 ≤ gap) {n : Node}
    {rect : Rect} (hwf : n.WellFormed) (hfits : rect.Fits)
    (h : hasRoom split gap n rect.extent = true) :
    ∃ out, layoutWith err split checkSize gap n rect = .ok out ∧ AllPositive out := by
  induction n generalizing rect with
  | leaf id =>
    have hrect : rect.Positive := fun axis => (hfits axis).1
    exact ⟨[⟨id, rect⟩], by rw [layoutWith], by simpa [AllPositive] using hrect⟩
  | group id axis children shares ih =>
    obtain ⟨hgroup, hcs⟩ := Node.wellFormed_group.mp hwf
    have hne : children ≠ [] := List.ne_nil_of_length_pos (by omega)
    obtain ⟨hroom, sizes, hsizes, h⟩ := hasRoom_group.mp h
    obtain ⟨hcount, hsum⟩ := hsplit hgroup.2.1 hne hsizes
    obtain ⟨out, hout, hpos⟩ := layoutChildren_of_hasRoomChildren err _ hgap hcheck
      (fun c hc _ => ih c hc (hcs c hc)) hne hcount hfits (Int.le_refl _) (by omega)
      (hunit hgroup hroom hsizes) h
    exact ⟨out, by rw [layoutWith, hsizes]; exact hout, hpos⟩

end

end PlasmaTiler
