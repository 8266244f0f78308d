import PlasmaTiler.Agreement
import PlasmaTiler.Guillotine

/-!
# Tree focus is screen focus

The focus planner never looks at the screen. It climbs from the focused leaf
to the innermost ancestor that has a sibling in the direction, and descends
into that from the near side. The user expects the window that is next to the
focused one.

On the screen every step of the climb keeps the far edge: across the
direction a child has the extent of its group, and along it a child without a
sibling ends where its group does. The sibling begins a gap further, and the
descent keeps its near edge. So the target's near edge is exactly a gap
beyond the far edge of the focused leaf, and where no ancestor has a sibling
the leaf lies at the edge of the output.

`Laid` says that a subtree takes a rectangle of the layout. The climb is an
induction on the levels from the inside out, one lemma for what a level does
to the far edge; the descent is one on the tree.
-/

namespace PlasmaTiler

namespace Rect

/-- The edge in the direction. -/
def far (direction : Direction) (r : Rect) : Int :=
  if stepFor direction = 1 then
    r.start (Axis.forDirection direction) + r.extent (Axis.forDirection direction)
  else r.start (Axis.forDirection direction)

/-- The edge against the direction. -/
def near (direction : Direction) (r : Rect) : Int :=
  if stepFor direction = 1 then r.start (Axis.forDirection direction)
  else r.start (Axis.forDirection direction) + r.extent (Axis.forDirection direction)

variable {direction : Direction} {r : Rect} {axis : Axis} {lo size : Int}

/-- A segment across the direction keeps both edges. -/
theorem segment_across (h : axis ≠ Axis.forDirection direction) :
    (r.segment axis lo size).far direction = r.far direction ∧
      (r.segment axis lo size).near direction = r.near direction := by
  have hcross : Axis.forDirection direction = cross axis := by
    cases axis <;> cases hdirection : Axis.forDirection direction <;> simp_all [cross]
  rw [far, far, near, near, hcross, segment_start_cross, segment_extent_cross]
  exact ⟨rfl, rfl⟩

theorem segment_far : (r.segment (Axis.forDirection direction) lo size).far direction =
    if stepFor direction = 1 then lo + size else lo := by
  rw [far, segment_start, segment_extent]

theorem segment_near : (r.segment (Axis.forDirection direction) lo size).near direction =
    if stepFor direction = 1 then lo else lo + size := by
  rw [near, segment_start, segment_extent]

end Rect

/-- A subtree takes a rectangle of the layout: its leaves tile that rectangle,
and all of them are among those laid out. -/
def Laid (gap : Int) (n : Node) (rect : Rect) (out : List ProjectedLeaf) : Prop :=
  ∃ part, Tiled gap n rect part ∧ part ⊆ out

section
variable {gap : Int} {rect : Rect} {out : List ProjectedLeaf} {axis : Axis} {cursor : Int}
  {before after children : List Node} {c n : Node} {direction : Direction} {x leaf : NodeId}
  {route : List NodeId}

/-- One child among its siblings. -/
theorem TiledFrom.around (h : TiledFrom gap (before ++ c :: after) axis rect cursor out) :
    ∃ lo size here rest, Tiled gap c (rect.segment axis lo size) here ∧ here ⊆ out ∧ rest ⊆ out ∧
      (before = [] → lo = cursor) ∧
      (after = [] → lo + size = rect.start axis + rect.extent axis) ∧
      (after ≠ [] → TiledFrom gap after axis rect (lo + size + gap) rest) := by
  induction before generalizing cursor out with
  | nil =>
    cases after with
    | nil =>
      rw [List.nil_append, TiledFrom] at h
      exact ⟨cursor, _, out, [], h, fun _ hp => hp, List.nil_subset _, fun _ => rfl, fun _ => by omega,
        fun hne => absurd rfl hne⟩
    | cons next after =>
      rw [List.nil_append, TiledFrom] at h
      obtain ⟨size, here, rest, rfl, hhere, hrest⟩ := h
      exact ⟨cursor, size, here, rest, hhere, List.subset_append_left _ _,
        List.subset_append_right _ _, fun _ => rfl, fun heq => absurd heq (List.cons_ne_nil _ _),
        fun _ => hrest⟩
  | cons first before ih =>
    obtain ⟨next, others, hnext⟩ : ∃ next others, before ++ c :: after = next :: others := by
      cases before with
      | nil => exact ⟨c, after, rfl⟩
      | cons next before => exact ⟨next, before ++ c :: after, rfl⟩
    rw [List.cons_append, hnext, TiledFrom] at h
    obtain ⟨size, here, rest, rfl, -, hrest⟩ := h
    rw [← hnext] at hrest
    obtain ⟨lo, size, part, tail, hpart, hin, htail, -, hlast, hafter⟩ := ih hrest
    exact ⟨lo, size, part, tail, hpart, List.Subset.trans hin (List.subset_append_right _ _),
      List.Subset.trans htail (List.subset_append_right _ _),
      fun heq => absurd heq (List.cons_ne_nil _ _), hlast, hafter⟩

theorem Laid.single (h : Laid gap (.leaf x) rect out) : ⟨x, rect⟩ ∈ out := by
  obtain ⟨part, hpart, hsub⟩ := h
  rw [Tiled] at hpart
  subst hpart
  exact hsub List.mem_cons_self

/-! ## The descent -/

theorem descendFocusLast_eq {r : NodeId × List NodeId}
    (h : descendFocusLast direction children = some r) :
    ∃ init last, children = init ++ [last] ∧ descendFocusTarget direction last = some r := by
  induction children with
  | nil => cases h
  | cons first children ih =>
    cases children with
    | nil => exact ⟨[], first, rfl, h⟩
    | cons next children =>
      rw [descendFocusLast] at h
      obtain ⟨init, last, heq, hlast⟩ := ih h
      exact ⟨first :: init, last, by rw [heq]; rfl, hlast⟩

theorem stepFor_ne_one (h : stepFor direction ≠ 1) : stepFor direction = -1 := by
  cases direction <;> simp_all [stepFor]

/-- The leaf entered lies at the near edge: every group is entered at the
child next to where the focus came from, or across, where all children touch
the edge. -/
theorem Laid.descend (h : Laid gap n rect out)
    (hdescend : descendFocusTarget direction n = some (leaf, route)) :
    ∃ p ∈ out, p.leaf = leaf ∧ p.rect.near direction = rect.near direction := by
  induction n generalizing rect route with
  | leaf id =>
    cases hdescend
    exact ⟨_, h.single, rfl, rfl⟩
  | group id axis children shares ih =>
    obtain ⟨part, hpart, hsub⟩ := h
    rw [Tiled] at hpart
    rw [descendFocusTarget] at hdescend
    obtain ⟨⟨entered, inner⟩, hentered, heq⟩ := Option.map_eq_some_iff.mp hdescend
    cases heq
    split at hentered
    · rename_i hlast
      obtain ⟨rfl, hstep⟩ := hlast
      obtain ⟨init, last, rfl, htarget⟩ := descendFocusLast_eq hentered
      obtain ⟨lo, size, here, -, hhere, hin, -, -, hend, -⟩ := hpart.around
      obtain ⟨p, hp, hleaf, hnear⟩ := ih last (by simp) ⟨here, hhere, List.Subset.trans hin hsub⟩ htarget
      refine ⟨p, hp, hleaf, ?_⟩
      rw [hnear, Rect.segment_near, if_neg hstep, Rect.near, if_neg hstep]
      exact hend rfl
    · rename_i hfirst
      cases children with
      | nil => cases hentered
      | cons first children =>
        rw [descendFocusFirst] at hentered
        have hhead : TiledFrom gap ([] ++ first :: children) axis rect (rect.start axis) part := hpart
        obtain ⟨lo, size, here, -, hhere, hin, -, hstart, -, -⟩ := hhead.around
        obtain ⟨p, hp, hleaf, hnear⟩ := ih first List.mem_cons_self ⟨here, hhere, List.Subset.trans hin hsub⟩
          hentered
        refine ⟨p, hp, hleaf, ?_⟩
        rw [hnear]
        by_cases haxis : axis = Axis.forDirection direction
        · subst haxis
          have hstep : stepFor direction = 1 := not_not.mp fun hne => hfirst ⟨rfl, hne⟩
          rw [Rect.segment_near, if_pos hstep, Rect.near, if_pos hstep]
          exact hstart rfl
        · exact (Rect.segment_across haxis).2

/-! ## The climb -/

theorem focusSibling_append {wanted : Axis} {step : Int} {inner above : List PathLevel} :
    focusSibling wanted step (inner ++ above) =
      (focusSibling wanted step inner).or (focusSibling wanted step above) := by
  induction inner with
  | nil => rfl
  | cons level inner ih =>
    rw [List.cons_append, focusSibling, focusSibling]
    split
    · exact ih
    · split
      · rfl
      · exact ih

/-- A level's child without a sibling in the direction is the last that way. -/
theorem last_of_neighborOf {f : Frame}
    (h : neighborOf ⟨f.id, f.axis, f.before.length, f.before ++ c :: f.after⟩ (stepFor direction) = none) :
    if stepFor direction = 1 then f.after = [] else f.before = [] := by
  unfold neighborOf at h
  dsimp only at h
  split
  · rename_i hstep
    rw [hstep, if_pos (by omega), Option.map_eq_none_iff, List.getElem?_eq_none_iff, List.length_append,
      List.length_cons] at h
    exact List.length_eq_zero_iff.mp (by omega)
  · rename_i hstep
    rw [stepFor_ne_one hstep] at h
    by_contra hne
    have hpos := List.length_pos_iff.mpr hne
    rw [if_pos (by omega), Option.map_eq_none_iff, List.getElem?_eq_none_iff, List.length_append] at h
    omega

theorem focusSibling_single {wanted : Axis} {step : Int} {level : PathLevel} :
    focusSibling wanted step [level] =
      if level.axis = wanted then (neighborOf level step).map Prod.snd else none := by
  rw [focusSibling, focusSibling]
  by_cases haxis : level.axis = wanted
  · rw [if_neg (not_not.mpr haxis), if_pos haxis]
    cases neighborOf level step <;> rfl
  · rw [if_pos haxis, if_neg haxis]

/-- Two neighbours are a gap apart. -/
theorem Laid.neighbor {pre post : List Node} {c next : Node} {part : List ProjectedLeaf}
    (h : TiledFrom gap (pre ++ c :: next :: post) axis rect cursor part) (hsub : part ⊆ out) :
    ∃ lo size lo' size', Laid gap c (rect.segment axis lo size) out ∧
      Laid gap next (rect.segment axis lo' size') out ∧ lo' = lo + size + gap := by
  obtain ⟨lo, size, here, rest, hhere, hin, hrest, -, -, hafter⟩ := h.around
  have hnext : TiledFrom gap ([] ++ next :: post) axis rect (lo + size + gap) rest :=
    hafter (List.cons_ne_nil _ _)
  obtain ⟨lo', size', part', -, hpart', hin', -, hstart, -⟩ := hnext.around
  exact ⟨lo, size, lo', size', ⟨here, hhere, List.Subset.trans hin hsub⟩,
    ⟨part', hpart', List.Subset.trans hin' (List.Subset.trans hrest hsub)⟩, hstart rfl⟩

/-- What one level of the climb makes of the far edge: without a neighbor the
child's edge is the group's own, and with one the neighbor begins a gap beyond
it. -/
theorem Laid.level {f : Frame} (h : Laid gap (f.fill c) rect out) :
    ∃ r, Laid gap c r out ∧
      match focusSibling (Axis.forDirection direction) (stepFor direction)
          [⟨f.id, f.axis, f.before.length, f.before ++ c :: f.after⟩] with
      | none => r.far direction = rect.far direction
      | some sibling => ∃ s, Laid gap sibling s out ∧
          s.near direction = r.far direction + stepFor direction * gap := by
  obtain ⟨part, hpart, hsub⟩ := h
  rw [Frame.fill, Tiled] at hpart
  rw [focusSibling_single]
  by_cases haxis : f.axis = Axis.forDirection direction
  · rw [if_pos haxis]
    rw [haxis] at hpart
    cases hneighbor : neighborOf ⟨f.id, f.axis, f.before.length, f.before ++ c :: f.after⟩
        (stepFor direction) with
    | none =>
      have hlast := last_of_neighborOf hneighbor
      obtain ⟨lo, size, here, -, hhere, hin, -, hstart, hend, -⟩ := hpart.around
      refine ⟨_, ⟨here, hhere, List.Subset.trans hin hsub⟩, ?_⟩
      rw [Option.map_none, Rect.segment_far, Rect.far]
      dsimp only
      split
      · rename_i hstep
        rw [if_pos hstep] at hlast
        exact hend hlast
      · rename_i hstep
        rw [if_neg hstep] at hlast
        exact hstart hlast
    | some found =>
      obtain ⟨i, sibling⟩ := found
      obtain ⟨-, -, pre, post, ⟨hcut, hpre, -, hstep⟩ | ⟨hcut, hpre, -, hstep⟩⟩ :=
        neighborOf_cut hneighbor
      · rw [hcut] at hpart
        obtain ⟨lo, size, lo', size', hchild, hsibling, heq⟩ := Laid.neighbor hpart hsub
        refine ⟨_, hchild, _, hsibling, ?_⟩
        rw [Rect.segment_near, Rect.segment_far, if_pos hstep, if_pos hstep, hstep]
        omega
      · rw [hcut] at hpart
        obtain ⟨lo, size, lo', size', hsibling, hchild, heq⟩ := Laid.neighbor hpart hsub
        refine ⟨_, hchild, _, hsibling, ?_⟩
        have hback : ¬stepFor direction = 1 := by omega
        rw [Rect.segment_near, Rect.segment_far, if_neg hback, if_neg hback, hstep]
        omega
  · rw [if_neg haxis]
    obtain ⟨lo, size, here, -, hhere, hin, -⟩ := hpart.around
    exact ⟨_, ⟨here, hhere, List.Subset.trans hin hsub⟩, (Rect.segment_across haxis).1⟩

/-- The climb from a leaf: up to the sibling found the far edge stays, and
the sibling is a gap further; without one it is the edge of the whole. -/
theorem Laid.climb {ctx : Context} (h : Laid gap (ctx.fill (.leaf x)) rect out) :
    ∃ p ∈ out, p.leaf = x ∧
      match focusSibling (Axis.forDirection direction) (stepFor direction)
          (Context.levels ctx (.leaf x)).reverse with
      | none => p.rect.far direction = rect.far direction
      | some sibling => ∃ s, Laid gap sibling s out ∧
          s.near direction = p.rect.far direction + stepFor direction * gap := by
  induction ctx generalizing rect with
  | nil => exact ⟨_, h.single, rfl, rfl⟩
  | cons f ctx ih =>
    obtain ⟨r, hr, hlevel⟩ := @Laid.level _ _ _ (Context.fill ctx (.leaf x)) direction f h
    obtain ⟨p, hp, hleaf, hclimb⟩ := ih hr
    refine ⟨p, hp, hleaf, ?_⟩
    rw [Context.levels, List.reverse_cons, focusSibling_append]
    cases hinner : focusSibling (Axis.forDirection direction) (stepFor direction)
        (Context.levels ctx (.leaf x)).reverse with
    | some sibling =>
      rw [hinner] at hclimb
      exact hclimb
    | none =>
      rw [hinner] at hclimb
      rw [Option.none_or]
      split
      · rename_i houter
        rw [houter] at hlevel
        exact hclimb.trans hlevel
      · rename_i sibling houter
        rw [houter] at hlevel
        obtain ⟨s, hs, hnear⟩ := hlevel
        exact ⟨s, hs, hnear.trans (by rw [hclimb])⟩

/-- On the screen the focus planner's target begins exactly a gap beyond the
focused leaf, and where it finds an edge the leaf lies at the edge of the
bounds. -/
theorem planFocus_on_screen {tree : Node} {bounds : Rect} {focused : NodeId}
    (h : project tree bounds gap = .ok out) :
    (∀ leaf route, planFocus tree focused direction = some (.focused leaf route) →
      ∃ p ∈ out, ∃ q ∈ out, p.leaf = focused ∧ q.leaf = leaf ∧
        q.rect.near direction = p.rect.far direction + stepFor direction * gap) ∧
    (planFocus tree focused direction = some .edge →
      ∃ p ∈ out, p.leaf = focused ∧ p.rect.far direction = bounds.far direction) ∧
    (out.map ProjectedLeaf.leaf).Nodup := by
  have hwell := project_wellFormed h
  obtain ⟨-, -, ⟨-, hfresh⟩, -⟩ := project_eq_ok.mp h
  have hlaid : Laid gap tree bounds out := ⟨out, hwell.tiled, fun _ hp => hp⟩
  -- the planner's path is the context of the focused leaf
  have hplan : ∀ plan, planFocus tree focused direction = some plan →
      ∃ ctx : Context, tree = ctx.fill (.leaf focused) ∧
        (focusSibling (Axis.forDirection direction) (stepFor direction)
            (Context.levels ctx (.leaf focused)).reverse = none ∧ plan = .edge ∨
          ∃ sibling leaf route, focusSibling (Axis.forDirection direction) (stepFor direction)
              (Context.levels ctx (.leaf focused)).reverse = some sibling ∧
            descendFocusTarget direction sibling = some (leaf, route) ∧
            plan = .focused leaf route) := by
    intro plan hplan
    unfold planFocus at hplan
    split at hplan
    · cases hplan
    split at hplan
    · cases hplan
    obtain ⟨path, hpath, hplan⟩ := Option.bind_eq_some_iff.mp hplan
    obtain ⟨ctx, htree, rfl⟩ := pathTo_context hpath
    refine ⟨ctx, htree, ?_⟩
    split at hplan
    · cases hplan
      exact .inl ⟨‹_›, rfl⟩
    · obtain ⟨target, htarget, rfl⟩ := Option.map_eq_some_iff.mp hplan
      exact .inr ⟨_, target.1, target.2, ‹_›, htarget, rfl⟩
  refine ⟨fun leaf route hfocused => ?_, fun hedge => ?_, ?_⟩
  · obtain ⟨ctx, rfl, ⟨-, heq⟩ | ⟨sibling, _, _, hsibling, htarget, heq⟩⟩ := hplan _ hfocused
    · cases heq
    · obtain ⟨p, hp, hleaf, hclimb⟩ := @Laid.climb _ _ _ direction _ ctx hlaid
      rw [hsibling] at hclimb
      obtain ⟨s, hs, hbeyond⟩ := hclimb
      cases heq
      obtain ⟨q, hq, hqleaf, hnear⟩ := hs.descend htarget
      exact ⟨p, hp, q, hq, hleaf, hqleaf, hnear.trans hbeyond⟩
  · obtain ⟨ctx, rfl, ⟨hnone, -⟩ | ⟨_, _, _, -, -, heq⟩⟩ := hplan _ hedge
    · obtain ⟨p, hp, hleaf, hclimb⟩ := @Laid.climb _ _ _ direction _ ctx hlaid
      rw [hnone] at hclimb
      exact ⟨p, hp, hleaf, hclimb⟩
    · cases heq
  · rw [hwell.tiled.leaves]
    exact (Node.leaves_sublist_ids tree).nodup hfresh.2.1

/-- From the left of two tiles to the right one. -/
theorem planFocus_on_screen_pair :
    ∃ p ∈ [⟨⟨"a"⟩, ⟨0, 0, 45, 50⟩⟩, (⟨⟨"b"⟩, ⟨55, 0, 45, 50⟩⟩ : ProjectedLeaf)],
      ∃ q ∈ [⟨⟨"a"⟩, ⟨0, 0, 45, 50⟩⟩, (⟨⟨"b"⟩, ⟨55, 0, 45, 50⟩⟩ : ProjectedLeaf)],
        p.leaf = ⟨"a"⟩ ∧ q.leaf = ⟨"b"⟩ ∧ q.rect.near .right = p.rect.far .right + 1 * 10 := by
  have hproject : project (.group ⟨"g"⟩ .horizontal [.leaf ⟨"a"⟩, .leaf ⟨"b"⟩] [1, 1]) ⟨0, 0, 100, 50⟩ 10 =
      .ok [⟨⟨"a"⟩, ⟨0, 0, 45, 50⟩⟩, ⟨⟨"b"⟩, ⟨55, 0, 45, 50⟩⟩] := by decide +kernel
  exact (@planFocus_on_screen _ _ .right _ _ ⟨"a"⟩ hproject).1 ⟨"b"⟩ [⟨"b"⟩] (by decide +kernel)

end

end PlasmaTiler
