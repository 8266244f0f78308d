import PlasmaTiler.Folds
import PlasmaTiler.Guillotine

/-!
# What the startup fit finds

At startup the windows are where the user left them, and the fit looks for a
tree whose projection would put them there. It cuts the region along an axis
wherever a line separates the windows, and where no line does it splits at
the largest distance between centres.

A fit is a tree over exactly the observed windows (`buildRegion_fitted`). It
does not depend on the order the windows are listed in when their rectangles
differ (`buildRegion_congr`): clean parts are stretches of a total order, and
a centre split separates strictly different centres, so ties stay together.

A guillotine arrangement, windows that show rectangles of a well formed
projection, is built of clean cuts alone (`buildRegion_clean`). The induction
is on the number of windows in a region and not on the projected tree, because
windows can be missing and a cut of the builder need not be a cut of the tree.
What survives every cut is that a part of a guillotine arrangement is one
(`Cuttable.part`), and that two or more such windows have a cut on one axis or
the other.

`startup_fit` collects it with the answer: past the checks on the input
(`Fittable`) such windows are answered by what is built, without a centre
split, unless that does not project; and a list that fails the checks is
declined for that, and not for want of a cut.
-/

namespace PlasmaTiler

namespace Seed

/-! ## Parts of a region -/

section
variable {members ordered : List Item} {axis : Axis} {tol : Int} {cuts : List Nat} {start : Nat}

/-- Cut positions increase and leave a window after the last one. -/
def CutsOf (n start : Nat) (cuts : List Nat) : Prop :=
  cuts.Pairwise (· < ·) ∧ ∀ c ∈ cuts, start ≤ c ∧ c + 1 < n

theorem validCuts_cutsOf : CutsOf members.length 0 (validCuts members axis tol) := by
  constructor
  · exact List.pairwise_lt_range.filter _
  · intro c hc
    have hc := List.mem_range.mp (List.mem_of_mem_filter hc)
    rw [perm_sortForAxis.length_eq] at hc
    omega

theorem CutsOf.tail {c : Nat} (h : CutsOf ordered.length start (c :: cuts)) :
    CutsOf ordered.length (c + 1) cuts := by
  obtain ⟨hlt, hcuts⟩ := List.pairwise_cons.mp h.1
  exact ⟨hcuts, fun d hd => ⟨hlt d hd, (h.2 d (List.mem_cons_of_mem _ hd)).2⟩⟩

theorem flatten_cutParts (h : CutsOf ordered.length start cuts) :
    (cutParts ordered start cuts).flatten = ordered.drop start := by
  induction cuts generalizing start with
  | nil => simp [cutParts]
  | cons c cuts ih =>
    have hc := (h.2 c List.mem_cons_self).1
    rw [cutParts, List.flatten_cons, ih h.tail]
    conv_rhs => rw [← List.take_append_drop (c + 1) ordered,
      List.drop_append_of_le_length (by
        have := (h.2 c List.mem_cons_self).2
        rw [List.length_take]
        omega)]

theorem cutParts_ne_nil (hstart : start < ordered.length) (h : CutsOf ordered.length start cuts) :
    ∀ part ∈ cutParts ordered start cuts, part ≠ [] := by
  induction cuts generalizing start with
  | nil =>
    intro part hpart
    rw [cutParts, List.mem_singleton] at hpart
    subst hpart
    exact List.ne_nil_of_length_pos (by rw [List.length_drop]; omega)
  | cons c cuts ih =>
    obtain ⟨hc, hlast⟩ := h.2 c List.mem_cons_self
    intro part hpart
    rcases List.mem_cons.mp hpart with rfl | hpart
    · exact List.ne_nil_of_length_pos (by rw [List.length_drop, List.length_take]; omega)
    · exact ih hlast h.tail part hpart

/-- Any cut leaves every part shorter than the region. -/
theorem length_lt_of_mem_cutParts (h : CutsOf ordered.length 0 cuts) (hne : cuts ≠ []) :
    ∀ part ∈ cutParts ordered 0 cuts, part.length < ordered.length := by
  obtain ⟨c, cuts, rfl⟩ := List.exists_cons_of_ne_nil hne
  obtain ⟨-, hlast⟩ := h.2 c List.mem_cons_self
  intro part hpart
  rcases List.mem_cons.mp hpart with rfl | hpart
  · rw [List.drop_zero, List.length_take]
    omega
  · have hle := (List.sublist_flatten_of_mem hpart).length_le
    rw [flatten_cutParts h.tail, List.length_drop] at hle
    omega

theorem perm_flatten_cutParts (h : CutsOf members.length 0 cuts) :
    (cutParts (sortForAxis members axis) 0 cuts).flatten.Perm members := by
  rw [flatten_cutParts (by rwa [perm_sortForAxis.length_eq]), List.drop_zero]
  exact perm_sortForAxis

end

/-! ## The order of the members -/

section
variable {members members' : List Item} {axis : Axis} {tol : Int}

/-- The rectangles tell the members apart. -/
def Distinct (members : List Item) : Prop := (members.map Prod.snd).Nodup

theorem Distinct.eq {a b : Item} (h : Distinct members) (ha : a ∈ members) (hb : b ∈ members)
    (hab : a.2 = b.2) : a = b :=
  List.inj_on_of_nodup_map h ha hb hab

theorem Distinct.subperm {part : List Item} (h : Distinct members) (hpart : part.Subperm members) :
    Distinct part := by
  obtain ⟨part', hperm, hsub⟩ := hpart
  exact (hperm.map _).nodup_iff.mp ((hsub.map _).nodup h)

theorem sortForAxis_congr (hperm : members.Perm members') (h : Distinct members) :
    sortForAxis members axis = sortForAxis members' axis := by
  refine List.Perm.eq_of_pairwise (fun a b ha hb hab hba => ?_) sortForAxis_pairwise
    sortForAxis_pairwise (perm_sortForAxis.trans (hperm.trans perm_sortForAxis.symm))
  exact h.eq (perm_sortForAxis.subset ha) (hperm.symm.subset (perm_sortForAxis.subset hb))
    (sortKey_inj (le_antisymm hab hba))

theorem validCuts_congr (hperm : members.Perm members') (h : Distinct members) :
    validCuts members axis tol = validCuts members' axis tol := by
  simp only [validCuts, sortForAxis_congr hperm h]

theorem centreKeys_pairwise : (centreKeys members axis).Pairwise (· ≤ ·) := sortByKey_pairwise

theorem centreKeys_congr (hperm : members.Perm members') :
    centreKeys members axis = centreKeys members' axis :=
  List.Perm.eq_of_pairwise (fun _ _ _ _ => le_antisymm) centreKeys_pairwise centreKeys_pairwise
    (perm_sortByKey.trans ((hperm.map _).trans perm_sortByKey.symm))

theorem centreGap_congr (hperm : members.Perm members') :
    centreGap members axis = centreGap members' axis := by
  simp only [centreGap, centreKeys_congr hperm]

theorem maxSpan_congr (hperm : members.Perm members') :
    maxSpan members axis = maxSpan members' axis := by
  have hspans := hperm.map fun item => primarySpan item.2 axis
  have hmax : ∀ {l l' : List Int} {m : Int}, l.Perm l' → l.max? = some m → l'.max? = some m := by
    intro l l' m hl hm
    rw [List.max?_eq_some_iff] at hm ⊢
    exact ⟨hl.subset hm.1, fun b hb => hm.2 b (hl.symm.subset hb)⟩
  simp only [maxSpan]
  congr 1
  cases hm : (members.map fun item => primarySpan item.2 axis).max? with
  | some m => exact (hmax hspans hm).symm
  | none =>
    rw [List.max?_eq_none_iff.mp hm] at hspans
    rw [← hspans.nil_eq]
    rfl

/-! ## Centre splits -/

def centre (axis : Axis) (item : Item) : Int :=
  2 * primaryStart item.2 axis + primarySpan item.2 axis

theorem perm_sortByCentre : (sortByCentre members axis).Perm members := perm_sortByKey

theorem sortByCentre_pairwise :
    (sortByCentre members axis).Pairwise fun a b => centre axis a ≤ centre axis b := by
  refine sortByKey_pairwise.imp fun {a b} h => ?_
  cases axis <;>
    · simp only [centreOrder, Prod.Lex.toLex_le_toLex] at h
      simp only [centre, primaryStart, primarySpan, Rect.start, Rect.extent]
      rcases h with h | h
      · exact h.le
      · exact h.1.le

/-- The centres of the split order are the sorted centres. -/
theorem map_centre_sortByCentre : (sortByCentre members axis).map (centre axis) =
    (centreKeys members axis).map fun key => (ofLex key).1 := by
  refine List.Perm.eq_of_pairwise (fun _ _ _ _ => le_antisymm)
    (List.pairwise_map.mpr sortByCentre_pairwise) (List.pairwise_map.mpr ?_) ?_
  · refine centreKeys_pairwise.imp fun {a b} h => ?_
    rcases (Prod.Lex.le_iff).mp h with h | h
    · exact h.le
    · exact h.1.le
  · refine (perm_sortByCentre.map _).trans ?_
    refine List.Perm.trans ?_ (perm_sortByKey.map _).symm
    rw [List.map_map]
    exact List.Perm.of_eq rfl

/-- A positive gap lies between two neighbouring centres. -/
theorem centreGap_pos (h : 0 < (centreGap members axis).1) :
    (centreGap members axis).2 + 1 < members.length ∧
      (centreGap members axis).1 =
        centreAt (centreKeys members axis) ((centreGap members axis).2 + 1) -
          centreAt (centreKeys members axis) (centreGap members axis).2 := by
  have hlen : (centreKeys members axis).length = members.length :=
    perm_sortByKey.length_eq.trans (List.length_map _)
  have key : ∀ best : Int × Nat, best = centreGap members axis →
      best.1 = 0 ∨ (best.2 + 1 < members.length ∧
        best.1 = centreAt (centreKeys members axis) (best.2 + 1) -
          centreAt (centreKeys members axis) best.2) := by
    rintro _ rfl
    refine foldl_keeps (P := fun best : Int × Nat => best.1 = 0 ∨ (best.2 + 1 < members.length ∧
      best.1 = centreAt (centreKeys members axis) (best.2 + 1) -
        centreAt (centreKeys members axis) best.2)) ?_ (Or.inl rfl)
    intro best i hi hbest
    have hi := List.mem_range.mp hi
    dsimp only
    split
    · exact Or.inr ⟨by dsimp only; omega, rfl⟩
    · exact hbest
  rcases key _ rfl with h0 | h1
  · omega
  · exact h1

/-- A centre split puts the windows up to a centre on one side and the
others on the other side. -/
theorem centreSplit_filter {g : Int} {i : Nat} (hi : i + 1 < members.length)
    (hgap : g = centreAt (centreKeys members axis) (i + 1) - centreAt (centreKeys members axis) i)
    (hpos : 0 < g) :
    (∀ item ∈ (sortByCentre members axis).take (i + 1),
        centre axis item ≤ centreAt (centreKeys members axis) i) ∧
      ∀ item ∈ (sortByCentre members axis).drop (i + 1),
        ¬ centre axis item ≤ centreAt (centreKeys members axis) i := by
  have hlen : (sortByCentre members axis).length = members.length := perm_sortByCentre.length_eq
  have hat : ∀ j (_ : j < members.length) (_ : j < (sortByCentre members axis).length),
      centreAt (centreKeys members axis) j = centre axis (sortByCentre members axis)[j] := by
    intro j hj _
    have hkeys : (centreKeys members axis).length = members.length :=
      perm_sortByKey.length_eq.trans (List.length_map _)
    have := congrArg (fun l => l[j]?) (@map_centre_sortByCentre members axis)
    simp only [List.getElem?_map] at this
    rw [List.getElem?_eq_getElem (by omega), List.getElem?_eq_getElem (by omega)] at this
    simp only [Option.map_some, Option.some.injEq] at this
    rw [this, centreAt, List.getD_eq_getElem?_getD, List.getElem?_eq_getElem (by omega)]
    rfl
  have hsorted := @sortByCentre_pairwise members axis
  rw [List.pairwise_iff_getElem] at hsorted
  constructor
  · intro item hitem
    obtain ⟨j, hj, rfl⟩ := List.mem_iff_getElem.mp hitem
    rw [List.length_take] at hj
    rw [List.getElem_take, hat i (by omega) (by omega)]
    rcases Nat.lt_or_ge j i with hlt | hge
    · exact hsorted j i (by omega) (by omega) hlt
    · obtain rfl : j = i := by omega
      exact le_rfl
  · intro item hitem
    obtain ⟨j, hj, rfl⟩ := List.mem_iff_getElem.mp hitem
    rw [List.length_drop] at hj
    rw [List.getElem_drop]
    have hfirst : i + 1 < (sortByCentre members axis).length := by omega
    have hlater : i + 1 + j < (sortByCentre members axis).length := by omega
    have hnext : centre axis (sortByCentre members axis)[i + 1] ≤
        centre axis (sortByCentre members axis)[i + 1 + j] := by
      rcases Nat.eq_zero_or_pos j with rfl | hpos
      · exact le_rfl
      · exact hsorted (i + 1) (i + 1 + j) (by omega) (by omega) (by omega)
    rw [← hat (i + 1) hi hfirst] at hnext
    omega

/-- Both sides of a centre split hold the same windows in any order. -/
theorem centreSplit_congr (hperm : members.Perm members') {g : Int} {i : Nat}
    (hi : i + 1 < members.length)
    (hgap : g = centreAt (centreKeys members axis) (i + 1) - centreAt (centreKeys members axis) i)
    (hpos : 0 < g) :
    ((sortByCentre members axis).take (i + 1)).Perm ((sortByCentre members' axis).take (i + 1)) ∧
      ((sortByCentre members axis).drop (i + 1)).Perm
        ((sortByCentre members' axis).drop (i + 1)) := by
  obtain ⟨hleft, hright⟩ := centreSplit_filter hi hgap hpos
  obtain ⟨hleft', hright'⟩ := @centreSplit_filter members' axis g _
    (by rwa [← hperm.length_eq]) (by rwa [← centreKeys_congr hperm]) hpos
  rw [← centreKeys_congr hperm] at hleft' hright'
  have hsorts : (sortByCentre members axis).Perm (sortByCentre members' axis) :=
    perm_sortByCentre.trans (hperm.trans perm_sortByCentre.symm)
  constructor
  · rw [← filter_eq_take (p := fun item => decide (centre axis item ≤ _)) (by simpa using hleft)
        (by simpa using hright),
      ← filter_eq_take (p := fun item => decide (centre axis item ≤ _)) (by simpa using hleft')
        (by simpa using hright')]
    exact hsorts.filter _
  · rw [← filter_eq_drop (p := fun item => decide (¬ centre axis item ≤ _)) (by simpa using hleft)
        (by simpa using hright),
      ← filter_eq_drop (p := fun item => decide (¬ centre axis item ≤ _)) (by simpa using hleft')
        (by simpa using hright')]
    exact hsorts.filter _

end

/-! ## Regions do not depend on the order of their members -/

section
variable {domain : OutputDomain} {region : Region}

/-- A region is built the same from any order of the same windows, if their
rectangles are all different. -/
def OrderFree (region : Region) : Prop :=
  ∀ (members members' : List Item) (axis : Axis) (alloc : Alloc), members.Perm members' →
    Distinct members → region members axis alloc = region members' axis alloc

theorem buildPart_congr (hregion : OrderFree region) {part part' : List Item} {axis : Axis}
    {alloc : Alloc} (hperm : part.Perm part') (h : Distinct part) :
    buildPart region domain axis alloc part = buildPart region domain axis alloc part' := by
  match part, part', hperm with
  | [item], part', hperm => rw [List.singleton_perm.mp hperm]
  | [], part', hperm => rw [hperm.nil_eq]
  | a :: b :: part, [], hperm => exact absurd hperm.length_eq (by simp)
  | a :: b :: part, [item], hperm => exact absurd hperm.length_eq (by simp)
  | a :: b :: part, c :: d :: part', hperm => exact hregion _ _ _ _ hperm h

theorem buildCentre_congr (hregion : OrderFree region) {members members' : List Item}
    {axis : Axis} {alloc : Alloc} (hperm : members.Perm members') (h : Distinct members)
    (hpos : 0 < (centreGap members axis).1) :
    buildCentre region domain members axis (centreGap members axis).2 alloc =
      buildCentre region domain members' axis (centreGap members axis).2 alloc := by
  obtain ⟨hi, hgap⟩ := centreGap_pos hpos
  obtain ⟨hleft, hright⟩ := centreSplit_congr hperm hi hgap hpos
  have hleftDistinct : Distinct ((sortByCentre members axis).take ((centreGap members axis).2 + 1)) :=
    h.subperm ((List.take_sublist _ _).subperm.trans perm_sortByCentre.subperm)
  have hrightDistinct :
      Distinct ((sortByCentre members axis).drop ((centreGap members axis).2 + 1)) :=
    h.subperm ((List.drop_sublist _ _).subperm.trans perm_sortByCentre.subperm)
  simp only [buildCentre, buildGroup, buildParts, maxSpan_congr hleft, maxSpan_congr hright,
    buildPart_congr hregion hleft hleftDistinct, buildPart_congr hregion hright hrightDistinct]

theorem buildRegionWith_congr (hregion : OrderFree region) :
    OrderFree (buildRegionWith region domain) := by
  intro members members' axis alloc hperm h
  have hsort : ∀ axis, sortForAxis members axis = sortForAxis members' axis := fun axis =>
    sortForAxis_congr hperm h
  simp only [buildRegionWith, buildClean, hperm.length_eq, validCuts_congr hperm h, hsort,
    ← centreGap_congr hperm]
  by_cases hflat : (centreGap members .horizontal).1 ≤ 0 ∧ (centreGap members .vertical).1 ≤ 0
  · simp only [hflat, and_self, if_true]
  · simp only [hflat, if_false]
    by_cases hle : (centreGap members .vertical).1 ≤ (centreGap members .horizontal).1
    · simp only [hle, if_true]
      rw [buildCentre_congr hregion hperm h (by omega)]
    · simp only [hle, if_false]
      rw [buildCentre_congr hregion hperm h (by omega)]

theorem buildRegion_congr (domain : OutputDomain) (depth : Nat) :
    OrderFree (buildRegion domain depth) := by
  induction depth with
  | zero => exact fun _ _ _ _ _ _ => rfl
  | succ depth ih => exact buildRegionWith_congr ih

/-! ## A built region holds its members -/

/-- The links give every member one leaf of the tree, in the order of the
leaves, and home it on the domain. -/
structure Fitted (domain : OutputDomain) (members : List Item) (built : Built) : Prop where
  leaves : built.links.map WindowLink.leaf = built.tree.leaves
  windows : (built.links.map WindowLink.window).Perm (members.map Prod.fst)
  homed : ∀ link ∈ built.links, link.output = domain.id ∧ link.workspace = domain.workspace

theorem buildPart_fitted {axis : Axis} {alloc : Alloc} {part : List Item} {built : Built}
    (hregion : ∀ part axis alloc built, region part axis alloc = some built →
      Fitted domain part built)
    (h : buildPart region domain axis alloc part = some built) : Fitted domain part built := by
  match part with
  | [item] =>
    obtain rfl := Option.some.inj h
    exact ⟨by simp, by simp, by simp⟩
  | [] => exact hregion _ _ _ _ h
  | a :: b :: part => exact hregion _ _ _ _ h

theorem buildParts_fitted {axis : Axis} {share : List Item → Option Nat}
    {parts : List (List Item)} {alloc : Alloc} {built : BuiltParts}
    (hregion : ∀ part axis alloc built, region part axis alloc = some built →
      Fitted domain part built)
    (h : buildParts region domain axis share parts alloc = some built) :
    built.links.map WindowLink.leaf = built.children.flatMap Node.leaves ∧
      (built.links.map WindowLink.window).Perm (parts.flatten.map Prod.fst) ∧
      ∀ link ∈ built.links, link.output = domain.id ∧ link.workspace = domain.workspace := by
  induction parts generalizing alloc built with
  | nil =>
    obtain rfl := Option.some.inj h
    simp
  | cons part parts ih =>
    simp only [buildParts, Option.bind_eq_bind, Option.bind_eq_some_iff, Option.pure_def,
      Option.some.injEq] at h
    obtain ⟨_, -, child, hchild, rest, hrest, rfl⟩ := h
    have hfit := buildPart_fitted hregion hchild
    obtain ⟨hleaves, hwindows, hhomed⟩ := ih hrest
    refine ⟨?_, ?_, ?_⟩
    · rw [List.map_append, hfit.leaves, hleaves, List.flatMap_cons]
    · rw [List.map_append, List.flatten_cons, List.map_append]
      exact hfit.windows.append hwindows
    · intro link hlink
      exact (List.mem_append.mp hlink).elim (hfit.homed link) (hhomed link)

theorem buildGroup_fitted {axis : Axis} {share : List Item → Option Nat}
    {parts : List (List Item)} {alloc : Alloc} {members : List Item} {built : Built}
    (hregion : ∀ part axis alloc built, region part axis alloc = some built →
      Fitted domain part built)
    (hparts : parts.flatten.Perm members)
    (h : buildGroup region domain axis share parts alloc = some built) :
    Fitted domain members built := by
  simp only [buildGroup, Option.bind_eq_bind, Option.bind_eq_some_iff, Option.pure_def,
    Option.some.injEq] at h
  obtain ⟨parts, hbuilt, rfl⟩ := h
  obtain ⟨hleaves, hwindows, hhomed⟩ := buildParts_fitted hregion hbuilt
  exact ⟨by rw [hleaves, Node.leaves_group], hwindows.trans (hparts.map _), hhomed⟩

theorem buildClean_fitted {members : List Item} {axis : Axis} {tol : Int} {alloc : Alloc}
    {built : Built}
    (hregion : ∀ part axis alloc built, region part axis alloc = some built →
      Fitted domain part built)
    (h : buildClean region domain members axis (validCuts members axis tol) alloc = some built) :
    Fitted domain members built :=
  buildGroup_fitted hregion (perm_flatten_cutParts validCuts_cutsOf) h

theorem buildCentre_fitted {members : List Item} {axis : Axis} {i : Nat} {alloc : Alloc}
    {built : Built}
    (hregion : ∀ part axis alloc built, region part axis alloc = some built →
      Fitted domain part built)
    (h : buildCentre region domain members axis i alloc = some built) :
    Fitted domain members built := by
  simp only [buildCentre, Option.bind_eq_bind, Option.bind_eq_some_iff] at h
  obtain ⟨_, -, h⟩ := h
  refine buildGroup_fitted hregion ?_ h
  simpa using perm_sortByCentre

/-- Whatever is built holds exactly the members. -/
theorem buildRegion_fitted {depth : Nat} {members : List Item} {axis : Axis} {alloc : Alloc}
    {built : Built} (h : buildRegion domain depth members axis alloc = some built) :
    Fitted domain members built := by
  induction depth generalizing members axis alloc built with
  | zero => cases h
  | succ depth ih =>
    have hregion : ∀ part axis alloc built, buildRegion domain depth part axis alloc = some built →
        Fitted domain part built := fun _ _ _ _ h => ih h
    simp only [buildRegion, buildRegionWith] at h
    repeat' split at h
    · cases h
    · exact buildClean_fitted hregion h
    · exact buildClean_fitted hregion h
    · cases h
    · exact buildCentre_fitted hregion h
    · exact buildCentre_fitted hregion h

end

/-! ## Guillotine arrangements are built clean -/

section
variable {domain : OutputDomain} {members : List Item} {axis : Axis} {alloc : Alloc}

/-- Distinct windows of a guillotine arrangement within the bounds of a carried
rectangle. -/
structure Cuttable (members : List Item) : Prop where
  distinct : Distinct members
  guillotine : Guillotine (members.map Prod.snd)
  bounded : ∀ item ∈ members, Bounded item.2

theorem Cuttable.part {part : List Item} (h : Cuttable members) (hpart : part.Subperm members) :
    Cuttable part where
  distinct := h.distinct.subperm hpart
  guillotine := h.guillotine.mono (List.map_subset _ hpart.subset)
  bounded item hitem := h.bounded item (hpart.subset hitem)

theorem tolerance_nonneg : 0 ≤ tolerance domain axis :=
  le_max_of_le_left (le_max_right _ _)

/-- Two or more of them have a cut on one axis or the other. -/
theorem Cuttable.validCuts_ne_nil (h : Cuttable members) (hlen : 2 ≤ members.length) (axis : Axis) :
    validCuts members axis (tolerance domain axis) ≠ [] ∨
      validCuts members (Rect.cross axis) (tolerance domain (Rect.cross axis)) ≠ [] := by
  obtain ⟨found, c, hcut⟩ := h.guillotine _ h.distinct (List.Subset.refl _) (by simpa using hlen)
  have hfound := Seed.validCuts_ne_nil h.bounded (@tolerance_nonneg domain found)
    hcut
  cases axis <;> cases found
  · exact Or.inl hfound
  · exact Or.inr hfound
  · exact Or.inr hfound
  · exact Or.inl hfound

theorem foldl_min_le {items : List Item} {f : Item → Int} {m : Int} :
    items.foldl (fun m item => min m (f item)) m ≤ m ∧
      ∀ item ∈ items, items.foldl (fun m item => min m (f item)) m ≤ f item := by
  induction items generalizing m with
  | nil => simp
  | cons a items ih =>
    obtain ⟨hm, hitems⟩ := ih (m := min m (f a))
    rw [List.foldl_cons]
    refine ⟨hm.trans (min_le_left _ _), ?_⟩
    rintro item (_ | ⟨_, hitem⟩)
    · exact hm.trans (min_le_right _ _)
    · exact hitems item hitem

theorem le_foldl_max {items : List Item} {f : Item → Int} {m : Int} :
    m ≤ items.foldl (fun m item => max m (f item)) m ∧
      ∀ item ∈ items, f item ≤ items.foldl (fun m item => max m (f item)) m := by
  induction items generalizing m with
  | nil => simp
  | cons a items ih =>
    obtain ⟨hm, hitems⟩ := ih (m := max m (f a))
    rw [List.foldl_cons]
    refine ⟨(le_max_left _ _).trans hm, ?_⟩
    rintro item (_ | ⟨_, hitem⟩)
    · exact (le_max_right _ _).trans hm
    · exact hitems item hitem

theorem isSome_partShare {part : List Item} (hne : part ≠ [])
    (h : ∀ item ∈ part, Bounded item.2) : (partShare axis part).isSome = true := by
  obtain ⟨item, hitem⟩ := List.exists_mem_of_ne_nil part hne
  have hspan := (h item hitem axis).1
  have hstart :=
    (@foldl_min_le part (fun item => primaryStart item.2 axis) IntRange.i64.hi).2 item hitem
  have hend :=
    (@le_foldl_max part (fun item => primaryEnd item.2 axis) IntRange.i64.lo).2 item hitem
  simp only [partShare]
  rw [if_pos]
  · rfl
  · simp only [primaryStart, primaryEnd, primarySpan] at *
    omega

/-- Every part gets a share and a subtree, and no centre split is made. -/
theorem buildParts_clean {region : Region} {parts : List (List Item)}
    (hregion : ∀ part ∈ parts, 2 ≤ part.length → ∀ axis alloc, ∃ built,
      region part axis alloc = some built ∧ built.alloc.centreSplits = alloc.centreSplits)
    (hne : ∀ part ∈ parts, part ≠ []) (hbounded : ∀ part ∈ parts, ∀ item ∈ part, Bounded item.2) :
    ∃ built, buildParts region domain axis (partShare axis) parts alloc = some built ∧
      built.alloc.centreSplits = alloc.centreSplits := by
  induction parts generalizing alloc with
  | nil => exact ⟨_, rfl, rfl⟩
  | cons part parts ih =>
    simp only [List.forall_mem_cons] at hregion hne hbounded
    obtain ⟨share, hshare⟩ := Option.isSome_iff_exists.mp
      (@isSome_partShare axis _ hne.1 hbounded.1)
    obtain ⟨child, hchild, hchildSplits⟩ : ∃ child,
        buildPart region domain axis alloc part = some child ∧
          child.alloc.centreSplits = alloc.centreSplits := by
      match part, hne.1, hregion.1 with
      | [item], _, _ => exact ⟨_, rfl, rfl⟩
      | a :: b :: part, _, hpart => exact hpart (by simp) _ _
    obtain ⟨rest, hrest, hrestSplits⟩ := @ih child.alloc hregion.2 hne.2 hbounded.2
    refine ⟨⟨child.tree :: rest.children, share :: rest.shares, child.links ++ rest.links,
      rest.alloc⟩, ?_, hrestSplits.trans hchildSplits⟩
    simp only [buildParts, hshare, hchild, hrest, Option.bind_eq_bind, Option.bind_some,
      Option.pure_def]

theorem buildClean_clean {region : Region} (h : Cuttable members) (hlen : 2 ≤ members.length)
    {tol : Int} (hcuts : validCuts members axis tol ≠ [])
    (hregion : ∀ part, Cuttable part → 2 ≤ part.length → part.length < members.length →
      ∀ axis alloc, ∃ built, region part axis alloc = some built ∧
        built.alloc.centreSplits = alloc.centreSplits) :
    ∃ built, buildClean region domain members axis (validCuts members axis tol) alloc =
        some built ∧ built.alloc.centreSplits = alloc.centreSplits := by
  have hcutsOf : CutsOf (sortForAxis members axis).length 0 (validCuts members axis tol) := by
    rw [perm_sortForAxis.length_eq]
    exact validCuts_cutsOf
  have hpart : ∀ part ∈ cutParts (sortForAxis members axis) 0 (validCuts members axis tol),
      part.Subperm members := fun part hpart =>
    (List.sublist_flatten_of_mem hpart).subperm.trans
      (perm_flatten_cutParts validCuts_cutsOf).subperm
  obtain ⟨parts, hparts, hsplits⟩ :=
    @buildParts_clean domain axis { alloc with nextGroup := alloc.nextGroup + 1 } region _
    (fun part hmem htwo => hregion part (h.part (hpart part hmem)) htwo (by
      have := length_lt_of_mem_cutParts hcutsOf hcuts part hmem
      rwa [perm_sortForAxis.length_eq] at this))
    (cutParts_ne_nil (by rw [perm_sortForAxis.length_eq]; omega) hcutsOf)
    (fun part hmem => (h.part (hpart part hmem)).bounded)
  refine ⟨⟨.group (fitGroup alloc.nextGroup) axis parts.children parts.shares, parts.links,
    parts.alloc⟩, ?_, hsplits⟩
  simp only [buildClean, buildGroup, hparts, Option.bind_eq_bind, Option.bind_some,
    Option.pure_def]

/-- Two or more windows of a guillotine arrangement are built by clean cuts
alone. -/
theorem buildRegion_clean {depth : Nat} (h : Cuttable members) (hlen : 2 ≤ members.length)
    (hdepth : members.length ≤ depth) :
    ∃ built, buildRegion domain depth members axis alloc = some built ∧
      built.alloc.centreSplits = alloc.centreSplits := by
  induction depth generalizing members axis alloc with
  | zero => omega
  | succ depth ih =>
    have hregion : ∀ part, Cuttable part → 2 ≤ part.length → part.length < members.length →
        ∀ axis alloc, ∃ built, buildRegion domain depth part axis alloc = some built ∧
          built.alloc.centreSplits = alloc.centreSplits :=
      fun part hpart htwo hlt axis alloc => ih hpart htwo (by omega)
    have hcuts := @Cuttable.validCuts_ne_nil domain _ h hlen axis
    simp only [buildRegion, buildRegionWith]
    rw [if_neg (by omega)]
    by_cases hfirst : validCuts members axis (tolerance domain axis) = []
    · have hother := hcuts.resolve_left (by simpa using hfirst)
      simp only [hfirst, List.isEmpty_nil, Bool.not_true, Bool.false_eq_true, if_false]
      rw [if_pos (by simpa using hother)]
      exact buildClean_clean h hlen hother hregion
    · rw [if_pos (by simpa using hfirst)]
      exact buildClean_clean h hlen hfirst hregion

end

/-! ## The whole fit -/

section
variable {domain : OutputDomain} {windows : List EngineWindow}

def EngineWindow.item (entry : EngineWindow) : Item := (entry.window, entry.rect)

/-- A window the fit can place. -/
def EngineWindow.Placeable (bounds : Rect) (entry : EngineWindow) : Bool :=
  validCarriedRect entry.rect && rectContained entry.rect bounds

theorem fitItems_eq (bounds : Rect) (windows : List EngineWindow) : fitItems bounds windows =
    if windows.all (EngineWindow.Placeable bounds) then .ok (windows.map EngineWindow.item)
    else .error .invalidGeometry := by
  induction windows with
  | nil => rfl
  | cons entry windows ih =>
    rw [fitItems, ih, List.all_cons, EngineWindow.Placeable]
    cases validCarriedRect entry.rect with
    | false => rfl
    | true =>
      cases rectContained entry.rect bounds with
      | false => rfl
      | true =>
        cases windows.all (EngineWindow.Placeable bounds) with
        | false => rfl
        | true => rfl

/-- What a fit that returns has gone through. -/
theorem tryRecursiveCutFitWithCentreCount_eq_ok {fit : Node × List WindowLink × Nat}
    (h : tryRecursiveCutFitWithCentreCount domain windows = .ok fit) :
    ∃ built projected, buildRegion domain windows.length (windows.map EngineWindow.item) .horizontal
        {} = some built ∧
      project built.tree domain.bounds domain.gap = .ok projected ∧
      fit = (built.tree, built.links, built.alloc.centreSplits) := by
  simp only [tryRecursiveCutFitWithCentreCount, bind_eq_ok, ensure_eq_ok, okOr_eq_ok,
    mapError_eq_ok, pure_eq_ok] at h
  obtain ⟨_, -, _, -, items, hitems, built, hbuilt, projected, hprojected, _, -, rfl⟩ := h
  rw [fitItems_eq] at hitems
  split at hitems
  · obtain rfl := Except.ok.inj hitems
    rw [List.length_map] at hbuilt
    exact ⟨built, projected, hbuilt, hprojected, rfl⟩
  · cases hitems

theorem map_rect_item (windows : List EngineWindow) :
    (windows.map EngineWindow.item).map Prod.snd = windows.map EngineWindow.rect := by
  rw [List.map_map]
  rfl

theorem tryRecursiveCutFitWithCentreCount_congr {windows' : List EngineWindow}
    (hperm : windows.Perm windows') (h : (windows.map EngineWindow.rect).Nodup) :
    tryRecursiveCutFitWithCentreCount domain windows =
      tryRecursiveCutFitWithCentreCount domain windows' := by
  simp only [tryRecursiveCutFitWithCentreCount, fitItems_eq, hperm.length_eq, hperm.any_eq,
    hperm.all_eq]
  cases windows'.all (EngineWindow.Placeable domain.bounds) with
  | false => rfl
  | true =>
    have hitems := hperm.map EngineWindow.item
    have hbuilt := fun depth => buildRegion_congr domain depth _ _ .horizontal {} hitems
      (by rwa [Distinct, map_rect_item])
    have hok : ∀ {β : Type} (items : List Item) (f : List Item → Except FitDeclineReason β),
        (Except.ok items >>= f) = f items := fun _ _ => rfl
    simp only [if_true, hok, List.length_map, hperm.length_eq, hbuilt]

/-- A projection and the windows that show some of its rectangles. -/
theorem cuttable_items {tree : Node} {gap : Int} {out : List ProjectedLeaf}
    (hwell : ProjectionWellFormed tree domain.bounds gap out) (hwf : tree.WellFormed)
    (hgap : 0 ≤ gap) (hnodup : (windows.map EngineWindow.rect).Nodup)
    (hshown : ∀ w ∈ windows, w.rect ∈ out.map ProjectedLeaf.rect)
    (hall : windows.all (EngineWindow.Placeable domain.bounds) = true) :
    Cuttable (windows.map EngineWindow.item) where
  distinct := by rwa [Distinct, map_rect_item]
  guillotine := by
    rw [map_rect_item]
    refine (hwell.guillotine hwf hgap).mono fun r hr => ?_
    obtain ⟨w, hw, rfl⟩ := List.mem_map.mp hr
    exact hshown w hw
  bounded item hitem := by
    obtain ⟨w, hw, rfl⟩ := List.mem_map.mp hitem
    have hplace := List.all_eq_true.mp hall w hw
    rw [EngineWindow.Placeable, Bool.and_eq_true] at hplace
    exact bounded_of_validCarriedRect hplace.1

/-- The checks before the first cut: at least two windows, none of them
floating or excluded, each a carried rectangle within the bounds. -/
structure Fittable (domain : OutputDomain) (windows : List EngineWindow) : Prop where
  several : 2 ≤ windows.length
  free : ∀ w ∈ windows, w.floating = false ∧ w.fitExcluded = false
  placeable : ∀ w ∈ windows, w.Placeable domain.bounds = true

/-- Past the checks the answer is what is built, if that projects. The count
of projected leaves adds nothing: a fitted tree has one for each window. -/
theorem tryRecursiveCutFitWithCentreCount_of_built {built : Built} (h : Fittable domain windows)
    (hbuilt : buildRegion domain windows.length (windows.map EngineWindow.item) .horizontal {} =
      some built) :
    tryRecursiveCutFitWithCentreCount domain windows =
      if (project built.tree domain.bounds domain.gap).isOk then
        .ok (built.tree, built.links, built.alloc.centreSplits)
      else .error .projectionInvalid := by
  have hfree : windows.any (fun w => w.floating || w.fitExcluded) = false := by
    rw [List.any_eq_false]
    intro w hw
    simp [h.free w hw]
  have hall : windows.all (EngineWindow.Placeable domain.bounds) = true :=
    List.all_eq_true.mpr h.placeable
  have hfitted := buildRegion_fitted hbuilt
  have hleaves : built.tree.leaves.length = windows.length := by
    rw [← hfitted.leaves, List.length_map]
    have hcount := hfitted.windows.length_eq
    simpa using hcount
  simp only [tryRecursiveCutFitWithCentreCount, fitItems_eq, h.several, hfree, hall, if_true, ensure,
    Bind.bind, Except.bind, decide_true, Bool.not_false, List.length_map, hbuilt, okOr]
  cases hproject : project built.tree domain.bounds domain.gap with
  | error e => rfl
  | ok projected =>
    have hcount : projected.length = windows.length := by
      rw [← hleaves, ← (project_wellFormed hproject).leaves, List.length_map]
    simp [hcount, Except.mapError, pure, Except.pure, Except.isOk, Except.toBool]

/-- A list that fails the checks is declined for that, not for want of a
cut. -/
theorem tryRecursiveCutFitWithCentreCount_of_not_fittable (h : ¬Fittable domain windows) :
    ∃ reason, tryRecursiveCutFitWithCentreCount domain windows = .error reason ∧
      reason ≠ .noCut := by
  simp only [tryRecursiveCutFitWithCentreCount, fitItems_eq]
  by_cases hlen : 2 ≤ windows.length
  swap
  · exact ⟨.singleWindow, by simp [hlen, ensure, Bind.bind, Except.bind], by decide⟩
  by_cases hfree : windows.any (fun w => w.floating || w.fitExcluded) = true
  · exact ⟨.fitExcluded, by simp [hlen, hfree, ensure, Bind.bind, Except.bind], by decide⟩
  by_cases hall : windows.all (EngineWindow.Placeable domain.bounds) = true
  · rw [Bool.not_eq_true, List.any_eq_false] at hfree
    refine absurd ⟨hlen, fun w hw => ?_, List.all_eq_true.mp hall⟩ h
    simpa using hfree w hw
  · exact ⟨.invalidGeometry, by simp [hlen, hfree, hall, ensure, Bind.bind, Except.bind], by decide⟩

/-- What the fit answers for windows that show a guillotine arrangement: past
the checks it builds a tree without a centre split, and declines only if that
tree does not project. -/
structure Cleanly (domain : OutputDomain) (windows : List EngineWindow) : Prop where
  cut : tryRecursiveCutFitWithCentreCount domain windows ≠ .error .noCut
  unsplit : ∀ fit, tryRecursiveCutFitWithCentreCount domain windows = .ok fit → fit.2.2 = 0
  answer : Fittable domain windows → ∃ built,
    buildRegion domain windows.length (windows.map EngineWindow.item) .horizontal {} = some built ∧
      built.alloc.centreSplits = 0 ∧
      tryRecursiveCutFitWithCentreCount domain windows =
        if (project built.tree domain.bounds domain.gap).isOk then .ok (built.tree, built.links, 0)
        else .error .projectionInvalid

theorem Cleanly.of_answer (h : Fittable domain windows → ∃ built,
    buildRegion domain windows.length (windows.map EngineWindow.item) .horizontal {} = some built ∧
      built.alloc.centreSplits = 0) : Cleanly domain windows := by
  have hanswer : Fittable domain windows → ∃ built,
      buildRegion domain windows.length (windows.map EngineWindow.item) .horizontal {} = some built ∧
        built.alloc.centreSplits = 0 ∧
        tryRecursiveCutFitWithCentreCount domain windows =
          if (project built.tree domain.bounds domain.gap).isOk then
            .ok (built.tree, built.links, 0)
          else .error .projectionInvalid := by
    intro hfittable
    obtain ⟨built, hbuilt, hsplits⟩ := h hfittable
    refine ⟨built, hbuilt, hsplits, ?_⟩
    rw [tryRecursiveCutFitWithCentreCount_of_built hfittable hbuilt, hsplits]
  by_cases hfittable : Fittable domain windows
  · obtain ⟨built, -, -, hfit⟩ := hanswer hfittable
    refine ⟨?_, fun fit heq => ?_, hanswer⟩
    · rw [hfit]
      split <;> nofun
    · rw [hfit] at heq
      split at heq
      · obtain rfl := Except.ok.inj heq
        rfl
      · cases heq
  · obtain ⟨reason, hfit, hne⟩ := tryRecursiveCutFitWithCentreCount_of_not_fittable hfittable
    refine ⟨?_, fun fit heq => ?_, hanswer⟩
    · rw [hfit]
      exact fun heq => hne (Except.error.inj heq)
    · rw [hfit] at heq
      cases heq

/-- The windows a well formed projection shows are fitted cleanly. -/
theorem tryRecursiveCutFitWithCentreCount_clean {tree : Node} {gap : Int}
    {out : List ProjectedLeaf} (hwell : ProjectionWellFormed tree domain.bounds gap out)
    (hwf : tree.WellFormed) (hgap : 0 ≤ gap) (hnodup : (windows.map EngineWindow.rect).Nodup)
    (hshown : ∀ w ∈ windows, w.rect ∈ out.map ProjectedLeaf.rect) : Cleanly domain windows := by
  refine .of_answer fun h => ?_
  have hcuttable := cuttable_items hwell hwf hgap hnodup hshown (List.all_eq_true.mpr h.placeable)
  exact buildRegion_clean hcuttable (by simpa using h.several) (by simp)

/-- The startup fit, for every domain and window list: a tree it returns is
valid and its leaves and the windows are matched one to one by the links;
windows told apart by their rectangles are fitted the same in any order;
and windows that show rectangles of one projection are fitted cleanly: past
the checks of the list itself a tree is built by cuts alone and is the answer,
unless it does not project. -/
theorem startup_fit (domain : OutputDomain) (windows : List EngineWindow) :
    (∀ tree links splits,
      tryRecursiveCutFitWithCentreCount domain windows = .ok (tree, links, splits) →
        tree.WellFormed ∧ tree.ids.Nodup ∧ tree.leaves.Nodup ∧
        links.map WindowLink.leaf = tree.leaves ∧
        (links.map WindowLink.window).Perm (windows.map EngineWindow.window) ∧
        ∀ link ∈ links, link.output = domain.id ∧ link.workspace = domain.workspace) ∧
    ((windows.map EngineWindow.rect).Nodup → ∀ windows', windows'.Perm windows →
      tryRecursiveCutFitWithCentreCount domain windows' =
        tryRecursiveCutFitWithCentreCount domain windows) ∧
    (∀ tree out, (project tree domain.bounds domain.gap = .ok out ∨
        ∃ resolve hinted, projectWithHints tree domain.bounds domain.gap resolve = .ok hinted ∧
          hinted.leaves = out ∧ AllPositive out) →
      (windows.map EngineWindow.rect).Nodup →
      (∀ w ∈ windows, w.rect ∈ out.map ProjectedLeaf.rect) → Cleanly domain windows) := by
  refine ⟨?_, ?_, ?_⟩
  · intro tree links splits h
    obtain ⟨built, projected, hbuilt, hprojected, hfit⟩ :=
      tryRecursiveCutFitWithCentreCount_eq_ok h
    obtain ⟨rfl, rfl, rfl⟩ : tree = built.tree ∧ links = built.links ∧ _ := by
      simpa using hfit
    obtain ⟨-, -, ⟨hwf, hfresh⟩, -⟩ := project_eq_ok.mp hprojected
    obtain ⟨hleaves, hwindows, hhomed⟩ := buildRegion_fitted hbuilt
    refine ⟨hwf, hfresh.2.1, hfresh.2.1.sublist built.tree.leaves_sublist_ids, hleaves, ?_, hhomed⟩
    rw [List.map_map] at hwindows
    exact hwindows
  · intro hnodup windows' hperm
    exact (tryRecursiveCutFitWithCentreCount_congr hperm.symm hnodup).symm
  · rintro tree out (hplain | ⟨resolve, hinted, hhinted, rfl, hpos⟩) hnodup hshown
    · obtain ⟨-, hgap, ⟨hwf, -⟩, -⟩ := project_eq_ok.mp hplain
      exact tryRecursiveCutFitWithCentreCount_clean (project_wellFormed hplain) hwf hgap hnodup
        hshown
    · obtain ⟨plain, hplain⟩ : ∃ plain, project tree domain.bounds domain.gap = .ok plain := by
        simp only [projectWithHints, bind_eq_ok, mapError_eq_ok] at hhinted
        obtain ⟨plain, hplain, -⟩ := hhinted
        exact ⟨plain, hplain⟩
      obtain ⟨-, hgap, ⟨hwf, -⟩, -⟩ := project_eq_ok.mp hplain
      obtain ⟨hout, -⟩ := (projectWithHints_eq_ok hplain).mp hhinted
      exact tryRecursiveCutFitWithCentreCount_clean
        (projectionWellFormed_of_tiled hwf hgap (layoutWith_tiled exhausts_splitHinted hwf hout) hpos)
        hwf hgap hnodup hshown

end

/-! A tall window beside two stacked ones. -/

def strutDomain : OutputDomain := ⟨⟨"DP-1"⟩, ⟨"ws"⟩, ⟨0, 0, 100, 60⟩, 4, ∅⟩

def nestedTree : Node :=
  .group ⟨"root"⟩ .horizontal
    [.leaf ⟨"a"⟩, .group ⟨"right"⟩ .vertical [.leaf ⟨"b"⟩, .leaf ⟨"c"⟩] [1, 1]] [1, 1]

def nestedWindows : List EngineWindow :=
  [{ window := ⟨"c"⟩, rect := ⟨52, 32, 48, 28⟩ }, { window := ⟨"a"⟩, rect := ⟨0, 0, 48, 60⟩ },
    { window := ⟨"b"⟩, rect := ⟨52, 0, 48, 28⟩ }]

def nestedFit : Node :=
  .group ⟨"fit-g0"⟩ .horizontal
    [.leaf ⟨"fit-l0"⟩, .group ⟨"fit-g1"⟩ .vertical [.leaf ⟨"fit-l1"⟩, .leaf ⟨"fit-l2"⟩] [28, 28]]
    [48, 48]

def nestedLinks : List WindowLink :=
  [⟨⟨"a"⟩, ⟨"fit-l0"⟩, ⟨"DP-1"⟩, ⟨"ws"⟩⟩, ⟨⟨"b"⟩, ⟨"fit-l1"⟩, ⟨"DP-1"⟩, ⟨"ws"⟩⟩,
    ⟨⟨"c"⟩, ⟨"fit-l2"⟩, ⟨"DP-1"⟩, ⟨"ws"⟩⟩]

/-- A window beside a column of two is fitted by cuts alone, from either end
of the list. -/
theorem startup_fit_nested :
    tryRecursiveCutFitWithCentreCount strutDomain nestedWindows = .ok (nestedFit, nestedLinks, 0) ∧
      tryRecursiveCutFitWithCentreCount strutDomain nestedWindows.reverse =
        .ok (nestedFit, nestedLinks, 0) ∧
      nestedFit.WellFormed ∧ nestedLinks.map WindowLink.leaf = nestedFit.leaves ∧
      ∃ built, buildRegion strutDomain 3 (nestedWindows.map EngineWindow.item) .horizontal {} =
          some built ∧ built.alloc.centreSplits = 0 ∧
        tryRecursiveCutFitWithCentreCount strutDomain nestedWindows =
          if (project built.tree strutDomain.bounds strutDomain.gap).isOk then
            .ok (built.tree, built.links, 0)
          else .error .projectionInvalid := by
  obtain ⟨hvalid, horder, hclean⟩ := startup_fit strutDomain nestedWindows
  have hproject : project nestedTree strutDomain.bounds strutDomain.gap =
      .ok [⟨⟨"a"⟩, ⟨0, 0, 48, 60⟩⟩, ⟨⟨"b"⟩, ⟨52, 0, 48, 28⟩⟩, ⟨⟨"c"⟩, ⟨52, 32, 48, 28⟩⟩] := by
    decide
  have hfit : tryRecursiveCutFitWithCentreCount strutDomain nestedWindows =
      .ok (nestedFit, nestedLinks, 0) := by
    decide +kernel
  obtain ⟨hwf, -, -, hleaves, -⟩ := hvalid nestedFit nestedLinks 0 hfit
  refine ⟨hfit, (horder (by decide) _ (List.reverse_perm _)).trans hfit, hwf, hleaves, ?_⟩
  exact (hclean _ _ (Or.inl hproject) (by decide) (by decide)).answer
    ⟨by decide, by decide, by decide⟩

end Seed

end PlasmaTiler
