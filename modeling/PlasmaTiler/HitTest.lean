import PlasmaTiler.GapDrop
import PlasmaTiler.HonouredMinimums
import PlasmaTiler.PreviewDrop

/-!
# What a drag points at

The resolver descends from the root through the first child that contains the
point, by the rectangles of the plain projection. A leaf's rectangle lies
inside what each of its ancestors was handed and apart from every sibling on
the way, so the descent ends at a leaf exactly when the point lies in that
leaf's plain rectangle.

What is shown comes from the hint-aware projection instead. Wherever minimums
moved a boundary, a point between its two positions lies in the displayed
rectangle of one window and is resolved to another; and where the minimums
are met without a change the two are the same (`hintFree_of_met`).

The induction that carries the descent is over the tree with the rectangle a
subtree was handed (`Handed`). It needs two facts of the projection: siblings
before a child end before it starts (`not_contains_before`), since the
descent takes the first child that contains the point, and the leaves of a
subtree lie in what it was handed (`Handed.leaf_within`).

`drag_hits_displayed_iff` is the result for displayed windows, and what a
preview shows and a drop plans is about the node descended to.
-/

namespace PlasmaTiler

/-! ## The descent -/

/-- What the resolver descends to, where the tree has a projection. -/
def dragTarget (tree : Node) (domain : OutputDomain) (x y : Int) : Option NodeId :=
  match project tree domain.bounds domain.gap with
  | .error _ => none
  | .ok projected => some (deepestAt tree projected x y).id

section
variable {contains : Node → Bool} {children : List Node} {n c : Node} {k : Nat} {id : NodeId}

theorem deepestOf_eq (hc : children[k]? = some c) (hcontains : contains c = true)
    (hbefore : ∀ j < k, ∀ d, children[j]? = some d → contains d = false) :
    deepestOf contains children = some (deepestContaining contains c) := by
  induction children generalizing k with
  | nil => simp at hc
  | cons d children ih =>
    rw [deepestOf]
    cases k with
    | zero =>
      obtain rfl := Option.some.inj hc
      rw [if_pos hcontains]
    | succ k =>
      rw [hbefore 0 (Nat.succ_pos k) d rfl, if_neg (by simp)]
      exact ih hc fun j hj d hd => hbefore (j + 1) (Nat.succ_lt_succ hj) d hd

/-- The descent ends at a leaf that contains the point, or at the root. -/
theorem deepestContaining_contains (h : deepestContaining contains n = .leaf id) :
    n = .leaf id ∨ contains (.leaf id) = true := by
  induction n with
  | leaf own =>
    rw [deepestContaining] at h
    exact .inl h
  | group own axis children shares ih =>
    rw [deepestContaining] at h
    cases hdeep : deepestOf contains children with
    | none =>
      rw [hdeep, Option.getD_none] at h
      cases h
    | some m =>
      rw [hdeep, Option.getD_some] at h
      obtain ⟨c, hc, hcontains, rfl⟩ := deepestOf_some hdeep
      rcases ih c hc h with rfl | hleaf
      · exact .inr hcontains
      · exact .inr hleaf

end

section
variable {tree : Node} {domain : OutputDomain} {windows : Links} {exceptions : Exceptions}
  {capture : DragState} {resolved : SharedDragResolved} {out : List ProjectedLeaf} {x y : Int}

/-- What the resolver answers is about the node it descended to. -/
theorem resolveDragShared_target
    (h : resolveDragShared tree domain windows exceptions capture x y = .ok resolved) :
    dragTarget tree domain x y = some resolved.targetLeaf := by
  simp only [resolveDragShared, bind_eq_ok, mapError_eq_ok] at h
  obtain ⟨_, -, out, hout, h⟩ := h
  rw [dragTarget, hout]
  show some (deepestAt tree out x y).id = _
  split at h
  · rename_i id axis children shares hdeep
    simp only [bind_eq_ok, okOr_eq_ok] at h
    obtain ⟨layout, hlayout, h⟩ := h
    rw [resolveGroup_target h, layoutsOf_id hlayout]
    exact congrArg (fun n : Node => some n.id) hdeep
  · rename_i id hdeep
    rw [resolveLeaf_target h]
    exact congrArg (fun n : Node => some n.id) hdeep

end

/-! ## Points and handed rectangles -/

section
variable {gap : Int} {tree n c : Node} {bounds rect r : Rect} {out : List ProjectedLeaf} {x y : Int}
  {leaf : NodeId}

theorem bounds_of_containsPoint (h : containsPoint r x y = true) (axis : Axis) :
    r.start axis ≤ along axis x y ∧ along axis x y < r.start axis + r.extent axis := by
  simp only [containsPoint, Bool.and_eq_true, decide_eq_true_eq, Option.any_eq_true] at h
  obtain ⟨⟨⟨hx, hy⟩, dx, hdx, hw⟩, dy, hdy, hh⟩ := h
  obtain ⟨rfl, -⟩ := IntRange.check_eq_some.mp hdx
  obtain ⟨rfl, -⟩ := IntRange.check_eq_some.mp hdy
  cases axis <;> simp only [Rect.start, Rect.extent, along] <;> omega

theorem containsPoint_iff (hfits : ∀ axis, r.extent axis ≤ IntRange.i32.hi) :
    containsPoint r x y = true ↔
      ∀ axis, r.start axis ≤ along axis x y ∧ along axis x y < r.start axis + r.extent axis := by
  refine ⟨bounds_of_containsPoint, fun h => ?_⟩
  have hcheck : ∀ d extent : Int, 0 ≤ d → d < extent → extent ≤ IntRange.i32.hi →
      (IntRange.i32.check d).any (· < extent) = true := by
    intro d extent hd hlt hextent
    rw [IntRange.check, if_pos ⟨by simp only [IntRange.i32] at hextent ⊢; omega, by omega⟩]
    exact decide_eq_true hlt
  have hx := h .horizontal
  have hy := h .vertical
  simp only [Rect.start, Rect.extent, along] at hx hy
  simp only [containsPoint, Bool.and_eq_true, decide_eq_true_eq]
  exact ⟨⟨⟨hx.1, hy.1⟩, hcheck _ _ (by omega) (by omega) (hfits .horizontal)⟩,
    hcheck _ _ (by omega) (by omega) (hfits .vertical)⟩

theorem containsPoint_fits (hfits : r.Fits) : containsPoint r x y = true ↔
    ∀ axis, r.start axis ≤ along axis x y ∧ along axis x y < r.start axis + r.extent axis :=
  containsPoint_iff fun axis => (hfits axis).2.2.1

theorem containsPoint_within (hrect : rect.Fits) (hwithin : r.Within rect)
    (h : containsPoint r x y = true) : containsPoint rect x y = true := by
  rw [containsPoint_fits hrect]
  intro axis
  have hinner := bounds_of_containsPoint h axis
  have houter := hwithin axis
  omega

/-- The resolver finds the point in a node exactly when it is in what the node
was handed. -/
theorem holdsPoint_handed (hnodup : tree.ids.Nodup) (hout : project tree bounds gap = .ok out)
    (h : Handed gap tree bounds c r) :
    holdsPoint (leafRectsOf out) (layoutsOf tree (leafRectsOf out)) x y c = containsPoint r x y := by
  cases c with
  | leaf id =>
    have hget := leafRectsOf_get (nodup_projected hnodup hout) (h.listed hout)
    rw [holdsPoint, show (leafRectsOf out)[id]? = some r from hget, Option.any_some]
  | group id axis children shares =>
    obtain ⟨starts, hlayout, -⟩ := groupLayout_handed hnodup hout h
    have hget := layoutsOf_get hnodup h.mem hlayout
    rw [holdsPoint, show (layoutsOf tree (leafRectsOf out))[id]? = _ from hget, Option.any_some]

/-- The leaves of a subtree lie in what it was handed. -/
theorem Handed.leaf_within (h : Handed gap tree bounds n r) (hnodup : tree.ids.Nodup)
    (hout : project tree bounds gap = .ok out) {p : ProjectedLeaf} (hp : p ∈ out)
    (hleaf : p.leaf ∈ n.leaves) : p.rect.Within r := by
  obtain ⟨here, hhere⟩ := h.layout hout
  rw [← hhere.layout.leaves] at hleaf
  obtain ⟨q, hq, hsame⟩ := List.mem_map.mp hleaf
  obtain rfl := List.inj_on_of_nodup_map (nodup_projected hnodup hout) (hhere.subset hq) hp hsame
  exact hhere.layout.contained q hq

/-- Siblings before a child end before it starts. -/
theorem not_contains_before {axis : Axis} {children : List Node} {shares : List Nat} {i j : Nat}
    {size : Int} (hfilled : Filled gap axis children shares r) (hgap : 0 ≤ gap) (hij : i < j)
    (hj : j < children.length)
    (hsize : (groupSizes gap children shares (r.extent axis))[i]? = some size)
    (hfits : ∀ side, (r.segment axis (childStart gap axis children shares r i) size).extent side ≤
      IntRange.i32.hi)
    (hpoint : childStart gap axis children shares r j ≤ along axis x y) :
    containsPoint (r.segment axis (childStart gap axis children shares r i) size) x y = false := by
  rw [← Bool.not_eq_true, containsPoint_iff hfits]
  intro hin
  have haxis := (hin axis).2
  rw [Rect.segment_start, Rect.segment_extent] at haxis
  have hnext := childStart_succ hsize
  have hmono := childStart_mono hfilled hgap (show i + 1 ≤ j from hij) hj
  omega

/-- The descent from any subtree that has the leaf ends at the leaf: of the
children only the one with the leaf holds the point, as their rectangles are
apart. By induction on the subtree. -/
theorem deepestContaining_handed (hnodup : tree.ids.Nodup) (hwf : tree.WellFormed)
    (hout : project tree bounds gap = .ok out) {p : ProjectedLeaf} (hp : p ∈ out)
    (hpoint : containsPoint p.rect x y = true) (hhanded : Handed gap tree bounds n r)
    (hleaf : p.leaf ∈ n.leaves) :
    deepestContaining (holdsPoint (leafRectsOf out) (layoutsOf tree (leafRectsOf out)) x y) n =
      .leaf p.leaf := by
  obtain ⟨hrect, hgap, -, hlaid⟩ := project_eq_ok.mp hout
  have hbounds := fits_of_validRect hrect
  induction n generalizing r with
  | leaf id =>
    rw [Node.leaves_leaf, List.mem_singleton] at hleaf
    rw [deepestContaining, hleaf]
  | group id axis children shares ih =>
    rw [Node.leaves_group] at hleaf
    obtain ⟨c, hc, hleaf⟩ := List.mem_flatMap.mp hleaf
    obtain ⟨k, hk, rfl⟩ := List.mem_iff_getElem.mp hc
    have hfilled := hhanded.filled hout
    have hroom := hhanded.room hlaid
    have hchild : ∀ {i : Nat} (hi : i < children.length), ∃ size,
        (groupSizes gap children shares (r.extent axis))[i]? = some size ∧
          Handed gap tree bounds children[i] (r.segment axis (childStart gap axis children shares r i) size) := by
      intro i hi
      have hsize := List.getElem?_eq_getElem (hfilled.count ▸ hi)
      exact ⟨_, hsize, Handed.child hhanded hroom (List.getElem?_eq_getElem hi) hsize⟩
    obtain ⟨size, -, hthere⟩ := hchild hk
    have hfitsThere := (hthere.fits hwf hgap hbounds).2
    have hcontains := containsPoint_within hfitsThere (hthere.leaf_within hnodup hout hp hleaf) hpoint
    have hafter := ((containsPoint_fits hfitsThere).mp hcontains axis).1
    rw [Rect.segment_start] at hafter
    have hdeep := deepestOf_eq (List.getElem?_eq_getElem hk)
      ((holdsPoint_handed hnodup hout hthere).trans hcontains) fun j hj d hd => by
        obtain ⟨hjlt, rfl⟩ := List.getElem?_eq_some_iff.mp hd
        obtain ⟨size', hsize', hhere⟩ := hchild hjlt
        have hfitsHere := (hhere.fits hwf hgap hbounds).2
        rw [holdsPoint_handed hnodup hout hhere]
        exact not_contains_before hfilled hgap hj hk hsize' (fun side => (hfitsHere side).2.2.1) hafter
    rw [deepestContaining, hdeep, Option.getD_some]
    exact ih _ hc hthere hleaf

/-- At a point of the bounds the descent ends at a leaf exactly when the leaf's
plain rectangle has the point. -/
theorem dragTarget_iff {domain : OutputDomain} {p : ProjectedLeaf}
    (hout : project tree domain.bounds domain.gap = .ok out) (hp : p ∈ out)
    (hin : containsPoint domain.bounds x y = true) :
    dragTarget tree domain x y = some p.leaf ↔ containsPoint p.rect x y = true := by
  have hok := treeOk_of_project hout
  have hnodup := nodup_projected hok.nodup hout
  have hleaf : p.leaf ∈ tree.leaves := by
    rw [← (project_wellFormed hout).leaves]
    exact List.mem_map_of_mem hp
  rw [dragTarget, hout]
  constructor
  · intro htarget
    have hdeep := Node.eq_of_id_eq hok.nodup deepestAt_mem (Node.mem_leaves_iff.mp hleaf)
      (Option.some.inj htarget)
    rcases deepestContaining_contains hdeep with hroot | hcontains
    · have hroot : Handed domain.gap tree domain.bounds (.leaf p.leaf) domain.bounds := hroot ▸ .root
      have hsame : (⟨p.leaf, domain.bounds⟩ : ProjectedLeaf) = p :=
        List.inj_on_of_nodup_map hnodup (hroot.listed hout) hp rfl
      rw [← hsame]
      exact hin
    · rw [holdsPoint, leafRectsOf_get hnodup hp, Option.any_some] at hcontains
      exact hcontains
  · intro hpoint
    exact congrArg (fun n : Node => some n.id)
      (deepestContaining_handed hok.nodup hok.wellFormed hout hp hpoint .root hleaf)

end

/-- The resolver takes the point, which lies in the work area, and descends to
the leaf. -/
def Hits (tree : Node) (domain : OutputDomain) (capture : DragState) (x y : Int) (leaf : NodeId) : Prop :=
  containsPoint capture.workArea x y = true ∧ dragTarget tree domain x y = some leaf

/-- The point lies in the rectangle the leaf has without hints. -/
def hintFree (tree : Node) (domain : OutputDomain) (x y : Int) (leaf : NodeId) : Bool :=
  (project tree domain.bounds domain.gap).toOption.any fun out =>
    out.any fun p => p.leaf == leaf && containsPoint p.rect x y

theorem hintFree_iff {tree : Node} {domain : OutputDomain} {x y : Int} {out : List ProjectedLeaf}
    {p : ProjectedLeaf} (hout : project tree domain.bounds domain.gap = .ok out) (hp : p ∈ out) :
    hintFree tree domain x y p.leaf = true ↔ containsPoint p.rect x y = true := by
  have hnodup := nodup_projected (treeOk_of_project hout).nodup hout
  rw [hintFree, hout]
  show (out.any fun q => q.leaf == p.leaf && containsPoint q.rect x y) = true ↔ _
  rw [List.any_eq_true]
  constructor
  · rintro ⟨q, hq, hhere⟩
    simp only [Bool.and_eq_true, beq_iff_eq] at hhere
    obtain rfl := List.inj_on_of_nodup_map hnodup hq hp hhere.1
    exact hhere.2
  · intro hpoint
    exact ⟨p, hp, by simp [hpoint]⟩

/-! ## The rectangles shown -/

section
variable {tree : Node} {domain : OutputDomain} {windows : Links} {key : DomainKey}
  {hints : BTreeMap WindowId WindowSizeHints} {geometry : List DesiredGeometry} {g : DesiredGeometry}
  {x y : Int}

/-- A displayed rectangle is that of a leaf, inside the bounds. -/
theorem projectOutputGeometry_shown
    (h : projectOutputGeometry (some domain) (some tree) windows key hints = .ok geometry)
    (hg : g ∈ geometry) : (∃ out, project tree domain.bounds domain.gap = .ok out) ∧
      g.leaf ∈ tree.leaves ∧ g.rect.Within domain.bounds := by
  simp only [projectOutputGeometry, bind_eq_ok, mapError_eq_ok] at h
  obtain ⟨hinted, hproject, hentries⟩ := h
  simp only [projectWithHints, bind_eq_ok, mapError_eq_ok, pure_eq_ok] at hproject
  obtain ⟨plain, hplain, leaves, hleaves, rfl⟩ := hproject
  obtain ⟨-, hgap, ⟨hwf, -⟩, -⟩ := project_eq_ok.mp hplain
  have htiled := layoutWith_tiled exhausts_splitHinted hwf hleaves
  have hall := forall₂_of_mapM_ok hentries
  simp only [bind_eq_ok, okOr_eq_ok, ensure_eq_ok, pure_eq_ok, Bool.and_eq_true,
    decide_eq_true_eq] at hall
  have hpos : AllPositive leaves := by
    intro p hp
    obtain ⟨i, hi, rfl⟩ := List.getElem_of_mem hp
    obtain ⟨window, -, _, hpositive, -⟩ := hall.get hi (hall.length_eq ▸ hi)
    exact Rect.positive_iff.mpr hpositive
  obtain ⟨i, hi, rfl⟩ := List.getElem_of_mem hg
  have hlt : i < leaves.length := by rw [hall.length_eq]; exact hi
  obtain ⟨window, -, _, -, heq⟩ := hall.get hlt hi
  simp only [List.get_eq_getElem] at heq
  rw [← heq]
  refine ⟨⟨plain, hplain⟩, ?_, (htiled.separated hwf hgap hpos).1 _ (List.getElem_mem hlt)⟩
  rw [← htiled.leaves]
  exact List.mem_map_of_mem (List.getElem_mem hlt)

end

/-! ## Where nothing moved -/

/-- The hints a leaf is projected with. -/
def leafHints (windows : Links) (key : DomainKey) (hints : BTreeMap WindowId WindowSizeHints)
    (leaf : NodeId) : WindowSizeHints :=
  ((leafToWindow windows key)[leaf]?.bind fun window => hints[window]?).getD {}

/-- When the hint-free rectangles meet every minimum they are the ones shown. -/
theorem hintFree_of_met {tree : Node} {domain : OutputDomain} {windows : Links} {key : DomainKey}
    {hints : BTreeMap WindowId WindowSizeHints} {geometry : List DesiredGeometry} {g : DesiredGeometry}
    {out : List ProjectedLeaf} {x y : Int} (hout : project tree domain.bounds domain.gap = .ok out)
    (hmeets : ∀ p ∈ out, violatesMinimum p.rect (leafHints windows key hints p.leaf) = false)
    (h : projectOutputGeometry (some domain) (some tree) windows key hints = .ok geometry)
    (hg : g ∈ geometry) (hpoint : containsPoint g.rect x y = true) :
    hintFree tree domain x y g.leaf = true := by
  simp only [projectOutputGeometry, bind_eq_ok, mapError_eq_ok] at h
  obtain ⟨hinted, hproject, hentries⟩ := h
  obtain rfl := Except.ok.inj (hproject.symm.trans (projectWithHints_plain hout hmeets))
  have hall := forall₂_of_mapM_ok hentries
  simp only [bind_eq_ok, okOr_eq_ok, ensure_eq_ok, pure_eq_ok] at hall
  obtain ⟨i, hi, rfl⟩ := List.getElem_of_mem hg
  have hlt : i < out.length := by rw [hall.length_eq]; exact hi
  obtain ⟨window, -, _, -, heq⟩ := hall.get hlt hi
  simp only [List.get_eq_getElem] at heq
  rw [← heq] at hpoint ⊢
  exact (hintFree_iff hout (List.getElem_mem hlt)).mpr hpoint

/-! ## The capture's work area

A drag excludes every call that changes a domain's bounds, so the captured
work area stays what the domain's bounds are. -/

namespace Session

section
variable {s s' : Session} {capture : DragState}

/-- The work area of a live capture is its domain's bounds, so that the points
it takes are those of the domain. -/
def DragBounded (s : Session) : Prop := ∀ capture, s.drag = some capture →
  ∃ domain, s.domainAt capture.domain = some domain ∧ capture.workArea = domain.bounds

theorem Step.domains_eq (h : Step s s') (hdrag : s'.drag ≠ none) : s'.domains = s.domains := by
  cases h with
  | same | withDrag _ | settings | synced _ _ _ _ _ | refocused _ _ _ | acked _ _ | cancelled _
    | bare _ _ _ => rfl
  | committed _ _ _ _ => rfl
  | cleared _ | halted _ | staged _ _ _ _ => exact absurd rfl hdrag
  | converged hsettled _ _ | gaps hsettled _ =>
    exact absurd (settledWorld_iff.mp hsettled).2.2.2 hdrag
  | relocated hsettled _ _ _ _ => exact absurd (settledWorld_iff.mp hsettled).2.2.2 hdrag

theorem DragBounded.next (h : s.DragBounded) (op : SessionOp) : (s.next op).DragBounded := by
  intro capture hdrag
  have hdomains : (s.next op).domains = s.domains :=
    (next_step op).domains_eq (by rw [hdrag]; exact nofun)
  rw [domainAt, hdomains]
  rcases next_capture hdrag with ⟨before, hbefore, hsame⟩ | ⟨window, observed, hbegin⟩
  · rw [hsame]
    exact h before hbefore
  · simp only [planBeginDrag, bind_eq_ok, refuseUnless, ensure_eq_ok, okOr_eq_ok, pure_eq_ok] at hbegin
    obtain ⟨_, -, _, -, _, -, _, -, _, -, _, -, _, -, link, -, domain, hdomain, _, -, _, -, _, -,
      source, -, rfl⟩ := hbegin
    exact ⟨domain, hdomain, rfl⟩

theorem dragBounded_invariant : machine.Invariant DragBounded where
  initial s hs capture hdrag := by
    rw [hs.blank.drag] at hdrag
    cases hdrag
  preserved _ op h := h.next op

theorem reachable_dragBounded (h : Reachable s) : s.DragBounded := dragBounded_invariant.reachable h

/-! ## Preview and drop -/

/-- A shown preview names the node descended to. -/
theorem previewDrag_target {x y : Int} {current : Node} {domain : OutputDomain} {preview : DragPreview}
    {observed : List ObservedWindow} (hdrag : s.drag = some capture)
    (hcontext : s.dragContext capture = .ok (current, domain))
    (h : s.previewDrag x y observed = (s', .ok preview)) :
    dragTarget current domain x y = some preview.targetLeaf := by
  obtain ⟨c, tree, own, resolved, hpreviewed⟩ := previewDrag_previewed h
  obtain rfl := Option.some.inj (hdrag.symm.trans hpreviewed.dragged)
  obtain ⟨rfl, rfl⟩ := Prod.mk.inj (Except.ok.inj (hcontext.symm.trans hpreviewed.context))
  rw [resolveDragShared_target hpreviewed.resolves]
  have hshown := hpreviewed.shown
  simp only [previewOf, bind_eq_ok, ensure_eq_ok, okOr_eq_ok, mapError_eq_ok, pure_eq_ok] at hshown
  obtain ⟨_, -, geometry, -, proposed, -, rfl⟩ := hshown
  rfl

theorem proposeStaged_reports {P D R : Type} {staging : Staging P} {report : D → Staging P → R}
    {verdict : P → Reconciler × Except Reconciler.ProposeError D} {answer : R}
    (h : s.proposeStaged (.ok staging) verdict report = (s', .ok answer)) :
    ∃ dispatch, answer = report dispatch staging := by
  simp only [proposeStaged, attempt] at h
  generalize verdict staging.plan = v at h
  obtain ⟨reconciler, result⟩ := v
  cases result with
  | ok dispatch =>
    simp only [stage, Except.map, Prod.mk.injEq, Except.ok.injEq] at h
    exact ⟨dispatch, h.2.symm⟩
  | error e => cases e <;> cases h

/-- A drop plans for the node descended to. -/
theorem dropDrag_target {x y : Int} {current : Node} {domain : OutputDomain} {plan : SessionDragPlan}
    {observed : SessionObservation} {correlationId : CorrelationId} {capabilities : DragCapabilities}
    (hdrag : s.drag = some capture) (hcontext : s.dragContext capture = .ok (current, domain))
    (h : s.dropDrag x y observed correlationId capabilities = (s', .ok (.planned plan))) :
    dragTarget current domain x y = some plan.dragPlan.operation.targetLeaf := by
  unfold dropDrag at h
  split at h
  · cases h
  rw [hdrag] at h
  dsimp only at h
  split at h
  · cases h
  split at h
  · cases h
  · cases h
  rename_i staging prior hplan
  have hreported : staging.plan = plan.dragPlan := by
    generalize hstaged : (s.hovering prior).proposeStaged (.ok staging) _ _ = answer at h
    obtain ⟨s'', result⟩ := answer
    cases result with
    | error e => cases h
    | ok reported =>
      cases h
      obtain ⟨dispatch, rfl⟩ := proposeStaged_reports hstaged
      rfl
  rw [← hreported]
  simp only [planDrop, bind_eq_ok, snapUnless, ensure_eq_ok, mapError_eq_ok, pure_eq_ok,
    Prod.mk.injEq] at hplan
  obtain ⟨_, -, _, -, _, -, _, -, _, hhere, resolved, hresolved, _, -, _, -, _, -, _, -, _, -, rfl,
    -⟩ := hplan
  obtain rfl := Except.ok.inj (hcontext.symm.trans hhere)
  exact resolveDragShared_target hresolved

/-- Whatever the client hints move, the resolver lands on a displayed window
exactly at the points that also lie in the window's hint-free rectangle; a
preview shown and a drop planned there are about that window, and elsewhere
about another node. -/
theorem drag_hits_displayed_iff {x y : Int} {current : Node} {domain : OutputDomain}
    {observed : List ObservedWindow} {geometry : List DesiredGeometry} {g : DesiredGeometry}
    (hs : Reachable s) (hdrag : s.drag = some capture)
    (hcontext : s.dragContext capture = .ok (current, domain))
    (hgeometry : projectOutputGeometry (some domain) (some current) s.windows capture.domain
      (hintsFromObserved observed) = .ok geometry)
    (hg : g ∈ geometry) (hpoint : containsPoint g.rect x y = true) :
    (Hits current domain capture x y g.leaf ↔ hintFree current domain x y g.leaf = true) ∧
      (∀ s' preview, s.previewDrag x y observed = (s', .ok preview) →
        (preview.targetLeaf = g.leaf ↔ hintFree current domain x y g.leaf = true)) ∧
      ∀ s' plan observed correlationId capabilities,
        s.dropDrag x y observed correlationId capabilities = (s', .ok (.planned plan)) →
          (plan.dragPlan.operation.targetLeaf = g.leaf ↔ hintFree current domain x y g.leaf = true) := by
  obtain ⟨⟨out, hout⟩, hleaf, hwithin⟩ := projectOutputGeometry_shown hgeometry hg
  obtain ⟨hrect, -⟩ := project_eq_ok.mp hout
  have hin := containsPoint_within (fits_of_validRect hrect) hwithin hpoint
  rw [← (project_wellFormed hout).leaves] at hleaf
  obtain ⟨p, hp, hname⟩ := List.mem_map.mp hleaf
  have htarget := dragTarget_iff hout hp hin
  have hfree := @hintFree_iff _ _ x y _ _ hout hp
  rw [hname] at htarget hfree
  rw [← htarget] at hfree
  have harea : capture.workArea = domain.bounds := by
    obtain ⟨own, hown, harea⟩ := reachable_dragBounded hs capture hdrag
    simp only [dragContext, bind_eq_ok, ensure_eq_ok, okOr_eq_ok, pure_eq_ok] at hcontext
    obtain ⟨_, -, tree, -, home, hhome, heq⟩ := hcontext
    obtain ⟨-, rfl⟩ := Prod.mk.inj heq
    obtain rfl := Option.some.inj (hown.symm.trans hhome)
    exact harea
  refine ⟨?_, fun s' preview h => ?_, fun s' plan observed' correlationId capabilities h => ?_⟩
  · rw [hfree, Hits, harea]
    exact ⟨fun h => h.2, fun h => ⟨hin, h⟩⟩
  · rw [hfree, previewDrag_target hdrag hcontext h, Option.some_inj]
  · rw [hfree, dropDrag_target hdrag hcontext h, Option.some_inj]

end

end Session

/-! ## A window that demands width

Two tiles side by side on 1000 units, the left one dragged. The right one
demands 800, so it is shown from 200 on, and without hints it starts at 504. -/

namespace Sample

/-- A captured drag and the rectangle shown for the right tile. -/
structure Probe where
  capture : DragState
  current : Node
  domain : OutputDomain
  shown : DesiredGeometry

def probe : Option Probe := do
  let s := dragged empty 0
  let capture ← s.drag
  let (current, domain) ← (s.dragContext capture).toOption
  let geometry ← (projectOutputGeometry (some domain) (some current) s.windows capture.domain
    (hintsFromObserved [window "v", demanding "w"])).toOption
  let shown ← geometry.find? (·.leaf == ⟨"leaf-w"⟩)
  return { capture, current, domain, shown }

theorem probe_ok {p : Probe} (h : probe = some p) :
    (dragged empty 0).drag = some p.capture ∧
      (dragged empty 0).dragContext p.capture = .ok (p.current, p.domain) ∧
      ∃ geometry, projectOutputGeometry (some p.domain) (some p.current) (dragged empty 0).windows
        p.capture.domain (hintsFromObserved [window "v", demanding "w"]) = .ok geometry ∧
        p.shown ∈ geometry := by
  simp only [probe, Option.bind_eq_bind, Option.bind_eq_some_iff] at h
  obtain ⟨capture, hdrag, ⟨current, domain⟩, hcontext, geometry, hgeometry, shown, hshown, h⟩ := h
  cases h
  exact ⟨hdrag, toOption_eq_ok.mp hcontext, geometry, toOption_eq_ok.mp hgeometry,
    List.mem_of_find?_eq_some hshown⟩

end Sample

namespace Session

/-- Where both rectangles of the right tile have the point, the resolver lands
on it. -/
theorem drag_hits_displayed_right : ∃ capture current domain,
    (Sample.dragged Sample.empty 0).drag = some capture ∧
      (Sample.dragged Sample.empty 0).dragContext capture = .ok (current, domain) ∧
      Hits current domain capture 900 400 ⟨"leaf-w"⟩ := by
  have heval : (Sample.probe.map fun p => (p.shown.leaf, containsPoint p.shown.rect 900 400,
      hintFree p.current p.domain 900 400 p.shown.leaf)) = some (⟨"leaf-w"⟩, true, true) := by
    decide +kernel
  obtain ⟨p, hp, heval⟩ := Option.map_eq_some_iff.mp heval
  simp only [Prod.mk.injEq] at heval
  obtain ⟨hleaf, hpoint, hfree⟩ := heval
  obtain ⟨hdrag, hcontext, geometry, hgeometry, hshown⟩ := Sample.probe_ok hp
  have hits := (drag_hits_displayed_iff (Sample.session_reachable _ _) hdrag hcontext hgeometry hshown
    hpoint).1.mpr hfree
  exact ⟨p.capture, p.current, p.domain, hdrag, hcontext, hleaf ▸ hits⟩

/-- In the strip the demand moved over the right tile is shown and the dragged
one is hit, far from the edge of any group. -/
theorem drag_misses_displayed :
    ¬ ∀ (s : Session) (capture : DragState) (current : Node) (domain : OutputDomain)
      (observed : List ObservedWindow) (geometry : List DesiredGeometry) (g : DesiredGeometry)
      (x y : Int), Reachable s → s.drag = some capture →
      s.dragContext capture = .ok (current, domain) →
      projectOutputGeometry (some domain) (some current) s.windows capture.domain
        (hintsFromObserved observed) = .ok geometry →
      g ∈ geometry → g.leaf ≠ capture.sourceLeaf →
      (g.rect.x < x ∧ x < g.rect.x + g.rect.w ∧ g.rect.y < y ∧ y < g.rect.y + g.rect.h) →
      (∀ out, project current domain.bounds domain.gap = .ok out →
        ∀ layout ∈ dragGroupLayouts current (leafRectsOf out),
          classifyGroupPoint layout.rect layout.id x y capture.prior = none) →
        Hits current domain capture x y g.leaf := by
  intro hclaim
  have heval : (Sample.probe.map fun p => (p.shown.rect, p.shown.leaf, p.capture.sourceLeaf,
      dragTarget p.current p.domain 350 400,
      (project p.current p.domain.bounds p.domain.gap).toOption.all fun out =>
        (dragGroupLayouts p.current (leafRectsOf out)).all fun layout =>
          (classifyGroupPoint layout.rect layout.id 350 400 p.capture.prior).isNone)) =
      some (⟨200, 0, 800, 800⟩, ⟨"leaf-w"⟩, ⟨"leaf-v"⟩, some ⟨"leaf-v"⟩, true) := by
    decide +kernel
  obtain ⟨p, hp, heval⟩ := Option.map_eq_some_iff.mp heval
  simp only [Prod.mk.injEq] at heval
  obtain ⟨hrect, hleaf, hsource, htarget, haway⟩ := heval
  obtain ⟨hdrag, hcontext, geometry, hgeometry, hshown⟩ := Sample.probe_ok hp
  have hits := hclaim _ _ _ _ _ _ _ 350 400 (Sample.session_reachable _ _) hdrag hcontext hgeometry
    hshown (by rw [hleaf, hsource]; decide) (by rw [hrect]; decide) fun out hout layout hlayout => by
      rw [hout] at haway
      exact Option.isNone_iff_eq_none.mp (List.all_eq_true.mp haway layout hlayout)
  have hsame := htarget.symm.trans hits.2
  rw [hleaf] at hsame
  exact absurd hsame (by decide)

end Session

end PlasmaTiler
