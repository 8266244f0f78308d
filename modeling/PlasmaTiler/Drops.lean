import PlasmaTiler.Keyed
import PlasmaTiler.Undiverged

/-!
# What a drop binds

A drop plans against the resolved point and binds an operation to its plan,
which names a parent, sometimes a fresh group, a side and the window of the
target. The reconciler checks the operation on its own terms, and an
operation it rejects ends the session. So it matters that no drop ever
derives one.

A placement names a parent and, when it wraps, a fresh group; all of them lie
in the tree without the source (`Lifted`), so none of them is the source. The
minted id is longer than the leaf it is minted for. With the window of the
target told apart from the captured one, the operation a drop derives passes
the check (`planDrop_valid`).

That closes the last family, and the second half of the module draws the sum
over all of them: a proposal made against the session's own revision ends in
a divergence only when one is recorded already, or when it is a keyboard
resize that reverses (`proposal_undiverged_iff`). The reversing step is real,
one key press on a tile that a hint has made larger than its share.
-/

namespace PlasmaTiler

/-! ## Lookups -/

theorem findGroupFull_mem {tree : Node} {id gid : NodeId} {axis : Axis} {children : List Node}
    {shares : List Nat} (h : findGroupFull tree id = some (children, shares, gid, axis)) :
    Node.group id axis children shares ∈ tree.nodes := by
  obtain ⟨n, hfind, hn⟩ := Option.bind_eq_some_iff.mp h
  have hnamed := List.find?_some hfind
  cases n with
  | leaf i => cases hn
  | group i a cs ss =>
    cases hn
    simp only [isGroupNamed, Bool.and_eq_true, Node.id_group, beq_iff_eq] at hnamed
    obtain rfl := hnamed.1
    exact List.mem_of_find?_eq_some hfind

theorem findGroup_mem {tree : Node} {id gid : NodeId} {axis : Axis} {children : List Node}
    (h : findGroup tree id = some (children, axis, gid)) :
    ∃ shares, Node.group id axis children shares ∈ tree.nodes := by
  obtain ⟨⟨cs, shares, g, a⟩, hfull, heq⟩ := Option.map_eq_some_iff.mp h
  cases heq
  exact ⟨shares, findGroupFull_mem hfull⟩

theorem Node.id_mem_of_mem_nodes {n m : Node} (h : m ∈ n.nodes) : m.id ∈ n.ids := by
  rw [← Node.map_id_nodes]
  exact List.mem_map_of_mem h

/-- A child is never named like its group. -/
theorem IdsOk.child_ne {tree : Node} (hok : IdsOk tree) {id : NodeId} {axis : Axis}
    {children : List Node} {shares : List Nat} {child : Node}
    (hgroup : Node.group id axis children shares ∈ tree.nodes) (hchild : child ∈ children) :
    child.id ≠ id := by
  intro heq
  have hnodup := (hok.of_mem hgroup).nodup
  rw [Node.ids_group, List.nodup_cons] at hnodup
  exact hnodup.1 (heq ▸ List.mem_flatMap.mpr ⟨child, hchild, child.id_mem_ids⟩)

/-! ## Placements -/

/-- What a placement binds fits the leaf it moves and the node it aims at: all
ids are named, the source is none of them, and there is a new group exactly
when the placement wraps. -/
structure DragPlacement.Fits (p : DragPlacement) (sourceLeaf target : NodeId) : Prop where
  target_named : target.isEmpty = false
  target_ne : target ≠ sourceLeaf
  parent_named : p.targetGroup.isEmpty = false
  parent_ne : p.targetGroup ≠ sourceLeaf
  plain : p.wrap = false → p.newGroup = none
  wraps : p.wrap = true → ∃ newGroup, p.newGroup = some newGroup ∧ newGroup.isEmpty = false ∧
    newGroup ≠ sourceLeaf ∧ newGroup ≠ target ∧ newGroup ≠ p.targetGroup ∧
    (p.targetGroup = target → p.insertionIndex = 0)

/-- The tree without the source: its ids are valid, and the source is not
among them any more. -/
structure Lifted (working : Node) (sourceLeaf : NodeId) : Prop where
  ids : IdsOk working
  source : sourceLeaf ∉ working.ids

section
variable {tree working : Node} {sourceLeaf target group : NodeId} {side : DragSide}
  {baseRevision : Nat} {p : DragPlacement}

theorem liftSource_lifted (hok : TreeOk tree) (hleaf : sourceLeaf ∈ tree.leaves)
    (h : liftSource tree sourceLeaf = some working) : Lifted working sourceLeaf := by
  simp only [liftSource, removeLeafFromTree, Option.bind_some, Option.bind_eq_bind,
    Option.bind_eq_some_iff] at h
  obtain ⟨n, hremove, _, -, h⟩ := h
  cases h
  have hremoved := removeNode_removed hok.wellFormed hok.nodup hleaf hremove
  exact ⟨(treeOk_of_removed hok hremoved).idsOk, hremoved.leaf_not_mem⟩

theorem Lifted.named (h : Lifted working sourceLeaf) (hid : group ∈ working.ids) :
    group.isEmpty = false ∧ group ≠ sourceLeaf :=
  ⟨h.ids.nonempty group hid, fun heq => h.source (heq ▸ hid)⟩

/-- A minted group id is longer than the leaf it is minted for. -/
theorem generateDragGroupId_ne {existing : BTreeSet NodeId} :
    generateDragGroupId sourceLeaf baseRevision existing ≠ sourceLeaf := by
  intro heq
  obtain ⟨rest, hraw, -⟩ := freshId_raw
    ("grp-" ++ sourceLeaf.raw ++ "-r" ++ toString baseRevision ++ "-drag") existing
  have hlength := congrArg String.length ((congrArg Id.raw heq).symm.trans hraw)
  simp only [String.length_append] at hlength
  have hprefix : "grp-".length = 4 := by decide
  omega

theorem generateDragGroupId_named {existing : BTreeSet NodeId} :
    (generateDragGroupId sourceLeaf baseRevision existing).isEmpty = false := by
  refine freshId_isEmpty fun heq => ?_
  have hlength := congrArg String.length heq
  simp only [String.length_append] at hlength
  have hprefix : "grp-".length = 4 := by decide
  have hempty : "".length = 0 := by decide
  omega

theorem generateDragGroupId_fresh {id : NodeId} (hid : id ∈ working.ids) :
    generateDragGroupId sourceLeaf baseRevision (.ofList working.ids) ≠ id := by
  intro heq
  have hmem : id ∈ (.ofList working.ids : BTreeSet NodeId) := by
    rw [Std.ExtTreeSet.mem_ofList]
    exact List.contains_iff_mem.mpr hid
  rw [← heq] at hmem
  exact freshId_not_mem hmem

theorem wrapTarget_fits {targetNode : Node} {parent : Option NodeId} {axis : Axis} {before : Bool}
    (hlift : Lifted working sourceLeaf) (htarget : target ∈ working.ids)
    (h : wrapTarget working sourceLeaf target targetNode parent axis before baseRevision = some p) :
    p.Fits sourceLeaf target := by
  obtain ⟨hnamed, hne⟩ := hlift.named htarget
  unfold wrapTarget at h
  dsimp only at h
  split at h
  · cases h
    exact ⟨hnamed, hne, hnamed, hne, (fun h => by cases h), fun _ => ⟨_, rfl, generateDragGroupId_named,
      generateDragGroupId_ne, generateDragGroupId_fresh htarget,
      generateDragGroupId_fresh htarget, fun _ => rfl⟩⟩
  · simp only [Option.bind_eq_bind, Option.bind_eq_some_iff] at h
    obtain ⟨parentId, -, ⟨children, shares, gid, paxis⟩, hgroup, index, hindex, _, -, updated, -,
      h⟩ := h
    cases h
    have hmem := findGroupFull_mem hgroup
    have hparent := Node.id_mem_of_mem_nodes hmem
    obtain ⟨hparentNamed, hparentNe⟩ := hlift.named hparent
    -- the target is a child of its parent, so it is not the parent
    obtain ⟨hlt, hchild, -⟩ := List.findIdx?_eq_some_iff_getElem.mp hindex
    have hid : children[index].id = target := by simpa [isNamed] using hchild
    have hdistinct : parentId ≠ target := by
      rintro rfl
      exact hlift.ids.child_ne hmem (List.getElem_mem hlt) hid
    exact ⟨hnamed, hne, hparentNamed, hparentNe, (fun h => by cases h), fun _ => ⟨_, rfl,
      generateDragGroupId_named, generateDragGroupId_ne, generateDragGroupId_fresh htarget,
      generateDragGroupId_fresh hparent, fun heq => absurd heq hdistinct⟩⟩

/-- A sibling placement in a group of the tree. -/
theorem sibling_fits {updated : Node} {index : Nat} (hlift : Lifted working sourceLeaf)
    (htarget : target ∈ working.ids) (hgroup : group ∈ working.ids) :
    DragPlacement.Fits ⟨updated, group, index, false, none⟩ sourceLeaf target := by
  obtain ⟨hnamed, hne⟩ := hlift.named htarget
  obtain ⟨hgroupNamed, hgroupNe⟩ := hlift.named hgroup
  exact ⟨hnamed, hne, hgroupNamed, hgroupNe, fun _ => rfl, nofun⟩

theorem applyDragPlacement_fits (hok : TreeOk tree) (hleaf : sourceLeaf ∈ tree.leaves)
    (h : applyDragPlacement tree sourceLeaf target side baseRevision = some p) :
    p.Fits sourceLeaf target := by
  simp only [applyDragPlacement, Option.bind_eq_bind, Option.bind_eq_some_iff, require_eq_some] at h
  obtain ⟨_, -, axis, -, before, -, working, hworking, _, htarget, h⟩ := h
  have hlift := liftSource_lifted hok hleaf hworking
  have hmem : target ∈ working.ids := Node.mem_ids_of_mem_leaves (List.contains_iff_mem.mp htarget)
  split at h
  · exact wrapTarget_fits hlift hmem h
  · simp only [Option.bind_eq_some_iff] at h
    obtain ⟨⟨children, parentAxis, gid⟩, hgroup, h⟩ := h
    dsimp only at h
    split at h
    · simp only [Option.bind_eq_some_iff] at h
      obtain ⟨index, -, _, -, updated, -, h⟩ := h
      cases h
      obtain ⟨shares, hnode⟩ := findGroup_mem hgroup
      exact sibling_fits hlift hmem (Node.id_mem_of_mem_nodes hnode)
    · exact wrapTarget_fits hlift hmem h

theorem applyGroupEdgePlacement_fits (hok : TreeOk tree) (hleaf : sourceLeaf ∈ tree.leaves)
    (h : applyGroupEdgePlacement tree sourceLeaf group side baseRevision = some p) :
    p.Fits sourceLeaf group := by
  simp only [applyGroupEdgePlacement, Option.bind_eq_bind, Option.bind_eq_some_iff] at h
  obtain ⟨axis, -, before, -, _, -, working, hworking, ⟨children, shares, gid, groupAxis⟩, hgroup, _,
    -, h⟩ := h
  have hlift := liftSource_lifted hok hleaf hworking
  have hmem := Node.id_mem_of_mem_nodes (findGroupFull_mem hgroup)
  dsimp only at h
  split at h
  · simp only [Option.bind_eq_some_iff] at h
    obtain ⟨updated, -, h⟩ := h
    cases h
    exact sibling_fits hlift hmem hmem
  · simp only [Option.bind_eq_some_iff] at h
    obtain ⟨groupNode, -, h⟩ := h
    exact wrapTarget_fits hlift hmem h

theorem applyGroupInteriorPlacement_fits {predecessor : Nat} (hok : TreeOk tree)
    (hleaf : sourceLeaf ∈ tree.leaves)
    (h : applyGroupInteriorPlacement tree sourceLeaf group predecessor = some p) :
    p.Fits sourceLeaf group := by
  simp only [applyGroupInteriorPlacement, Option.bind_eq_bind, Option.bind_eq_some_iff] at h
  obtain ⟨_, -, working, hworking, ⟨children, shares, gid, axis⟩, hgroup, updated, -, h⟩ := h
  cases h
  have hlift := liftSource_lifted hok hleaf hworking
  have hmem := Node.id_mem_of_mem_nodes (findGroupFull_mem hgroup)
  exact sibling_fits hlift hmem hmem

end

/-! ## Resolved targets -/

/-- A resolved point: a placement that fits and an end of the axis that its
side names. -/
structure SharedDragResolved.Sound (resolved : SharedDragResolved) (capture : DragState) :
    Prop where
  fits : resolved.placement.Fits capture.sourceLeaf resolved.targetLeaf
  axis : resolved.side.axis = some resolved.axis
  before : resolved.side.before = some resolved.before
  window_named : resolved.targetWindow.isEmpty = false
  window_ne : capture.sourceWindow ≠ resolved.targetWindow

section
variable {tree : Node} {windows : Links} {exceptions : Exceptions} {capture : DragState}
  {resolved : SharedDragResolved} {x y : Int}

theorem groupRepWindow_ne {group : NodeId} {sourceWindow window : WindowId} {domain : DomainKey}
    (h : groupRepWindow tree group windows sourceWindow domain = some window) :
    window ≠ sourceWindow ∧ ∃ leaf, windowAt windows domain leaf = some window := by
  simp only [groupRepWindow, Option.bind_eq_bind, Option.bind_eq_some_iff] at h
  obtain ⟨node, -, hrep⟩ := h
  obtain ⟨leaf, -, hfilter⟩ := List.exists_of_findSome?_eq_some hrep
  obtain ⟨hwindow, hne⟩ := Option.filter_eq_some_iff.mp hfilter
  exact ⟨by simpa using hne, leaf, hwindow⟩

/-- The links the resolver goes by: each under the window it names, none of
them nameless, and the captured window's at the captured leaf of a valid tree.
-/
structure Resolvable (tree : Node) (windows : Links) (capture : DragState) : Prop where
  ok : TreeOk tree
  source : capture.sourceLeaf ∈ tree.leaves
  keyed : Keyed windows
  link_named : ∀ {w : WindowId} {l}, windows[w]? = some l → l.window.isEmpty = false
  captured : ∃ link, windows[capture.sourceWindow]? = some link ∧ link.leaf = capture.sourceLeaf

theorem Resolvable.windowAt_named (hsrc : Resolvable tree windows capture) {leaf : NodeId}
    {window : WindowId} (h : windowAt windows capture.domain leaf = some window) :
    window.isEmpty = false := by
  obtain ⟨link, hlink, -, -⟩ := hsrc.keyed.windowAt h
  have hnamed := hsrc.link_named hlink
  rwa [hsrc.keyed hlink] at hnamed

theorem resolveGroup_sound {layout : GroupLayout} (hsrc : Resolvable tree windows capture)
    (h : resolveGroup tree windows exceptions capture layout x y = .ok resolved) :
    resolved.Sound capture := by
  simp only [resolveGroup, bind_eq_ok, okOr_eq_ok] at h
  obtain ⟨rep, hrep, _, -, h⟩ := h
  obtain ⟨hne, leaf, hwindow⟩ := groupRepWindow_ne hrep
  have hnamed := hsrc.windowAt_named hwindow
  split at h
  · simp only [bind_eq_ok, okOr_eq_ok, pure_eq_ok] at h
    obtain ⟨axis, haxis, before, hbefore, placement, hplacement, rfl⟩ := h
    exact ⟨applyGroupEdgePlacement_fits hsrc.ok hsrc.source hplacement, haxis, hbefore, hnamed,
      hne.symm⟩
  · simp only [bind_eq_ok, okOr_eq_ok, pure_eq_ok] at h
    obtain ⟨placement, hplacement, axis, haxis, before, hbefore, rfl⟩ := h
    exact ⟨applyGroupInteriorPlacement_fits hsrc.ok hsrc.source hplacement, haxis, hbefore, hnamed,
      hne.symm⟩

theorem resolveLeaf_sound {leafRects : BTreeMap NodeId Rect} {id : NodeId}
    (hsrc : Resolvable tree windows capture)
    (h : resolveLeaf tree windows exceptions capture leafRects id x y = .ok resolved) :
    resolved.Sound capture := by
  simp only [resolveLeaf, bind_eq_ok, ensure_eq_ok, okOr_eq_ok, pure_eq_ok, bne_iff_ne, ne_eq] at h
  obtain ⟨_, hid, rect, -, side, -, _, -, targetWindow, hwindow, _, -, axis, haxis, before, hbefore,
    placement, hplacement, rfl⟩ := h
  refine ⟨applyDragPlacement_fits hsrc.ok hsrc.source hplacement, haxis, hbefore,
    hsrc.windowAt_named hwindow, ?_⟩
  -- the target's link is at another leaf than the captured one
  rintro rfl
  obtain ⟨link, hlink, hleaf, -⟩ := hsrc.keyed.windowAt hwindow
  obtain ⟨source, hsource, hsourceLeaf⟩ := hsrc.captured
  obtain rfl := Option.some.inj (hlink.symm.trans hsource)
  exact hid (hleaf.symm.trans hsourceLeaf)

theorem resolveDragShared_sound {domain : OutputDomain} (hsrc : Resolvable tree windows capture)
    (h : resolveDragShared tree domain windows exceptions capture x y = .ok resolved) :
    resolved.Sound capture := by
  simp only [resolveDragShared, bind_eq_ok] at h
  obtain ⟨_, -, projected, -, h⟩ := h
  split at h
  · simp only [bind_eq_ok] at h
    obtain ⟨layout, -, h⟩ := h
    exact resolveGroup_sound hsrc h
  · exact resolveLeaf_sound hsrc h

end

/-! ## The operation -/

theorem validDragOperation_of {operation : DragOperation} {placement : DragPlacement}
    (houtput : operation.domainOutput.isEmpty = false)
    (hworkspace : operation.domainWorkspace.isEmpty = false)
    (hsource : operation.sourceLeaf.isEmpty = false)
    (hwindow : operation.sourceWindow.isEmpty = false)
    (htarget : operation.targetWindow.isEmpty = false)
    (hne : operation.sourceWindow ≠ operation.targetWindow)
    (haxis : operation.side.axis = some operation.axis)
    (hbefore : operation.side.before = some operation.before)
    (hplaced : operation = { operation with
      targetGroup := placement.targetGroup, insertionIndex := placement.insertionIndex
      wrap := placement.wrap, newGroup := placement.newGroup })
    (hfits : placement.Fits operation.sourceLeaf operation.targetLeaf) :
    Reconciler.validDragOperation operation = true := by
  have hgroup : operation.targetGroup = placement.targetGroup := by rw [hplaced]
  have hindex : operation.insertionIndex = placement.insertionIndex := by rw [hplaced]
  have hwrap : operation.wrap = placement.wrap := by rw [hplaced]
  have hnew : operation.newGroup = placement.newGroup := by rw [hplaced]
  have hleafNe : operation.sourceLeaf ≠ operation.targetLeaf := hfits.target_ne.symm
  have hshape : (operation.domainOutput.isEmpty || operation.domainWorkspace.isEmpty ||
      operation.sourceLeaf.isEmpty || operation.sourceWindow.isEmpty ||
      operation.targetLeaf.isEmpty || operation.targetWindow.isEmpty ||
      operation.targetGroup.isEmpty) = false := by
    rw [houtput, hworkspace, hsource, hwindow, htarget, hgroup, hfits.target_named,
      hfits.parent_named]
    rfl
  rw [Reconciler.validDragOperation, hshape, if_neg (by decide),
    if_neg (not_or.mpr ⟨hleafNe, hne⟩), haxis, hbefore]
  dsimp only
  rw [if_neg (by simp), hwrap, hnew, hgroup, hindex]
  cases hkind : placement.wrap with
  | false =>
    rw [hfits.plain hkind, if_neg (by decide)]
    simp [hfits.parent_ne]
  | true =>
    obtain ⟨newGroup, hgroupNew, hnamed, hsourceNe, htargetNe, hparentNe, hroot⟩ :=
      hfits.wraps hkind
    rw [hgroupNew, if_pos rfl]
    dsimp only
    rw [if_neg (by simp [hnamed, hsourceNe, htargetNe, hparentNe])]
    split
    · rename_i heq
      simp [hroot heq]
    · simp [hfits.parent_ne]

namespace Session

section
variable {s : Session} {observed : SessionObservation} {correlationId : CorrelationId}
  {capabilities : DragCapabilities} {x y : Int}

/-- A live capture that is not stale names a leaf of the accepted world. -/
theorem resolvable (hs : s.Valid) (hkeyed : Keyed s.windows) {capture : DragState} {tree : Node}
    (hnamed : capture.Named) (hstale : s.dragCaptureStale capture = false)
    (htree : treeAt s.trees capture.domain = some tree) :
    Resolvable tree s.windows capture := by
  obtain ⟨-, link, hlink, hleaf, hkey⟩ := hnamed
  simp only [dragCaptureStale, Bool.or_eq_false_iff, decide_eq_false_iff_not, ne_eq,
    not_not] at hstale
  have hwindows : s.windows = capture.windows := hstale.1.1.1.2
  rw [← hwindows] at hlink
  obtain ⟨n, hn, hmem⟩ := hasLeaf_iff.mp (hasLeaf_of_link hs hlink)
  rw [hkey, htree] at hn
  obtain rfl := Option.some.inj hn
  refine ⟨hs.tree_ok htree, hleaf ▸ hmem, hkeyed, fun {w l} hl => ?_, link, hlink, hleaf⟩
  have hvalid := hs.link_valid hl
  simp only [validLink, Bool.and_eq_true, Bool.not_eq_true'] at hvalid
  exact hvalid.1.1.1.1.1

/-- What a drop plans, its operation checked and its capability given. -/
theorem planDrop_valid (hs : s.Valid) (hkeyed : Keyed s.windows) {capture : DragState}
    (hnamed : capture.Named) {staging : Staging DragPlan} {prior : Option PriorGroupEdge}
    (h : s.planDrop capture x y observed capabilities = .ok (staging, prior)) :
    capabilities.supports .placeTiled = true ∧ ∃ intent operation,
      staging.plan = .forOperation intent operation ∧
      intent = ⟨operation.domainOutput, operation.domainWorkspace, operation.sourceLeaf,
        operation.sourceWindow, operation.targetLeaf, operation.targetWindow, operation.side⟩ ∧
      Reconciler.validDragOperation operation = true := by
  simp only [planDrop, dragContext, bind_eq_ok, snapUnless, ensure_eq_ok, mapError_eq_ok,
    okOr_eq_ok, pure_eq_ok, Bool.not_eq_true', Prod.mk.injEq] at h
  obtain ⟨_, -, _, -, _, -, _, -, _, ⟨_, hstale, current, hcurrent, domain, hdomain, rfl⟩, resolved,
    hresolved, _, hsupported, _, -, _, -, _, -, _, -, rfl, -⟩ := h
  have hsrc := resolvable hs hkeyed hnamed hstale hcurrent
  have hsound := resolveDragShared_sound hsrc hresolved
  obtain ⟨houtput, hworkspace⟩ := domainAt_named hs hdomain
  have hleaf := hsrc.ok.nonempty _ (Node.mem_ids_of_mem_leaves hsrc.source)
  refine ⟨hsupported, _, _, rfl, rfl, ?_⟩
  have hfits := hsound.fits
  exact validDragOperation_of houtput hworkspace hleaf hnamed.1 hsound.window_named hsound.window_ne
    hsound.axis hsound.before rfl hfits

theorem dropDrag_undiverged (hs : s.Valid) (hkeyed : Keyed s.windows) (hdrag : s.DragNamed)
    (hlive : s.divergence = none) (hbound : s.reconciler.Bound observed.observation) :
    Undiverged (s.dropDrag x y observed correlationId capabilities).2 := by
  have hrefused : ∀ {α : Type} {e : ProposeError}, (∀ reason, e ≠ .diverged reason) →
      Undiverged (.error e : Except ProposeError α) := by
    intro α e he reason heq
    exact he reason (Except.error.inj heq)
  unfold dropDrag
  rw [hlive]
  dsimp only
  split
  · exact hrefused nofun
  · rename_i capture hcapture
    split
    · exact hrefused nofun
    · split
      · intro reason h
        cases h
      · exact hrefused nofun
      · rename_i staging prior hplan
        obtain ⟨hsupported, intent, operation, hstaging, hintent, hvalid⟩ :=
          planDrop_valid hs hkeyed (hdrag capture hcapture) hplan
        have hverdict : Reconciler.Undiverged (s.reconciler.proposeDrag staging.plan
            observed.observation correlationId capabilities).2 := by
          rw [hstaging]
          exact Reconciler.proposeDrag_undiverged hlive hbound hsupported hintent hvalid
        have hstaged : Undiverged ((s.hovering prior).proposeStaged (.ok staging)
            (fun plan =>
              s.reconciler.proposeDrag plan observed.observation correlationId capabilities)
            fun dispatch staging =>
              ({ s.planOf dispatch staging.desired staging.geometry with
                dragPlan := staging.plan } : SessionDragPlan)).2 := by
          refine (proposeStaged_undiverged (s := s.hovering prior) hlive (faithful_ok _)).mpr ?_
          rintro _ ⟨⟩
          exact hverdict
        generalize (s.hovering prior).proposeStaged (.ok staging) _ _ = answer at hstaged ⊢
        obtain ⟨s', result⟩ := answer
        cases result with
        | ok plan =>
          intro reason h
          cases h
        | error e =>
          intro reason h
          cases h
          exact hstaged reason rfl

end

/-! ## Every proposal -/

section
variable {s : Session} {p : Proposal}

/-- Over a live session a proposal diverges exactly when it reverses. -/
theorem proposal_undiverged_live (hs : Reachable s) (hlive : s.divergence = none)
    (hp : s.Presents p) : Undiverged (s.proposal p).2 ↔ s.reverses p = false := by
  have hvalid := (reachable_worldsOk hs).1.2
  have hbound := hp.bound (ownReconciler_invariant.reachable hs)
  have hsupported := hp.supported
  have hnever : ∀ {α β : Type} {f : α → β} {result : Except ProposeError α}, Undiverged result →
      s.reverses p = false → (Undiverged (result.map f) ↔ s.reverses p = false) := by
    intro α β f result hresult hreverses
    exact iff_of_true (undiverged_map.mpr hresult) hreverses
  cases p with
  | command command observed correlationId capabilities =>
    exact hnever (propose_undiverged hlive hbound hsupported) rfl
  | toggleOrientation window observed correlationId capabilities =>
    exact hnever (proposeLifecyclePlan_undiverged hlive hbound planToggleOrientation_faithful
      (fun _ h => planToggleOrientation_needs h) hsupported) rfl
  | fittedAdmit fitted observed correlationId capabilities =>
    exact hnever (proposeLifecyclePlan_undiverged hlive hbound planFittedAdmit_faithful
      (fun _ h => planFittedAdmit_needs h) hsupported) rfl
  | move domain window direction observed correlationId capabilities sameAxisMove =>
    exact hnever (proposeMove_undiverged hlive hbound) rfl
  | focus domain window direction observed correlationId capabilities =>
    exact hnever (proposeFocus_undiverged hlive hbound) rfl
  | crossOutputFocus domain window direction observed correlationId capabilities =>
    exact hnever (crossOutputFocus_undiverged hlive hbound) rfl
  | floatCrossOutputFocus domain window direction observed correlationId capabilities =>
    exact hnever (crossOutputFocus_undiverged hlive hbound) rfl
  | resize domain window direction mode pressIndex observed correlationId capabilities =>
    exact undiverged_map.trans (proposeResize_undiverged_iff hlive hbound)
  | pointerResize domain window direction boundary observed correlationId capabilities =>
    exact hnever (proposePointerResize_undiverged hlive hbound) rfl
  | pointerResizeCorner domain window directionH boundaryH directionV boundaryV observed
      correlationId capabilities =>
    exact hnever (proposePointerResizeCorner_undiverged hlive hbound) rfl
  | dropDrag x y observed correlationId capabilities =>
    exact hnever (dropDrag_undiverged hvalid (reachable_keyed hs) (reachable_dragNamed hs) hlive
      hbound) rfl

/-- A proposal against the accepted revision ends in a divergence only when
one is recorded already, or when it is a keyboard resize whose step moves the
boundary against the shares. -/
theorem proposal_undiverged_iff (hs : Reachable s) (hp : s.Presents p) :
    Undiverged (s.proposal p).2 ↔ s.divergence = none ∧ s.reverses p = false := by
  cases hd : s.divergence with
  | some reason =>
    refine iff_of_false (fun h => h reason (proposal_diverged hd)) ?_
    rintro ⟨⟨⟩, -⟩
  | none =>
    rw [proposal_undiverged_live hs hd hp]
    exact (and_iff_right rfl).symm

end

end Session

/-! ## A reversing step -/

namespace Sample

/-- A window that asks for most of the output. -/
def demanding (raw : String) : ObservedWindow := { window raw with hints := { minW := some 800 } }

/-- Two tiles side by side, the left one focused. -/
def sideBySide : Session :=
  Session.machine.run empty
    [.convergeObservation (observation 0 [window "v", window "w"]) (some ⟨"v"⟩)]

/-- A key press on the left tile, which the hint has made the larger one. -/
def widened : Proposal :=
  .resize ⟨⟨"A"⟩, ⟨"1"⟩⟩ ⟨"v"⟩ .right .inwards 0 (observation 1 [demanding "v", window "w"])
    correlationId ⟨true, true⟩

end Sample

namespace Session

/-- An admission beside other windows never diverges. -/
theorem proposal_undiverged_iff_admission :
    Undiverged (Sample.stocked.proposal Sample.admission).2 := by
  have hpresents : Sample.stocked.Presents Sample.admission :=
    ⟨by decide +kernel, by decide +kernel, by decide +kernel, by decide +kernel,
      by decide +kernel⟩
  exact (proposal_undiverged_iff (Sample.session_reachable _ _) hpresents).mpr
    ⟨by decide +kernel, rfl⟩

/-- One key press ends a session: the hint makes the left tile larger than
its share, and shrinking it still leaves it larger, so that the planned
shares grow. -/
theorem widened_diverges :
    Reachable Sample.sideBySide ∧ Sample.sideBySide.Presents Sample.widened ∧
      Sample.sideBySide.divergence = none ∧
      ¬Undiverged (Sample.sideBySide.proposal Sample.widened).2 := by
  refine ⟨Sample.session_reachable _ _, ⟨by decide +kernel, by decide +kernel, by decide +kernel,
    by decide +kernel, by decide +kernel⟩, by decide +kernel, fun h => ?_⟩
  have hreported : Sample.sideBySide.reported (.propose Sample.widened) =
      some .postconditionMismatch := by decide +kernel
  simp only [reported] at hreported
  split at hreported
  · rename_i reason heq
    exact h reason heq
  · cases hreported

end Session

end PlasmaTiler
