import PlasmaTiler.Proposing

/-!
# What each plan establishes

One lemma per plan function: the desired world it stages, written as an
update of the accepted one, with the facts the plan has checked about it. A
plan function is a chain of guards around a few lines that compute the new
trees, links and focus; the lemma keeps what the guards have found out and
forgets the rest.

Where several functions compute worlds of the same shape, the shape has a
structure of its own: a tile joining at a minted leaf (`TiledWorld`), a tile
leaving (`removedWorld`), a tile carried to another domain (`SentWorld`), a
tree with other shares (`ResizedWorld`) or with the captured leaf elsewhere
(`DroppedWorld`). The families that validate what they stage carry the
validity of the result along, and the later modules never validate again.
-/

namespace PlasmaTiler

/-! ## Changing shares and axes -/

/-- The tree `n'` has the nodes of `n`, leaves and groups, in the same order:
only axes and shares may be different. -/
structure Reshaped (n n' : Node) : Prop where
  ids : n'.ids = n.ids
  leaves : n'.leaves = n.leaves

section
variable {n n' : Node} {group : NodeId} {newShares : List Nat} {replaced : Nat}

theorem reshaped_group {i : NodeId} {axis axis' : Axis} {cs cs' : List Node}
    {shares shares' : List Nat} (h : List.Forall₂ Reshaped cs cs') :
    Reshaped (.group i axis cs shares) (.group i axis' cs' shares') := by
  have hflat : cs'.flatMap Node.ids = cs.flatMap Node.ids ∧
      cs'.flatMap Node.leaves = cs.flatMap Node.leaves := by
    induction h with
    | nil => exact ⟨rfl, rfl⟩
    | cons hc _ ih =>
      simp only [List.flatMap_cons, hc.ids, hc.leaves, ih.1, ih.2]
      exact ⟨trivial, trivial⟩
  exact ⟨by simp [hflat.1], by simp [hflat.2]⟩

theorem applyResizeSharesChecked_reshaped
    (h : applyResizeSharesChecked group newShares n = some (n', replaced)) : Reshaped n n' := by
  induction n generalizing n' replaced with
  | leaf i => cases h; exact ⟨rfl, rfl⟩
  | group i axis cs shares ih =>
    have hchildren : ∀ (l l' : List Node) (r : Nat), l ⊆ cs →
        applyResizeSharesIn group newShares l = some (l', r) → List.Forall₂ Reshaped l l' := by
      intro l
      induction l with
      | nil => intro l' r _ h; cases h; exact .nil
      | cons c l ihl =>
        intro l' r hsub h
        obtain ⟨hc, hsub⟩ := List.cons_subset.mp hsub
        simp only [applyResizeSharesIn, Option.bind_eq_bind, Option.bind_eq_some_iff] at h
        obtain ⟨⟨next, r₁⟩, hnext, ⟨rest, r₂⟩, hrest, h⟩ := h
        cases h
        exact .cons (ih c hc hnext) (ihl rest r₂ hsub hrest)
    simp only [applyResizeSharesChecked, Option.bind_eq_bind, Option.bind_eq_some_iff] at h
    obtain ⟨⟨next, r⟩, hnext, h⟩ := h
    have hforall := hchildren cs next r (List.Subset.refl _) hnext
    split at h
    · simp only [Option.bind_eq_some_iff] at h
      obtain ⟨_, -, h⟩ := h
      cases h
      exact reshaped_group hforall
    · cases h
      exact reshaped_group hforall

theorem applyResizeShares_reshaped {tree updated : Node}
    (h : applyResizeShares tree group newShares = some updated) : Reshaped tree updated := by
  simp only [applyResizeShares, Option.bind_eq_bind, Option.bind_eq_some_iff] at h
  obtain ⟨_, -, _, -, _, -, ⟨next, r⟩, hnext, _, -, h⟩ := h
  cases h
  exact applyResizeSharesChecked_reshaped hnext

end

namespace Session

section
variable {s : Session} {desired : PendingDesired} {observed : SessionObservation}
  {window : WindowId} {staging : Staging LifecyclePlan}

/-- The accepted world of a session is valid: its trees, links, exceptions and
focus obey every rule of a world over the session's domains. -/
abbrev Valid (s : Session) : Prop :=
  WorldOk s.domains s.trees s.windows s.exceptions s.focusedDomain s.focusedLeaf

/-- A desired world is valid over the session's domains, by the rules the
accepted world obeys; committing it keeps these. -/
abbrev ValidDesired (s : Session) (desired : PendingDesired) : Prop :=
  WorldOk s.domains desired.trees desired.windows desired.exceptions desired.focusedDomain
    desired.focusedLeaf

theorem validateCurrentTopology_iff : s.validateCurrentTopology = true ↔ s.Valid :=
  validateTopology_iff

theorem isKnown_eq_false : s.isKnown window = false ↔
    window ∉ s.windows ∧ window ∉ s.exceptions := by
  rw [isKnown, Bool.or_eq_false_iff, contains_eq_false, contains_eq_false]

theorem domainFor_isSome {output : OutputId} {workspace : WorkspaceId} :
    (s.domainFor output workspace).isSome = true ↔
      ∃ d ∈ s.domains, d.id = output ∧ d.workspace = workspace := by
  simp [domainFor, List.find?_isSome]

theorem domainAt_eq_some {key : DomainKey} {d : OutputDomain} (h : s.domainAt key = some d) :
    d ∈ s.domains ∧ d.key = key :=
  ⟨List.mem_of_find?_eq_some h, by simpa using List.find?_some h⟩

theorem focusedWindowFor_eq_some {leaf : NodeId} {key : DomainKey}
    (h : s.focusedWindowFor leaf key = some window) :
    ∃ (w : WindowId) (link : WindowLink), s.windows[w]? = some link ∧ link.leaf = leaf ∧
      link.key = key ∧ link.window = window := by
  obtain ⟨link, hfind, hwindow⟩ := Option.map_eq_some_iff.mp h
  obtain ⟨w, hlink⟩ := mem_values.mp (List.mem_of_find?_eq_some hfind)
  have hmatch := List.find?_some hfind
  simp only [Bool.and_eq_true, beq_iff_eq] at hmatch
  exact ⟨w, link, hlink, hmatch.1.1, DomainKey.ext hmatch.1.2 hmatch.2, hwindow⟩

/-! ## Admission -/

/-- The world an exception joins. -/
def deferredWorld (s : Session) (record : ExceptionRecord) (automatic : BTreeSet WindowId) :
    PendingDesired :=
  { s.accepted with
    exceptions := s.exceptions.insert record.window record
    automaticFixed := automatic }

/-- The world after a window joined the tiles of its domain: one more leaf
under the id minted for it, linked to the window and focused, and nothing
else. -/
structure TiledWorld (s : Session) (c : AdmitCommand) (revision : Nat) (desired : PendingDesired) :
    Prop where
  inserted : ∃ n ids axis,
    insertTiled (treeAt s.trees c.key) (s.eligibleFocusIn c.key)
      (generateLeafId c.window s.allNodeIds) axis
      (s.allNodeIds.insert (generateLeafId c.window s.allNodeIds)) c.window revision =
        some (n, ids) ∧
    desired.trees = s.trees.insert c.key (some n)
  windows : desired.windows = s.windows.insert c.window
    ⟨c.window, generateLeafId c.window s.allNodeIds, c.output, c.workspace⟩
  exceptions : desired.exceptions = s.exceptions
  focusedDomain : desired.focusedDomain = some c.key
  focusedLeaf : desired.focusedLeaf = some (generateLeafId c.window s.allNodeIds)
  valid : s.ValidDesired desired

theorem planAdmitTiled_ok {c : AdmitCommand} {entry : ObservedWindow}
    (h : s.planAdmitTiled c entry observed = .ok staging) :
    s.TiledWorld c observed.observation.revision staging.desired := by
  simp only [planAdmitTiled, bind_eq_ok, refuseUnless, ensure_eq_ok, pure_eq_ok,
    validateTopology_iff] at h
  obtain ⟨_, -, _, hvalid, _, -, _, -, _, -, rfl⟩ := h
  refine ⟨?_, rfl, rfl, rfl, rfl, hvalid⟩
  -- the window's own link names a leaf of the next tree, so there is one
  have hlink := hvalid.link_valid (w := c.window) (lookup_insert.trans (if_pos rfl))
  simp only [validLink, Bool.and_eq_true, hasLeaf_iff] at hlink
  obtain ⟨-, n, hn, -⟩ := hlink
  have hkey : WindowLink.key ⟨c.window, generateLeafId c.window s.allNodeIds, c.output,
      c.workspace⟩ = c.key := rfl
  rw [hkey, treeAt_insert, if_pos rfl] at hn
  obtain ⟨⟨_, ids⟩, hinsert, rfl⟩ := Option.map_eq_some_iff.mp hn
  exact ⟨_, ids, _, hinsert, by rw [hn]⟩

/-- A window nobody knew joins the exceptions, marked or not, or a tree. -/
theorem planAdmit_ok {c : AdmitCommand} (h : s.planAdmit c observed = .ok staging) :
    (c.window ∉ s.windows ∧ c.window ∉ s.exceptions) ∧
      ((∃ flags automatic, staging.desired = s.deferredWorld (c.record flags) automatic) ∨
        s.TiledWorld c observed.observation.revision staging.desired) := by
  simp only [planAdmit, bind_eq_ok, refuseUnless, ensure_eq_ok, okOr_eq_ok, Bool.not_eq_true',
    isKnown_eq_false] at h
  obtain ⟨_, hwindow, _, -, entry, -, _, -, _, -, _, -, _, -, _, -, h⟩ := h
  refine ⟨hwindow, ?_⟩
  split at h
  · simp only [planAdmitDeferred, bind_eq_ok, refuseUnless, ensure_eq_ok, pure_eq_ok] at h
    obtain ⟨_, -, rfl⟩ := h
    exact .inl ⟨c.exceptions, s.automaticFixed, rfl⟩
  · split at h
    · cases h
      exact .inl ⟨.plainFloat, s.automaticFixed.insert c.window, rfl⟩
    · exact .inr (planAdmitTiled_ok h)

/-! ## Removal -/

/-- The world a tile leaves behind. -/
def removedWorld (s : Session) (window : WindowId) (link : WindowLink) : PendingDesired :=
  let trees := s.trees.insert link.key (removeLeafFromTree (treeAt s.trees link.key) link.leaf)
  let windows := s.windows.erase window
  let focus := s.focusAfterRemoval link trees windows
  { s.accepted with
    trees, windows
    focusedDomain := focus.1
    focusedLeaf := focus.2
    lastActive := s.updatedLastActive focus.1 focus.2 trees windows }

theorem planRemoveTiled_ok {link : WindowLink} {staging : Staging LifecyclePlan}
    (h : s.planRemoveTiled window link observed = .ok staging) :
    staging.desired = s.removedWorld window link ∧ s.ValidDesired staging.desired := by
  simp only [planRemoveTiled, bind_eq_ok, refuseUnless, ensure_eq_ok, validateTopology_iff] at h
  obtain ⟨_, hvalid, _, -, h⟩ := h
  split at h
  · simp only [bind_eq_ok, pure_eq_ok] at h
    obtain ⟨_, -, rfl⟩ := h
    exact ⟨rfl, hvalid⟩
  · simp only [bind_eq_ok, pure_eq_ok] at h
    obtain ⟨_, -, rfl⟩ := h
    exact ⟨rfl, hvalid⟩

/-- The two ways a removal is planned. -/
theorem planRemove_cases {staging : Staging LifecyclePlan}
    (h : s.planRemove window observed = .ok staging) :
    (∃ record, s.exceptions[window]? = some record ∧ s.windows[window]? = none ∧
      staging = s.removeDeferred window record) ∨
    ∃ link, s.exceptions[window]? = none ∧ s.windows[window]? = some link ∧
      s.planRemoveTiled window link observed = .ok staging := by
  simp only [planRemove, bind_eq_ok, refuseUnless, ensure_eq_ok] at h
  obtain ⟨_, -, _, hone, _, -, h⟩ := h
  split at h
  · rename_i record hrecord
    cases h
    have hcontains : s.windows.contains window = false := by simpa [hrecord] using hone
    exact .inl ⟨record, hrecord, Std.ExtTreeMap.getElem?_eq_none (contains_eq_false.mp hcontains),
      rfl⟩
  · exact .inr ⟨_, ‹_›, ‹_›, h⟩
  · cases h

/-! ## Float and orientation -/

/-- A float edits the world its tile leaves behind. -/
theorem planFloat_ok {rect : Option Rect} {target : ObservedWindow} {effective : Rect}
    (h : s.planFloat window rect observed = .ok (target, effective)) :
    observed.windows.find? (·.window == window) = some target ∧
      s.windows.contains window = true := by
  simp only [planFloat, bind_eq_ok, refuseUnless, ensure_eq_ok, okOr_eq_ok] at h
  obtain ⟨entry, hentry, _, htiled, requested, -, h⟩ := h
  have hcontains : s.windows.contains window = true := by
    simp only [Bool.not_eq_true', Bool.or_eq_false_iff, Bool.not_eq_false'] at htiled
    exact htiled.2
  refine ⟨?_, hcontains⟩
  split at h
  · cases h
    exact hentry
  · simp only [bind_eq_ok, pure_eq_ok, Prod.mk.injEq] at h
    obtain ⟨_, -, rfl, -⟩ := h
    exact hentry

theorem planToggleOrientation_ok {staging : Staging LifecyclePlan}
    (h : s.planToggleOrientation window observed = .ok staging) :
    ∃ domain leaf tree parent flipped, s.focusedDomain = some domain ∧
      s.focusedLeaf = some leaf ∧ treeAt s.trees domain = some tree ∧
      flipGroupAxis parent tree = some flipped ∧ staging.desired = { s.accepted with
        trees := s.trees.insert domain (some flipped)
        focusedDomain := some domain
        focusedLeaf := some leaf
        lastActive := s.updatedLastActive (some domain) (some leaf) s.trees s.windows } ∧
      s.ValidDesired staging.desired := by
  simp only [planToggleOrientation, focusedTile, bind_eq_ok, refuseUnless, ensure_eq_ok,
    okOr_eq_ok, pure_eq_ok, validateTopology_iff] at h
  obtain ⟨_, -, _, -, _, -, _, -, _, -, _, -, _, ⟨domain, hdomain, leaf, hleaf, _, -, rfl⟩, _, -, _, -,
    _, -, tree, htree, parent, -, flipped, hflipped, _, hvalid, _, -, rfl⟩ := h
  exact ⟨domain, leaf, tree, parent, flipped, hdomain, hleaf, htree, hflipped, rfl, hvalid⟩

/-! ## Sends -/

/-- The focus after a send: the mover, or the source's most recent leaf. -/
def sentFocus (s : Session) (link : WindowLink) (target : DomainKey) (follow : Bool)
    (trees : Trees) (windows : Links) : Option DomainKey × Option NodeId :=
  if follow then (some target, some link.leaf)
  else
    match s.focusStackFallback link.key trees windows with
    | some next => (some link.key, some next)
    | none => (none, none)

/-- The world after a send: the tile left the tree of its domain and joined
that of another under the leaf it had, its link names the new domain, and the
focus goes by `sentFocus`. -/
structure SentWorld (s : Session) (window : WindowId) (target : DomainKey) (follow : Bool)
    (revision : Nat) (desired : PendingDesired) : Prop where
  moved : ∃ link n ids anchor axis, s.windows[window]? = some link ∧ link.key ≠ target ∧
    (s.domainAt target).isSome ∧
    hasLeaf s.trees link.key link.leaf = true ∧
    (∀ leaf, anchor = some leaf → validFocus s.trees s.windows (some target) (some leaf)) ∧
    insertTiled (treeAt s.trees target) anchor link.leaf axis s.allNodeIds window revision =
      some (n, ids) ∧
    desired.trees = (s.trees.insert link.key
      (removeLeafFromTree (treeAt s.trees link.key) link.leaf)).insert target (some n) ∧
    desired.windows = s.windows.insert window
      ⟨window, link.leaf, target.output, target.workspace⟩ ∧
    (desired.focusedDomain, desired.focusedLeaf) =
      s.sentFocus link target follow desired.trees desired.windows
  exceptions : desired.exceptions = s.exceptions
  lastActive : desired.lastActive = s.updatedLastActive desired.focusedDomain desired.focusedLeaf
    desired.trees desired.windows
  valid : s.ValidDesired desired

theorem sendAnchor_valid {target : OutputDomain} {leaf : NodeId}
    (h : (s.sendAnchor target observed.windows).anchor = some leaf) :
    validFocus s.trees s.windows (some target.key) (some leaf) = true := by
  have hanchor : (s.rememberedLeaf target.key <|>
      s.focusStackFallback target.key s.trees s.windows) = some leaf := h
  rw [Option.orElse_eq_some] at hanchor
  rcases hanchor with hremembered | ⟨-, hfallback⟩
  · exact (Option.filter_eq_some_iff.mp hremembered).2
  · obtain ⟨leaves, -, hfind⟩ := Option.bind_eq_some_iff.mp hfallback
    exact List.find?_some
      (p := fun leaf => validFocus s.trees s.windows (some target.key) (some leaf)) hfind

theorem checkSendTarget_ok {source target : DomainKey} {cross : Bool} {u : Unit}
    (h : checkSendTarget source target cross = .ok u) : source ≠ target := by
  rintro rfl
  unfold checkSendTarget at h
  split at h
  · simp [refuseUnless] at h
  · simp [refuseUnless, bind_eq_ok] at h

theorem planSend_ok {target : DomainKey} {follow cross : Bool} {trace : SendPlacementTrace}
    (h : s.planSend window target follow cross observed = .ok (staging, trace)) :
    s.SentWorld window target follow observed.observation.revision staging.desired := by
  simp only [planSend, bind_eq_ok, refuseUnless, ensure_eq_ok, okOr_eq_ok, pure_eq_ok,
    validateTopology_iff, Prod.mk.injEq] at h
  obtain ⟨_, -, _, -, link, hlink, domain, -, leaf, -, _, -, _, -, _, -, _, htarget, d, hd, _, hleaf, _, -,
    ⟨n, ids⟩, hinsert, _, -, _, hvalid, _, -, _, -, rfl, -⟩ := h
  refine ⟨⟨link, n, ids, _, _, hlink, checkSendTarget_ok htarget, by rw [hd]; rfl, hleaf, ?_,
    hinsert, rfl, rfl, rfl⟩, rfl, rfl, hvalid⟩
  intro leaf hanchor
  rw [← (domainAt_eq_some hd).2]
  exact sendAnchor_valid hanchor

/-! ## Fitted admission -/

theorem planFittedAdmit_ok {f : FittedAdmit} (h : s.planFittedAdmit f observed = .ok staging) :
    ∃ windows, s.domains.length = 1 ∧ fittedLinks f.key f.links ∅ = .ok windows ∧
      s.exceptions.isEmpty = true ∧ staging.desired = { s.accepted with
        trees := (∅ : Trees).insert f.key (some f.tree)
        windows
        focusedDomain := some f.key
        focusedLeaf := some f.focusLeaf
        lastActive := s.updatedLastActive (some f.key) (some f.focusLeaf)
          ((∅ : Trees).insert f.key (some f.tree)) windows } ∧
      s.ValidDesired staging.desired := by
  simp only [planFittedAdmit, bind_eq_ok, refuseUnless, ensure_eq_ok, okOr_eq_ok, pure_eq_ok,
    validateTopology_iff, Bool.and_eq_true, beq_iff_eq] at h
  obtain ⟨_, -, _, -, _, ⟨⟨hone, -⟩, hexceptions⟩, _, -, _, -, domain, -, _, hkey, _, -, windows,
    hlinks, _, -, _, -, _, -, _, hvalid, _, -, _, -, rfl⟩ := h
  rw [← hkey] at hlinks
  refine ⟨windows, hone, hlinks, hexceptions, ?_, hvalid⟩
  rw [← hkey]

/-! ## Moves -/

theorem planMoveWithSameAxis_ok {domain : DomainKey} {direction : Direction}
    {capabilities : Capabilities} {sameAxisMove : SameAxisMove} {staging : Staging MovePlan}
    (h : s.planMoveWithSameAxis domain window direction observed capabilities sameAxisMove =
      .ok staging) :
    ∃ leaf snapshot applied, s.focusedLeaf = some leaf ∧ s.moveSnapshot domain = some snapshot ∧
      planMoveWithCapabilities snapshot ⟨domain.output, leaf, window, direction, sameAxisMove⟩
        capabilities = .planned staging.plan ∧
      applyMoveOperation s.trees s.windows s.domains domain leaf direction staging.plan
        observed.observation.revision
        ((crossTarget staging.plan.operation).bind s.rememberedLeaf) = some applied ∧
      moveTouchesOnlyAllowed s.trees applied.trees domain staging.plan.operation s.domains = true ∧
      staging.desired = { s.accepted with
        trees := applied.trees
        windows := applied.windows
        focusedDomain := some applied.focusDomain
        focusedLeaf := some applied.focusLeaf
        lastActive := s.updatedLastActive (some applied.focusDomain) (some applied.focusLeaf)
          applied.trees applied.windows } ∧
      s.ValidDesired staging.desired := by
  simp only [planMoveWithSameAxis, checkFocusIs, bind_eq_ok, refuseUnless, ensure_eq_ok,
    okOr_eq_ok, pure_eq_ok, validateTopology_iff] at h
  obtain ⟨_, -, _, -, _, -, _, -, _, -, _, -, _, -, _, ⟨_, -, leaf, hleaf, _, -, _, -, _, -, _, -, rfl⟩,
    snapshot, hsnapshot, plan, hplan, applied, happlied, _, htouches, _, hvalid, _, -, _, -,
    rfl⟩ := h
  refine ⟨leaf, snapshot, applied, hleaf, hsnapshot, ?_, happlied, htouches, rfl, hvalid⟩
  generalize planMoveWithCapabilities snapshot _ capabilities = outcome at hplan ⊢
  cases outcome with
  | planned p => cases hplan; rfl
  | noop _ => cases hplan
  | rejected reason => simp only [plannedMove] at hplan; split at hplan <;> cases hplan

/-! ## Focus -/

theorem hasLeaf_of_link (hs : s.Valid) {w : WindowId} {link : WindowLink}
    (h : s.windows[w]? = some link) : hasLeaf s.trees link.key link.leaf = true := by
  have hvalid := hs.link_valid h
  simp only [validLink, Bool.and_eq_true] at hvalid
  exact hvalid.2

/-- A leaf some window of the domain is linked to can take the focus. -/
theorem validFocus_of_link (hs : s.Valid) {w : WindowId} {link : WindowLink}
    (h : s.windows[w]? = some link) :
    validFocus s.trees s.windows (some link.key) (some link.leaf) = true := by
  simp only [validFocus, Bool.and_eq_true]
  exact ⟨hasLeaf_of_link hs h, linkedAt_iff.mpr ⟨w, link, h, rfl, rfl⟩⟩

theorem planFocusIn_ok {domain : DomainKey} {direction : Direction}
    {capabilities : FocusCapabilities} {staging : Staging (FocusPlanContract × FocusPlan)}
    (hs : s.Valid)
    (h : s.planFocusIn domain window direction observed capabilities = .ok staging) :
    ∃ leaf, staging.desired = s.refocused domain leaf ∧
      validFocus s.trees s.windows (some domain) (some leaf) = true := by
  simp only [planFocusIn, bind_eq_ok, refuseUnless, ensure_eq_ok, okOr_eq_ok] at h
  obtain ⟨_, -, _, -, _, -, _, -, _, -, tree, -, plan, -, h⟩ := h
  split at h
  · cases h
  · simp only [bind_eq_ok, okOr_eq_ok, ensure_eq_ok, pure_eq_ok] at h
    obtain ⟨target, htarget, _, -, _, -, _, -, _, -, rfl⟩ := h
    obtain ⟨w, link, hlink, rfl, rfl, -⟩ := focusedWindowFor_eq_some htarget
    exact ⟨link.leaf, rfl, validFocus_of_link hs hlink⟩

theorem planCrossOutputFocus_ok {domain : DomainKey} {direction : Direction}
    {capabilities : FocusCapabilities} {floatSubject : Bool}
    {staging : Staging (FocusPlanContract × FocusPlan)}
    (h : s.planCrossOutputFocus domain window direction observed capabilities floatSubject =
      .ok staging) :
    ∃ key leaf, staging.desired = s.refocused key leaf ∧
      validFocus s.trees s.windows (some key) (some leaf) = true := by
  simp only [planCrossOutputFocus, bind_eq_ok, refuseUnless, ensure_eq_ok] at h
  obtain ⟨_, -, _, -, _, -, h⟩ := h
  split at h
  · simp only [bind_eq_ok, ensure_eq_ok, okOr_eq_ok, pure_eq_ok] at h
    obtain ⟨_, -, _, -, _, -, target, -, _, -, leaf, hleaf, _, -, _, -, _, -, _, -, rfl⟩ := h
    exact ⟨target.key, leaf, rfl, (Option.filter_eq_some_iff.mp hleaf).2⟩
  · simp only [bind_eq_ok, ensure_eq_ok, okOr_eq_ok, pure_eq_ok] at h
    obtain ⟨_, -, _, -, _, -, target, -, _, -, leaf, hleaf, _, -, _, -, _, -, _, -, rfl⟩ := h
    exact ⟨target.key, leaf, rfl, (Option.filter_eq_some_iff.mp hleaf).2⟩

/-! ## Resizes and drops -/

/-- A resize keeps the focus and the links. It replaces the tree of the
focused domain by one with the same nodes, so what can change are shares. -/
structure ResizedWorld (s : Session) (desired : PendingDesired) : Prop where
  resized : ∃ key leaf tree updated, s.focusedDomain = some key ∧ s.focusedLeaf = some leaf ∧
    treeAt s.trees key = some tree ∧ Reshaped tree updated ∧
    desired = s.resized key leaf (s.trees.insert key (some updated))
  valid : s.ValidDesired desired

theorem resizedTrees_ok {key : DomainKey} {leaf : NodeId} {updated : Node}
    {windows : List ObservedWindow} {trees : Trees} {geometry : List DesiredGeometry}
    (h : s.resizedTrees key leaf updated windows = .ok (trees, geometry)) :
    trees = s.trees.insert key (some updated) ∧ s.ValidDesired (s.resized key leaf trees) := by
  simp only [resizedTrees, bind_eq_ok, refuseUnless, ensure_eq_ok, validateTopology_iff,
    pure_eq_ok, Prod.mk.injEq] at h
  obtain ⟨_, -, _, hvalid, _, -, rfl, -⟩ := h
  exact ⟨rfl, hvalid⟩

theorem planKeyboardResize_ok {domain : DomainKey} {direction : Direction} {mode : ResizeMode}
    {pressIndex : Nat} {capabilities : ResizeCapabilities} {staging : ResizeStaging}
    (h : s.planKeyboardResize domain window direction mode pressIndex observed capabilities =
      .ok staging) : s.ResizedWorld staging.desired := by
  simp only [planKeyboardResize, checkFocusIs, bind_eq_ok, refuseUnless, ensure_eq_ok, okOr_eq_ok,
    pure_eq_ok, beq_iff_eq] at h
  obtain ⟨_, -, _, -, _, -, _, ⟨_, hdomain, leaf, hleaf, _, rfl, _, -, _, -, _, -, rfl⟩, _, -, _, -, _, -,
    tree, htree, _, -, derived, -, h⟩ := h
  split at h
  · cases h
  · cases h
  · simp only [bind_eq_ok, ensure_eq_ok, okOr_eq_ok, pure_eq_ok] at h
    obtain ⟨updated, hupdated, ⟨trees, geometry⟩, htrees, _, -, rfl⟩ := h
    obtain ⟨rfl, hvalid⟩ := resizedTrees_ok htrees
    exact ⟨⟨_, leaf, tree, updated, hdomain, hleaf, htree, applyResizeShares_reshaped hupdated, rfl⟩,
      hvalid⟩

theorem checkPointerRequest_ok {domain : DomainKey} {windows : List ObservedWindow}
    {capabilities : ResizeCapabilities} {request : PointerRequest}
    (h : s.checkPointerRequest domain window windows capabilities = .ok request) :
    s.focusedDomain = some domain ∧ s.focusedLeaf = some request.focusedLeaf := by
  simp only [checkPointerRequest, bind_eq_ok, refuseUnless, ensure_eq_ok, okOr_eq_ok, pure_eq_ok,
    beq_iff_eq] at h
  obtain ⟨_, -, _, -, _, -, _, -, _, -, _, -, _, -, _, hdomain, leaf, hleaf, _, rfl, _, -, _, -, _, -, _, -,
    _, -, _, -, _, -, rfl⟩ := h
  exact ⟨hdomain, hleaf⟩

theorem pointerDerive_reshaped {tree updated : Node} {geometry : List DesiredGeometry}
    {request : PointerRequest} {direction : Direction} {boundary : Int} {plan : PointerPlan}
    (h : pointerDerive tree geometry request direction boundary = .ok (plan, updated)) :
    Reshaped tree updated := by
  simp only [pointerDerive, bind_eq_ok, okOr_eq_ok] at h
  obtain ⟨derived, -, h⟩ := h
  split at h
  · simp only [bind_eq_ok, okOr_eq_ok, pure_eq_ok, Prod.mk.injEq] at h
    obtain ⟨_, happlied, -, rfl⟩ := h
    exact applyResizeShares_reshaped happlied
  · cases h

theorem planPointerResize_ok {domain : DomainKey} {direction : Direction} {boundary : Int}
    {capabilities : ResizeCapabilities} {staging : ResizeStaging}
    (h : s.planPointerResize domain window direction boundary observed capabilities =
      .ok staging) : s.ResizedWorld staging.desired := by
  simp only [planPointerResize, pointerTree, bind_eq_ok, refuseUnless, ensure_eq_ok, okOr_eq_ok,
    pure_eq_ok] at h
  obtain ⟨_, -, request, hrequest, _, -, _, ⟨tree, htree, _, -, _, -, rfl⟩, ⟨plan, updated⟩, hderive,
    ⟨trees, geometry⟩, htrees, _, -, _, -, _, -, rfl⟩ := h
  obtain ⟨hdomain, hleaf⟩ := checkPointerRequest_ok hrequest
  obtain ⟨rfl, hvalid⟩ := resizedTrees_ok htrees
  exact ⟨⟨domain, _, tree, updated, hdomain, hleaf, htree, pointerDerive_reshaped hderive, rfl⟩,
    hvalid⟩

theorem planPointerResizeCorner_ok {domain : DomainKey} {directionH directionV : Direction}
    {boundaryH boundaryV : Int} {capabilities : ResizeCapabilities} {staging : ResizeStaging}
    (h : s.planPointerResizeCorner domain window directionH boundaryH directionV boundaryV observed
      capabilities = .ok staging) : s.ResizedWorld staging.desired := by
  simp only [planPointerResizeCorner, pointerTree, bind_eq_ok, refuseUnless, ensure_eq_ok,
    okOr_eq_ok, pure_eq_ok] at h
  obtain ⟨_, -, _, -, request, hrequest, _, -, _, ⟨tree, htree, _, -, _, -, rfl⟩, ⟨planH, between⟩,
    hderiveH, _, -, ⟨planV, updated⟩, hderiveV, ⟨trees, geometry⟩, htrees, _, -, _, -, _, -, _, -,
    rfl⟩ := h
  obtain ⟨hdomain, hleaf⟩ := checkPointerRequest_ok hrequest
  obtain ⟨rfl, hvalid⟩ := resizedTrees_ok htrees
  have hfirst := pointerDerive_reshaped hderiveH
  have hsecond := pointerDerive_reshaped hderiveV
  exact ⟨⟨domain, _, tree, updated, hdomain, hleaf, htree,
    ⟨hsecond.ids.trans hfirst.ids, hsecond.leaves.trans hfirst.leaves⟩, rfl⟩, hvalid⟩

/-- A drop places the captured leaf where the resolver says, in the tree it
was taken from, and focuses it there. -/
structure DroppedWorld (s : Session) (desired : PendingDesired) : Prop where
  dropped : ∃ capture current domain resolved x y, s.drag = some capture ∧
    s.dragCaptureStale capture = false ∧ treeAt s.trees capture.domain = some current ∧
    resolveDragShared current domain s.windows s.exceptions capture x y = .ok resolved ∧
    desired = { s.accepted with
      trees := s.trees.insert capture.domain (some resolved.placement.tree)
      focusedDomain := some capture.domain
      focusedLeaf := some capture.sourceLeaf }
  valid : s.ValidDesired desired

theorem planDrop_ok {capture : DragState} {x y : Int} {capabilities : DragCapabilities}
    {staging : Staging DragPlan} {prior : Option PriorGroupEdge} (hdrag : s.drag = some capture)
    (h : s.planDrop capture x y observed capabilities = .ok (staging, prior)) :
    s.DroppedWorld staging.desired := by
  simp only [planDrop, dragContext, bind_eq_ok, snapUnless, ensure_eq_ok, mapError_eq_ok,
    okOr_eq_ok, pure_eq_ok, validateTopology_iff, Bool.not_eq_true', Prod.mk.injEq] at h
  obtain ⟨_, -, _, -, _, -, _, -, _, ⟨_, hstale, current, hcurrent, domain, -, rfl⟩, resolved,
    hresolved, _, -, _, -, _, hvalid, _, -, _, -, rfl, -⟩ := h
  exact ⟨⟨capture, current, domain, resolved, x, y, hdrag, hstale, hcurrent, hresolved, rfl⟩,
    hvalid⟩

/-! ## Convergence -/

/-- The observed windows by id. -/
def observedById (windows : List ObservedWindow) : BTreeMap WindowId ObservedWindow :=
  windows.foldl (fun byId entry => byId.insert entry.window entry) ∅

/-- The passes of a planned convergence, with what was checked before and
after them. -/
structure ConvergedWorld (s : Session) (observed : SessionObservation)
    (observedFocus : Option WindowId) (c : Converged) : Prop where
  shapes : validObservedShapes observed.windows = true
  homed : s.observedHomed observed.windows = true
  inPlace : s.convergesInPlace observed.windows = true
  passes : ∃ world, s.convergePasses (observedById observed.windows)
      observed.observation.revision = .ok world ∧
    c.world = { world with
      automatic := retain world.automatic fun id =>
        world.windows.contains id || world.exceptions.contains id
      tileOverride := retain world.tileOverride fun id =>
        world.windows.contains id || world.exceptions.contains id }
  focus : c.focus = s.convergedFocus observedFocus c.world.trees c.world.windows
  valid : WorldOk s.domains c.world.trees c.world.windows c.world.exceptions c.focus.1 c.focus.2

theorem planConvergence_ok {observedFocus : Option WindowId} {c : Converged}
    (h : s.planConvergence observed observedFocus = .ok c) :
    s.ConvergedWorld observed observedFocus c := by
  simp only [planConvergence, bind_eq_ok, refuseUnless, ensure_eq_ok, validateTopology_iff,
    pure_eq_ok] at h
  obtain ⟨_, hshapes, _, hhomed, _, hinPlace, world, hpasses, _, hvalid, rfl⟩ := h
  exact ⟨hshapes, hhomed, hinPlace, ⟨world, hpasses, rfl⟩, rfl, hvalid⟩

/-- A convergence without change leaves the accepted world. -/
theorem convergenceChanged_eq_false {c : Converging} : s.convergenceChanged c = false ↔
    c.trees = s.trees ∧ c.windows = s.windows ∧ c.exceptions = s.exceptions ∧
      c.automatic = s.automaticFixed ∧ c.tileOverride = s.fixedTileOverride := by
  simp only [convergenceChanged, Bool.or_eq_false_iff, decide_eq_false_iff_not, ne_eq, not_not,
    and_assoc]

end

end Session

end PlasmaTiler
