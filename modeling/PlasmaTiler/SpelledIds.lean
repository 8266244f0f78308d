import PlasmaTiler.MintedIds
import PlasmaTiler.Conservation
import PlasmaTiler.Fitting
import PlasmaTiler.FocusStacks
import PlasmaTiler.Keyed

/-!
# The ids of a world

Every id of a tree is minted: a leaf from the window it is made for, a group
from the window or the leaf that opened it, and the leaves and groups of a
fitted tree from their number. So as long as the windows a client names have
opaque ids, the trees of a world stay over the letters of an opaque id.

A window keeps the id it was admitted under, and that id has passed for an
opaque one: named, bounded, spelled. A minted id is only spelled: a prefix and
a suffix were added to it, and nothing keeps its length. `WorldSpelled` says
both of a world, the trees and the links.

Each edit gets one lemma: inserting a tree or a link, taking a leaf out,
tiling a window, moving a leaf to another tree. From these, `Plans.spelled` is
one case for each kind of plan, and `planConvergence_spelled` one for each
pass of a convergence.
-/

namespace PlasmaTiler

/-! ## Fitted trees -/

namespace Seed

section
variable {domain : OutputDomain} {region : Region} {axis : Axis} {share : List Item → Option Nat}
  {alloc : Alloc} {parts : List (List Item)} {members : List Item}

theorem fitLeaf_spelled (n : Nat) : (fitLeaf n).Spelled :=
  Lettered.append (by decide) (lettered_toString n)

theorem fitGroup_spelled (n : Nat) : (fitGroup n).Spelled :=
  Lettered.append (by decide) (lettered_toString n)

/-- Whatever members and names it is given, the trees the region builds are
over spelled ids. -/
def Spells (region : Region) : Prop :=
  ∀ {members : List Item} {axis : Axis} {alloc : Alloc} {built : Built},
    region members axis alloc = some built → built.tree.Over Id.Spelled

theorem buildPart_spelled {part : List Item} {built : Built} (h : Spells region)
    (hbuilt : buildPart region domain axis alloc part = some built) :
    built.tree.Over Id.Spelled := by
  rcases part with _ | ⟨item, _ | ⟨other, part⟩⟩
  · exact h hbuilt
  · obtain rfl := Option.some.inj hbuilt
    exact over_leaf.mpr (fitLeaf_spelled _)
  · exact h hbuilt

theorem buildParts_spelled {built : BuiltParts} (h : Spells region)
    (hbuilt : buildParts region domain axis share parts alloc = some built) :
    ∀ c ∈ built.children, c.Over Id.Spelled := by
  induction parts generalizing alloc built with
  | nil =>
    obtain rfl := Option.some.inj hbuilt
    intro c hc
    cases hc
  | cons part parts ih =>
    simp only [buildParts, Option.bind_eq_bind, Option.bind_eq_some_iff, Option.pure_def,
      Option.some.injEq] at hbuilt
    obtain ⟨_, -, child, hchild, rest, hrest, rfl⟩ := hbuilt
    exact List.forall_mem_cons.mpr ⟨buildPart_spelled h hchild, ih hrest⟩

theorem buildGroup_spelled {built : Built} (h : Spells region)
    (hbuilt : buildGroup region domain axis share parts alloc = some built) :
    built.tree.Over Id.Spelled := by
  simp only [buildGroup, Option.bind_eq_bind, Option.bind_eq_some_iff, Option.pure_def,
    Option.some.injEq] at hbuilt
  obtain ⟨parts, hparts, rfl⟩ := hbuilt
  exact over_group.mpr ⟨fitGroup_spelled _, buildParts_spelled h hparts⟩

theorem buildCentre_spelled {built : Built} {i : Nat} (h : Spells region)
    (hbuilt : buildCentre region domain members axis i alloc = some built) :
    built.tree.Over Id.Spelled := by
  simp only [buildCentre, Option.bind_eq_bind, Option.bind_eq_some_iff] at hbuilt
  obtain ⟨_, -, hbuilt⟩ := hbuilt
  exact buildGroup_spelled h hbuilt

/-- Numbered leaves and groups only. -/
theorem buildRegion_spelled (domain : OutputDomain) (depth : Nat) :
    Spells (buildRegion domain depth) := by
  induction depth with
  | zero =>
    intro members axis alloc built hbuilt
    cases hbuilt
  | succ depth ih =>
    intro members axis alloc built hbuilt
    simp only [buildRegion, buildRegionWith] at hbuilt
    repeat' split at hbuilt
    · cases hbuilt
    · exact buildGroup_spelled ih hbuilt
    · exact buildGroup_spelled ih hbuilt
    · cases hbuilt
    · exact buildCentre_spelled ih hbuilt
    · exact buildCentre_spelled ih hbuilt

end

end Seed

/-! ## What a call carries -/

/-- Output and workspace of the key are both opaque ids, as clients name them.
-/
def DomainKey.Opaque (key : DomainKey) : Prop := key.output.Opaque ∧ key.workspace.Opaque

/-- All observed windows have opaque ids. The validation of a request sees to
it before a session is asked anything. -/
def SessionObservation.Opaque (observed : SessionObservation) : Prop :=
  ∀ entry ∈ observed.windows, entry.window.Opaque

theorem SessionObservation.Opaque.settled {observed : SessionObservation} {window : WindowId}
    (h : observed.Opaque) : (observed.settled window).Opaque := by
  intro entry hentry
  obtain ⟨before, hbefore, rfl⟩ := List.mem_map.mp hentry
  split
  · exact h before hbefore
  · exact h before hbefore

/-- Tree and links of the admission are what the startup fit has made of a
list of opaque windows. -/
def FittedAdmit.OfOpaque (f : FittedAdmit) : Prop :=
  ∃ (domain : OutputDomain) (windows : List Seed.EngineWindow),
    Seed.tryRecursiveCutFit domain windows = .ok (f.tree, f.links) ∧
      ∀ entry ∈ windows, entry.window.Opaque

/-- A fitted tree is over spelled ids, its windows are opaque. -/
theorem FittedAdmit.OfOpaque.spelled {f : FittedAdmit} (h : f.OfOpaque) :
    f.tree.Over Id.Spelled ∧ ∀ link ∈ f.links, link.window.Opaque := by
  obtain ⟨domain, windows, hfit, hopaque⟩ := h
  obtain ⟨⟨tree, links, centreSplits⟩, hfit, heq⟩ := map_eq_ok.mp hfit
  obtain ⟨built, _, hbuilt, -, hparts⟩ := Seed.tryRecursiveCutFitWithCentreCount_eq_ok hfit
  cases hparts
  obtain ⟨htree, hlinks⟩ := Prod.mk.inj heq
  rw [← htree, ← hlinks]
  refine ⟨Seed.buildRegion_spelled domain _ hbuilt, fun link hlink => ?_⟩
  have hmem := (Seed.buildRegion_fitted hbuilt).windows.mem_iff.mp
    (List.mem_map_of_mem (f := WindowLink.window) hlink)
  rw [List.map_map, List.mem_map] at hmem
  obtain ⟨entry, hentry, hwindow⟩ := hmem
  rw [← hwindow]
  exact hopaque entry hentry

/-- What a proposal carries is opaque: the windows of its observation, of an
admission the window alone, and of a fitted tree the windows it was fitted
from. -/
def Proposal.Opaque : Proposal → Prop
  | .command (.admitWindow c) .. => c.window.Opaque
  | .command _ observed .. | .toggleOrientation _ observed .. | .move _ _ _ observed ..
  | .focus _ _ _ observed .. | .crossOutputFocus _ _ _ observed ..
  | .floatCrossOutputFocus _ _ _ observed .. | .resize _ _ _ _ _ observed ..
  | .pointerResize _ _ _ _ observed .. | .pointerResizeCorner _ _ _ _ _ _ observed ..
  | .dropDrag _ _ observed .. => observed.Opaque
  | .fittedAdmit f observed .. => f.OfOpaque ∧ observed.Opaque

/-- What a call carries is opaque: a proposal, an observation to converge on,
or the domain to relocate to. The other calls carry no ids. -/
def SessionOp.Opaque : SessionOp → Prop
  | .propose p => p.Opaque
  | .convergeObservation observation _ => observation.Opaque
  | .relocateDomain _ target .. => target.Opaque
  | _ => True

/-! ## Worlds -/

/-- The trees of a world are over spelled ids, and its links are kept under
opaque windows and name opaque windows. -/
structure WorldSpelled (trees : Trees) (windows : Links) : Prop where
  tree : ∀ {key : DomainKey} {n : Node}, treeAt trees key = some n → n.Over Id.Spelled
  window : ∀ {w : WindowId} {link : WindowLink}, windows[w]? = some link →
    w.Opaque ∧ link.window.Opaque

section
variable {trees : Trees} {windows : Links} {key : DomainKey} {tree? : Option Node} {w : WindowId}
  {link : WindowLink}

theorem worldSpelled_empty : WorldSpelled ∅ ∅ where
  tree h := by simp [treeAt] at h
  window h := by simp at h

theorem WorldSpelled.insertTree (h : WorldSpelled trees windows)
    (htree : ∀ n, tree? = some n → n.Over Id.Spelled) :
    WorldSpelled (trees.insert key tree?) windows where
  tree hn := by
    rw [treeAt_insert] at hn
    split at hn
    · exact htree _ hn
    · exact h.tree hn
  window := h.window

theorem WorldSpelled.insertLink (h : WorldSpelled trees windows) (hw : w.Opaque)
    (hlink : link.window.Opaque) : WorldSpelled trees (windows.insert w link) where
  tree := h.tree
  window hv := by
    rw [lookup_insert] at hv
    split at hv
    · rename_i heq
      cases hv
      exact ⟨heq ▸ hw, hlink⟩
    · exact h.window hv

theorem WorldSpelled.eraseLink (h : WorldSpelled trees windows) :
    WorldSpelled trees (windows.erase w) where
  tree := h.tree
  window hv := by
    rw [lookup_erase] at hv
    split at hv
    · cases hv
    · exact h.window hv

/-- Taking a leaf out of a tree. -/
theorem WorldSpelled.removeLeaf (h : WorldSpelled trees windows) {leaf : NodeId} :
    WorldSpelled (trees.insert key (removeLeafFromTree (treeAt trees key) leaf)) windows :=
  h.insertTree fun _ hn => removeLeafFromTree_over (fun _ ht => h.tree ht) hn

/-- A leaf of the trees is spelled. -/
theorem WorldSpelled.leaf (h : WorldSpelled trees windows) {leaf : NodeId}
    (hleaf : hasLeaf trees key leaf = true) : leaf.Spelled := by
  obtain ⟨n, hn, hmem⟩ := hasLeaf_iff.mp hleaf
  exact h.tree hn leaf (n.mem_ids_of_mem_leaves hmem)

/-- Putting a tile into a tree. -/
theorem WorldSpelled.tiled (h : WorldSpelled trees windows) {focused : Option NodeId}
    {leaf : NodeId} {axis : Axis} {existing existing' : BTreeSet NodeId} {n : Node}
    {baseRevision : Nat} (hleaf : leaf.Spelled) (hw : w.Opaque)
    (hinsert : insertTiled (treeAt trees key) focused leaf axis existing w baseRevision =
      some (n, existing')) : WorldSpelled (trees.insert key (some n)) windows := by
  refine h.insertTree fun m hm => ?_
  cases hm
  exact insertTiled_over (fun _ ht => h.tree ht) hleaf (generateGroupId_spelled hw.spelled) hinsert

/-- A move keeps both trees it edits in the alphabet. -/
theorem WorldSpelled.moved (h : WorldSpelled trees windows) {domains : List OutputDomain}
    {leaf : NodeId} {direction : Direction} {plan : MovePlan} {baseRevision : Nat}
    {targetFocus : Option NodeId} {applied : AppliedMove}
    (hlinked : ∀ (w : WindowId) (link : WindowLink), windows[w]? = some link → link.leaf.Spelled)
    (happlied : applyMoveOperation trees windows domains key leaf direction plan baseRevision
      targetFocus = some applied) : WorldSpelled applied.trees applied.windows := by
  simp only [applyMoveOperation, Option.bind_eq_bind, Option.bind_eq_some_iff] at happlied
  obtain ⟨_, -, mover, hmover, _, -, happlied⟩ := happlied
  obtain ⟨link, hfind, rfl⟩ := Option.map_eq_some_iff.mp hmover
  obtain ⟨v, hlink⟩ := mem_values.mp (List.mem_of_find?_eq_some hfind)
  have hmatch := List.find?_some hfind
  simp only [Bool.and_eq_true, beq_iff_eq] at hmatch
  have hleaf : leaf.Spelled := hmatch.1.1 ▸ hlinked v link hlink
  have hmint : ∀ rule, Lettered rule →
      (generateMoveGroupId leaf baseRevision rule (nodeIdsOf trees)).Spelled :=
    fun rule hrule => generateMoveGroupId_spelled hleaf hrule
  split at happlied
  · simp only [applyCrossOutput, Option.bind_eq_bind, Option.bind_eq_some_iff] at happlied
    obtain ⟨_, -, _, -, _, -, _, -, _, -, sourceTree, hsource, _, -, next, hnext, happlied⟩ := happlied
    cases happlied
    have hleft := @WorldSpelled.removeLeaf trees windows key h leaf
    rw [hsource] at hleft
    refine (hleft.insertTree fun n hn => ?_).insertLink (h.window hlink).2 (h.window hlink).2
    cases hn
    exact crossInto_over (fun _ ht => hleft.tree ht) hleaf hmint hnext
  · simp only [Option.bind_eq_some_iff] at happlied
    obtain ⟨tree, htree, updated, hupdated, happlied⟩ := happlied
    cases happlied
    refine h.insertTree fun n hn => ?_
    cases hn
    exact applyInSource_over (h.tree htree) hleaf hmint hupdated

end

/-! ## What is staged -/

namespace Session

section
variable {s s' : Session} {desired : PendingDesired} {observed : SessionObservation}
  {window : WindowId}

theorem linked_spelled (hvalid : s.Valid) (h : WorldSpelled s.trees s.windows) {w : WindowId}
    {link : WindowLink} (hlink : s.windows[w]? = some link) : link.leaf.Spelled :=
  h.leaf (hasLeaf_of_link hvalid hlink)

/-- An admitted window is an observed one. -/
theorem planAdmit_isOpaque {c : AdmitCommand} {staging : Staging LifecyclePlan}
    (hobserved : observed.Opaque) (h : s.planAdmit c observed = .ok staging) :
    c.window.Opaque := by
  simp only [planAdmit, bind_eq_ok, okOr_eq_ok] at h
  obtain ⟨_, -, _, -, entry, hentry, -⟩ := h
  have heq := List.find?_some hentry
  rw [beq_iff_eq] at heq
  exact heq ▸ hobserved entry (List.mem_of_find?_eq_some hentry)

theorem planAdmit_spelled {c : AdmitCommand} {staging : Staging LifecyclePlan}
    (hs : WorldSpelled s.trees s.windows) (hwindow : c.window.Opaque)
    (h : s.planAdmit c observed = .ok staging) :
    WorldSpelled staging.desired.trees staging.desired.windows := by
  obtain ⟨-, ⟨_, _, hdeferred⟩ | htiled⟩ := planAdmit_ok h
  · rw [hdeferred]
    exact hs
  · obtain ⟨n, ids, axis, hinsert, htrees⟩ := htiled.inserted
    rw [htrees, htiled.windows]
    exact (hs.tiled (generateLeafId_spelled hwindow.spelled) hwindow hinsert).insertLink hwindow
      hwindow

theorem planRemove_spelled {staging : Staging LifecyclePlan}
    (hs : WorldSpelled s.trees s.windows) (h : s.planRemove window observed = .ok staging) :
    WorldSpelled staging.desired.trees staging.desired.windows := by
  rcases planRemove_cases h with ⟨record, -, -, rfl⟩ | ⟨link, -, -, htiled⟩
  · exact hs
  · rw [(planRemoveTiled_ok htiled).1]
    exact hs.removeLeaf.eraseLink

theorem fittedLinks_spelled {key : DomainKey} {links : List WindowLink} {trees : Trees}
    {windows fitted : Links} (hs : WorldSpelled trees windows)
    (hlinks : ∀ link ∈ links, link.window.Opaque) (h : fittedLinks key links windows = .ok fitted) :
    WorldSpelled trees fitted := by
  induction links generalizing windows with
  | nil =>
    cases h
    exact hs
  | cons link links ih =>
    obtain ⟨hlink, hlinks⟩ := List.forall_mem_cons.mp hlinks
    simp only [fittedLinks, bind_eq_ok] at h
    obtain ⟨_, -, _, -, _, -, h⟩ := h
    exact ih (hs.insertLink hlink hlink) hlinks h

/-- A resize renames nothing. -/
theorem ResizedWorld.spelled (h : s.ResizedWorld desired) (hs : WorldSpelled s.trees s.windows) :
    WorldSpelled desired.trees desired.windows := by
  obtain ⟨key, _, tree, updated, -, -, htree, hreshaped, hdesired⟩ := h.resized
  rw [hdesired]
  refine hs.insertTree fun n hn => ?_
  cases hn
  rw [Node.Over, hreshaped.ids]
  exact hs.tree htree

/-- What a drag captures of the session: a spelled leaf, and an opaque window
in an opaque domain. -/
structure CaptureSpelled (capture : DragState) : Prop where
  leaf : capture.sourceLeaf.Spelled
  window : capture.sourceWindow.Opaque
  domain : capture.domain.Opaque

/-- Over spelled ids every plan stages spelled ids. One case per kind of plan:
what is new in a world was minted from spelled names or named by the proposal.
-/
theorem Plans.spelled {p : Proposal} (hvalid : s.Valid) (hs : WorldSpelled s.trees s.windows)
    (hdrag : ∀ capture, s.drag = some capture → CaptureSpelled capture) (hp : p.Opaque)
    (h : s.Plans p desired) : WorldSpelled desired.trees desired.windows := by
  cases h with
  | admits h => exact planAdmit_spelled hs hp h
  | remove h => exact planRemove_spelled hs h
  | @unfloat window _ _ _ _ _ _ _ _ _ hplan h =>
    obtain ⟨_, retained, -, -, -, rfl, -⟩ := planUnfloat_ok hplan
    have hcandidate : WorldSpelled (s.unfloated window retained).trees
        (s.unfloated window retained).windows := hs
    exact planAdmit_spelled hcandidate (planAdmit_isOpaque (SessionObservation.Opaque.settled hp) h) h
  | float _ _ h => exact planRemove_spelled hs h
  | send h =>
    obtain ⟨link, n, ids, _, _, hlink, -, -, -, -, hinsert, htrees, hwindows, -⟩ := (planSend_ok h).moved
    have hwindow := (hs.window hlink).1
    rw [htrees, hwindows]
    refine WorldSpelled.insertLink ?_ hwindow hwindow
    refine hs.removeLeaf.insertTree fun m hm => ?_
    cases hm
    exact insertTiled_over (fun _ ht => hs.tree ht) (linked_spelled hvalid hs hlink)
      (generateGroupId_spelled hwindow.spelled) hinsert
  | orientation _ h =>
    obtain ⟨_, _, tree, _, flipped, -, -, htree, hflip, hdesired, -⟩ := planToggleOrientation_ok h
    rw [hdesired]
    refine hs.insertTree fun n hn => ?_
    cases hn
    exact flipGroupAxis_over (hs.tree htree) hflip
  | fittedAdmit h =>
    obtain ⟨_, -, hlinks, -, hdesired, -⟩ := planFittedAdmit_ok h
    rw [hdesired]
    obtain ⟨htree, hwindows⟩ := hp.1.spelled
    refine (fittedLinks_spelled worldSpelled_empty hwindows hlinks).insertTree fun n hn => ?_
    cases hn
    exact htree
  | move h =>
    obtain ⟨_, _, _, -, -, -, happlied, -, hdesired, -⟩ := planMoveWithSameAxis_ok h
    rw [hdesired]
    exact hs.moved (fun w link hlink => linked_spelled hvalid hs hlink) happlied
  | focus h =>
    obtain ⟨_, hdesired, -⟩ := planFocusIn_ok hvalid h
    rw [hdesired]
    exact hs
  | crossOutputFocus h =>
    obtain ⟨_, _, hdesired, -⟩ := planCrossOutputFocus_ok h
    rw [hdesired]
    exact hs
  | resize h => exact (planKeyboardResize_ok h).spelled hs
  | pointerResize h => exact (planPointerResize_ok h).spelled hs
  | pointerResizeCorner h => exact (planPointerResizeCorner_ok h).spelled hs
  | drop hcapture h =>
    obtain ⟨capture, current, domain, resolved, x, y, hcapture, -, hcurrent, hresolved, hdesired⟩ :=
      (planDrop_ok hcapture h).dropped
    have hleaf := (hdrag capture hcapture).leaf
    rw [hdesired]
    refine hs.insertTree fun n hn => ?_
    cases hn
    exact resolveDragShared_over (hs.tree hcurrent) hleaf
      (fun _ => generateDragGroupId_spelled hleaf) hresolved

/-! ## Convergence -/

theorem removeStep_spelled {observed : BTreeMap WindowId ObservedWindow} {c c' : Converging}
    (hc : WorldSpelled c.trees c.windows) (h : removeStep observed c window = some c') :
    WorldSpelled c'.trees c'.windows := by
  unfold removeStep at h
  split at h
  · cases h
    exact hc
  · split at h
    · cases h
      exact hc.removeLeaf.eraseLink
    · split at h
      · cases h
        exact hc
      · cases h

theorem floatStep_spelled {c : Converging} {p : WindowId × ObservedWindow}
    (hc : WorldSpelled c.trees c.windows) :
    WorldSpelled (s.floatStep c p).trees (s.floatStep c p).windows := by
  unfold floatStep
  split
  · exact hc
  · split
    · exact hc
    · exact hc.removeLeaf.eraseLink

theorem admitStep_spelled {baseRevision : Nat} {toTile : List WindowId} {a a' : Admitting}
    {p : WindowId × ObservedWindow} (hp : p.1.Opaque)
    (ha : WorldSpelled a.world.trees a.world.windows)
    (h : s.admitStep baseRevision toTile a p = .ok a') :
    WorldSpelled a'.world.trees a'.world.windows := by
  rcases admitStep_cases h with ⟨-, rfl⟩ | ⟨_, _, next, ids, -, hinsert, hworld, -⟩
  · exact ha
  · rw [hworld]
    exact (ha.tiled (generateLeafId_spelled hp.spelled) hp hinsert).insertLink hp hp

theorem observedById_lookup_opaque {entries : List ObservedWindow}
    (h : ∀ entry ∈ entries, entry.window.Opaque) :
    ∀ (w : WindowId) (e : ObservedWindow), (observedById entries)[w]? = some e → w.Opaque := by
  refine foldl_keeps (P := fun m : BTreeMap WindowId ObservedWindow =>
    ∀ (w : WindowId) (e : ObservedWindow), m[w]? = some e → w.Opaque) ?_ (by simp)
  intro m entry hentry hm w e hlookup
  rw [lookup_insert] at hlookup
  split at hlookup
  · rename_i heq
    exact heq ▸ h entry hentry
  · exact hm w e hlookup

theorem observedById_opaque {entries : List ObservedWindow} {w : WindowId} {e : ObservedWindow}
    (h : ∀ entry ∈ entries, entry.window.Opaque) (hmem : (w, e) ∈ (observedById entries).toList) :
    w.Opaque :=
  observedById_lookup_opaque h w e (Std.ExtTreeMap.mem_toList_iff_getElem?_eq_some.mp hmem)

theorem planConvergence_spelled {observedFocus : Option WindowId} {c : Converged}
    (hs : WorldSpelled s.trees s.windows) (hobserved : observed.Opaque)
    (h : s.planConvergence observed observedFocus = .ok c) :
    WorldSpelled c.world.trees c.world.windows := by
  obtain ⟨world, hpasses, hworld⟩ := (planConvergence_ok h).passes
  obtain ⟨present, a, hpresent, hadmit, rfl⟩ := convergePasses_ok hpasses
  have hremoved : WorldSpelled present.trees present.windows :=
    (folded_of_foldlM_some hpresent).preserves (P := fun c => WorldSpelled c.trees c.windows)
      (fun _ _ _ _ hstep hc => removeStep_spelled hc hstep) hs
  have hfloated := foldl_keeps (P := fun c : Converging => WorldSpelled c.trees c.windows)
    (l := (observedById observed.windows).toList) (f := s.floatStep)
    (fun _ _ _ hc => floatStep_spelled hc) hremoved
  rw [← classify_frame.1, ← classify_frame.2] at hfloated
  have hadmitted := (folded_of_foldlM_ok hadmit).preserves
    (P := fun a => WorldSpelled a.world.trees a.world.windows)
    (fun _ p _ hp hstep ha => admitStep_spelled ( observedById_opaque hobserved hp) ha hstep)
    hfloated
  rw [hworld]
  exact hadmitted

end

end Session

end PlasmaTiler
