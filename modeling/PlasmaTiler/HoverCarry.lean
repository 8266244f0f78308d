import PlasmaTiler.EvaluationRuns
import PlasmaTiler.Failures
import PlasmaTiler.GapDrop

/-!
# The hover a preview carries

Nothing of a drag preview is kept by the engine. Where the pointer was last
(which side of which group, over which node) is left with the client, which
brings it back with the next motion, and the planner builds the memory of the
drag from that text. It does so over opaque ids only, and says nothing when
it does not: a hover that cannot be read counts as none.

When is a hover lost, then? Whatever the planner was called with before, the
ids of a preview are spelled with the letters of opaque ones and its revision
is one the wire can carry (`previewDrag_spelled`). The first is the run
result on ids, followed into the tree the drag was resolved on; the second is
the bound on revisions. What is left is length. Windows, outputs and
workspaces come from the wire and are short enough, but nodes are named after
windows by the engine and so can be longer than an id may be.

`Planner.evaluate_carries` is the statement: over every run, the hover of a
preview comes back whole if the ids of its two nodes fit, and as none
otherwise. `DragPreview.Fits` is that condition, two byte lengths.
-/

namespace PlasmaTiler

def DragSide.asStr : DragSide → String
  | .left => "left"
  | .right => "right"
  | .top => "top"
  | .bottom => "bottom"
  | .center => "center"

/-- The hover of a preview on the wire. -/
def Wire.hoverPriorReply (preview : DragPreview) : Wire.DragHoverPriorDto where
  domainOutput := preview.domain.output.raw
  domainWorkspace := preview.domain.workspace.raw
  sourceLeaf := preview.sourceLeaf.raw
  sourceWindow := preview.sourceWindow.raw
  revision := preview.revision
  prior := preview.prior.map fun prior => ⟨prior.group.raw, prior.edge.asStr⟩

/-! ## What a point resolves to -/

section
variable {tree : Node} {windows : Links} {exceptions : Exceptions} {capture : DragState}
  {resolved : SharedDragResolved} {x y : Int} {prior : PriorGroupEdge}

theorem resolveGroup_prior {layout : GroupLayout}
    (h : resolveGroup tree windows exceptions capture layout x y = .ok resolved)
    (hprior : resolved.nextPrior = some prior) :
    prior.group = layout.id ∧ prior.edge.axis.isSome = true := by
  simp only [resolveGroup, bind_eq_ok, okOr_eq_ok] at h
  obtain ⟨rep, -, _, -, h⟩ := h
  split at h
  · rename_i edge hedge
    simp only [bind_eq_ok, okOr_eq_ok, pure_eq_ok] at h
    obtain ⟨axis, haxis, _, -, _, -, rfl⟩ := h
    cases hprior
    exact ⟨rfl, Option.isSome_iff_exists.mpr ⟨axis, haxis⟩⟩
  · simp only [bind_eq_ok, okOr_eq_ok, pure_eq_ok] at h
    obtain ⟨_, -, _, -, _, -, rfl⟩ := h
    cases hprior

/-- A remembered edge is a side of a group of the tree. -/
theorem resolveDragShared_prior {domain : OutputDomain}
    (h : resolveDragShared tree domain windows exceptions capture x y = .ok resolved)
    (hprior : resolved.nextPrior = some prior) :
    prior.group ∈ tree.ids ∧ prior.edge.axis.isSome = true := by
  simp only [resolveDragShared, bind_eq_ok, mapError_eq_ok] at h
  obtain ⟨_, -, projected, -, h⟩ := h
  split at h
  · rename_i id axis children shares hdeep
    simp only [bind_eq_ok, okOr_eq_ok] at h
    obtain ⟨layout, hlayout, h⟩ := h
    obtain ⟨hgroup, hedge⟩ := resolveGroup_prior h hprior
    have hmem : Node.group id axis children shares ∈ tree.nodes := hdeep ▸ deepestAt_mem
    have hid : layout.id = id := layoutsOf_id hlayout
    refine ⟨?_, hedge⟩
    rw [hgroup, hid]
    exact Node.id_mem_of_mem_nodes hmem
  · simp only [resolveLeaf, bind_eq_ok, okOr_eq_ok, pure_eq_ok] at h
    obtain ⟨_, -, _, -, _, -, _, -, _, -, _, -, _, -, _, -, _, -, rfl⟩ := h
    cases hprior

end

/-! ## The ids of a preview -/

/-- What the ids of a preview are over any run. Domain and window pass as
opaque; nodes are spelled with the same letters and named, whatever their
length. -/
structure DragPreview.Spelled (preview : DragPreview) : Prop where
  domain : preview.domain.Opaque
  window : preview.sourceWindow.Opaque
  leaf : preview.sourceLeaf.Spelled ∧ preview.sourceLeaf.isEmpty = false
  revision : preview.revision ≤ maxRevision
  prior : ∀ prior, preview.prior = some prior →
    (prior.group.Spelled ∧ prior.group.isEmpty = false) ∧ prior.edge.axis.isSome = true

/-- The ids of the two nodes fit the wire: the dragged leaf's, and that of the
hovered group, if there is one. -/
def DragPreview.Fits (preview : DragPreview) : Prop :=
  preview.sourceLeaf.raw.utf8ByteSize ≤ maxOpaqueIdLen ∧
    preview.prior.all (fun prior => decide (prior.group.raw.utf8ByteSize ≤ maxOpaqueIdLen)) = true

instance (preview : DragPreview) : Decidable preview.Fits := inferInstanceAs (Decidable (_ ∧ _))

/-- A hover comes back whole or not at all: all its fields are valid by
construction, but a spelled id may be too long to be opaque. -/
theorem Wire.convertHoverPrior_reply {preview : DragPreview} (h : preview.Spelled) :
    convertHoverPrior (hoverPriorReply preview) =
      if preview.Fits then some preview.hoverPrior else none := by
  have hdomain : isOpaqueId preview.domain.output.raw = true := h.domain.1
  have hworkspace : isOpaqueId preview.domain.workspace.raw = true := h.domain.2
  have hwindow : isOpaqueId preview.sourceWindow.raw = true := h.window
  have hrevision : preview.revision ≤ planMaxRevision := h.revision
  have hleaf : isOpaqueId preview.sourceLeaf.raw = true ↔
      preview.sourceLeaf.raw.utf8ByteSize ≤ maxOpaqueIdLen := h.leaf.1.opaque_iff h.leaf.2
  have hedges : ∀ prior, preview.prior = some prior →
      (isOpaqueId prior.group.raw = true ↔ prior.group.raw.utf8ByteSize ≤ maxOpaqueIdLen) ∧
        prior.edge.axis.isSome = true := fun prior hprior =>
    ⟨(h.prior prior hprior).1.1.opaque_iff (h.prior prior hprior).1.2, (h.prior prior hprior).2⟩
  by_cases hfits : preview.Fits
  · rw [if_pos hfits]
    obtain ⟨hleafFits, hpriorFits⟩ := hfits
    unfold convertHoverPrior hoverPriorReply DragPreview.hoverPrior
    simp only [hdomain, hworkspace, hwindow, hleaf.mpr hleafFits, decide_eq_true hrevision,
      Bool.true_and]
    cases hprior : preview.prior with
    | none => rfl
    | some prior =>
      obtain ⟨hgroup, hedge⟩ := hedges prior hprior
      rw [hprior, Option.all_some, decide_eq_true_eq] at hpriorFits
      obtain ⟨group, edge⟩ := prior
      simp only [Option.map_some, Option.mapM_some, hgroup.mpr hpriorFits]
      cases edge with
      | left | right | top | bottom => rfl
      | center => cases hedge
  · rw [if_neg hfits]
    unfold convertHoverPrior hoverPriorReply
    by_cases hleafFits : preview.sourceLeaf.raw.utf8ByteSize ≤ maxOpaqueIdLen
    · cases hprior : preview.prior with
      | none => exact absurd ⟨hleafFits, by rw [hprior]; rfl⟩ hfits
      | some prior =>
        have hlong : isOpaqueId prior.group.raw = false := by
          rw [Bool.eq_false_iff, ne_eq, (hedges prior hprior).1]
          intro hpriorFits
          exact hfits ⟨hleafFits, by rw [hprior, Option.all_some, decide_eq_true hpriorFits]⟩
        simp [hlong, require]
    · have hlong : isOpaqueId preview.sourceLeaf.raw = false :=
        Bool.eq_false_iff.mpr (mt hleaf.mp hleafFits)
      simp [hlong, require]

namespace Session

variable {s s' : Session} {x y : Int} {observed : List ObservedWindow} {preview : DragPreview}
  {window : WindowId} {link : WindowLink}

theorem linked_named (hs : s.Valid) (hlink : s.windows[window]? = some link) :
    link.leaf.isEmpty = false := by
  have hvalid := hs.link_valid hlink
  simp only [validLink, Bool.and_eq_true, Bool.not_eq_true'] at hvalid
  exact hvalid.1.1.1.1.2

theorem previewDrag_spelled (hs : s.Lettered) (hbounded : s.Bounded) (hnamed : s.DragNamed)
    (h : s.previewDrag x y observed = (s', .ok preview)) : preview.Spelled := by
  obtain ⟨capture, current, domain, resolved, hpreviewed⟩ := previewDrag_previewed h
  have hvalid : s.Valid := hs.worlds.accepted
  obtain ⟨hleaf, hwindow, hdomain⟩ := hs.ids.drag capture hpreviewed.dragged
  have hcontext := hpreviewed.context
  simp only [dragContext, bind_eq_ok, ensure_eq_ok, okOr_eq_ok, pure_eq_ok, Prod.mk.injEq,
    Bool.not_eq_true', dragCaptureStale, Bool.or_eq_false_iff, bne_eq_false_iff_eq,
    decide_eq_false_iff_not, ne_eq, not_not] at hcontext
  obtain ⟨_, ⟨⟨⟨⟨⟨⟨hrevision, -⟩, -⟩, hwindows⟩, -⟩, -⟩, -⟩, _, htree, _, -, rfl, -⟩ := hcontext
  have hshown := hpreviewed.shown
  simp only [previewOf, bind_eq_ok, ensure_eq_ok, okOr_eq_ok, pure_eq_ok] at hshown
  obtain ⟨_, -, _, -, _, -, rfl⟩ := hshown
  refine ⟨hdomain, hwindow, ⟨hleaf, ?_⟩, ?_, ?_⟩
  · obtain ⟨-, link, hlink, hname, -⟩ := hnamed capture hpreviewed.dragged
    rw [← hwindows] at hlink
    rw [← hname]
    exact linked_named hvalid hlink
  · show capture.revision ≤ maxRevision
    rw [hrevision]
    exact hbounded.revision
  · intro prior hprior
    obtain ⟨hgroup, hedge⟩ := resolveDragShared_prior hpreviewed.resolves hprior
    exact ⟨⟨hs.ids.accepted.tree htree _ hgroup, (hvalid.tree_ok htree).nonempty _ hgroup⟩, hedge⟩

end Session

/-! ## What the engine previews on -/

namespace Engine

section
variable {e₀ e : Engine} {r : Request} {s s' : Session} {keys : List DomainKey} {event : CoreEvent}
  {window : WindowId} {hoverPrior : Option DragHoverPrior} {observation : SessionObservation}

/-- A drag that begins on a settled session names what it captured, and is told
against the session's own revision. -/
theorem beginDragOn_named {fresh : Bool} (hs : s.settledWorld = true)
    (hok : beginDragOn s fresh false event window hoverPrior = .ok (s', observation)) :
    s'.DragNamed ∧ observation.observation.revision = s.acceptedRevision := by
  simp only [beginDragOn, Bool.false_and, Bool.false_eq_true, if_false, bind_eq_ok] at hok
  obtain ⟨_, heq, _, -, hok⟩ := hok
  cases heq
  generalize (if fresh then window else event.focusedWindow) = focused at hok
  have hsynced := @Session.syncFocusFromWindow_settled s event.domain.key focused hs
  generalize (s.syncFocusFromWindow event.domain.key focused).1 = synced at hok hsynced
  have hnone : synced.DragNamed := by
    intro capture hcapture
    rw [(Session.settledWorld_iff.mp hsynced).2.2.2] at hcapture
    cases hcapture
  have hbegun := hnone.next (.beginDrag window
    (event.sessionObservationFor s.acceptedRevision event.windows))
  split at hok
  · cases hok
  · rename_i begun _ hbegin
    have hfirst : synced.next (.beginDrag window
        (event.sessionObservationFor s.acceptedRevision event.windows)) = begun :=
      congrArg Prod.fst hbegin
    rw [hfirst] at hbegun
    split at hok
    · cases hok
      exact ⟨hbegun.next (.carryDragPrior _), rfl⟩
    · cases hok
      exact ⟨hbegun, rfl⟩

/-- A session a preview is made on: the request has made it, its capture names
what it captured, and the revision told is one the wire can carry. -/
structure Hovering (e : Engine) (r : Request) (s : Session) (observation : SessionObservation) :
    Prop where
  made : e.Makes r [r.event.domain.key] s
  named : s.DragNamed
  revision : observation.observation.revision ≤ maxRevision

/-- A preview begins the drag of a drop, on a retained session once it shows
the observation. -/
theorem beginDragOn_preview (h₀ : e.Coherent) {fresh : Bool}
    (hs : e.Ready r [r.event.domain.key] s)
    (hok : beginDragOn s fresh true r.event window hoverPrior = .ok (s', observation)) :
    e.Hovering r s' observation := by
  have hdrop : ∀ {begun : Session} {fresh : Bool}, e.Ready r [r.event.domain.key] begun →
      beginDragOn begun fresh false r.event window hoverPrior = .ok (s', observation) →
      e.Hovering r s' observation := by
    intro begun fresh hready hbegin
    obtain ⟨hnamed, hrevision⟩ := beginDragOn_named hready.settled hbegin
    exact ⟨(beginDragOn_drop hready hbegin).1, hnamed,
      hrevision ▸ (hready.made.bounded h₀.bounded).revision⟩
  cases fresh with
  | true => exact hdrop hs hok
  | false =>
    rcases hconverged : convergeOn s r.event r.event.windows r.event.focus with reply | begun
    · simp only [beginDragOn, Bool.not_false, Bool.and_self, if_true, hconverged] at hok
      cases hok
    · have hready : e.Ready r [r.event.domain.key] begun := by
        unfold Engine.convergeOn at hconverged
        split at hconverged
        · cases hconverged
        · rename_i hconverges
          cases hconverged
          exact hs.made.converge (fun hr => sessionObservationFor_ids hr.ids.windows) hconverges
      refine @hdrop begun false hready ?_
      simp only [beginDragOn, Bool.not_false, Bool.and_self, if_true, hconverged] at hok
      exact hok

/-- A window alone is previewed on its own leaf. -/
theorem dragSingletonProject_leaf {source : Option DomainKey}
    {projected : ProjectionPlan × NodeId × Rect}
    (h : dragSingletonProject s r window source = some projected) :
    ∃ (w : WindowId) (link : WindowLink), s.windows[w]? = some link ∧
      projected.2.1 = link.leaf := by
  simp only [dragSingletonProject, Option.bind_eq_bind, Option.bind_eq_some_iff] at h
  obtain ⟨_, -, _, -, h⟩ := h
  split at h
  · rename_i link hvalues
    simp only [Option.bind_eq_some_iff] at h
    obtain ⟨_, -, plan, hplan, _, -, heq⟩ := h
    obtain ⟨w, hlink⟩ := mem_values.mp (hvalues ▸ List.mem_singleton_self link)
    simp only [projectRetainedTiledGeometry, Option.bind_eq_bind, Option.bind_eq_some_iff] at hplan
    obtain ⟨_, -, _, -, _, -, hplan⟩ := hplan
    cases hplan
    cases heq
    exact ⟨w, link, hlink, rfl⟩
  · cases h

theorem dragPreviewRequest_spelled (h₀ : e.Coherent) (hl : e.Lettered) (hr : r.Validated)
    {window : String} {x y : Int} {source : Option DomainKey} {plan : DragPreviewPlan}
    (hok : e.dragPreviewRequest r window x y hoverPrior source = .ok plan) :
    plan.preview.Spelled := by
  have hleaves : e.Leaves r (Own r) e := h₀.leaves
  simp only [dragPreviewRequest, bind_eq_ok, ensure_eq_ok] at hok
  obtain ⟨_, hwindow, ⟨working, fresh⟩, hworking, ⟨begun, observation⟩, hbegin, hok⟩ := hok
  have hhovers := beginDragOn_preview h₀ (hleaves.dragWorking hworking) hbegin
  have hlettered : begun.Lettered := hhovers.made.lettered hr hl
  split at hok
  · rename_i hpreview
    cases hok
    exact Session.previewDrag_spelled hlettered (hhovers.made.bounded h₀.bounded) hhovers.named
      hpreview
  · rename_i hovered error hpreview
    have hnext : hovered.Lettered := by
      have hop : (SessionOp.previewDrag x y observation.windows).Opaque := trivial
      have hfirst : begun.next (.previewDrag x y observation.windows) = hovered :=
        congrArg Prod.fst hpreview
      exact hfirst ▸ hlettered.next hop
    split at hok
    · simp only [bind_eq_ok, okOr_eq_ok] at hok
      obtain ⟨projected, hproject, hok⟩ := hok
      cases hok
      obtain ⟨w, link, hlink, hleaf⟩ := dragSingletonProject_leaf hproject
      have hvalid : hovered.Valid := hnext.worlds.accepted
      refine ⟨hr.ids.domain, hwindow, ?_, hhovers.revision, fun _ hprior => by cases hprior⟩
      show projected.2.1.Spelled ∧ projected.2.1.isEmpty = false
      rw [hleaf]
      exact ⟨Session.linked_spelled hvalid hnext.ids.accepted hlink,
        Session.linked_named hvalid hlink⟩
    · cases hok

end

end Engine

/-! ## What the planner takes back -/

namespace Wire

/-- The preview an answer shows. -/
def PlanReply.preview : PlanReply → Option DragPreview
  | .answered _ (.dragPreview plan) => some plan.preview
  | _ => none

section
variable {p : Planner} {answerBytes : AnswerBytes} {text : RequestText} {ctx : Validated}
  {r : Request} {contained : Bool}

/-- A preview that is sent is the one that was answered. -/
theorem preview_of_serialize {reply : EngineReply} {preview : DragPreview}
    (h : (ctx.serialize answerBytes reply).preview = some preview) :
    (PlanReply.answered ctx.request.correlationId reply).preview = some preview := by
  rcases serializeBounded_cases (answerBytes ctx reply) (.answered ctx.request.correlationId reply)
    with heq | heq
  · rw [Validated.serialize, heq] at h
    exact h
  · rw [Validated.serialize, heq] at h
    cases h

theorem refusal_preview (refusal : Refusal) : refusal.serialize.preview = none := by
  obtain ⟨_, heq⟩ := refusal.serialize_refused
  rw [heq]
  rfl

theorem coreRequest_preview (hop : ctx.request.command.op = "drag-preview")
    (hr : ctx.coreRequest contained = .ok r) :
    ∃ payload : DragPayload, r.command = some (dragCoreCommand payload true) := by
  simp only [Validated.coreRequest, hop, Validated.dragRequest, bind_eq_ok, pure_eq_ok] at hr
  obtain ⟨_, -, payload, -, rfl⟩ := hr
  exact ⟨payload, rfl⟩

/-- The hover a preview leaves comes back with the client's next motion whole
where its nodes' ids fit the wire, and not at all where they do not, whatever
texts came before. -/
theorem Planner.evaluate_carries (h : (Planner.machine answerBytes).Reachable p)
    (hvalid : validateRequest text = .ok ctx) (hop : ctx.request.command.op = "drag-preview")
    {preview : DragPreview} (hshown : (p.evaluate answerBytes text).2.preview = some preview) :
    convertHoverPrior (hoverPriorReply preview) =
      if preview.Fits then some preview.hoverPrior else none := by
  refine convertHoverPrior_reply ?_
  rcases p.evaluate_cases answerBytes text with ⟨refusal, -, heq⟩ | ⟨_, refusal, -, -, heq⟩ |
    ⟨ctx', r, hvalid', hr, heq⟩
  · rw [heq, refusal_preview refusal] at hshown
    cases hshown
  · rw [heq, refusal_preview refusal] at hshown
    cases hshown
  · obtain rfl := Except.ok.inj (hvalid.symm.trans hvalid')
    have hsound := (Planner.reachable_sound h).prepared ctx
    have hyields := coreRequest_yields (validateRequest_ok hvalid) hr
    obtain ⟨payload, hcommand⟩ := coreRequest_preview hop hr
    rw [heq] at hshown
    have hshown := preview_of_serialize hshown
    simp only [Engine.request, hcommand, dragCoreCommand, if_true, Engine.domainRequest] at hshown
    split at hshown
    · cases hshown
    · rename_i plan hplan
      cases hshown
      exact Engine.dragPreviewRequest_spelled hsound.coherent hsound.lettered hyields.toValidated
        hplan

/-- A motion of the last of three windows to the top of the gap before it. -/
def hoverText : RequestText where
  length := 512
  raw := .ok {
    correlationId := some "c-1"
    request := .ok {
      v := 1
      correlationId := "c-1"
      owner := "kwin"
      generation := "g-1"
      revision := 0
      fingerprint := 0
      domain := ⟨"A", "1", ⟨0, 0, 800, 600⟩, 16, 8⟩
      targetDomain := none
      targetWindows := []
      domains := none
      focusedWindow := "w"
      windows := [{ window := "u", output := "A", workspace := "1", rect := ⟨8, 8, 384, 584⟩ },
        { window := "v", output := "A", workspace := "1", rect := ⟨408, 8, 384, 284⟩ },
        { window := "w", output := "A", workspace := "1", rect := ⟨408, 308, 384, 284⟩ }]
      command := ⟨"drag-preview", "w", .ok (.dragPreview ⟨"w", 400, 9, none, none, none⟩)⟩
      fixedSizePredicate := "both-axes-fixed" } }

/-- The text of that preview is this long. -/
def hoverBytes : AnswerBytes := fun _ _ => 543

theorem Planner.evaluate_carries_hover :
    ∃ preview, (new.evaluate hoverBytes hoverText).2.preview = some preview ∧ preview.prior.isSome = true ∧
      convertHoverPrior (hoverPriorReply preview) = some preview.hoverPrior := by
  obtain ⟨ctx, hvalid⟩ := isOk_iff.mp (by decide +kernel : (validateRequest hoverText).isOk = true)
  have hop : ctx.request.command.op = "drag-preview" := by
    rw [validated_request rfl rfl hvalid]
  have hany : (new.evaluate hoverBytes hoverText).2.preview.any
      (fun preview => preview.prior.isSome && decide preview.Fits) = true := by decide +kernel
  obtain ⟨preview, hshown, hboth⟩ := (Option.any_eq_true _ _).mp hany
  simp only [Bool.and_eq_true, decide_eq_true_eq] at hboth
  refine ⟨preview, hshown, hboth.1, ?_⟩
  have hcarries := evaluate_carries (.initial rfl) hvalid hop hshown
  rwa [if_pos hboth.2] at hcarries

end

end Wire

end PlasmaTiler
