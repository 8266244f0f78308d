import PlasmaTiler.EngineDispatch
import PlasmaTiler.WireRequests

/-!
# Evaluation

The planner keeps one engine across calls. A request that passed validation
sets the predicate, rebinds the engine when it comes under another identity
and is handed on as an event, unless its command turns out to be no good. The
sends and the migration are dispatched before the rebinding.

The wire and the engine have a request each, and most of this module is the
way from one to the other: the carried windows become engine windows, the two
domains of a directional request its pair, a carried hover the memory of a
drag, and the tagged command of the text the command of an event. Every
operation decodes its command for itself and has its own order of checks, so
each has a definition of its own (`moveRequest`, `focusRequest` and so on);
`coreRequest` picks the one the text names. Whether the engine retains the
domain is asked in one place only, before a malformed toggle is refused.

Whatever comes of a call goes through the cap on replies, the refusals with
the length of their text, the answers with the length the writer gives them.
-/

namespace PlasmaTiler

namespace Wire

/-! ## Events -/

def engineWindowFromDto (entry : ObservedDto) : EngineWindow where
  window := ⟨entry.window⟩
  output := ⟨entry.output⟩
  workspace := ⟨entry.workspace⟩
  rect := entry.rect
  floating := entry.floating
  fullscreen := entry.fullscreen
  maximized := entry.maximized
  sticky := entry.sticky
  fixedAuto := entry.fixedAuto
  fixedSuppress := entry.fixedSuppress
  hints := {
    minW := entry.minSize.map SizeDto.w
    minH := entry.minSize.map SizeDto.h
    maxW := entry.maxSize.map SizeDto.w
    maxH := entry.maxSize.map SizeDto.h }

/-- A decoded hover carry; an invalid one counts as none. -/
def convertHoverPrior (dto : DragHoverPriorDto) : Option DragHoverPrior := do
  require (isOpaqueId dto.domainOutput && isOpaqueId dto.domainWorkspace &&
    isOpaqueId dto.sourceLeaf && isOpaqueId dto.sourceWindow &&
    decide (dto.revision ≤ planMaxRevision))
  let prior ← dto.prior.mapM fun prior => do
    require (isOpaqueId prior.group)
    let edge ← match prior.edge with
      | "left" => some DragSide.left
      | "right" => some .right
      | "top" => some .top
      | "bottom" => some .bottom
      | _ => none
    return (⟨⟨prior.group⟩, edge⟩ : PriorGroupEdge)
  return ⟨⟨⟨dto.domainOutput⟩, ⟨dto.domainWorkspace⟩⟩, ⟨dto.sourceLeaf⟩, ⟨dto.sourceWindow⟩,
    dto.revision, prior⟩

/-- The source binding of a drag, when both ids are carried and good. -/
def DragPayload.source (payload : DragPayload) : Option DomainKey := do
  let output ← payload.sourceOutput
  let workspace ← payload.sourceWorkspace
  require (isOpaqueId output && isOpaqueId workspace)
  return ⟨⟨output⟩, ⟨workspace⟩⟩

def dragCoreCommand (payload : DragPayload) (preview : Bool) : DomainCommand :=
  let hoverPrior := payload.hoverPrior.bind convertHoverPrior
  if preview then .dragPreview payload.window payload.x payload.y hoverPrior payload.source
  else .dragDrop payload.window payload.x payload.y hoverPrior payload.source

namespace Validated

variable (ctx : Validated)

/-- The two domains of a directional request. -/
def directionalPair : Option (OutputDomain × OutputDomain) :=
  match ctx.directionalDomains with
  | some [source, target] => some (source, target)
  | _ => none

/-- The carried outer gap of the second domain, in range. -/
def directionalTargetOuterGap : Option Int := do
  let entry ← (ctx.request.domains.getD [])[1]?
  entry.outerGap.filter fun gap => decide (0 ≤ gap) && decide (gap ≤ geometryMaxGap)

/-- The event of a request, the target domain of a send or a migration put in. -/
def coreEvent (command : CoreCommand) (target : Option OutputDomain) : CoreEvent where
  owner := ctx.owner
  generation := ctx.generation
  correlation := ctx.correlation
  fingerprint := ctx.request.fingerprint
  domain := ctx.domain
  outerGap := ctx.request.domain.outerGap
  focusedWindow := ⟨ctx.request.focusedWindow⟩
  windows := ctx.request.windows.map engineWindowFromDto
  directional := ctx.directionalPair
  directionalTargetOuterGap := ctx.directionalTargetOuterGap
  targetDomain := target
  targetWindows := ctx.request.targetWindows.map engineWindowFromDto
  command

def fitExcluded : BTreeSet WindowId :=
  .ofList ((ctx.request.windows.filter ObservedDto.fitExcluded).map fun entry => ⟨entry.window⟩) _

/-- A request with a command of the event. -/
def eventRequest (command : CoreCommand) (target : Option OutputDomain) : Request :=
  ⟨ctx.coreEvent command target, ctx.request.revision, ctx.fitExcluded, none⟩

/-- A request with a command over one domain; the command of its event is not
read. -/
def domainRequest (command : DomainCommand) (target : Option OutputDomain) : Request :=
  ⟨ctx.coreEvent (.toggleFloat ctx.request.focusedWindow none) target, ctx.request.revision,
    ctx.fitExcluded, some command⟩

/-! ## Commands -/

def echo : String := validCorrelationEcho ctx.rawCorrelationId

/-- The strict tagged decode: another operation than the one asked for, or one
nobody knows, is an invalid operation. -/
def decodeAs {α : Type} (opInvalid : Refusal) (select : SyncCommand → Option α) :
    Except Refusal α :=
  match ctx.request.command.decoded with
  | .ok command => okOr opInvalid (select command)
  | .error error => .error (if error.unknownVariant then opInvalid else error.reply ctx.echo)

def checkDirection (direction : String) : Except Refusal Unit :=
  ensure (RequestDto.parseDirection direction).isSome
    (ctx.request.rejected directionKind directionMessage)

/-- Reconcile, gap update, group query and release. -/
def plainRequest : Except Refusal Request :=
  match ctx.request.command.decoded with
  | .ok .reconcile => .ok (ctx.domainRequest .reconcile none)
  | .ok .updateGaps => .ok (ctx.domainRequest .updateGaps none)
  | .ok .releaseDomain => .ok (ctx.domainRequest .releaseDomain none)
  | .ok .activeGroup => .ok (ctx.domainRequest .activeGroup none)
  | .ok _ => .error (.rejected ctx.echo "unknown-value" unknownValueMessage)
  | .error error => .error (error.reply ctx.echo)

/-- With two domains and with one alike. -/
def moveRequest : Except Refusal Request := do
  let (window, direction, crossOutputTransfer, sameAxisMove) ←
    ctx.decodeAs (ctx.request.invalidId "move-op-invalid") fun
      | .move window direction crossOutputTransfer sameAxisMove =>
        some (window, direction, crossOutputTransfer, sameAxisMove)
      | _ => none
  let sameAxisMove ← okOr (.snapshotInvalid ctx.request.correlationId unknownValueMessage
    "move-op-invalid") (SameAxisMove.parseWire sameAxisMove)
  ensure (isOpaqueId window) (ctx.request.invalidId "move-window-invalid")
  ctx.checkDirection direction
  return ctx.eventRequest (.move window direction crossOutputTransfer sameAxisMove) none

/-- A float is a subject of a sideways request over two domains only. -/
def focusRequest : Except Refusal Request := do
  let (window, direction, floatSubject) ←
    ctx.decodeAs (ctx.request.invalidId "focus-op-invalid") fun
      | .focus window direction _ floatSubject => some (window, direction, floatSubject)
      | _ => none
  ensure (isOpaqueId window) (ctx.request.invalidId "focus-window-invalid")
  ctx.checkDirection direction
  if ctx.directionalPair.isSome then
    ensure (!floatSubject || direction == "left" || direction == "right")
      (ctx.request.invalidId "focus-op-invalid")
  else ensure (!floatSubject) (ctx.request.invalidObservation "domain-invalid")
  return ctx.eventRequest (.focus window direction floatSubject) none

def resizeRequest : Except Refusal Request := do
  let (window, direction, mode, pressIndex) ←
    ctx.decodeAs (ctx.request.invalidId "resize-op-invalid") fun
      | .resize window direction mode pressIndex => some (window, direction, mode, pressIndex)
      | _ => none
  ensure (isOpaqueId window) (ctx.request.invalidId "resize-window-invalid")
  ctx.checkDirection direction
  ensure (parseEngineMode mode).isSome (ctx.request.rejected directionKind directionMessage)
  return ctx.domainRequest (.resize window direction mode pressIndex) none

/-- A corner names both its second direction and boundary, or neither. -/
def pointerResizeRequest : Except Refusal Request := do
  let opInvalid := ctx.request.invalidId "pointer-resize-op-invalid"
  let (window, direction, boundary, direction2, boundary2) ← ctx.decodeAs opInvalid fun
    | .pointerResize window direction boundary direction2 boundary2 =>
      some (window, direction, boundary, direction2, boundary2)
    | _ => none
  ensure (isOpaqueId window) (ctx.request.invalidId "pointer-resize-window-invalid")
  ctx.checkDirection direction
  ensure (direction2.isSome == boundary2.isSome) opInvalid
  ensure (direction2.all fun second => (RequestDto.parseDirection second).isSome)
    (ctx.request.rejected directionKind directionMessage)
  return ctx.domainRequest (.pointerResize window direction boundary direction2 boundary2) none

/-- The command floats a carried window, to a good rectangle if to any. -/
def toggleFloatWellFormed : Bool :=
  match ctx.request.command.decoded with
  | .ok (.toggleFloat window floatRect) =>
    isOpaqueId window && (ctx.request.windows.any fun entry => entry.window == window) &&
      floatRect.all Seed.validCarriedRect
  | _ => false

/-- A malformed toggle of a floating window is not tiled before anything else,
where its domain is not retained. -/
def toggleFloatRequest (contained : Bool) : Except Refusal Request := do
  let named := ctx.request.windows.find? fun entry => entry.window == ctx.request.command.window
  ensure (ctx.toggleFloatWellFormed || !named.any ObservedDto.floating || contained)
    (ctx.request.refused .notTiled)
  let (window, floatRect) ←
    ctx.decodeAs (ctx.request.invalidObservation "toggle-float-op-invalid") fun
      | .toggleFloat window floatRect => some (window, floatRect)
      | _ => none
  ensure (isOpaqueId window) (ctx.request.invalidObservation "toggle-float-window-invalid")
  ensure (ctx.request.windows.any fun entry => entry.window == window)
    (ctx.request.rejected "partial-observation" observationMessage)
  ensure (floatRect.all Seed.validCarriedRect) (ctx.request.invalidObservation "float-rect-invalid")
  return ctx.eventRequest (.toggleFloat window floatRect) none

def toggleOrientationRequest : Except Refusal Request := do
  let window ← ctx.decodeAs (ctx.request.invalidObservation "toggle-orient-op-invalid") fun
    | .toggleOrientation window => some window
    | _ => none
  ensure (isOpaqueId window) (ctx.request.invalidId "toggle-orient-window-invalid")
  return ctx.domainRequest (.toggleOrientation window) none

/-- A drop, or its preview, which has no business with a target. -/
def dragRequest (preview : Bool) : Except Refusal Request := do
  ensure (!preview || ctx.request.targetWindows.isEmpty && ctx.request.targetDomain.isNone)
    (ctx.request.rejected "cross-domain-mismatch" crossDomainMessage)
  let opInvalid := ctx.request.invalidId
    (if preview then "drag-preview-op-invalid" else "drag-drop-op-invalid")
  let payload ← ctx.decodeAs opInvalid fun
    | .dragDrop payload => if preview then none else some payload
    | .dragPreview payload => if preview then some payload else none
    | _ => none
  return ctx.domainRequest (dragCoreCommand payload preview) none

/-! ## Sends and migrations -/

/-- A send names the focused window and the carried target. -/
def sendRequest (crossOutput : Bool)
    (select : SyncCommand → Option (String × String × String × Bool))
    (command : String → String → String → Bool → CoreCommand) : Except Refusal Request := do
  let target ← ctx.request.sendTargetScope crossOutput
  ensure (!ctx.request.focusedWindow.isEmpty)
    (ctx.request.rejected "absent-focus" "no focused window is observed")
  let (window, targetOutput, targetWorkspace, follow) ←
    ctx.decodeAs (ctx.request.invalidId "move-op-invalid") select
  ensure (isOpaqueId window) (ctx.request.invalidId "move-window-invalid")
  ensure (isOpaqueId targetOutput) (ctx.request.invalidId "move-output-invalid")
  ensure (isOpaqueId targetWorkspace) (ctx.request.invalidId "move-workspace-invalid")
  ensure (window == ctx.request.focusedWindow)
    (ctx.request.rejected "focus-mismatch" "the moved window is not the focused window")
  ensure (targetOutput == target.id.raw && targetWorkspace == target.workspace.raw)
    (ctx.request.rejected "target-mismatch" "command target does not match the target domain")
  return ctx.eventRequest (command window targetOutput targetWorkspace follow) (some target)

def sendToWorkspaceRequest : Except Refusal Request :=
  ctx.sendRequest false (fun
    | .sendToWorkspace window targetOutput targetWorkspace follow =>
      some (window, targetOutput, targetWorkspace, follow)
    | _ => none) .sendToWorkspace

def sendToOutputRequest : Except Refusal Request :=
  ctx.sendRequest true (fun
    | .sendToOutput window targetOutput targetWorkspace follow =>
      some (window, targetOutput, targetWorkspace, follow)
    | _ => none) .sendToOutput

def migrateWorkspaceRequest : Except Refusal Request := do
  let target ← ctx.request.migrateTargetScope
  ensure (!(ctx.request.windows.isEmpty && !ctx.request.focusedWindow.isEmpty))
    (ctx.request.refused .focusMismatch)
  let direction ← ctx.decodeAs (ctx.request.invalidId "migrate-op-invalid") fun
    | .migrateWorkspace direction => some direction
    | _ => none
  ctx.checkDirection direction
  return ctx.domainRequest (.migrateWorkspace direction) (some target)

/-! ## Dispatch -/

/-- The operations dispatched before the binding is looked at. -/
def isTransfer : Bool :=
  ctx.request.command.op == "send-to-workspace" || ctx.request.command.op == "send-to-output" ||
    ctx.request.command.op == "migrate-workspace"

/-- What the engine is asked; `contained` is whether it retains the domain. -/
def coreRequest (contained : Bool) : Except Refusal Request :=
  match ctx.request.command.op with
  | "send-to-workspace" => ctx.sendToWorkspaceRequest
  | "send-to-output" => ctx.sendToOutputRequest
  | "migrate-workspace" => ctx.migrateWorkspaceRequest
  | "reconcile" | "update-gaps" | "active-group" | "release-domain" => ctx.plainRequest
  | "move" => ctx.moveRequest
  | "focus" => ctx.focusRequest
  | "resize" => ctx.resizeRequest
  | "pointer-resize" => ctx.pointerResizeRequest
  | "toggle-float" => ctx.toggleFloatRequest contained
  | "toggle-orientation" => ctx.toggleOrientationRequest
  | "drag-drop" => ctx.dragRequest false
  | "drag-preview" => ctx.dragRequest true
  | _ => .error (.rejected ctx.echo "unknown-value" unknownValueMessage)

end Validated

/-! ## Answers -/

/-- The bytes of the text that is written for an answer of the engine to a
request. -/
abbrev AnswerBytes := Validated → EngineReply → Nat

/-- What is sent for an answer. -/
def Validated.serialize (ctx : Validated) (answerBytes : AnswerBytes) (reply : EngineReply) :
    PlanReply :=
  serializeBounded (answerBytes ctx reply) (.answered ctx.request.correlationId reply)

/-! ## The planner -/

/-- The retained engine with the identity it is bound to. -/
structure Planner where
  engine : Engine
  owner : Option OwnerId
  generation : Option GenerationId

namespace Planner

/-- Nothing retained, nothing bound; fixed windows are admitted as floats and
focus changes are fenced by a maximized window. -/
def new : Planner where
  engine := (Engine.new.setFixedSizeAdmission true).setMaximizedFocusFence true
  owner := none
  generation := none

/-- Another identity drops what is retained. -/
def syncBinding (p : Planner) (owner : OwnerId) (generation : GenerationId) : Planner :=
  if p.owner == some owner && p.generation == some generation then p
  else ⟨{ p.engine with sessions := ∅, outerGaps := ∅ }, some owner, some generation⟩

def setFixedSizePredicate (p : Planner) (request : RequestDto) : Planner :=
  match FixedSizePredicate.parseWire request.fixedSizePredicate with
  | some predicate => { p with engine := p.engine.setFixedSizePredicate predicate }
  | none => p

/-- The planner a validated request finds when it is dispatched. -/
def prepared (p : Planner) (ctx : Validated) : Planner :=
  let p := p.setFixedSizePredicate ctx.request
  if ctx.isTransfer then p else p.syncBinding ctx.owner ctx.generation

/-- One call. -/
def evaluate (p : Planner) (answerBytes : AnswerBytes) (text : RequestText) : Planner × PlanReply :=
  match validateRequest text with
  | .error refusal => (p, refusal.serialize)
  | .ok ctx =>
    let p := p.prepared ctx
    match ctx.coreRequest (p.engine.contains ctx.domain.key) with
    | .error refusal => (p, refusal.serialize)
    | .ok r =>
      let (engine, reply) := p.engine.request r
      ({ p with engine }, ctx.serialize answerBytes reply)

end Planner

end Wire

end PlasmaTiler
