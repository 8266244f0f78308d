import PlasmaTiler.Evaluation
import PlasmaTiler.Making
import PlasmaTiler.PreviewDrop

/-!
# What passing the wire gives

A request that is handed to the engine has passed some thirty checks, and
what the later modules need of it is a handful of facts: the tokens are those
of the text, the ids are opaque, the domains are valid. `Validated.Opaque`
collects them, of the carried windows and domains by the checks all
operations share, so that the proofs of the runs name the fact they use and
never look at the checks again. A target has checks of its own, and lemmas of
its own.

Each operation then builds its request from what passed (`Yields`), and
`coreRequest_yields` puts them together: whatever reaches the engine is a
validated request of the same client.
-/

namespace PlasmaTiler

namespace Wire

section
variable {request : RequestDto} {u : Unit} {domain : OutputDomain} {text : RequestText}
  {ctx : Validated}

/-! ## The checks -/

theorem checkObserved_ok {entries : List ObservedDto} {seen : List String}
    (h : request.checkObserved entries seen = .ok u) :
    ∀ entry ∈ entries, isOpaqueId entry.window = true := by
  induction entries generalizing seen with
  | nil =>
    intro entry hentry
    cases hentry
  | cons first rest ih =>
    simp only [RequestDto.checkObserved, bind_eq_ok, ensure_eq_ok] at h
    obtain ⟨_, hwindow, _, -, _, -, _, -, hrest⟩ := h
    exact List.forall_mem_cons.mpr ⟨hwindow, ih hrest⟩

theorem checkTargetWindows_ok {target : DomainDto} {entries : List ObservedDto}
    {seen : List String} (h : request.checkTargetWindows target entries seen = .ok u) :
    ∀ entry ∈ entries, isOpaqueId entry.window = true := by
  induction entries generalizing seen with
  | nil =>
    intro entry hentry
    cases hentry
  | cons first rest ih =>
    simp only [RequestDto.checkTargetWindows, bind_eq_ok, ensure_eq_ok] at h
    obtain ⟨_, hwindow, _, -, _, -, _, -, _, -, _, -, hrest⟩ := h
    exact List.forall_mem_cons.mpr ⟨hwindow, ih hrest⟩

/-- A domain that comes out is the carried one, and valid. -/
theorem projectDomain_ok {output workspace : String} {bounds : Rect} {gap outerGap : Int}
    {adjacent : BTreeMap Direction OutputId}
    (h : request.projectDomain output workspace bounds gap outerGap adjacent = .ok domain) :
    domain.key = ⟨⟨output⟩, ⟨workspace⟩⟩ ∧ domain.validate = true := by
  unfold RequestDto.projectDomain at h
  split at h
  · cases h
  · simp only [bind_eq_ok, ensure_eq_ok, pure_eq_ok] at h
    obtain ⟨_, hvalid, rfl⟩ := h
    exact ⟨rfl, hvalid⟩

theorem parseDirectionalDomain_ok {entry : DirectionalDomainDto}
    (h : request.parseDirectionalDomain entry = .ok domain) : domain.key.Opaque := by
  simp only [RequestDto.parseDirectionalDomain, bind_eq_ok, ensure_eq_ok] at h
  obtain ⟨_, houtput, _, hworkspace, _, -, _, -, hproject⟩ := h
  rw [(projectDomain_ok hproject).1]
  exact ⟨houtput, hworkspace⟩

theorem parseDirectional_ok {entries : List DirectionalDomainDto} {parsed : List OutputDomain}
    (h : request.parseDirectional entries = .ok parsed) : ∀ d ∈ parsed, d.key.Opaque := by
  simp only [RequestDto.parseDirectional, bind_eq_ok, pure_eq_ok] at h
  obtain ⟨_, -, _, hparsed, _, -, _, -, _, -, _, -, rfl⟩ := h
  have heach := forall₂_of_mapM_ok hparsed
  clear hparsed
  induction heach with
  | nil =>
    intro d hd
    cases hd
  | cons hentry _ ih => exact List.forall_mem_cons.mpr ⟨parseDirectionalDomain_ok hentry, ih⟩

/-! ## The request -/

/-- What the checks leave known of an observation: a valid domain under opaque
names, windows with opaque ids, opaque domains beside it, and a predicate that
is read. -/
structure Validated.Opaque (ctx : Validated) : Prop where
  domain : ctx.domain.key.Opaque
  valid : ctx.domain.validate = true
  windows : ∀ entry ∈ ctx.request.windows, isOpaqueId entry.window = true
  directional : ∀ domains, ctx.directionalDomains = some domains → ∀ d ∈ domains, d.key.Opaque
  predicate : (FixedSizePredicate.parseWire ctx.request.fixedSizePredicate).isSome = true

theorem observation_ok {directional : Option (List OutputDomain)}
    (h : request.observation = .ok (domain, directional)) :
    domain.key.Opaque ∧ domain.validate = true ∧
      (∀ entry ∈ request.windows, isOpaqueId entry.window = true) ∧
      (∀ domains, directional = some domains → ∀ d ∈ domains, d.key.Opaque) ∧
      (FixedSizePredicate.parseWire request.fixedSizePredicate).isSome = true := by
  simp only [RequestDto.observation, bind_eq_ok, ensure_eq_ok, pure_eq_ok, Prod.mk.injEq] at h
  obtain ⟨_, houtput, _, hworkspace, _, -, _, hwindows, _, -, entries, -, _, hdirectional, _, -,
    _, -, _, -, _, hproject, _, hpredicate, rfl, rfl⟩ := h
  obtain ⟨hkey, hvalid⟩ := projectDomain_ok hproject
  refine ⟨hkey ▸ ⟨houtput, hworkspace⟩, hvalid, checkObserved_ok hwindows, ?_, hpredicate⟩
  intro domains hdomains
  rcases entries with _ | entries
  · cases hdirectional
    cases hdomains
  · obtain ⟨parsed, hparsed, heq⟩ := map_eq_ok.mp hdirectional
    obtain rfl := Option.some.inj (heq.trans hdomains)
    exact parseDirectional_ok hparsed

theorem validateRequest_ok (h : validateRequest text = .ok ctx) : ctx.Opaque := by
  simp only [validateRequest, bind_eq_ok, pure_eq_ok, Prod.exists] at h
  obtain ⟨_, request, -, _, _, _, -, domain, directional, hobserved, rfl⟩ := h
  obtain ⟨hdomain, hvalid, hwindows, hdirectional, hpredicate⟩ := observation_ok hobserved
  exact ⟨hdomain, hvalid, hwindows, hdirectional, hpredicate⟩

theorem token_parse_some {valid : String → Bool} {value : String} {t : Token valid}
    (h : Token.parse valid value = some t) : t.asStr = value := by
  unfold Token.parse at h
  split at h
  · cases h
    rfl
  · cases h

/-- The tokens are those of the request. -/
theorem validateRequest_tokens (h : validateRequest text = .ok ctx) :
    ctx.correlation.asStr = ctx.request.correlationId ∧ ctx.owner.asStr = ctx.request.owner ∧
      ctx.generation.asStr = ctx.request.generation := by
  simp only [validateRequest, bind_eq_ok, pure_eq_ok, Prod.exists] at h
  obtain ⟨_, request, -, correlation, owner, generation, hidentity, _, _, -, rfl⟩ := h
  simp only [RequestDto.identity, bind_eq_ok, okOr_eq_ok, pure_eq_ok, Prod.mk.injEq] at hidentity
  obtain ⟨_, -, _, hcorrelation, _, howner, _, hgeneration, _, -, rfl, rfl, rfl⟩ := hidentity
  exact ⟨token_parse_some hcorrelation, token_parse_some howner, token_parse_some hgeneration⟩

/-! ## Events -/

theorem directionalPair_opaque (h : ctx.Opaque) {source target : OutputDomain}
    (hpair : ctx.directionalPair = some (source, target)) :
    source.key.Opaque ∧ target.key.Opaque := by
  unfold Validated.directionalPair at hpair
  split at hpair
  · rename_i first second hdomains
    cases hpair
    exact ⟨h.directional _ hdomains _ (by simp), h.directional _ hdomains _ (by simp)⟩
  · cases hpair

theorem mem_engineWindows {entries : List ObservedDto}
    (h : ∀ entry ∈ entries, isOpaqueId entry.window = true) :
    ∀ entry ∈ entries.map engineWindowFromDto, entry.window.Opaque := by
  intro entry hentry
  obtain ⟨dto, hdto, rfl⟩ := List.mem_map.mp hentry
  exact h dto hdto

/-- An event carries opaque ids, if its target does and a send its windows. -/
theorem coreEvent_ids (h : ctx.Opaque) {command : CoreCommand} {target : Option OutputDomain}
    (htarget : ∀ t, target = some t → t.key.Opaque)
    (hwindows : command.isSend = true →
      ∀ entry ∈ ctx.request.targetWindows, isOpaqueId entry.window = true) :
    (ctx.coreEvent command target).Opaque where
  domain := h.domain
  windows := mem_engineWindows h.windows
  directional _ _ hpair := directionalPair_opaque h hpair
  target := htarget
  targetWindows hsend := mem_engineWindows (hwindows hsend)

/-- A request to the engine that comes of an observation which passed the
checks, made out to the owner and generation of the planner. -/
structure Validated.Yields (ctx : Validated) (r : Request) : Prop extends r.Validated where
  identity : r.event.owner = ctx.owner ∧ r.event.generation = ctx.generation

theorem eventRequest_yields (h : ctx.Opaque) {command : CoreCommand}
    (hsend : command.isSend = false) : ctx.Yields (ctx.eventRequest command none) where
  ids := coreEvent_ids h (fun _ heq => by cases heq) fun htrue =>
    absurd htrue (by simp [hsend])
  domain := h.valid
  identity := ⟨rfl, rfl⟩

theorem domainRequest_yields (h : ctx.Opaque) {command : DomainCommand}
    {target : Option OutputDomain} (htarget : ∀ t, target = some t → t.key.Opaque) :
    ctx.Yields (ctx.domainRequest command target) where
  ids := coreEvent_ids h htarget fun htrue => by cases htrue
  domain := h.valid
  identity := ⟨rfl, rfl⟩

theorem domainRequest_none_yields (h : ctx.Opaque) {command : DomainCommand} :
    ctx.Yields (ctx.domainRequest command none) :=
  domainRequest_yields h fun _ heq => by cases heq

/-! ## Targets -/

theorem carriedTarget_ok {target : DomainDto} (h : request.carriedTarget = .ok target) :
    isOpaqueId target.output = true ∧ isOpaqueId target.workspace = true := by
  simp only [RequestDto.carriedTarget, bind_eq_ok, ensure_eq_ok, pure_eq_ok] at h
  obtain ⟨_, -, _, houtput, _, hworkspace, rfl⟩ := h
  exact ⟨houtput, hworkspace⟩

theorem sendTargetScope_ok {crossOutput : Bool}
    (h : request.sendTargetScope crossOutput = .ok domain) :
    domain.key.Opaque ∧ ∀ entry ∈ request.targetWindows, isOpaqueId entry.window = true := by
  simp only [RequestDto.sendTargetScope, bind_eq_ok] at h
  obtain ⟨target, htarget, _, -, _, -, _, hwindows, hproject⟩ := h
  rw [(projectDomain_ok hproject).1]
  exact ⟨carriedTarget_ok htarget, checkTargetWindows_ok hwindows⟩

theorem migrateTargetScope_ok (h : request.migrateTargetScope = .ok domain) :
    domain.key.Opaque := by
  simp only [RequestDto.migrateTargetScope, bind_eq_ok] at h
  obtain ⟨target, htarget, _, -, _, -, _, -, _, -, hproject⟩ := h
  rw [(projectDomain_ok hproject).1]
  exact carriedTarget_ok htarget

/-! ## The routes -/

variable {r : Request}

theorem plainRequest_yields (h : ctx.Opaque) (hr : ctx.plainRequest = .ok r) :
    ctx.Yields r := by
  unfold Validated.plainRequest at hr
  split at hr
  · cases hr
    exact domainRequest_none_yields h
  · cases hr
    exact domainRequest_none_yields h
  · cases hr
    exact domainRequest_none_yields h
  · cases hr
    exact domainRequest_none_yields h
  · cases hr
  · cases hr

theorem moveRequest_yields (h : ctx.Opaque) (hr : ctx.moveRequest = .ok r) :
    ctx.Yields r := by
  simp only [Validated.moveRequest, bind_eq_ok, pure_eq_ok] at hr
  obtain ⟨_, -, _, -, _, -, _, -, rfl⟩ := hr
  exact eventRequest_yields h rfl

theorem focusRequest_yields (h : ctx.Opaque) (hr : ctx.focusRequest = .ok r) :
    ctx.Yields r := by
  simp only [Validated.focusRequest, bind_eq_ok] at hr
  obtain ⟨_, -, _, -, _, -, hr⟩ := hr
  split at hr
  · simp only [bind_eq_ok, pure_eq_ok] at hr
    obtain ⟨_, -, rfl⟩ := hr
    exact eventRequest_yields h rfl
  · simp only [bind_eq_ok, pure_eq_ok] at hr
    obtain ⟨_, -, rfl⟩ := hr
    exact eventRequest_yields h rfl

theorem resizeRequest_yields (h : ctx.Opaque) (hr : ctx.resizeRequest = .ok r) :
    ctx.Yields r := by
  simp only [Validated.resizeRequest, bind_eq_ok, pure_eq_ok] at hr
  obtain ⟨_, -, _, -, _, -, _, -, rfl⟩ := hr
  exact domainRequest_none_yields h

theorem pointerResizeRequest_yields (h : ctx.Opaque)
    (hr : ctx.pointerResizeRequest = .ok r) : ctx.Yields r := by
  simp only [Validated.pointerResizeRequest, bind_eq_ok, pure_eq_ok] at hr
  obtain ⟨_, -, _, -, _, -, _, -, _, -, rfl⟩ := hr
  exact domainRequest_none_yields h

theorem toggleFloatRequest_yields {contained : Bool} (h : ctx.Opaque)
    (hr : ctx.toggleFloatRequest contained = .ok r) : ctx.Yields r := by
  simp only [Validated.toggleFloatRequest, bind_eq_ok, pure_eq_ok] at hr
  obtain ⟨_, -, _, -, _, -, _, -, _, -, rfl⟩ := hr
  exact eventRequest_yields h rfl

theorem toggleOrientationRequest_yields (h : ctx.Opaque)
    (hr : ctx.toggleOrientationRequest = .ok r) : ctx.Yields r := by
  simp only [Validated.toggleOrientationRequest, bind_eq_ok, pure_eq_ok] at hr
  obtain ⟨_, -, _, -, rfl⟩ := hr
  exact domainRequest_none_yields h

theorem dragRequest_yields {preview : Bool} (h : ctx.Opaque)
    (hr : ctx.dragRequest preview = .ok r) : ctx.Yields r := by
  simp only [Validated.dragRequest, bind_eq_ok, pure_eq_ok] at hr
  obtain ⟨_, -, _, -, rfl⟩ := hr
  exact domainRequest_none_yields h

theorem sendRequest_yields {crossOutput : Bool}
    {select : SyncCommand → Option (String × String × String × Bool)}
    {command : String → String → String → Bool → CoreCommand} (h : ctx.Opaque)
    (hr : ctx.sendRequest crossOutput select command = .ok r) : ctx.Yields r := by
  simp only [Validated.sendRequest, bind_eq_ok, pure_eq_ok] at hr
  obtain ⟨target, hscope, _, -, _, -, _, -, _, -, _, -, _, -, _, -, rfl⟩ := hr
  obtain ⟨hkey, hwindows⟩ := sendTargetScope_ok hscope
  refine ⟨⟨coreEvent_ids h (fun t heq => ?_) fun _ => hwindows, h.valid⟩, rfl, rfl⟩
  exact Option.some.inj heq ▸ hkey

theorem migrateWorkspaceRequest_yields (h : ctx.Opaque)
    (hr : ctx.migrateWorkspaceRequest = .ok r) : ctx.Yields r := by
  simp only [Validated.migrateWorkspaceRequest, bind_eq_ok, pure_eq_ok] at hr
  obtain ⟨target, hscope, _, -, _, -, _, -, rfl⟩ := hr
  refine domainRequest_yields h fun t heq => ?_
  exact Option.some.inj heq ▸ migrateTargetScope_ok hscope

/-- Whatever reaches the engine is a validated request of the same client. -/
theorem coreRequest_yields {contained : Bool} (h : ctx.Opaque)
    (hr : ctx.coreRequest contained = .ok r) : ctx.Yields r := by
  unfold Validated.coreRequest at hr
  split at hr
  · exact sendRequest_yields h hr
  · exact sendRequest_yields h hr
  · exact migrateWorkspaceRequest_yields h hr
  · exact plainRequest_yields h hr
  · exact plainRequest_yields h hr
  · exact plainRequest_yields h hr
  · exact plainRequest_yields h hr
  · exact moveRequest_yields h hr
  · exact focusRequest_yields h hr
  · exact resizeRequest_yields h hr
  · exact pointerResizeRequest_yields h hr
  · exact toggleFloatRequest_yields h hr
  · exact toggleOrientationRequest_yields h hr
  · exact dragRequest_yields h hr
  · exact dragRequest_yields h hr
  · cases hr

end

end Wire

end PlasmaTiler
