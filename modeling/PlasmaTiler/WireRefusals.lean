import PlasmaTiler.EvaluationRuns
import PlasmaTiler.Failures

/-!
# What a refusal names

A reply carries the correlation id of the request it answers, so that a client
can tell which of its transactions was refused. The id is the client's text,
and only a valid one may come back: a refusal of a text that does not decode
echoes the id where it is a valid one, a refusal further on is made out to the
id that was parsed by then, and everything else names none.

The proof follows the planner through its exits. Each step of the validation
and each command refuses under one of a few ids (`Names`), which is a matter
of going through its checks; the ids are good by the time they are used. One
exit is different. The version is looked at before the id, so a request of
another version is refused under whatever it carries, and a bad id gets out.
The cap on replies takes some of that back: where the id is so long that the
refusal does not fit, it is dropped. So a reply is made out to a good id or
none exactly when the text is not of another version with a bad id that fits
(`RequestDto.Leaks`, `Planner.evaluate_echoes_iff`).
-/

namespace PlasmaTiler

open JsonText

namespace Wire

/-- The refusal is made out to one of the given ids, and to no other id a
client could wait for. -/
def Names (ids : List String) (refusal : Refusal) : Prop := refusal.correlationId ∈ ids

section
variable {request : RequestDto} {ids : List String} (hid : request.correlationId ∈ ids)
include hid

/-! ## Validation -/

theorem checkObserved_names {entries : List ObservedDto} {seen : List String} :
    FailsWith (Names ids) (request.checkObserved entries seen) := by
  induction entries generalizing seen with
  | nil => exact failsWith_ok
  | cons entry rest ih => exact .guarded (.guarded (.guarded (.guarded ih hid) hid) hid) hid

theorem checkArea_names {bounds : Rect} {gap outerGap : Int} :
    FailsWith (Names ids) (request.checkArea bounds gap outerGap) :=
  .guarded (.guarded (.guarded (.guarded (failsWith_ensure hid) hid) hid) hid) hid

theorem projectDomain_names {output workspace : String} {bounds : Rect} {gap outerGap : Int}
    {adjacent : BTreeMap Direction OutputId} : FailsWith (Names ids)
      (request.projectDomain output workspace bounds gap outerGap adjacent) := by
  unfold RequestDto.projectDomain
  split
  · exact failsWith_error hid
  · exact failsWith_pure.guarded hid

theorem parseAdjacent_names {sides : List (String × String)}
    {adjacent : BTreeMap Direction OutputId} :
    FailsWith (Names ids) (request.parseAdjacent sides adjacent) := by
  induction sides generalizing adjacent with
  | nil => exact failsWith_ok
  | cons side rest ih =>
    refine (failsWith_okOr ?_).bind fun direction => .guarded (.guarded ih hid) hid
    exact hid

theorem parseDirectionalDomain_names {entry : DirectionalDomainDto} :
    FailsWith (Names ids) (request.parseDirectionalDomain entry) :=
  .guarded (.guarded ((checkArea_names hid).bind fun _ => (parseAdjacent_names hid).bind
    fun _ => projectDomain_names hid) hid) hid

theorem directionalEntries_names : FailsWith (Names ids) request.directionalEntries := by
  unfold RequestDto.directionalEntries
  split
  · exact failsWith_ok
  · split
    · exact failsWith_ok
    · exact failsWith_error hid

theorem parseDirectional_names {entries : List DirectionalDomainDto} :
    FailsWith (Names ids) (request.parseDirectional entries) := by
  have hparsed : FailsWith (Names ids) (entries.mapM request.parseDirectionalDomain) :=
    .mapM fun _ => parseDirectionalDomain_names hid
  exact .guarded (hparsed.bind fun _ =>
    .guarded (.guarded (.guarded (.guarded failsWith_pure hid) hid) hid) hid) hid

theorem checkWindows_names {directional : Option (List OutputDomain)}
    {entries : List ObservedDto} :
    FailsWith (Names ids) (request.checkWindows directional entries) := by
  induction entries with
  | nil => exact failsWith_ok
  | cons entry rest ih => exact .guarded (.guarded ih hid) hid

theorem checkFocus_names {directional : Option (List OutputDomain)} :
    FailsWith (Names ids) (request.checkFocus directional) :=
  .guarded (failsWith_ensure hid) hid

theorem observation_names : FailsWith (Names ids) request.observation := by
  have hdirectional : ∀ entries : Option (List DirectionalDomainDto),
      FailsWith (Names ids) (entries.mapM request.parseDirectional) :=
    fun _ => .optionMapM fun _ => parseDirectional_names hid
  refine .guarded (.guarded (.guarded ?_ hid) hid) hid
  refine (checkObserved_names hid).bind fun _ => (checkArea_names hid).bind fun _ => ?_
  refine (directionalEntries_names hid).bind fun entries => (hdirectional entries).bind fun _ => ?_
  refine (checkWindows_names hid).bind fun _ => (checkFocus_names hid).bind fun _ => ?_
  refine (failsWith_ensure ?_).bind fun _ => (projectDomain_names hid).bind fun _ =>
    failsWith_pure.guarded ?_ <;> exact hid

/-! ## Targets -/

theorem carriedTarget_names : FailsWith (Names ids) request.carriedTarget := by
  refine (failsWith_okOr ?_).bind fun _ => .guarded (.guarded failsWith_pure hid) hid
  exact hid

theorem checkSendTarget_names {target : DomainDto} {crossOutput : Bool} :
    FailsWith (Names ids) (request.checkSendTarget target crossOutput) := by
  unfold RequestDto.checkSendTarget
  split
  · exact failsWith_ensure hid
  · exact .guarded (failsWith_ensure hid) hid

theorem checkTargetWindows_names {target : DomainDto} {entries : List ObservedDto}
    {seen : List String} :
    FailsWith (Names ids) (request.checkTargetWindows target entries seen) := by
  induction entries generalizing seen with
  | nil => exact failsWith_ok
  | cons entry rest ih =>
    exact .guarded (.guarded (.guarded (.guarded (.guarded (.guarded ih hid) hid) hid) hid) hid) hid

theorem sendTargetScope_names {crossOutput : Bool} :
    FailsWith (Names ids) (request.sendTargetScope crossOutput) :=
  (carriedTarget_names hid).bind fun _ => (checkSendTarget_names hid).bind fun _ =>
    (checkArea_names hid).bind fun _ => (checkTargetWindows_names hid).bind fun _ =>
    projectDomain_names hid

theorem migrateTargetScope_names : FailsWith (Names ids) request.migrateTargetScope :=
  (carriedTarget_names hid).bind fun _ => .guarded (.guarded (.guarded
    ((checkArea_names hid).bind fun _ => projectDomain_names hid) hid) hid) hid

end

/-! ## Commands -/

section
variable {ctx : Validated} {ids : List String}

theorem checkDirection_names (hid : ctx.request.correlationId ∈ ids) {direction : String} :
    FailsWith (Names ids) (ctx.checkDirection direction) := failsWith_ensure hid

/-- A command that does not decode is refused as another operation would be, or
under the echo. -/
theorem decodeAs_names (hecho : ctx.echo ∈ ids) {α : Type} {opInvalid : Refusal}
    {select : SyncCommand → Option α} (hop : Names ids opInvalid) :
    FailsWith (Names ids) (ctx.decodeAs opInvalid select) := by
  unfold Validated.decodeAs
  split
  · exact failsWith_okOr hop
  · refine failsWith_error ?_
    split
    · exact hop
    · exact hecho

theorem plainRequest_names (hecho : ctx.echo ∈ ids) :
    FailsWith (Names ids) ctx.plainRequest := by
  unfold Validated.plainRequest
  split
  · exact failsWith_ok
  · exact failsWith_ok
  · exact failsWith_ok
  · exact failsWith_ok
  · exact failsWith_error hecho
  · exact failsWith_error hecho

variable (hid : ctx.request.correlationId ∈ ids) (hecho : ctx.echo ∈ ids)
include hid hecho

theorem moveRequest_names : FailsWith (Names ids) ctx.moveRequest := by
  refine (decodeAs_names hecho ?_).bind fun _ => (failsWith_okOr ?_).bind fun _ =>
    .guarded ((checkDirection_names hid).bind fun _ => failsWith_pure) ?_ <;> exact hid

theorem focusRequest_names : FailsWith (Names ids) ctx.focusRequest := by
  refine (decodeAs_names hecho ?_).bind fun _ =>
    .guarded ((checkDirection_names hid).bind fun _ => ?_) ?_
  · exact hid
  · split
    · exact failsWith_pure.guarded hid
    · exact failsWith_pure.guarded hid
  · exact hid

theorem resizeRequest_names : FailsWith (Names ids) ctx.resizeRequest := by
  refine (decodeAs_names hecho ?_).bind fun _ => .guarded ((checkDirection_names hid).bind fun _ =>
    failsWith_pure.guarded ?_) ?_ <;> exact hid

theorem pointerResizeRequest_names : FailsWith (Names ids) ctx.pointerResizeRequest := by
  refine (decodeAs_names hecho ?_).bind fun _ => .guarded ((checkDirection_names hid).bind fun _ =>
    .guarded (failsWith_pure.guarded ?_) ?_) ?_ <;> exact hid

theorem toggleFloatRequest_names {contained : Bool} :
    FailsWith (Names ids) (ctx.toggleFloatRequest contained) := by
  refine .guarded ((decodeAs_names hecho ?_).bind fun _ =>
    .guarded (.guarded (failsWith_pure.guarded ?_) ?_) ?_) hid <;> exact hid

theorem toggleOrientationRequest_names :
    FailsWith (Names ids) ctx.toggleOrientationRequest := by
  refine (decodeAs_names hecho ?_).bind fun _ => failsWith_pure.guarded ?_ <;> exact hid

theorem dragRequest_names {preview : Bool} :
    FailsWith (Names ids) (ctx.dragRequest preview) := by
  refine .guarded ((decodeAs_names hecho ?_).bind fun _ => failsWith_pure) hid
  exact hid

theorem sendRequest_names {crossOutput : Bool}
    {select : SyncCommand → Option (String × String × String × Bool)}
    {command : String → String → String → Bool → CoreCommand} :
    FailsWith (Names ids) (ctx.sendRequest crossOutput select command) := by
  refine (sendTargetScope_names hid).bind fun _ => .guarded
    ((decodeAs_names hecho ?_).bind fun _ => .guarded (.guarded (.guarded (.guarded
    (failsWith_pure.guarded ?_) ?_) ?_) ?_) ?_) ?_ <;> exact hid

theorem migrateWorkspaceRequest_names : FailsWith (Names ids) ctx.migrateWorkspaceRequest := by
  refine (migrateTargetScope_names hid).bind fun _ => .guarded ((decodeAs_names hecho ?_).bind
    fun _ => (checkDirection_names hid).bind fun _ => failsWith_pure) ?_ <;> exact hid

/-- A command is refused under an id of its request. -/
theorem coreRequest_names {contained : Bool} :
    FailsWith (Names ids) (ctx.coreRequest contained) := by
  unfold Validated.coreRequest
  split
  · exact sendRequest_names hid hecho
  · exact sendRequest_names hid hecho
  · exact migrateWorkspaceRequest_names hid hecho
  · exact plainRequest_names hecho
  · exact plainRequest_names hecho
  · exact plainRequest_names hecho
  · exact plainRequest_names hecho
  · exact moveRequest_names hid hecho
  · exact focusRequest_names hid hecho
  · exact resizeRequest_names hid hecho
  · exact pointerResizeRequest_names hid hecho
  · exact toggleFloatRequest_names hid hecho
  · exact toggleOrientationRequest_names hid hecho
  · exact dragRequest_names hid hecho
  · exact dragRequest_names hid hecho
  · exact failsWith_error hecho

end

/-! ## Echoes -/

/-- The correlation id of a readable text. -/
def RequestText.correlationId (text : RequestText) : Option String :=
  text.raw.toOption.bind RawRequest.correlationId

/-- Where a text decodes to a request, the reader takes that request's id from
it as well; the two readers of one text agree. -/
def RequestText.Consistent (text : RequestText) : Prop :=
  ∀ raw request, text.raw = .ok raw → raw.request = .ok request →
    raw.correlationId = some request.correlationId

/-- Where the version is refused the id was not looked at yet; a bad one gets
out when the text of the refusal, 116 bytes without the id, is not too long. -/
def RequestDto.Leaks (request : RequestDto) : Prop :=
  request.v ≠ planContractVersion ∧ request.correlationId ≠ "" ∧
    isCorrelationId request.correlationId = false ∧
    (jsonString request.correlationId).utf8ByteSize + 116 ≤ planMaxReplyBytes

/-- The text decodes to a request of another version whose id is no good, and
short enough. -/
def RequestText.Misversioned (text : RequestText) : Prop :=
  ∃ raw request, text.length ≤ planMaxRequestBytes ∧ text.raw = .ok raw ∧
    raw.request = .ok request ∧ request.Leaks

/-- The id of a reply is none at all, or that of the text, and then it is one
a correlation may have. -/
def Echoes (text : RequestText) (id : String) : Prop :=
  id = "" ∨ text.correlationId = some id ∧ isCorrelationId id = true

section
variable {text : RequestText} {raw : RawRequest} {request : RequestDto} {ctx : Validated}
  {refusal : Refusal} {reply : PlanReply} {id : String}

/-- What is echoed of an id that may be there is none, or that id and valid. -/
theorem validCorrelationEcho_cases (correlationId : Option String) :
    validCorrelationEcho correlationId = "" ∨ ∃ id, correlationId = some id ∧
      isCorrelationId id = true ∧ validCorrelationEcho correlationId = id := by
  rcases hid : correlationId.filter isCorrelationId with _ | id
  · left
    rw [validCorrelationEcho, hid]
    rfl
  · right
    obtain ⟨hsome, hvalid⟩ := Option.filter_eq_some_iff.mp hid
    refine ⟨id, hsome, hvalid, ?_⟩
    rw [validCorrelationEcho, hid]
    rfl

theorem echoes_echo (hraw : text.raw = .ok raw) :
    Echoes text (validCorrelationEcho raw.correlationId) := by
  rcases validCorrelationEcho_cases raw.correlationId with hnone | ⟨id, hsome, hvalid, heq⟩
  · exact .inl hnone
  · right
    rw [heq, RequestText.correlationId, hraw]
    exact ⟨hsome, hvalid⟩

/-- A reply cut short keeps a good id and loses a bad one. -/
theorem echoes_oversize (h : Echoes text id) : Echoes text (oversizeReply id).correlationId := by
  rcases validCorrelationEcho_cases (some id) with hnone | ⟨id', hsome, -, heq⟩
  · exact .inl hnone
  · obtain rfl := Option.some.inj hsome
    show Echoes text (validCorrelationEcho (some id))
    rw [heq]
    exact h

theorem echoes_serializeBounded {bytes : Nat} (h : Echoes text reply.correlationId) :
    Echoes text (serializeBounded bytes reply).correlationId := by
  rcases serializeBounded_cases bytes reply with heq | heq
  · rw [heq]
    exact h
  · rw [heq]
    exact echoes_oversize h

theorem echoes_request (hreader : text.Consistent) (hraw : text.raw = .ok raw)
    (hrequest : raw.request = .ok request)
    (hvalid : isCorrelationId request.correlationId = true) :
    Echoes text request.correlationId := by
  right
  rw [RequestText.correlationId, hraw]
  exact ⟨hreader raw request hraw hrequest, hvalid⟩

theorem identity_ok {tokens : CorrelationId × OwnerId × GenerationId}
    (h : request.identity = .ok tokens) :
    request.v = planContractVersion ∧ isCorrelationId request.correlationId = true := by
  simp only [RequestDto.identity, bind_eq_ok, ensure_eq_ok, okOr_eq_ok, beq_iff_eq] at h
  obtain ⟨_, hversion, token, hcorrelation, -⟩ := h
  rw [← token_parse_some hcorrelation]
  exact ⟨hversion, token.valid_asStr⟩

/-- The refusal of another version. -/
def RequestDto.unsupportedVersion (request : RequestDto) : Refusal :=
  request.rejected "unsupported-version" "unsupported contract version"

theorem rejectedJson_bytes (correlationId kind message : String) :
    (rejectedJson correlationId kind message none).utf8ByteSize =
      (jsonString correlationId).utf8ByteSize + (jsonString kind).utf8ByteSize +
        (jsonString message).utf8ByteSize + 65 := by
  have hhead : ("\x7b\"v\":1,\"correlation_id\":" : String).utf8ByteSize = 24 := rfl
  have houtcome : (",\"outcome\":\"rejected\",\"kind\":" : String).utf8ByteSize = 29 := rfl
  have hmessage : (",\"message\":" : String).utf8ByteSize = 11 := rfl
  have hnone : ("" : String).utf8ByteSize = 0 := rfl
  have hend : ("\x7d" : String).utf8ByteSize = 1 := rfl
  unfold rejectedJson
  simp only [Option.elim_none, String.utf8ByteSize_append, hhead, houtcome, hmessage, hnone, hend]
  omega

theorem unsupportedVersion_bytes : request.unsupportedVersion.toJson.utf8ByteSize =
    (jsonString request.correlationId).utf8ByteSize + 116 := by
  have hkind : (jsonString "unsupported-version").utf8ByteSize = 21 := by decide +kernel
  have hmessage : (jsonString "unsupported contract version").utf8ByteSize = 30 := by decide +kernel
  show (rejectedJson request.correlationId "unsupported-version" "unsupported contract version"
    none).utf8ByteSize = _
  rw [rejectedJson_bytes]
  omega

/-- What stands for a long reply is short itself. -/
theorem oversizeReply_bytes (correlationId : String) :
    (oversizeReply correlationId).toJson.utf8ByteSize ≤ planMaxReplyBytes := by
  have hkind : (jsonString "reply-oversize").utf8ByteSize = 16 := by decide +kernel
  have hmessage : (jsonString "reply exceeds size bound").utf8ByteSize = 26 := by decide +kernel
  have hid : (jsonString (validCorrelationEcho (some correlationId))).utf8ByteSize ≤
      maxCorrelationLen + 2 := by
    rcases validCorrelationEcho_cases (some correlationId) with hnone | ⟨id, -, hvalid, heq⟩
    · rw [hnone]
      decide +kernel
    · rw [heq, size_jsonString (plain_of_isToken hvalid)]
      simp only [isCorrelationId, isToken, Bool.and_eq_true, decide_eq_true_eq] at hvalid
      exact Nat.add_le_add_right hvalid.1.2 2
  show (rejectedJson (validCorrelationEcho (some correlationId)) "reply-oversize"
    "reply exceeds size bound" none).utf8ByteSize ≤ planMaxReplyBytes
  rw [rejectedJson_bytes]
  unfold maxCorrelationLen at hid
  unfold planMaxReplyBytes
  omega

/-- No refusal that is sent is over the cap. -/
theorem Refusal.serialize_fits (refusal : Refusal) : ∃ sent, refusal.serialize = .refused sent ∧
    sent.toJson.utf8ByteSize ≤ planMaxReplyBytes := by
  unfold Refusal.serialize serializeBounded
  split
  · rename_i hfits
    exact ⟨refusal, rfl, hfits⟩
  · exact ⟨_, rfl, oversizeReply_bytes _⟩

/-- A refused version gets a bad id out where its text is short enough. -/
theorem echoes_unsupportedVersion (hreader : text.Consistent) (hraw : text.raw = .ok raw)
    (hrequest : raw.request = .ok request) (hversion : request.v ≠ planContractVersion) :
    Echoes text request.unsupportedVersion.serialize.correlationId ↔ ¬request.Leaks := by
  unfold Refusal.serialize serializeBounded
  rw [unsupportedVersion_bytes]
  split
  · rename_i hfits
    show Echoes text request.correlationId ↔ _
    constructor
    · rintro (hempty | ⟨-, hvalid⟩) ⟨-, hne, hinvalid, -⟩
      · exact hne hempty
      · rw [hvalid] at hinvalid
        cases hinvalid
    · intro hfine
      by_cases hempty : request.correlationId = ""
      · exact .inl hempty
      · refine echoes_request hreader hraw hrequest ?_
        by_contra hinvalid
        exact hfine ⟨hversion, hempty, by simpa using hinvalid, hfits⟩
  · rename_i hlong
    refine iff_of_true ?_ fun hleaks => hlong hleaks.2.2.2
    show Echoes text (validCorrelationEcho (some request.correlationId))
    rcases validCorrelationEcho_cases (some request.correlationId) with hnone | ⟨id, hsome, hvalid, heq⟩
    · exact .inl hnone
    · obtain rfl := Option.some.inj hsome
      rw [heq]
      exact echoes_request hreader hraw hrequest hvalid

/-- The version is looked at before the id. -/
theorem identity_fails : FailsWith (fun refusal =>
    request.v ≠ planContractVersion ∧ refusal = request.unsupportedVersion ∨
    request.v = planContractVersion ∧ (refusal.correlationId = "" ∨
      refusal.correlationId = request.correlationId ∧
        isCorrelationId request.correlationId = true)) request.identity := by
  unfold RequestDto.identity
  by_cases hversion : request.v = planContractVersion
  · have haccepted : (request.v == planContractVersion) = true := by simpa using hversion
    rw [haccepted]
    refine failsWith_ok.bind fun _ => ?_
    rcases hcorrelation : Token.parse isCorrelationId request.correlationId with _ | token
    · exact failsWith_error (.inr ⟨hversion, .inl rfl⟩)
    · have hvalid : isCorrelationId request.correlationId = true := by
        rw [← token_parse_some hcorrelation]
        exact token.valid_asStr
      refine failsWith_ok.bind fun _ => (failsWith_okOr ?_).bind fun _ =>
        (failsWith_okOr ?_).bind fun _ => failsWith_pure.guarded ?_
      · exact .inr ⟨hversion, .inr ⟨rfl, hvalid⟩⟩
      · exact .inr ⟨hversion, .inr ⟨rfl, hvalid⟩⟩
      · exact .inr ⟨hversion, .inr ⟨rfl, hvalid⟩⟩
  · have hrefused : (request.v == planContractVersion) = false := by simpa using hversion
    rw [hrefused]
    exact failsWith_error (.inl ⟨hversion, rfl⟩)

/-- A text that decodes to this request is misversioned as the request is. -/
theorem misversioned_iff (hlength : text.length ≤ planMaxRequestBytes) (hraw : text.raw = .ok raw)
    (hrequest : raw.request = .ok request) : text.Misversioned ↔ request.Leaks := by
  constructor
  · rintro ⟨raw', request', -, hraw', hrequest', hleaks⟩
    obtain rfl := Except.ok.inj (hraw.symm.trans hraw')
    obtain rfl := Except.ok.inj (hrequest.symm.trans hrequest')
    exact hleaks
  · intro hleaks
    exact ⟨raw, request, hlength, hraw, hrequest, hleaks⟩

/-- What is read is a decoded request of bounded length. -/
theorem readRequest_ok {rawCorrelationId : Option String}
    (h : readRequest text = .ok (rawCorrelationId, request)) :
    ∃ raw, text.length ≤ planMaxRequestBytes ∧ text.raw = .ok raw ∧
      raw.correlationId = rawCorrelationId ∧ raw.request = .ok request := by
  simp only [readRequest, bind_eq_ok, ensure_eq_ok, decide_eq_true_eq] at h
  obtain ⟨_, hlength, hread⟩ := h
  split at hread
  · cases hread
  · rename_i raw hraw
    split at hread
    · cases hread
    · rename_i request' hrequest
      cases hread
      exact ⟨raw, hlength, hraw, rfl, hrequest⟩

/-- A text that is not read is not misversioned, and echoed safely. -/
theorem readRequest_fails : FailsWith (fun refusal =>
    Echoes text refusal.correlationId ∧ ¬text.Misversioned) (readRequest text) := by
  unfold readRequest
  by_cases hlength : text.length ≤ planMaxRequestBytes
  · simp only [hlength, decide_true, ensure_true]
    refine failsWith_ok.bind fun _ => ?_
    split
    · rename_i error hraw
      refine failsWith_error ⟨.inl rfl, ?_⟩
      rintro ⟨raw, request, -, hraw', -⟩
      rw [hraw] at hraw'
      cases hraw'
    · rename_i raw hraw
      split
      · rename_i error hrequest
        refine failsWith_error ⟨echoes_echo hraw, ?_⟩
        rintro ⟨raw', request, -, hraw', hrequest', -⟩
        obtain rfl := Except.ok.inj (hraw.symm.trans hraw')
        rw [hrequest] at hrequest'
        cases hrequest'
      · exact failsWith_ok
  · rw [decide_eq_false hlength]
    refine failsWith_error ⟨.inl rfl, ?_⟩
    rintro ⟨_, _, hbounded, -⟩
    exact hlength hbounded

/-- What is validated is of this version, and its id may be echoed. -/
theorem validateRequest_echoes (hreader : text.Consistent) (h : validateRequest text = .ok ctx) :
    Echoes text ctx.request.correlationId ∧ Echoes text ctx.echo ∧ ¬text.Misversioned := by
  simp only [validateRequest, bind_eq_ok, pure_eq_ok, Prod.exists] at h
  obtain ⟨rawCorrelationId, request, hread, _, _, _, hidentity, _, _, -, rfl⟩ := h
  obtain ⟨raw, hlength, hraw, rfl, hrequest⟩ := readRequest_ok hread
  obtain ⟨hversion, hvalid⟩ := identity_ok hidentity
  refine ⟨echoes_request hreader hraw hrequest hvalid, echoes_echo hraw, fun hbad => ?_⟩
  exact ((misversioned_iff hlength hraw hrequest).mp hbad).1 hversion

/-- A text that does not validate is echoed safely exactly when it is not
misversioned. -/
theorem validateRequest_fails (hreader : text.Consistent) : FailsWith (fun refusal =>
    Echoes text refusal.serialize.correlationId ↔ ¬text.Misversioned) (validateRequest text) := by
  intro refusal h
  unfold validateRequest at h
  rcases hread : readRequest text with early | ⟨rawCorrelationId, request⟩
  · rw [hread] at h
    cases h
    obtain ⟨hechoes, hfine⟩ := readRequest_fails _ hread
    exact iff_of_true (echoes_serializeBounded hechoes) hfine
  · obtain ⟨raw, hlength, hraw, -, hrequest⟩ := readRequest_ok hread
    rw [misversioned_iff hlength hraw hrequest]
    rw [hread] at h
    rcases hidentity : request.identity with early | ⟨correlation, owner, generation⟩
    · simp only [bind, Except.bind, hidentity] at h
      cases h
      rcases identity_fails _ hidentity with ⟨hversion, rfl⟩ | ⟨hversion, hid⟩
      · exact echoes_unsupportedVersion hreader hraw hrequest hversion
      · refine iff_of_true (echoes_serializeBounded ?_) fun hleaks => hleaks.1 hversion
        show Echoes text refusal.correlationId
        rcases hid with hempty | ⟨heq, hvalid⟩
        · exact .inl hempty
        · rw [heq]
          exact echoes_request hreader hraw hrequest hvalid
    · obtain ⟨hversion, hvalid⟩ := identity_ok hidentity
      have hnames : Names [request.correlationId] refusal := by
        rcases hobserved : request.observation with early | _
        · simp only [bind, Except.bind, hidentity, hobserved] at h
          cases h
          exact observation_names (List.mem_singleton.mpr rfl) _ hobserved
        · simp only [bind, Except.bind, hidentity, hobserved, pure, Except.pure] at h
          cases h
      refine iff_of_true (echoes_serializeBounded ?_) fun hleaks => hleaks.1 hversion
      show Echoes text refusal.correlationId
      rw [List.mem_singleton.mp hnames]
      exact echoes_request hreader hraw hrequest hvalid

/-- A planner replies under the correlation id of the text, valid, or under
none, exactly when the text is not of another version with a bad id. -/
theorem Planner.evaluate_echoes_iff (p : Planner) (answerBytes : AnswerBytes)
    (hreader : text.Consistent) :
    Echoes text (p.evaluate answerBytes text).2.correlationId ↔ ¬text.Misversioned := by
  rcases p.evaluate_cases answerBytes text with ⟨refusal, hinvalid, heq⟩ |
    ⟨ctx, refusal, hvalid, hrefused, heq⟩ | ⟨ctx, r, hvalid, -, heq⟩
  · rw [heq]
    exact validateRequest_fails hreader refusal hinvalid
  · rw [heq]
    obtain ⟨hrequest, hecho, hfine⟩ := validateRequest_echoes hreader hvalid
    refine iff_of_true (echoes_serializeBounded ?_) hfine
    have hnames : Names [ctx.request.correlationId, ctx.echo] refusal :=
      coreRequest_names (by simp) (by simp) refusal hrefused
    show Echoes text refusal.correlationId
    rcases List.mem_pair.mp hnames with hmem | hmem
    · rw [hmem]
      exact hrequest
    · rw [hmem]
      exact hecho
  · rw [heq]
    obtain ⟨hrequest, -, hfine⟩ := validateRequest_echoes hreader hvalid
    exact iff_of_true (echoes_serializeBounded hrequest) hfine

end

namespace Planner

/-- The shown text, of another version and under no good id. -/
def misversionedText : RequestText where
  length := 512
  raw := .ok {
    correlationId := some "no id"
    request := .ok {
      v := 2
      correlationId := "no id"
      owner := "kwin"
      generation := "g-1"
      revision := 0
      fingerprint := 0
      domain := ⟨"A", "1", ⟨0, 0, 800, 600⟩, 4, 8⟩
      targetDomain := none
      targetWindows := []
      domains := none
      focusedWindow := ""
      windows := []
      command := ⟨"reconcile", "", .ok .reconcile⟩
      fixedSizePredicate := "both-axes-fixed" } }

/-- The reply goes out under that id. -/
theorem evaluate_echoes_misversioned :
    ¬Echoes misversionedText (new.evaluate shownBytes misversionedText).2.correlationId := by
  have hreader : misversionedText.Consistent := by
    intro raw request hraw hrequest
    injection hraw with hraw
    subst hraw
    injection hrequest with hrequest
    subst hrequest
    rfl
  rw [evaluate_echoes_iff new shownBytes hreader, not_not]
  exact ⟨_, _, by decide, rfl, rfl, by decide, by decide, by decide +kernel, by decide +kernel⟩

end Planner

end Wire

end PlasmaTiler
