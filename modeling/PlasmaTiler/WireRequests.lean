import PlasmaTiler.Wire

/-!
# Validation of requests

`validateRequest` looks at everything all operations share: who asks, the ids
and rectangles of the observation, the domain and, for a directional request,
the two domains and the fingerprint over them. Sends and migrations carry a
target of their own, which `sendTargetScope` and `migrateTargetScope` look
at. Every check refuses with its own text and leaves the planner alone.

The checks are in the order of the source, because the first that fails is
the one that is answered: the length of the text before it is read, version
and tokens before the observation, every window before any domain, homing and
focus before the fingerprint. An echo of the correlation id goes into each
refusal, as far as the text could be read.

What comes out (`Validated`) keeps the request as it was decoded next to the
parsed domains; the operations read their commands from it themselves.
-/

namespace PlasmaTiler

namespace Wire

/-- What passed validation. The keys of the domains are not kept apart from
them. -/
structure Validated where
  request : RequestDto
  rawCorrelationId : Option String
  owner : OwnerId
  generation : GenerationId
  correlation : CorrelationId
  domain : OutputDomain
  directionalDomains : Option (List OutputDomain)

/-! ## Reading and identity -/

/-- A text, decoded as a whole. -/
def readRequest (text : RequestText) : Except Refusal (Option String × RequestDto) := do
  ensure (decide (text.length ≤ planMaxRequestBytes))
    (.rejected "" "oversized" "request exceeds size bound")
  match text.raw with
  | .error error => .error (error.reply "")
  | .ok raw =>
    match raw.request with
    | .error error => .error (error.reply (validCorrelationEcho raw.correlationId))
    | .ok request => .ok (raw.correlationId, request)

namespace RequestDto

variable (request : RequestDto)

/-- Version, tokens and revision. -/
def identity : Except Refusal (CorrelationId × OwnerId × GenerationId) := do
  ensure (request.v == planContractVersion)
    (request.rejected "unsupported-version" "unsupported contract version")
  let correlation ← okOr (.rejected "" "correlation-invalid" "correlation id is invalid")
    (Token.parse isCorrelationId request.correlationId)
  let owner ← okOr (request.rejected "owner-invalid" "owner is invalid")
    (Token.parse isOwnerId request.owner)
  let generation ← okOr (request.rejected "generation-invalid" "generation is invalid")
    (Token.parse isGenerationId request.generation)
  ensure (decide (request.revision ≤ planMaxRevision))
    (request.rejected "revision-invalid" "revision is invalid")
  return (correlation, owner, generation)

/-! ## The observation -/

/-- The ids of the carried windows, each window once. -/
def checkObserved : List ObservedDto → List String → Except Refusal Unit
  | [], _ => .ok ()
  | entry :: rest, seen => do
    ensure (isOpaqueId entry.window) (request.invalidId "observed-window-invalid")
    ensure (isOpaqueId entry.output) (request.invalidId "observed-output-invalid")
    ensure (isOpaqueId entry.workspace) (request.invalidId "observed-workspace-invalid")
    ensure (!seen.contains entry.window) (request.invalidId "duplicate-window")
    checkObserved rest (entry.window :: seen)

/-- A carried work area with its gaps. -/
def checkArea (bounds : Rect) (gap outerGap : Int) : Except Refusal Unit := do
  ensure (Seed.validCarriedRect bounds) (request.invalidObservation "domain-bounds-invalid")
  ensure (decide (0 ≤ gap)) (request.invalidObservation "gap-low")
  ensure (decide (gap ≤ geometryMaxGap)) (request.invalidObservation "gap-high")
  ensure (decide (0 ≤ outerGap)) (request.invalidObservation "outer-gap-low")
  ensure (decide (outerGap ≤ geometryMaxGap)) (request.invalidObservation "outer-gap-high")

/-- The domain of a work area, inset by the outer gap. -/
def projectDomain (output workspace : String) (bounds : Rect) (gap outerGap : Int)
    (adjacent : BTreeMap Direction OutputId) : Except Refusal OutputDomain :=
  match insetBounds bounds outerGap with
  | .error _ => .error (request.invalidObservation "inset-exhausted")
  | .ok projected => do
    let domain : OutputDomain := ⟨⟨output⟩, ⟨workspace⟩, projected, gap, adjacent⟩
    ensure domain.validate (request.invalidObservation "domain-invalid")
    return domain

/-! ## Directional domains -/

def parseDirection (value : String) : Option Direction := parseEngineDirection value

/-- The adjacency of one domain, side by side. -/
def parseAdjacent : List (String × String) → BTreeMap Direction OutputId →
    Except Refusal (BTreeMap Direction OutputId)
  | [], adjacent => .ok adjacent
  | (key, target) :: rest, adjacent => do
    let direction ← okOr (request.invalidObservation "domain-invalid") (parseDirection key)
    ensure (isOpaqueId target) (request.invalidId "domain-output-invalid")
    ensure (!adjacent.contains direction) (request.invalidObservation "domain-invalid")
    parseAdjacent rest (adjacent.insert direction ⟨target⟩)

def parseDirectionalDomain (entry : DirectionalDomainDto) : Except Refusal OutputDomain := do
  ensure (isOpaqueId entry.output) (request.invalidId "domain-output-invalid")
  ensure (isOpaqueId entry.workspace) (request.invalidId "domain-workspace-invalid")
  checkArea request entry.bounds entry.gap entry.outerGapOrDefault
  let adjacent ← parseAdjacent request entry.adjacent.toList ∅
  projectDomain request entry.output entry.workspace entry.bounds entry.gap
    entry.outerGapOrDefault adjacent

/-- Only a focus change or a move carries domains. -/
def directionalEntries : Except Refusal (Option (List DirectionalDomainDto)) :=
  match request.domains with
  | none => .ok none
  | some entries =>
    if request.command.op == "focus" || request.command.op == "move" then .ok (some entries)
    else .error (request.invalidObservation "domain-invalid")

/-- The first entry is the carried domain, work area and gaps included. -/
def isSource (entry : DirectionalDomainDto) : Bool :=
  entry.output == request.domain.output && entry.workspace == request.domain.workspace &&
    entry.bounds == request.domain.bounds && entry.gap == request.domain.gap &&
    entry.outerGapOrDefault == request.domain.outerGap

/-- Of two domains, each names the other on opposite sides. -/
def reciprocal : List OutputDomain → Bool
  | [source, target] => [Direction.left, .right, .up, .down].any fun direction =>
    source.adjacent[direction]? == some target.id &&
      target.adjacent[oppositeDirection direction]? == some source.id
  | _ => true

def parseDirectional (entries : List DirectionalDomainDto) :
    Except Refusal (List OutputDomain) := do
  let invalid := request.invalidObservation "domain-invalid"
  ensure (!entries.isEmpty && decide (entries.length ≤ 2)) invalid
  let parsed ← entries.mapM (parseDirectionalDomain request)
  ensure (entries.head?.all (isSource request)) invalid
  ensure (decide (parsed.map OutputDomain.key).Nodup) invalid
  ensure (decide (parsed.map OutputDomain.id).Nodup) invalid
  ensure (reciprocal parsed) invalid
  return parsed

/-! ## Homing, focus and fingerprint -/

/-- The window is on a domain of the request. -/
def isHomed (directional : Option (List OutputDomain)) (entry : ObservedDto) : Bool :=
  match directional with
  | some parsed => parsed.any fun domain =>
      entry.output == domain.id.raw && entry.workspace == domain.workspace.raw
  | none => entry.output == request.domain.output && entry.workspace == request.domain.workspace

def checkWindows (directional : Option (List OutputDomain)) :
    List ObservedDto → Except Refusal Unit
  | [] => .ok ()
  | entry :: rest => do
    ensure (Seed.validCarriedRect entry.rect) (request.invalidObservation "window-rect-invalid")
    ensure (isHomed request directional entry)
      (request.rejected "cross-domain-mismatch" crossDomainMessage)
    checkWindows directional rest

/-- The focused window is carried, in a directional request on the source; a
migration may have none. -/
def checkFocus (directional : Option (List OutputDomain)) : Except Refusal Unit := do
  let invalid := request.invalidObservation "focused-not-observed"
  let migrateNoActive := request.command.op == "migrate-workspace" && request.focusedWindow.isEmpty
  ensure (migrateNoActive || request.windows.isEmpty ||
    request.windows.any fun entry => entry.window == request.focusedWindow) invalid
  ensure (directional.isNone || request.windows.any fun entry =>
    entry.window == request.focusedWindow && entry.output == request.domain.output &&
      entry.workspace == request.domain.workspace) invalid

def checkFingerprint (entries : Option (List DirectionalDomainDto)) : Except Refusal Unit :=
  ensure (entries.all fun entries => request.fingerprint ==
    directionalFingerprint entries request.focusedWindow request.windows)
    (request.invalidObservation "fingerprint-mismatch")

/-- Everything carried but the identity: the domain, and the domains of a
directional request. -/
def observation : Except Refusal (OutputDomain × Option (List OutputDomain)) := do
  ensure (isOpaqueId request.domain.output) (request.invalidId "domain-output-invalid")
  ensure (isOpaqueId request.domain.workspace) (request.invalidId "domain-workspace-invalid")
  ensure (request.focusedWindow.isEmpty || isOpaqueId request.focusedWindow)
    (request.invalidId "focused-id-invalid")
  checkObserved request request.windows []
  checkArea request request.domain.bounds request.domain.gap request.domain.outerGap
  let entries ← directionalEntries request
  let directional ← entries.mapM (parseDirectional request)
  checkWindows request directional request.windows
  checkFocus request directional
  checkFingerprint request entries
  let domain ← projectDomain request request.domain.output request.domain.workspace
    request.domain.bounds request.domain.gap request.domain.outerGap ∅
  ensure (FixedSizePredicate.parseWire request.fixedSizePredicate).isSome
    (.snapshotInvalid request.correlationId unknownValueMessage "fixed-predicate-invalid")
  return (domain, directional)

end RequestDto

def validateRequest (text : RequestText) : Except Refusal Validated := do
  let (rawCorrelationId, request) ← readRequest text
  let (correlation, owner, generation) ← request.identity
  let (domain, directionalDomains) ← request.observation
  return { request, rawCorrelationId, owner, generation, correlation, domain, directionalDomains }

/-! ## Targets -/

namespace RequestDto

variable (request : RequestDto)

/-- The carried target, with the shape of its ids. -/
def carriedTarget : Except Refusal DomainDto := do
  let target ← okOr (request.rejected "workspace-target-invalid"
    "target workspace domain is missing") request.targetDomain
  ensure (isOpaqueId target.output)
    (request.rejected "workspace-target-invalid" "target output is invalid")
  ensure (isOpaqueId target.workspace)
    (request.rejected "workspace-target-invalid" "target workspace is invalid")
  return target

/-- An output send goes to another output, a workspace send to another
workspace of the same one. -/
def checkSendTarget (target : DomainDto) (crossOutput : Bool) : Except Refusal Unit :=
  if crossOutput then
    ensure (target.output != request.domain.output)
      (request.rejected "cross-domain-mismatch" "target output equals the source output")
  else do
    ensure (target.output == request.domain.output)
      (request.rejected "cross-output" "target workspace is not on the focused output")
    ensure (target.workspace != request.domain.workspace)
      (request.rejected "unchanged-workspace" "target workspace equals the source workspace")

def checkTargetWindows (target : DomainDto) :
    List ObservedDto → List String → Except Refusal Unit
  | [], _ => .ok ()
  | entry :: rest, seen => do
    ensure (isOpaqueId entry.window) (request.invalidId "observed-window-invalid")
    ensure (isOpaqueId entry.output) (request.invalidId "observed-output-invalid")
    ensure (isOpaqueId entry.workspace) (request.invalidId "observed-workspace-invalid")
    ensure (entry.output == target.output && entry.workspace == target.workspace)
      (request.rejected "cross-domain-mismatch" crossDomainMessage)
    ensure (Seed.validCarriedRect entry.rect) (request.invalidObservation "window-rect-invalid")
    ensure (!seen.contains entry.window) (request.invalidId "duplicate-window")
    checkTargetWindows target rest (entry.window :: seen)

/-- The target of a send. -/
def sendTargetScope (crossOutput : Bool) : Except Refusal OutputDomain := do
  let target ← carriedTarget request
  checkSendTarget request target crossOutput
  checkArea request target.bounds target.gap target.outerGap
  checkTargetWindows request target request.targetWindows []
  projectDomain request target.output target.workspace target.bounds target.gap target.outerGap ∅

/-- The target of a migration: the same workspace of another output, where it
must be empty. -/
def migrateTargetScope : Except Refusal OutputDomain := do
  let target ← carriedTarget request
  ensure (target.output != request.domain.output)
    (request.rejected "cross-domain-mismatch" "target output equals the source output")
  ensure (target.workspace == request.domain.workspace)
    (request.rejected "cross-domain-mismatch" crossDomainMessage)
  ensure request.targetWindows.isEmpty (request.refused .unchanged)
  checkArea request target.bounds target.gap target.outerGap
  projectDomain request target.output target.workspace target.bounds target.gap target.outerGap ∅

end RequestDto

end Wire

end PlasmaTiler
