import PlasmaTiler.FingerprintAgreement
import PlasmaTiler.WireAccepts

/-!
# What the planner makes of the adapter's requests

Both ends check. The adapter looks an observation over before it asks for
anything, and the planner looks over what it is sent. Where the two differ, a
request is written that is bound to be refused, and the user sees nothing
happen.

An observation the adapter holds valid is not yet one the planner accepts:
the planner also insets every work area, keeps an output off its own sides,
wants what is shown on the domains it is told of, and looks at the work area
where nothing is shown. Nothing else stands between the two. Ids, rectangles,
homing, focus, the pair and its fingerprint are all looked over by the
adapter, in its own words and often in another order, and each has a lemma
here that the adapter's check gives the planner's (`Checked`, `Asks`).

`Acceptable` names the missing conditions, and `buildRequestPayload_accepted`
is the equivalence: the payload of a valid observation is accepted exactly
when they hold, the text is short enough and the predicate is known.
`requestDto_fingerprint` is the part about evidence, that the fingerprint the
adapter writes is the one the planner computes from the same request.
-/

namespace PlasmaTiler

namespace PlanAdapter

open Wire (SizeDto ObservedDto DirectionalDomainDto DomainDto CommandValue RequestDto RequestText
  ValidArea ValidEntry Placed)

section
variable {observed : PlanObserved} {snapshot : PlanSnapshot} {op : String}

/-- The entry of a snapshot shows the observed window where it was, whatever
has been added to it. -/
structure Shows (entry : PlanObservedWindow) (shown : PlanSnapshotWindow) : Prop where
  id : shown.id = entry.id
  rect : shown.rect = entry.rect
  output : shown.output = entry.output
  workspace : shown.workspace = entry.workspace

/-- The snapshot shows the whole of the observation: domain, focus, the other
domains and every window in order. Client hints are the one thing it may add
or leave out. -/
structure PlanSnapshot.Of (snapshot : PlanSnapshot) (observed : PlanObserved) : Prop where
  domainOutput : snapshot.domainOutput = observed.domainOutput
  domainWorkspace : snapshot.domainWorkspace = observed.domainWorkspace
  domainBounds : snapshot.domainBounds = observed.domainBounds
  domainGap : snapshot.domainGap = observed.domainGap
  domainOuterGap : snapshot.domainOuterGap = observed.domainOuterGap
  focusedId : snapshot.focusedId = observed.focusedId
  domains : snapshot.domains = observed.domains
  windows : List.Forall₂ Shows observed.windows snapshot.windows

theorem snapshotOf_of : (snapshotOf observed).Of observed where
  domainOutput := rfl
  domainWorkspace := rfl
  domainBounds := rfl
  domainGap := rfl
  domainOuterGap := rfl
  focusedId := rfl
  domains := rfl
  windows := by
    refine List.forall₂_map_right_iff.mpr (List.forall₂_same.mpr fun entry _ => ?_)
    exact ⟨rfl, rfl, rfl, rfl⟩

/-! ## Checks on both sides -/

theorem validCarriedRect_of {r : Rect} (h : isTargetRect r = true) : Seed.validCarriedRect r = true := by
  simp only [isTargetRect, Bool.and_eq_true, decide_eq_true_eq] at h
  simp only [Seed.validCarriedRect, Bool.and_eq_true, decide_eq_true_eq]
  simp only [Seed.geometryBound, IntRange.i32]
  omega

theorem validArea_of {bounds : Rect} {gap outerGap : Int} (hbounds : isTargetRect bounds = true)
    (hgap : isPlanGap gap = true) (houter : isPlanGap outerGap = true) :
    ValidArea bounds gap outerGap := by
  simp only [isPlanGap, Bool.and_eq_true, decide_eq_true_eq] at hgap houter
  exact ⟨validCarriedRect_of hbounds, hgap, houter⟩

theorem mem_sideNames {side : String} : side ∈ sideNames ↔ ∃ d, side = Wire.sideName d := by
  constructor
  · intro h
    simp only [sideNames, List.mem_cons, List.not_mem_nil, or_false] at h
    rcases h with rfl | rfl | rfl | rfl
    · exact ⟨.left, rfl⟩
    · exact ⟨.right, rfl⟩
    · exact ⟨.up, rfl⟩
    · exact ⟨.down, rfl⟩
  · rintro ⟨d, rfl⟩
    cases d <;> simp [sideNames, Wire.sideName]

theorem validEntry_of {entry : PlanDomain} (h : validateDomain entry = true) :
    ValidEntry (wireDomain entry) := by
  simp only [validateDomain, Bool.and_eq_true, List.all_eq_true, Prod.forall,
    Std.ExtTreeMap.mem_toList_iff_getElem?_eq_some, List.contains_eq_mem, decide_eq_true_eq] at h
  obtain ⟨⟨⟨⟨⟨houtput, hworkspace⟩, hbounds⟩, hgap⟩, houter⟩, hsides⟩ := h
  refine ⟨houtput, hworkspace, validArea_of hbounds hgap houter, fun key target hkey => ?_⟩
  obtain ⟨hside, htarget⟩ := hsides key target hkey
  exact ⟨mem_sideNames.mp hside, htarget⟩

theorem oppositeSide_sideName {d : Direction} :
    oppositeSide (Wire.sideName d) = Wire.sideName (oppositeDirection d) := by
  cases d <;> decide

theorem reciprocal_of {source target : PlanDomain} (h : reciprocalDomains [source, target] = true) :
    Wire.Reciprocal (wireDomain source) (wireDomain target) := by
  simp only [reciprocalDomains, List.any_eq_true, Bool.and_eq_true, beq_iff_eq] at h
  obtain ⟨side, hside, hsource, htarget⟩ := h
  obtain ⟨d, rfl⟩ := mem_sideNames.mp hside
  rw [oppositeSide_sideName] at htarget
  exact ⟨d, hsource, htarget⟩

/-! ## Windows -/

/-- An entry of the wire shows the observed window by its own id, at the
rectangle and in the domain where it was seen. -/
structure Carries (entry : PlanObservedWindow) (carried : ObservedDto) : Prop where
  window : carried.window = entry.id
  rect : carried.rect = entry.rect
  output : carried.output = entry.output
  workspace : carried.workspace = entry.workspace

theorem PlanSnapshot.Of.carries (h : snapshot.Of observed) :
    List.Forall₂ Carries observed.windows (snapshot.windows.map wireWindow) := by
  refine List.forall₂_map_right_iff.mpr (h.windows.imp fun entry shown hshown => ?_)
  exact ⟨hshown.id, hshown.rect, hshown.output, hshown.workspace⟩

section
variable {entries : List PlanObservedWindow} {carried : List ObservedDto}

theorem carried_ids (h : List.Forall₂ Carries entries carried) :
    carried.map ObservedDto.window = entries.map PlanObservedWindow.id := by
  induction h with
  | nil => rfl
  | cons hfirst _ ih => rw [List.map_cons, List.map_cons, hfirst.window, ih]

/-- What can be told of a window by what is carried of it. -/
theorem carried_all (h : List.Forall₂ Carries entries carried) {p : PlanObservedWindow → Prop}
    {q : ObservedDto → Prop} (hsame : ∀ entry shown, Carries entry shown → (q shown ↔ p entry)) :
    (∀ shown ∈ carried, q shown) ↔ ∀ entry ∈ entries, p entry := by
  induction h with
  | nil => simp
  | cons hfirst _ ih => rw [List.forall_mem_cons, List.forall_mem_cons, ih, hsame _ _ hfirst]

theorem carried_any (h : List.Forall₂ Carries entries carried) {p : PlanObservedWindow → Bool}
    {q : ObservedDto → Bool} (hsame : ∀ entry shown, Carries entry shown → q shown = p entry) :
    carried.any q = entries.any p := by
  induction h with
  | nil => rfl
  | cons hfirst _ ih => rw [List.any_cons, List.any_cons, ih, hsame _ _ hfirst]

end

/-- What the adapter has looked over of an observation that shows anything:
valid ids and areas, windows told apart by their ids, and the focused one
among them. -/
structure Checked (observed : PlanObserved) : Prop where
  focused : isOpaqueId observed.focusedId = true
  area : ValidArea observed.domainBounds observed.domainGap observed.domainOuterGap
  domains : observed.domains.all observed.validateDomains = true
  windows : ∀ entry ∈ observed.windows, observed.validateWindow entry = true
  ids : (observed.windows.map PlanObservedWindow.id).Nodup
  found : (observed.windows.any fun entry => entry.id == observed.focusedId) = true

theorem checked_of (h : observed.validateObserved = true) (hshown : observed.windows ≠ []) :
    Checked observed := by
  have hempty : observed.windows.isEmpty = false := by simpa using hshown
  simp only [PlanObserved.validateObserved, hempty, Bool.false_eq_true, if_false, Bool.and_eq_true,
    decide_eq_true_eq, List.all_eq_true] at h
  obtain ⟨-, ⟨⟨⟨⟨⟨⟨⟨hfocused, hbounds⟩, hgap⟩, houter⟩, hdomains⟩, hwindows⟩, hids⟩, hfound⟩, -⟩ := h
  exact ⟨hfocused, validArea_of hbounds hgap houter, hdomains, hwindows, hids, hfound⟩

/-- Nothing shown, nothing focused. -/
theorem focusedId_of_empty (h : observed.validateObserved = true) (hshown : observed.windows = []) :
    observed.focusedId = "" := by
  simp only [PlanObserved.validateObserved, hshown, List.isEmpty_nil, if_true, Bool.and_eq_true,
    beq_iff_eq] at h
  exact h.2.2

/-! ## One domain -/

variable {adapter : Adapter} {command : CommandValue} {correlation : CorrelationId}

/-- What an observation needs, for the planner to take the adapter's request
with these domains carried. -/
structure Acceptable (observed : PlanObserved) (carried : Option (List PlanDomain)) : Prop where
  area : ValidArea observed.domainBounds observed.domainGap observed.domainOuterGap
  room : HasRoom observed.domainBounds observed.domainOuterGap
  homed : carried = none → ∀ entry ∈ observed.windows, observed.isOnSource entry = true
  placed : ∀ domains, carried = some domains → observed.windows ≠ [] ∧
    ∀ entry ∈ domains, Placed (wireDomain entry)

theorem carriedDomains_op {domains : List PlanDomain} (h : carriedDomains snapshot op = some domains) :
    (op == "focus" || op == "move") = true ∧ snapshot.domains = some domains ∧ domains.length = 2 := by
  unfold carriedDomains at h
  split at h
  · rename_i hop
    obtain ⟨hdomains, hlength⟩ := Option.filter_eq_some_iff.mp h
    exact ⟨hop, hdomains, of_decide_eq_true hlength⟩
  · cases h

theorem validateWindow_checks {entry : PlanObservedWindow} (h : observed.validateWindow entry = true) :
    isOpaqueId entry.id = true ∧ observed.isHomed entry = true ∧ isTargetRect entry.rect = true ∧
      (entry.id = observed.focusedId → observed.domains.isSome → observed.isOnSource entry = true) := by
  simp only [PlanObserved.validateWindow, Bool.and_eq_true, Bool.or_eq_true, bne_iff_ne, ne_eq] at h
  obtain ⟨⟨⟨hid, hhomed⟩, hrect⟩, hfocus⟩ := h
  refine ⟨hid, hhomed, hrect, fun heq hsome => ?_⟩
  rcases hfocus with (hne | hnone) | hsource
  · exact absurd heq hne
  · rw [Option.isNone_iff_eq_none] at hnone
    rw [hnone] at hsome
    cases hsome
  · exact hsource

/-- A window is homed on opaque ids. -/
theorem isHomed_opaque (hchecked : Checked observed)
    (hdomain : isOpaqueId observed.domainOutput = true ∧ isOpaqueId observed.domainWorkspace = true)
    {entry : PlanObservedWindow} (h : observed.isHomed entry = true) :
    isOpaqueId entry.output = true ∧ isOpaqueId entry.workspace = true := by
  unfold PlanObserved.isHomed at h
  split at h
  · rename_i domains hdomains
    have hvalid := hchecked.domains
    rw [hdomains] at hvalid
    simp only [Option.all_some, PlanObserved.validateDomains, Bool.and_eq_true, List.all_eq_true] at hvalid
    obtain ⟨⟨⟨-, hall⟩, -⟩, -⟩ := hvalid
    obtain ⟨domain, hmem, hsame⟩ := List.any_eq_true.mp h
    simp only [Bool.and_eq_true, beq_iff_eq] at hsame
    have hentry := validEntry_of (hall domain hmem)
    rw [hsame.1, hsame.2]
    exact ⟨hentry.output, hentry.workspace⟩
  · simp only [Bool.and_eq_true, beq_iff_eq] at h
    rw [h.1, h.2]
    exact hdomain

theorem domain_opaque (h : observed.validateObserved = true) :
    isOpaqueId observed.domainOutput = true ∧ isOpaqueId observed.domainWorkspace = true := by
  simp only [PlanObserved.validateObserved, Bool.and_eq_true] at h
  exact h.1

theorem rects_pass (hvalid : observed.validateObserved = true) :
    ∀ entry ∈ observed.windows, Seed.validCarriedRect entry.rect = true := by
  intro entry hentry
  have hchecked := checked_of hvalid (List.ne_nil_of_mem hentry)
  exact validCarriedRect_of (validateWindow_checks (hchecked.windows entry hentry)).2.2.1

/-- The request as far as the planner's checks read it: the observed domain
and windows, the domains that are carried along, and the fingerprint that goes
with these. -/
structure Asks (observed : PlanObserved) (carried : Option (List PlanDomain))
    (request : RequestDto) : Prop where
  domain : request.domain = ⟨observed.domainOutput, observed.domainWorkspace,
    observed.domainBounds, observed.domainGap, observed.domainOuterGap⟩
  windows : List.Forall₂ Carries observed.windows request.windows
  focused : request.focusedWindow = observed.focusedId
  domains : request.domains = carried.map fun domains => domains.map wireDomain
  fingerprint : ∀ domains, carried = some domains → request.fingerprint =
    planDirectionalFingerprint domains request.focusedWindow request.windows
  predicate : (FixedSizePredicate.parseWire request.fixedSizePredicate).isSome = true

theorem requestDto_asks (hof : snapshot.Of observed) :
    Asks observed (carriedDomains snapshot command.op)
      (adapter.requestDto snapshot command correlation) where
  domain := by
    rw [← hof.domainOutput, ← hof.domainWorkspace, ← hof.domainBounds, ← hof.domainGap,
      ← hof.domainOuterGap]
    rfl
  windows := hof.carries
  focused := hof.focusedId
  domains := rfl
  fingerprint domains hdomains := by
    simp only [Adapter.requestDto, requestFingerprint, hdomains]
  predicate := by
    unfold Adapter.requestDto
    cases adapter.fixedSizePredicate with
    | bothAxes => rfl
    | eitherAxis => rfl

variable {request : RequestDto} {carried : Option (List PlanDomain)}

/-- Nothing about the carried ids is refused. -/
theorem Asks.named (h : Asks observed carried request) (hvalid : observed.validateObserved = true) :
    (isOpaqueId request.domain.output = true ∧ isOpaqueId request.domain.workspace = true ∧
      (request.focusedWindow.isEmpty || isOpaqueId request.focusedWindow) = true) ∧
    (request.checkObserved request.windows []).isOk = true := by
  rw [h.domain, h.focused, Wire.checkObserved_isOk, carried_ids h.windows,
    carried_all h.windows (p := fun entry => isOpaqueId entry.id = true ∧
      isOpaqueId entry.output = true ∧ isOpaqueId entry.workspace = true)
      fun entry shown h => by rw [h.window, h.output, h.workspace]]
  obtain ⟨houtput, hworkspace⟩ := domain_opaque hvalid
  by_cases hshown : observed.windows = []
  · rw [focusedId_of_empty hvalid hshown]
    simp [hshown, houtput, hworkspace]
  · have hchecked := checked_of hvalid hshown
    rw [hchecked.focused, Bool.or_true]
    refine ⟨⟨houtput, hworkspace, rfl⟩, fun entry hentry => ?_, hchecked.ids,
      fun _ _ => List.not_mem_nil⟩
    obtain ⟨hid, hhomed, -, -⟩ := validateWindow_checks (hchecked.windows entry hentry)
    exact ⟨hid, isHomed_opaque hchecked ⟨houtput, hworkspace⟩ hhomed⟩

/-- The focused window is shown, if anything is. -/
theorem Asks.focus (h : Asks observed carried request) (hvalid : observed.validateObserved = true) :
    (request.command.op == "migrate-workspace" && request.focusedWindow.isEmpty ||
      request.windows.isEmpty ||
      request.windows.any fun entry => entry.window == request.focusedWindow) = true := by
  by_cases hshown : observed.windows = []
  · have hnone := h.windows
    rw [hshown, List.forall₂_nil_left_iff] at hnone
    rw [hnone, List.isEmpty_nil, Bool.or_true, Bool.true_or]
  · have hany := carried_any h.windows (p := fun entry => entry.id == observed.focusedId)
      (q := fun entry => entry.window == request.focusedWindow)
      fun entry shown hsame => by rw [hsame.window, h.focused]
    rw [hany, (checked_of hvalid hshown).found, Bool.or_true]

/-- Without domains the planner wants what is shown on the source. -/
theorem Asks.single (h : Asks observed none request) (hvalid : observed.validateObserved = true) :
    request.observation.isOk = true ↔ Acceptable observed none := by
  have hread : ∀ entries directional, Wire.ReadDirectional request entries directional ↔
      entries = none ∧ directional = none := by
    intro entries directional
    unfold Wire.ReadDirectional RequestDto.directionalEntries
    rw [h.domains]
    constructor
    · rintro ⟨hentries, hdirectional⟩
      cases hentries
      cases hdirectional
      exact ⟨rfl, rfl⟩
    · rintro ⟨rfl, rfl⟩
      exact ⟨rfl, rfl⟩
  have hhomed : (request.checkWindows none request.windows).isOk = true ↔
      ∀ entry ∈ observed.windows, observed.isOnSource entry = true := by
    rw [Wire.checkWindows_isOk, carried_all h.windows (p := fun entry =>
      Seed.validCarriedRect entry.rect = true ∧ observed.isOnSource entry = true)
      fun entry shown hsame => by
        rw [hsame.rect, RequestDto.isHomed, h.domain, hsame.output, hsame.workspace,
          PlanObserved.isOnSource]]
    exact ⟨fun hall entry hentry => (hall entry hentry).2,
      fun hall entry hentry => ⟨rects_pass hvalid entry hentry, hall entry hentry⟩⟩
  have hfocus : (request.checkFocus none).isOk = true :=
    Wire.checkFocus_isOk.mpr ⟨h.focus hvalid, rfl⟩
  have hend : (∃ entries directional, Wire.ReadDirectional request entries directional ∧
      (request.checkWindows directional request.windows).isOk = true ∧
      (request.checkFocus directional).isOk = true ∧
      (request.checkFingerprint entries).isOk = true) ↔
      ∀ entry ∈ observed.windows, observed.isOnSource entry = true := by
    rw [← hhomed]
    constructor
    · rintro ⟨entries, directional, hentries, hwindows, -, -⟩
      obtain ⟨rfl, rfl⟩ := (hread entries directional).mp hentries
      exact hwindows
    · intro hwindows
      exact ⟨none, none, (hread none none).mpr ⟨rfl, rfl⟩, hwindows, hfocus, rfl⟩
  obtain ⟨hnamed, hobserved⟩ := h.named hvalid
  rw [Wire.observation_isOk, hend, h.domain]
  constructor
  · rintro ⟨-, -, harea, hhomed, hroom, -⟩
    exact ⟨harea, hroom, fun _ => hhomed, fun _ heq => by cases heq⟩
  · rintro ⟨harea, hroom, hhomed, -⟩
    rw [h.domain] at hnamed
    exact ⟨hnamed, hobserved, harea, hhomed rfl, hroom, h.predicate⟩

/-! ## Two domains -/

theorem domain_lettered {entry : PlanDomain} (h : validateDomain entry = true) : entry.Lettered := by
  have hentry := validEntry_of h
  exact ⟨(isOpaqueId_iff.mp hentry.output).2.2, (isOpaqueId_iff.mp hentry.workspace).2.2,
    fun name target hside => (isOpaqueId_iff.mp (hentry.sides name target hside).2).2.2⟩

/-- What the adapter has looked over of the two domains of a pair: the
observed domain is the source, and the two name each other from opposite
sides. -/
structure CheckedPair (observed : PlanObserved) (source target : PlanDomain) : Prop where
  carried : observed.isSource source = true
  apart : source.output ≠ target.output
  reciprocal : reciprocalDomains [source, target] = true
  each : ∀ entry ∈ [source, target], validateDomain entry = true

theorem Checked.pair (h : Checked observed) {source target : PlanDomain}
    (hdomains : observed.domains = some [source, target]) : CheckedPair observed source target := by
  have hvalid := h.domains
  rw [hdomains] at hvalid
  simp only [Option.all_some, PlanObserved.validateDomains, Bool.and_eq_true, List.all_eq_true,
    decide_eq_true_eq] at hvalid
  obtain ⟨⟨⟨⟨-, hsource⟩, heach⟩, hapart⟩, hreciprocal⟩ := hvalid
  refine ⟨hsource, fun heq => ?_, hreciprocal, heach⟩
  simp [heq] at hapart

/-- The fingerprint of the adapter is the one the planner computes. -/
theorem Asks.fingerprint_eq {domains : List PlanDomain} (h : Asks observed (some domains) request)
    (hvalid : observed.validateObserved = true) (hshown : observed.windows ≠ [])
    (hdomains : ∀ entry ∈ domains, validateDomain entry = true) :
    request.fingerprint = Wire.directionalFingerprint (domains.map wireDomain) request.focusedWindow
      request.windows := by
  have hids := (h.named hvalid).2
  rw [Wire.checkObserved_isOk] at hids
  have hwindows : ∀ entry ∈ request.windows, LetteredWindow entry := fun entry hentry =>
    ⟨(isOpaqueId_iff.mp (hids.1 entry hentry).1).2.2,
      (isOpaqueId_iff.mp (hids.1 entry hentry).2.1).2.2,
      (isOpaqueId_iff.mp (hids.1 entry hentry).2.2).2.2⟩
  have hfocused : Lettered request.focusedWindow := by
    rw [h.focused]
    exact (isOpaqueId_iff.mp (checked_of hvalid hshown).focused).2.2
  rw [h.fingerprint domains rfl]
  exact planDirectionalFingerprint_eq (fun entry hentry => domain_lettered (hdomains entry hentry))
    hfocused hwindows

/-- On the two domains that are read a window is homed as it was observed. -/
theorem homed_pair {source target : PlanDomain} {s t : OutputDomain}
    (hdomains : observed.domains = some [source, target]) (hs : Wire.ReadAs (wireDomain source) s)
    (ht : Wire.ReadAs (wireDomain target) t) {entry : PlanObservedWindow} {shown : ObservedDto}
    (hsame : Carries entry shown) :
    request.isHomed (some [s, t]) shown = observed.isHomed entry := by
  rw [PlanObserved.isHomed, hdomains, RequestDto.isHomed]
  simp only [List.any_cons, List.any_nil, hs.id, hs.workspace, ht.id, ht.workspace, hsame.output,
    hsame.workspace]
  rfl

/-- The focused window is on the source. -/
theorem Asks.focus_pair (h : Asks observed carried request) (hvalid : observed.validateObserved = true)
    (hshown : observed.windows ≠ []) (hdomains : observed.domains.isSome) :
    (request.windows.any fun entry => entry.window == request.focusedWindow &&
      entry.output == request.domain.output && entry.workspace == request.domain.workspace) = true := by
  have hchecked := checked_of hvalid hshown
  have hany := carried_any h.windows
    (p := fun entry => entry.id == observed.focusedId && observed.isOnSource entry)
    (q := fun entry => entry.window == request.focusedWindow &&
      entry.output == request.domain.output && entry.workspace == request.domain.workspace)
    fun entry shown hsame => by
      rw [hsame.window, hsame.output, hsame.workspace, h.focused, h.domain, PlanObserved.isOnSource,
        Bool.and_assoc]
  obtain ⟨entry, hentry, hfocused⟩ := List.any_eq_true.mp hchecked.found
  have hsource := (validateWindow_checks (hchecked.windows entry hentry)).2.2.2
    (beq_iff_eq.mp hfocused) hdomains
  rw [hany]
  exact List.any_eq_true.mpr ⟨entry, hentry, by rw [hfocused, hsource]; rfl⟩

/-- Of a pair the planner asks room in both areas and sides apart from their
own outputs. -/
theorem Asks.pair {source target : PlanDomain} (h : Asks observed (some [source, target]) request)
    (hop : (request.command.op == "focus" || request.command.op == "move") = true)
    (hvalid : observed.validateObserved = true) (hshown : observed.windows ≠ [])
    (hdomains : observed.domains = some [source, target]) :
    request.observation.isOk = true ↔ Acceptable observed (some [source, target]) := by
  have hchecked := checked_of hvalid hshown
  have hpair := hchecked.pair hdomains
  obtain ⟨hvalidS, hvalidT, -⟩ := List.forall_mem_cons.mp hpair.each |>.imp id List.forall_mem_cons.mp
  have hsource : request.isSource (wireDomain source) = true := by
    rw [RequestDto.isSource, h.domain]
    exact hpair.carried
  obtain ⟨s, t, hs, ht, hparsed⟩ := Wire.parseDirectional_eq_ok (validEntry_of hvalidS)
    (validEntry_of hvalidT) hsource hpair.apart (reciprocal_of hpair.reciprocal)
  have hread : ∀ entries directional, Wire.ReadDirectional request entries directional ↔
      (Placed (wireDomain source) ∧ Placed (wireDomain target)) ∧
        entries = some [wireDomain source, wireDomain target] ∧ directional = some [s, t] := by
    intro entries directional
    unfold Wire.ReadDirectional RequestDto.directionalEntries
    rw [h.domains]
    simp only [Option.map_some, List.map_cons, List.map_nil, hop, if_true]
    constructor
    · rintro ⟨hentries, hdirectional⟩
      cases hentries
      obtain ⟨parsed, hok, rfl⟩ := map_eq_ok.mp hdirectional
      obtain ⟨hplacedS, hplacedT, rfl⟩ := (hparsed parsed).mp hok
      exact ⟨⟨hplacedS, hplacedT⟩, rfl, rfl⟩
    · rintro ⟨⟨hplacedS, hplacedT⟩, rfl, rfl⟩
      exact ⟨rfl, map_eq_ok.mpr ⟨_, (hparsed _).mpr ⟨hplacedS, hplacedT, rfl⟩, rfl⟩⟩
  have hwindows : (request.checkWindows (some [s, t]) request.windows).isOk = true := by
    have hall : ∀ entry ∈ observed.windows,
        Seed.validCarriedRect entry.rect = true ∧ observed.isHomed entry = true := fun entry hentry =>
      ⟨rects_pass hvalid entry hentry, (validateWindow_checks (hchecked.windows entry hentry)).2.1⟩
    have hsame : ∀ entry shown, Carries entry shown →
        ((Seed.validCarriedRect shown.rect = true ∧
          request.isHomed (some [s, t]) shown = true) ↔
        Seed.validCarriedRect entry.rect = true ∧ observed.isHomed entry = true) := by
      intro entry shown hcarries
      rw [hcarries.rect, homed_pair hdomains hs ht hcarries]
    exact Wire.checkWindows_isOk.mpr ((carried_all h.windows hsame).mpr hall)
  have hfocus : (request.checkFocus (some [s, t])).isOk = true := by
    have hsome : observed.domains.isSome = true := by rw [hdomains]; rfl
    exact Wire.checkFocus_isOk.mpr ⟨h.focus hvalid, h.focus_pair hvalid hshown hsome⟩
  have hfingerprint : (request.checkFingerprint
      (some [wireDomain source, wireDomain target])).isOk = true := by
    rw [RequestDto.checkFingerprint, isOk_ensure, Option.all_some,
      h.fingerprint_eq hvalid hshown hpair.each, List.map_cons, List.map_cons, List.map_nil,
      beq_self_eq_true]
  obtain ⟨hnamed, hobserved⟩ := h.named hvalid
  rw [Wire.observation_isOk]
  constructor
  · rintro ⟨-, -, harea, ⟨entries, directional, hentries, -⟩, hroom, -⟩
    obtain ⟨⟨hplacedS, hplacedT⟩, -, -⟩ := (hread entries directional).mp hentries
    rw [h.domain] at harea hroom
    refine ⟨harea, hroom, (fun heq => by cases heq), ?_⟩
    rintro domains ⟨⟩
    refine ⟨hshown, List.forall_mem_cons.mpr ⟨hplacedS, List.forall_mem_cons.mpr ⟨hplacedT, ?_⟩⟩⟩
    exact List.forall_mem_nil _
  · rintro ⟨harea, hroom, -, hplaced⟩
    obtain ⟨-, hboth⟩ := hplaced _ rfl
    obtain ⟨hplacedS, hplacedT, -⟩ := List.forall_mem_cons.mp hboth |>.imp id List.forall_mem_cons.mp
    refine ⟨hnamed, hobserved, ?_, ⟨_, _, (hread _ _).mpr ⟨⟨hplacedS, hplacedT⟩, rfl, rfl⟩,
      hwindows, hfocus, hfingerprint⟩, ?_, h.predicate⟩
    · rw [h.domain]
      exact harea
    · rw [h.domain]
      exact hroom

/-- The pair a request carries is one the adapter has looked over. -/
theorem carriedDomains_checked {domains : List PlanDomain} (hvalid : observed.validateObserved = true)
    (hof : snapshot.Of observed) (hshown : observed.windows ≠ [])
    (hcarried : carriedDomains snapshot op = some domains) :
    ∀ entry ∈ domains, validateDomain entry = true := by
  obtain ⟨-, hdomains, hlength⟩ := carriedDomains_op hcarried
  obtain ⟨source, target, rfl⟩ := List.length_eq_two.mp hlength
  exact ((checked_of hvalid hshown).pair (hof.domains ▸ hdomains)).each

/-- Whatever the command and the hints, a request that carries domains carries
the fingerprint the planner computes of it. -/
theorem requestDto_fingerprint {entries : List DirectionalDomainDto}
    (hvalid : observed.validateObserved = true) (hof : snapshot.Of observed)
    (hshown : observed.windows ≠ [])
    (hentries : (adapter.requestDto snapshot command correlation).domains = some entries) :
    (adapter.requestDto snapshot command correlation).fingerprint =
      Wire.directionalFingerprint entries
        (adapter.requestDto snapshot command correlation).focusedWindow
        (adapter.requestDto snapshot command correlation).windows := by
  have hasks : Asks observed (carriedDomains snapshot command.op)
      (adapter.requestDto snapshot command correlation) := requestDto_asks hof
  rcases hcarried : carriedDomains snapshot command.op with _ | domains
  · rw [hasks.domains, hcarried] at hentries
    cases hentries
  · rw [hasks.domains, hcarried] at hentries
    rw [hcarried] at hasks
    cases hentries
    exact hasks.fingerprint_eq hvalid hshown (carriedDomains_checked hvalid hof hshown hcarried)

end

namespace Sample

def adapter : Adapter where
  owner := PlasmaTiler.Sample.owner
  generation := PlasmaTiler.Sample.generation
  fixedSizePredicate := .bothAxes
  stringify _ := 1024

/-- Two outputs side by side, a window on each. -/
def twoOutputs : PlanObserved where
  domainOutput := "DP-1"
  domainWorkspace := "1"
  domainBounds := ⟨0, 0, 1920, 1080⟩
  domainGap := 4
  domainOuterGap := 8
  focusedId := "u"
  activeExcluded := none
  domains := some [⟨"DP-1", "1", ⟨0, 0, 1920, 1080⟩, 4, 8, .ofList [("right", "DP-2")]⟩,
    ⟨"DP-2", "1", ⟨1920, 0, 1920, 1080⟩, 4, 8, .ofList [("left", "DP-1")]⟩]
  windows := [⟨"u", ⟨8, 8, 100, 100⟩, "DP-1", "1", false, false, none, none⟩,
    ⟨"v", ⟨1928, 8, 100, 100⟩, "DP-2", "1", false, false, some true, none⟩]
  fingerprint := "f"

def moveRight : CommandValue :=
  ⟨"move", "u", .ok (.move "u" "right" true "group-with-neighbor")⟩

end Sample

theorem twoOutputs_valid : Sample.twoOutputs.validateObserved = true := by decide +kernel

/-- A move over a pair of outputs with a window on each. -/
theorem requestDto_fingerprint_pair :
    (Sample.adapter.requestDto (snapshotOf Sample.twoOutputs) Sample.moveRight
      PlasmaTiler.Sample.correlationId).fingerprint =
    Wire.directionalFingerprint ((Sample.twoOutputs.domains.getD []).map wireDomain) "u"
      ((snapshotOf Sample.twoOutputs).windows.map wireWindow) := by
  have hshown : Sample.twoOutputs.windows ≠ [] := by simp [Sample.twoOutputs]
  exact requestDto_fingerprint twoOutputs_valid snapshotOf_of hshown rfl

end PlanAdapter

end PlasmaTiler
