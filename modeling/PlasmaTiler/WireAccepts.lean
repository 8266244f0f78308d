import Mathlib.Data.List.Perm.Subperm
import PlasmaTiler.Failures
import PlasmaTiler.WireValid

/-!
# What the wire accepts

The checks of the planner on an observation, each as an iff. A scan of a list
that stops at the first failure succeeds exactly when every entry passes and
no id is seen twice; a chain of guards succeeds exactly when all of them
hold. The lemmas go by induction on the list or along the chain, and leave
the conditions in the words of the source.

They are stated for acceptance rather than for failure, since the result they
serve is an equivalence: the two directions use the same lemmas.
-/

namespace PlasmaTiler

/-- A work area keeps some room inside its outer gap, along both axes; the
check of the wire asks for it. -/
def HasRoom (bounds : Rect) (outerGap : Int) : Prop :=
  2 * outerGap < bounds.w ∧ 2 * outerGap < bounds.h

instance (bounds : Rect) (outerGap : Int) : Decidable (HasRoom bounds outerGap) :=
  inferInstanceAs (Decidable (_ ∧ _))

namespace Wire

section
variable {request : RequestDto}

/-! ## Windows -/

theorem checkObserved_isOk {entries : List ObservedDto} {seen : List String} :
    (request.checkObserved entries seen).isOk = true ↔
      (∀ entry ∈ entries, isOpaqueId entry.window = true ∧ isOpaqueId entry.output = true ∧
        isOpaqueId entry.workspace = true) ∧
      (entries.map ObservedDto.window).Nodup ∧ ∀ entry ∈ entries, entry.window ∉ seen := by
  induction entries generalizing seen with
  | nil => simp [RequestDto.checkObserved]
  | cons first rest ih =>
    rw [List.forall_mem_cons, List.forall_mem_cons, List.map_cons, List.nodup_cons]
    simp only [RequestDto.checkObserved, isOk_check, isOk_ensure, ih, List.mem_map, List.mem_cons,
      not_or, Bool.not_eq_true', List.contains_eq_mem, decide_eq_false_iff_not]
    constructor
    · rintro ⟨hwindow, houtput, hworkspace, hseen, hids, hnodup, hrest⟩
      refine ⟨⟨⟨hwindow, houtput, hworkspace⟩, hids⟩, ⟨?_, hnodup⟩, hseen,
        fun entry hentry => (hrest entry hentry).2⟩
      rintro ⟨entry, hentry, heq⟩
      exact (hrest entry hentry).1 heq
    · rintro ⟨⟨⟨hwindow, houtput, hworkspace⟩, hids⟩, ⟨hfirst, hnodup⟩, hseen, hrest⟩
      exact ⟨hwindow, houtput, hworkspace, hseen, hids, hnodup, fun entry hentry =>
        ⟨fun heq => hfirst ⟨entry, hentry, heq⟩, hrest entry hentry⟩⟩

theorem checkWindows_isOk {directional : Option (List OutputDomain)} {entries : List ObservedDto} :
    (request.checkWindows directional entries).isOk = true ↔
      ∀ entry ∈ entries, Seed.validCarriedRect entry.rect = true ∧
        request.isHomed directional entry = true := by
  induction entries with
  | nil => simp [RequestDto.checkWindows]
  | cons first rest ih =>
    simp only [RequestDto.checkWindows, isOk_check, isOk_ensure, ih, List.forall_mem_cons, and_assoc]

/-! ## Areas -/

/-- The numbers of a carried area are those of a rectangle of the wire, and
both gaps are between none and the greatest. -/
structure ValidArea (bounds : Rect) (gap outerGap : Int) : Prop where
  bounds : Seed.validCarriedRect bounds = true
  gap : 0 ≤ gap ∧ gap ≤ geometryMaxGap
  outerGap : 0 ≤ outerGap ∧ outerGap ≤ geometryMaxGap

theorem checkArea_isOk {bounds : Rect} {gap outerGap : Int} :
    (request.checkArea bounds gap outerGap).isOk = true ↔ ValidArea bounds gap outerGap := by
  simp only [RequestDto.checkArea, isOk_check, isOk_ensure, decide_eq_true_eq]
  constructor
  · rintro ⟨hbounds, hlow, hhigh, houterLow, houterHigh⟩
    exact ⟨hbounds, ⟨hlow, hhigh⟩, houterLow, houterHigh⟩
  · rintro ⟨hbounds, ⟨hlow, hhigh⟩, houterLow, houterHigh⟩
    exact ⟨hbounds, hlow, hhigh, houterLow, houterHigh⟩

def inset (bounds : Rect) (outerGap : Int) : Rect :=
  ⟨bounds.x + outerGap, bounds.y + outerGap, bounds.w - outerGap * 2, bounds.h - outerGap * 2⟩

/-- What is left inside the outer gap is a rectangle of its own. -/
theorem validRect_inset {bounds : Rect} {gap outerGap : Int} (h : ValidArea bounds gap outerGap)
    (hroom : HasRoom bounds outerGap) : validRect (inset bounds outerGap) = true := by
  obtain ⟨hbounds, -, hlow, hhigh⟩ := h
  obtain ⟨hwide, htall⟩ := hroom
  simp only [Seed.validCarriedRect, Bool.and_eq_true, decide_eq_true_eq] at hbounds
  simp only [Seed.geometryBound, geometryMaxGap] at hbounds hhigh
  simp only [validRect, Bool.and_eq_true, decide_eq_true_eq, IntRange.isSome_checkedAdd]
  simp only [inset, IntRange.i32]
  omega

/-- Within the bounds of the wire an inset fails for want of room only. -/
theorem ValidArea.insetBounds_eq {bounds : Rect} {gap outerGap : Int}
    (h : ValidArea bounds gap outerGap) : insetBounds bounds outerGap =
      if HasRoom bounds outerGap then .ok (inset bounds outerGap)
      else .error ⟨"outer gap exhausts bounds"⟩ := by
  have hfits : HasRoom bounds outerGap ↔ outerGap * 2 < bounds.w ∧ outerGap * 2 < bounds.h := by
    unfold HasRoom
    omega
  obtain ⟨hlow, hhigh⟩ := h.outerGap
  have hbounds := h.bounds
  simp only [Seed.validCarriedRect, Bool.and_eq_true, decide_eq_true_eq] at hbounds
  simp only [Seed.geometryBound, geometryMaxGap] at hbounds hhigh
  have hdoubled : IntRange.i64.check (outerGap * 2) = some (outerGap * 2) :=
    IntRange.check_eq_some.mpr ⟨rfl, by simp only [IntRange.i64]; omega⟩
  have hrange : ∀ n : Int, -32768 ≤ n → n ≤ 32768 → IntRange.i32.check n = some n := by
    intro n hn hn'
    exact IntRange.check_eq_some.mpr ⟨rfl, by simp only [IntRange.i32]; omega⟩
  unfold insetBounds
  simp only [decide_eq_true hlow, hdoubled, ensure_true, okOr_some, ok_bind]
  by_cases hroom : HasRoom bounds outerGap
  · have hvalid := validRect_inset h hroom
    have hsides := hfits.mp hroom
    unfold inset at hvalid
    simp only [IntRange.checkedAdd, hrange bounds.x (by omega) (by omega),
      hrange bounds.y (by omega) (by omega), hrange outerGap (by omega) (by omega),
      hrange (bounds.x + outerGap) (by omega) (by omega),
      hrange (bounds.y + outerGap) (by omega) (by omega),
      hrange (bounds.w - outerGap * 2) (by omega) (by omega),
      hrange (bounds.h - outerGap * 2) (by omega) (by omega), Option.bind_some, okOr_some, ok_bind,
      decide_eq_true hsides, ensure_true, hvalid, if_pos hroom]
    rfl
  · rw [if_neg hroom, decide_eq_false fun h => hroom (hfits.mpr h)]
    rfl

/-! ## Domains -/

theorem directions_size {adjacent : BTreeMap Direction OutputId} : adjacent.size ≤ 4 := by
  have hsub : adjacent.keys ⊆ [Direction.left, .right, .up, .down] := fun d _ => by
    cases d <;> simp
  have hlength := (Std.ExtTreeMap.nodup_keys.subperm hsub).length_le
  rwa [Std.ExtTreeMap.length_keys] at hlength

/-- A domain with room is what its work area leaves of it, and valid when its
sides name other outputs. -/
theorem projectDomain_eq_ok {output workspace : String} {bounds : Rect} {gap outerGap : Int}
    {adjacent : BTreeMap Direction OutputId} {domain : OutputDomain}
    (harea : ValidArea bounds gap outerGap) (houtput : output.isEmpty = false)
    (hworkspace : workspace.isEmpty = false) :
    request.projectDomain output workspace bounds gap outerGap adjacent = .ok domain ↔
      HasRoom bounds outerGap ∧
      (∀ (d : Direction) (target : OutputId), adjacent[d]? = some target →
        target.isEmpty = false ∧ target ≠ ⟨output⟩) ∧
      ⟨⟨output⟩, ⟨workspace⟩, inset bounds outerGap, gap, adjacent⟩ = domain := by
  unfold RequestDto.projectDomain
  rw [harea.insetBounds_eq]
  by_cases hroom : HasRoom bounds outerGap
  · have hvalid := validRect_inset harea hroom
    have hsides : ((values adjacent).all fun target => !target.isEmpty && target != ⟨output⟩) = true ↔
        ∀ (d : Direction) (target : OutputId), adjacent[d]? = some target →
          target.isEmpty = false ∧ target ≠ ⟨output⟩ := by
      simp only [List.all_eq_true, mem_values, Bool.and_eq_true, Bool.not_eq_true', bne_iff_ne]
      constructor
      · intro h d target hd
        exact h target ⟨d, hd⟩
      · rintro h target ⟨d, hd⟩
        exact h d target hd
    have hvalidate : OutputDomain.validate
        ⟨⟨output⟩, ⟨workspace⟩, inset bounds outerGap, gap, adjacent⟩ = true ↔
        ∀ (d : Direction) (target : OutputId), adjacent[d]? = some target →
          target.isEmpty = false ∧ target ≠ ⟨output⟩ := by
      simp only [validRect, Bool.and_eq_true] at hvalid
      obtain ⟨⟨⟨hw, hh⟩, hx⟩, hy⟩ := hvalid
      have hout : (⟨output⟩ : OutputId).isEmpty = false := houtput
      have hspace : (⟨workspace⟩ : WorkspaceId).isEmpty = false := hworkspace
      rw [← hsides]
      simp only [OutputDomain.validate, hw, hh, hx, hy, decide_eq_true harea.gap.1,
        decide_eq_true directions_size, hout, hspace, Bool.not_false, Bool.true_and]
    rw [if_pos hroom]
    simp only [bind_eq_ok, ensure_eq_ok, pure_eq_ok, hvalidate, hroom, true_and]
    constructor
    · rintro ⟨_, hapart, heq⟩
      exact ⟨hapart, heq⟩
    · rintro ⟨hapart, heq⟩
      exact ⟨(), hapart, heq⟩
  · rw [if_neg hroom]
    simp [hroom]

/-! ## Sides -/

def sideName : Direction → String
  | .left => "left"
  | .right => "right"
  | .up => "up"
  | .down => "down"

theorem parseDirection_eq_some {side : String} {d : Direction} :
    RequestDto.parseDirection side = some d ↔ side = sideName d := by
  constructor
  · intro h
    unfold RequestDto.parseDirection parseEngineDirection at h
    split at h
    · cases h
      rfl
    · cases h
      rfl
    · cases h
      rfl
    · cases h
      rfl
    · cases h
  · rintro rfl
    cases d <;> rfl

theorem sideName_inj {d d' : Direction} (h : sideName d = sideName d') : d = d' :=
  Option.some.inj ((parseDirection_eq_some.mpr rfl).symm.trans (parseDirection_eq_some.mpr h))

/-- Known sides, each once, are read one by one: no side is unknown, repeated
or names an invalid id. By induction along the sides. -/
theorem parseAdjacent_ok {sides : List (String × String)} {adjacent : BTreeMap Direction OutputId}
    (hsides : ∀ side ∈ sides, (∃ d, side.1 = sideName d) ∧ isOpaqueId side.2 = true)
    (hnodup : (sides.map Prod.fst).Nodup)
    (hfresh : ∀ side ∈ sides, ∀ d, side.1 = sideName d → d ∉ adjacent) :
    ∃ parsed, request.parseAdjacent sides adjacent = .ok parsed ∧
      ∀ (d : Direction) (target : OutputId), parsed[d]? = some target ↔
        adjacent[d]? = some target ∨ (sideName d, target.raw) ∈ sides := by
  induction sides generalizing adjacent with
  | nil => exact ⟨adjacent, rfl, fun d target => by simp⟩
  | cons side rest ih =>
    obtain ⟨key, raw⟩ := side
    obtain ⟨⟨⟨d, hkey⟩, hopaque⟩, hrest⟩ := List.forall_mem_cons.mp hsides
    obtain ⟨hfirst, hnodup⟩ := List.nodup_cons.mp hnodup
    have hnew : adjacent.contains d = false :=
      contains_eq_false.mpr (hfresh _ List.mem_cons_self d hkey)
    have hlater : ∀ side ∈ rest, ∀ d', side.1 = sideName d' → d' ∉ adjacent.insert d ⟨raw⟩ := by
      intro side hside d' hd' hmem
      obtain ⟨target, hlookup⟩ := mem_iff_lookup.mp hmem
      rw [lookup_insert] at hlookup
      split at hlookup
      · rename_i heq
        refine hfirst (List.mem_map.mpr ⟨side, hside, ?_⟩)
        rw [hd', ← heq]
        exact hkey.symm
      · exact hfresh side (List.mem_cons_of_mem _ hside) d' hd' (mem_iff_lookup.mpr ⟨target, hlookup⟩)
    obtain ⟨parsed, hparsed, hlookup⟩ := ih hrest hnodup hlater
    refine ⟨parsed, ?_, fun d' target => ?_⟩
    · simp only [RequestDto.parseAdjacent, parseDirection_eq_some.mpr hkey, okOr_some, hopaque,
        ok_bind, hnew, Bool.not_false, ensure_true]
      exact hparsed
    · rw [hlookup, lookup_insert, List.mem_cons, Prod.mk.injEq]
      split
      · rename_i heq
        subst heq
        have hnone : adjacent[d]? ≠ some target := fun hsome =>
          hfresh _ List.mem_cons_self d hkey (mem_iff_lookup.mpr ⟨target, hsome⟩)
        have hrest : (sideName d, target.raw) ∉ rest := fun hmem =>
          hfirst (List.mem_map.mpr ⟨_, hmem, hkey.symm⟩)
        simp [hnone, hrest, show key = sideName d from hkey, Id.ext_iff, eq_comm]
      · rename_i hne
        have hkeys : sideName d' ≠ key := fun heq => hne (sideName_inj (hkey.symm.trans heq.symm))
        simp [hkeys]

/-- The ids, numbers and sides of a carried domain are what the wire accepts:
opaque ids, a valid area, and sides under the names of directions. -/
structure ValidEntry (entry : DirectionalDomainDto) : Prop where
  output : isOpaqueId entry.output = true
  workspace : isOpaqueId entry.workspace = true
  area : ValidArea entry.bounds entry.gap entry.outerGapOrDefault
  sides : ∀ key target : String, entry.adjacent[key]? = some target →
    (∃ d, key = sideName d) ∧ isOpaqueId target = true

/-- The domain has room inside its outer gap, and on none of its sides it
names its own output. -/
structure Placed (entry : DirectionalDomainDto) : Prop where
  room : HasRoom entry.bounds entry.outerGapOrDefault
  apart : ∀ key : String, entry.adjacent[key]? ≠ some entry.output

/-- The domain that is read of a carried one: the same output and workspace,
and in each direction what its side names. -/
structure ReadAs (entry : DirectionalDomainDto) (domain : OutputDomain) : Prop where
  id : domain.id = ⟨entry.output⟩
  workspace : domain.workspace = ⟨entry.workspace⟩
  adjacent : ∀ (d : Direction) (target : OutputId), domain.adjacent[d]? = some target ↔
    entry.adjacent[sideName d]? = some target.raw

theorem isOpaqueId_named {value : String} (h : isOpaqueId value = true) : value.isEmpty = false :=
  (isOpaqueId_iff.mp h).1

/-- A valid entry is refused only for want of room or for a side of its own;
what is read of it does not depend on these. -/
theorem parseDirectionalDomain_eq_ok {entry : DirectionalDomainDto} (h : ValidEntry entry) :
    ∃ read, ReadAs entry read ∧ ∀ domain,
      request.parseDirectionalDomain entry = .ok domain ↔ Placed entry ∧ read = domain := by
  have hsides : ∀ side ∈ entry.adjacent.toList,
      (∃ d, side.1 = sideName d) ∧ isOpaqueId side.2 = true := by
    rintro ⟨key, target⟩ hside
    exact h.sides key target (Std.ExtTreeMap.mem_toList_iff_getElem?_eq_some.mp hside)
  have hnodup : (entry.adjacent.toList.map Prod.fst).Nodup := by
    rw [Std.ExtTreeMap.map_fst_toList_eq_keys]
    exact Std.ExtTreeMap.nodup_keys
  obtain ⟨adjacent, hparsed, hlookup⟩ := @parseAdjacent_ok request entry.adjacent.toList ∅ hsides
    hnodup fun _ _ _ _ => Std.ExtTreeMap.not_mem_empty
  have hread : ∀ (d : Direction) (target : OutputId), adjacent[d]? = some target ↔
      entry.adjacent[sideName d]? = some target.raw := by
    intro d target
    rw [hlookup, Std.ExtTreeMap.mem_toList_iff_getElem?_eq_some]
    simp
  have hapart : (∀ (d : Direction) (target : OutputId), adjacent[d]? = some target →
      target.isEmpty = false ∧ target ≠ ⟨entry.output⟩) ↔
      ∀ key : String, entry.adjacent[key]? ≠ some entry.output := by
    constructor
    · intro hd key hkey
      obtain ⟨⟨d, rfl⟩, -⟩ := h.sides key entry.output hkey
      exact (hd d ⟨entry.output⟩ ((hread d _).mpr hkey)).2 rfl
    · intro hkeys d target hd
      rw [hread] at hd
      refine ⟨isOpaqueId_named (h.sides _ _ hd).2, ?_⟩
      rintro rfl
      exact hkeys _ hd
  refine ⟨⟨⟨entry.output⟩, ⟨entry.workspace⟩, inset entry.bounds entry.outerGapOrDefault, entry.gap,
    adjacent⟩, ⟨rfl, rfl, hread⟩, fun domain => ?_⟩
  have hchecked : (request.checkArea entry.bounds entry.gap entry.outerGapOrDefault).isOk = true :=
    checkArea_isOk.mpr h.area
  obtain ⟨_, harea⟩ := isOk_iff.mp hchecked
  simp only [RequestDto.parseDirectionalDomain, h.output, h.workspace, ensure_true, ok_bind, harea,
    hparsed, projectDomain_eq_ok h.area (isOpaqueId_named h.output) (isOpaqueId_named h.workspace),
    hapart]
  constructor
  · rintro ⟨hroom, hkeys, heq⟩
    exact ⟨⟨hroom, hkeys⟩, heq⟩
  · rintro ⟨⟨hroom, hkeys⟩, heq⟩
    exact ⟨hroom, hkeys, heq⟩

/-- Two entries that name each other on opposite sides, so what crosses from
one to the other can cross back. -/
def Reciprocal (source target : DirectionalDomainDto) : Prop :=
  ∃ d, source.adjacent[sideName d]? = some target.output ∧
    target.adjacent[sideName (oppositeDirection d)]? = some source.output

theorem reciprocal_iff {source target : DirectionalDomainDto} {s t : OutputDomain}
    (hs : ReadAs source s) (ht : ReadAs target t) :
    RequestDto.reciprocal [s, t] = true ↔ Reciprocal source target := by
  have hside : ∀ d, (s.adjacent[d]? == some t.id &&
      t.adjacent[oppositeDirection d]? == some s.id) = true ↔
      source.adjacent[sideName d]? = some target.output ∧
        target.adjacent[sideName (oppositeDirection d)]? = some source.output := by
    intro d
    rw [Bool.and_eq_true, beq_iff_eq, beq_iff_eq, hs.adjacent, ht.adjacent, hs.id, ht.id]
  unfold RequestDto.reciprocal
  simp only [List.any_eq_true, hside]
  constructor
  · rintro ⟨d, -, h⟩
    exact ⟨d, h⟩
  · rintro ⟨d, h⟩
    exact ⟨d, by cases d <;> simp, h⟩

/-- A reciprocal pair over distinct outputs, the carried domain first, is read
where both of its domains are. -/
theorem parseDirectional_eq_ok {source target : DirectionalDomainDto} (hs : ValidEntry source)
    (ht : ValidEntry target) (hsource : request.isSource source = true)
    (houtputs : source.output ≠ target.output) (hreciprocal : Reciprocal source target) :
    ∃ s t, ReadAs source s ∧ ReadAs target t ∧ ∀ parsed,
      request.parseDirectional [source, target] = .ok parsed ↔
        Placed source ∧ Placed target ∧ [s, t] = parsed := by
  obtain ⟨s, hreadS, hokS⟩ := @parseDirectionalDomain_eq_ok request source hs
  obtain ⟨t, hreadT, hokT⟩ := @parseDirectionalDomain_eq_ok request target ht
  refine ⟨s, t, hreadS, hreadT, fun parsed => ?_⟩
  have hids : s.id ≠ t.id := by
    rw [hreadS.id, hreadT.id]
    exact fun h => houtputs (congrArg Id.raw h)
  have hkeys : s.key ≠ t.key := fun h => hids (congrArg DomainKey.output h)
  have hpair : RequestDto.reciprocal [s, t] = true :=
    (reciprocal_iff hreadS hreadT).mpr hreciprocal
  have hmap : ∀ {read : List OutputDomain},
      [source, target].mapM request.parseDirectionalDomain = .ok read ↔
        Placed source ∧ Placed target ∧ [s, t] = read := by
    intro read
    simp only [List.mapM_cons, List.mapM_nil, bind_eq_ok, pure_eq_ok, hokS, hokT]
    constructor
    · rintro ⟨_, ⟨hplacedS, rfl⟩, _, ⟨_, ⟨hplacedT, rfl⟩, _, rfl, rfl⟩, rfl⟩
      exact ⟨hplacedS, hplacedT, rfl⟩
    · rintro ⟨hplacedS, hplacedT, rfl⟩
      exact ⟨s, ⟨hplacedS, rfl⟩, [t], ⟨t, ⟨hplacedT, rfl⟩, [], rfl, rfl⟩, rfl⟩
  simp only [RequestDto.parseDirectional, bind_eq_ok, ensure_eq_ok, pure_eq_ok, hmap]
  constructor
  · rintro ⟨_, -, _, ⟨hplacedS, hplacedT, rfl⟩, _, -, _, -, _, -, _, -, rfl⟩
    exact ⟨hplacedS, hplacedT, rfl⟩
  · rintro ⟨hplacedS, hplacedT, rfl⟩
    exact ⟨(), rfl, _, ⟨hplacedS, hplacedT, rfl⟩, (), by simpa using hsource, (), by simp [hkeys],
      (), by simp [hids], (), hpair, rfl⟩

/-! ## The observation -/

theorem checkFocus_isOk {directional : Option (List OutputDomain)} :
    (request.checkFocus directional).isOk = true ↔
      ((request.command.op == "migrate-workspace" && request.focusedWindow.isEmpty ||
          request.windows.isEmpty ||
          request.windows.any fun entry => entry.window == request.focusedWindow) = true) ∧
        ((directional.isNone || request.windows.any fun entry =>
          entry.window == request.focusedWindow && entry.output == request.domain.output &&
            entry.workspace == request.domain.workspace) = true) := by
  simp only [RequestDto.checkFocus, isOk_check, isOk_ensure]

/-- The domains a request carries, and what is read of them. A request that
carries none reads none. -/
def ReadDirectional (request : RequestDto) (entries : Option (List DirectionalDomainDto))
    (directional : Option (List OutputDomain)) : Prop :=
  request.directionalEntries = .ok entries ∧
    entries.mapM request.parseDirectional = .ok directional

/-- An observation passes when everything carried does, the work area has room
and the predicate is known. -/
theorem observation_isOk : request.observation.isOk = true ↔
    (isOpaqueId request.domain.output = true ∧ isOpaqueId request.domain.workspace = true ∧
      (request.focusedWindow.isEmpty || isOpaqueId request.focusedWindow) = true) ∧
    (request.checkObserved request.windows []).isOk = true ∧
    ValidArea request.domain.bounds request.domain.gap request.domain.outerGap ∧
    (∃ entries directional, ReadDirectional request entries directional ∧
      (request.checkWindows directional request.windows).isOk = true ∧
      (request.checkFocus directional).isOk = true ∧
      (request.checkFingerprint entries).isOk = true) ∧
    HasRoom request.domain.bounds request.domain.outerGap ∧
    (FixedSizePredicate.parseWire request.fixedSizePredicate).isSome = true := by
  unfold RequestDto.observation
  rw [isOk_check, isOk_check, isOk_check, isOk_check, isOk_check, isOk_bind, isOk_ensure,
    isOk_ensure, isOk_ensure, checkArea_isOk]
  have htail : isOpaqueId request.domain.output = true → isOpaqueId request.domain.workspace = true →
      ValidArea request.domain.bounds request.domain.gap request.domain.outerGap →
      ∀ directional : Option (List OutputDomain), (do
        let domain ← request.projectDomain request.domain.output request.domain.workspace
          request.domain.bounds request.domain.gap request.domain.outerGap ∅
        ensure (FixedSizePredicate.parseWire request.fixedSizePredicate).isSome
          (Refusal.snapshotInvalid request.correlationId unknownValueMessage
            "fixed-predicate-invalid")
        pure (domain, directional)).isOk = true ↔
      HasRoom request.domain.bounds request.domain.outerGap ∧
        (FixedSizePredicate.parseWire request.fixedSizePredicate).isSome = true := by
    intro houtput hworkspace harea directional
    simp only [isOk_bind, isOk_pure, and_true, ← isOk_iff, isOk_ensure,
      projectDomain_eq_ok harea (isOpaqueId_named houtput) (isOpaqueId_named hworkspace)]
    simp
  constructor
  · rintro ⟨houtput, hworkspace, hfocused, hobserved, harea, entries, hentries, hok⟩
    obtain ⟨directional, hdirectional, hok⟩ := isOk_bind.mp hok
    rw [isOk_check, isOk_check, isOk_check, htail houtput hworkspace harea] at hok
    obtain ⟨hwindows, hfocus, hfingerprint, hend⟩ := hok
    exact ⟨⟨houtput, hworkspace, hfocused⟩, hobserved, harea,
      ⟨entries, directional, ⟨hentries, hdirectional⟩, hwindows, hfocus, hfingerprint⟩, hend⟩
  · rintro ⟨⟨houtput, hworkspace, hfocused⟩, hobserved, harea,
      ⟨entries, directional, ⟨hentries, hdirectional⟩, hwindows, hfocus, hfingerprint⟩, hend⟩
    refine ⟨houtput, hworkspace, hfocused, hobserved, harea, entries, hentries,
      isOk_bind.mpr ⟨directional, hdirectional, ?_⟩⟩
    rw [isOk_check, isOk_check, isOk_check, htail houtput hworkspace harea]
    exact ⟨hwindows, hfocus, hfingerprint, hend⟩

end

end Wire

end PlasmaTiler
