import PlasmaTiler.CorrelationOrder

/-!
# Superseded highlights

Within a stream the effect keeps the correlation it accepted last and takes
another exactly when that one is newer. The accepted correlations therefore
form a succession, each newer than the one before, and any succession can be
run: well-formed payloads that carry it are accepted one after the other.

A correlation that was displaced is superseded, and should not come back. It
can only do so over a circle of newness, and a circle needs three texts of the
stream that cross: a pair numbered against its spelling around a text that
counts with neither, or a pair whose later text is continued past the range
its mark counts to. Streams as the bridge writes them, `<head>-g<seq>` and
`<head>-g<epoch>r<seq>` with one head and numbers in range, have no such
three.
-/

namespace PlasmaTiler

namespace GroupHighlight

variable {s : GroupHighlightState} {e : Event}

/-! ## Correlation ids -/

/-- Newness of correlation ids. -/
def newer (a b : CorrelationId) : Bool := correlationIsNewer a.asStr.toList b.asStr.toList

theorem token_ext {valid : String → Bool} {a b : Token valid} (h : a.asStr = b.asStr) : a = b := by
  cases a
  cases b
  cases h
  rfl

theorem newer_displacement : Displacement newer where
  irrefl _ := correlationIsNewer_displacement.irrefl _
  asymm _ _ := correlationIsNewer_displacement.asymm _ _
  total _ _ h := correlationIsNewer_displacement.total _ _ fun heq =>
    h (token_ext (String.toList_inj.mp heq))

/-! ## Runs of one stream -/

/-- An event that is not accepted leaves the position alone; one that is
stores its own. -/
theorem next_position : (next s e).position =
    match acceptedBy s e with
    | some parsed => some ⟨parsed.owner, parsed.generation, parsed.correlation⟩
    | none => s.position := by
  cases e with
  | clear => rfl
  | apply payload active =>
    simp only [next, acceptedBy, applyInner]
    cases parsePayload payload with
    | none => rfl
    | some parsed =>
      dsimp only
      split
      · rfl
      · split <;> rfl

/-- What is accepted is newer than the position of its stream. -/
theorem acceptedBy_newer {parsed : Parsed} {position : Position}
    (h : acceptedBy s e = some parsed) (hposition : s.position = some position)
    (hstream : sameStream position parsed = true) :
    newer parsed.correlation position.correlation = true := by
  cases e with
  | clear => cases h
  | apply payload active =>
    have hallows : ∀ {p : Parsed}, orderAllows { s with receipts := counted s.receipts } p =
        if !sameStream position p then true
        else if p.correlation = position.correlation then false
        else newer p.correlation position.correlation := by
      intro p
      simp only [orderAllows, hposition, newer]
    simp only [acceptedBy, applyInner] at h
    cases hparsed : parsePayload payload with
    | none =>
      rw [hparsed] at h
      cases h
    | some p =>
      rw [hparsed] at h
      dsimp only at h
      rw [hallows] at h
      split at h
      · rename_i hcode
        obtain rfl := Option.some.inj h
        rw [hstream] at hcode
        by_contra hnot
        rw [Bool.not_eq_true] at hnot
        simp [hnot] at hcode
      · cases h

theorem acceptedIn_cons {es : List Event} : acceptedIn s (e :: es) =
    (acceptedBy s e).toList ++ acceptedIn (next s e) es := rfl

/-- Within a stream every accepted correlation is newer than the one before
it, and the first is newer than the position the run begins with. By induction
along the events. -/
theorem acceptedIn_succession {owner : OwnerId} {generation : GenerationId} {es : List Event}
    (h : ∀ p ∈ acceptedIn s es, p.owner = owner ∧ p.generation = generation) :
    Succession newer ((acceptedIn s es).map Parsed.correlation) ∧
      ∀ position first rest, s.position = some position → position.owner = owner →
        position.generation = generation → acceptedIn s es = first :: rest →
          newer first.correlation position.correlation = true := by
  induction es generalizing s with
  | nil => exact ⟨List.isChain_nil, fun _ _ _ _ _ _ h => by cases h⟩
  | cons e es ih =>
    rw [acceptedIn_cons] at h
    have hpos := @next_position s e
    cases haccepted : acceptedBy s e with
    | none =>
      rw [haccepted] at h hpos
      have hrest := @ih (next s e) h
      rw [acceptedIn_cons, haccepted]
      refine ⟨hrest.1, fun position first rest hposition => ?_⟩
      exact hrest.2 position first rest (hpos.trans hposition)
    | some parsed =>
      rw [haccepted] at h hpos
      have hhere := h parsed (by simp)
      obtain ⟨hsucc, hfirst⟩ := @ih (next s e) fun p hp => h p (by simp [hp])
      rw [acceptedIn_cons, haccepted]
      constructor
      · show Succession newer (parsed.correlation :: (acceptedIn (next s e) es).map Parsed.correlation)
        cases hrest : acceptedIn (next s e) es with
        | nil => exact List.isChain_singleton _
        | cons first rest =>
          rw [hrest] at hsucc
          exact List.isChain_cons_cons.mpr
            ⟨hfirst _ first rest hpos hhere.1 hhere.2 hrest, hsucc⟩
      · intro position first rest hposition howner hgeneration hfirst
        obtain ⟨rfl, -⟩ := List.cons.inj hfirst
        refine acceptedBy_newer haccepted hposition ?_
        simp [sameStream, howner, hgeneration, hhere.1, hhere.2]

/-! ## Runs with given correlations -/

/-- A well-formed payload of a stream. -/
def payloadOf (owner : OwnerId) (generation : GenerationId) (correlation : CorrelationId) :
    GroupPayload :=
  ⟨1, correlation.asStr, owner.asStr, generation.asStr, 0, "group", "window", ["window"],
    ⟨0, 0, 1, 1⟩⟩

def highlight (owner : OwnerId) (generation : GenerationId) (correlation : CorrelationId) : Event :=
  .apply ⟨512, some (payloadOf owner generation correlation)⟩ "window"

def parsedOf (owner : OwnerId) (generation : GenerationId) (correlation : CorrelationId) : Parsed :=
  ⟨correlation, owner, generation, "window", 0, ⟨0, 0, 1, 1⟩⟩

section
variable {owner : OwnerId} {generation : GenerationId} {correlation : CorrelationId}

theorem parse_token {valid : String → Bool} {t : Token valid} : Token.parse valid t.asStr = some t := by
  rw [Token.parse, dif_pos t.valid_asStr]

theorem parsePayload_payloadOf :
    parsePayload ⟨512, some (payloadOf owner generation correlation)⟩ =
      some (parsedOf owner generation correlation) := by
  have hgroup : isOpaqueId "group" = true := by decide +kernel
  have hwindow : isOpaqueId "window" = true := by decide +kernel
  have hrect : validCarriedRect ⟨0, 0, 1, 1⟩ = true := by decide
  simp [parsePayload, payloadOf, maxJson, maxRevision, parse_token, hgroup, hwindow, hrect, parsedOf,
    require]

/-- A payload newer than the position is accepted. -/
theorem acceptedBy_highlight
    (h : ∀ position, s.position = some position → position.owner = owner ∧
      position.generation = generation ∧ newer correlation position.correlation = true) :
    acceptedBy s (highlight owner generation correlation) =
      some (parsedOf owner generation correlation) := by
  have hallows : orderAllows { s with receipts := counted s.receipts }
      (parsedOf owner generation correlation) = true := by
    cases hposition : s.position with
    | none => simp [orderAllows]
    | some position =>
      obtain ⟨rfl, rfl, hnewer⟩ := h position hposition
      have hne : correlation ≠ position.correlation := by
        rintro rfl
        rw [newer_displacement.irrefl] at hnewer
        cases hnewer
      rw [newer] at hnewer
      simp [orderAllows, sameStream, parsedOf, hne, hnewer]
  have hfocus : focusMatches "window" "window" = true := by decide +kernel
  simp only [acceptedBy, highlight, applyInner, parsePayload_payloadOf, hallows]
  rw [show (parsedOf owner generation correlation).focused = "window" from rfl, hfocus]
  rfl

/-- Any succession can be run. -/
theorem acceptedIn_highlights {correlations : List CorrelationId}
    (h : Succession newer correlations)
    (hfirst : ∀ position first rest, s.position = some position → correlations = first :: rest →
      position.owner = owner ∧ position.generation = generation ∧
        newer first position.correlation = true) :
    acceptedIn s (correlations.map (highlight owner generation)) =
      correlations.map (parsedOf owner generation) := by
  induction correlations generalizing s with
  | nil => rfl
  | cons c correlations ih =>
    have haccepted := @acceptedBy_highlight s owner generation c fun position hposition =>
      hfirst position c correlations hposition rfl
    have hpos := @next_position s (highlight owner generation c)
    rw [haccepted] at hpos
    have hrest := @ih (next s (highlight owner generation c)) h.tail
      (fun position first rest hposition heq => by
        rw [hpos, Option.some.injEq] at hposition
        subst hposition heq
        exact ⟨rfl, rfl, (List.isChain_cons_cons.mp h).1⟩)
    rw [List.map_cons, acceptedIn_cons, haccepted, hrest]
    rfl

end

/-! ## Superseded correlations -/

/-- Three correlations of the stream cross, each of them carried by some
payload it may hand the effect. -/
def Crossed (S : CorrelationId → Prop) : Prop :=
  ∃ low high third : CorrelationId, S low ∧ S high ∧ S third ∧
    Crossing low.asStr.toList high.asStr.toList third.asStr.toList

theorem crossed_iff {S : CorrelationId → Prop} :
    Crossed S ↔ ∃ a b c, S a ∧ S b ∧ S c ∧ Cyclic newer a b c := by
  have htexts := @exists_cyclic_iff fun text => ∃ id, S id ∧ id.asStr.toList = text
  constructor
  · rintro ⟨low, high, third, hlow, hhigh, hthird, hcrossing⟩
    obtain ⟨_, _, _, ⟨a, ha, rfl⟩, ⟨b, hb, rfl⟩, ⟨c, hc, rfl⟩, hcycle⟩ :=
      htexts.mpr ⟨_, _, _, ⟨low, hlow, rfl⟩, ⟨high, hhigh, rfl⟩, ⟨third, hthird, rfl⟩, hcrossing⟩
    exact ⟨a, b, c, ha, hb, hc, hcycle⟩
  · rintro ⟨a, b, c, ha, hb, hc, hcycle⟩
    obtain ⟨_, _, _, ⟨low, hlow, rfl⟩, ⟨high, hhigh, rfl⟩, ⟨third, hthird, rfl⟩, hcrossing⟩ :=
      htexts.mp ⟨_, _, _, ⟨a, ha, rfl⟩, ⟨b, hb, rfl⟩, ⟨c, hc, rfl⟩, hcycle⟩
    exact ⟨low, high, third, hlow, hhigh, hthird, hcrossing⟩

theorem not_crossed_iff {S : CorrelationId → Prop} :
    ¬Crossed S ↔ ∀ a b c, S a → S b → S c → ¬Cyclic newer a b c := by
  rw [crossed_iff]
  constructor
  · intro h a b c ha hb hc hcycle
    exact h ⟨a, b, c, ha, hb, hc, hcycle⟩
  · rintro h ⟨a, b, c, ha, hb, hc, hcycle⟩
    exact h a b c ha hb hc hcycle

/-- A stream that counts behind one mark, in range, never crosses. -/
theorem not_crossed_of_rotated {S : CorrelationId → Prop} {head : List Char}
    (h : ∀ id, S id → ∃ epoch seq, Rotated id.asStr.toList head epoch seq) : ¬Crossed S := by
  rintro ⟨low, high, third, hlow, hhigh, hthird, hstraddled | hoverrun⟩
  · exact hstraddled.foreign.1 (.inl ⟨head, h low hlow, h third hthird⟩)
  · obtain ⟨trail, n, m, -, hm, hover, -⟩ := hoverrun.trailed
    obtain ⟨epoch, seq, hrotated⟩ := h third hthird
    exact absurd (hrotated.seq_eq hm ▸ hrotated.le.2) (not_le.mpr hover)

/-- Newness is irreflexive and asymmetric, and what is not accepted moves no
position. Over the correlations a stream carries it is transitive, and no
superseded highlight comes back in any run, exactly when no three of their
texts cross. -/
theorem superseded_iff (owner : OwnerId) (generation : GenerationId) (S : CorrelationId → Prop) :
    (∀ a b : CorrelationId, newer a a = false ∧ (newer a b = true → newer b a = false)) ∧
      (∀ s e, acceptedBy s e = none → (next s e).position = s.position) ∧
      ((∀ a b c, S a → S b → S c → newer a b = true → newer b c = true → newer a c = true) ↔
        ¬Crossed S) ∧
      ((∀ s es, machine.Reachable s →
          (∀ p ∈ acceptedIn s es, p.owner = owner ∧ p.generation = generation ∧ S p.correlation) →
            ¬ComesBack ((acceptedIn s es).map Parsed.correlation)) ↔ ¬Crossed S) := by
  refine ⟨fun a b => ⟨newer_displacement.irrefl a, newer_displacement.asymm a b⟩, ?_, ?_, ?_⟩
  · intro s e haccepted
    have hposition := @next_position s e
    rw [haccepted] at hposition
    exact hposition
  · rw [not_crossed_iff]
    constructor
    · rintro htrans a b c ha hb hc ⟨hab, hbc, hca⟩
      have hac := htrans a b c ha hb hc hab hbc
      rw [newer_displacement.asymm a c hac] at hca
      cases hca
    · intro h a b c ha hb hc
      exact newer_displacement.trans h ha hb hc
  · constructor
    · intro hruns hcrossed
      obtain ⟨a, b, c, ha, hb, hc, hcycle⟩ := crossed_iff.mp hcrossed
      have hrun := @acceptedIn_highlights .zero owner generation [a, c, b, a] hcycle.succession
        (fun position first rest h => by cases h)
      refine hruns .zero ([a, c, b, a].map (highlight owner generation)) (.initial rfl) ?_ ?_
      · intro p hp
        rw [hrun] at hp
        obtain ⟨x, hx, rfl⟩ := List.mem_map.mp hp
        refine ⟨rfl, rfl, ?_⟩
        simp only [List.mem_cons, List.not_mem_nil, or_false] at hx
        rcases hx with rfl | rfl | rfl | rfl
        · exact ha
        · exact hc
        · exact hb
        · exact ha
      · rw [hrun]
        exact hcycle.comesBack newer_displacement
    · intro hcrossed s es _ hstream
      obtain ⟨hsucc, -⟩ := acceptedIn_succession fun p hp => ⟨(hstream p hp).1, (hstream p hp).2.1⟩
      refine hsucc.not_comesBack newer_displacement (not_crossed_iff.mp hcrossed) fun v hv => ?_
      obtain ⟨p, hp, rfl⟩ := List.mem_map.mp hv
      exact (hstream p hp).2.2

/-- A sequence, a longer one, and a text between them. -/
theorem superseded_comesBack :
    ∃ es, (acceptedIn .zero es).map (fun p => (p.owner.asStr, p.generation.asStr, p.correlation.asStr)) =
        [("owner", "g1", "x2"), ("owner", "g1", "x10"), ("owner", "g1", "x1a"),
          ("owner", "g1", "x2")] ∧
      ComesBack ((acceptedIn .zero es).map Parsed.correlation) := by
  have hrun := @acceptedIn_highlights .zero Sample.owner Sample.generation
    [⟨"x2", by decide +kernel⟩, ⟨"x10", by decide +kernel⟩, ⟨"x1a", by decide +kernel⟩,
      ⟨"x2", by decide +kernel⟩] (by simp [Succession]; decide +kernel)
    (fun position first rest h => by cases h)
  refine ⟨_, by rw [hrun]; rfl, ?_⟩
  rw [hrun]
  exact ⟨⟨"x2", by decide +kernel⟩, ⟨"x10", by decide +kernel⟩, by decide, by simp [parsedOf]⟩

end GroupHighlight

end PlasmaTiler
