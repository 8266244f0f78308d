import PlasmaTiler.AnsweringRuns
import PlasmaTiler.WireValid

/-!
# Runs of the planner

The planner is called with one text after the other, good ones and bad ones.
What it keeps over all of them (`Sound`) is what the engine keeps, with the
two settings a planner never changes: the engine is coherent, its ids are
spelled, fixed windows are admitted as floats and focus changes are fenced.
A text either goes no further than the wire, in which case the engine is
untouched, or becomes a validated request; `evaluate_cases` is this case
analysis, and every lemma about a call goes through it.

The answer is a text under a cap, so a plan can be replaced by a refusal
after the engine has moved on. The cap only takes plans away
(`serializeBounded_cases`): what is sent as a plan is the plan the engine
answered. How long an answer's text is comes in as a parameter, and every
result here holds whatever these lengths are.

A call under another identity is a call of a fresh planner, unless it is a
send or a migration (`evaluate_fresh`). Those are dispatched before the
identity is looked at, so what is retained carries the bound identity only in
the runs whose sends and migrations do (`bound_run`).
-/

namespace PlasmaTiler

namespace Wire

/-- What is validated was read. -/
theorem validateRequest_reads {text : RequestText} {ctx : Validated}
    (h : validateRequest text = .ok ctx) :
    ∃ raw, text.raw = .ok raw ∧ raw.request = .ok ctx.request := by
  simp only [validateRequest, bind_eq_ok, pure_eq_ok, Prod.exists] at h
  obtain ⟨rawCorrelationId, request, hread, _, _, _, -, _, _, -, rfl⟩ := h
  simp only [readRequest, bind_eq_ok] at hread
  obtain ⟨_, -, hread⟩ := hread
  split at hread
  · cases hread
  · rename_i raw hraw
    split at hread
    · cases hread
    · rename_i request' hrequest
      cases hread
      exact ⟨raw, hraw, hrequest⟩

/-- The engine answered, with a plan. -/
def PlanReply.isPlan : PlanReply → Bool
  | .refused _ => false
  | .answered _ reply => reply.isPlan

/-- What is under the cap is sent as it is. -/
theorem serializeBounded_cases (bytes : Nat) (reply : PlanReply) :
    serializeBounded bytes reply = reply ∨
      serializeBounded bytes reply = .refused (oversizeReply reply.correlationId) := by
  unfold serializeBounded
  split
  · exact .inl rfl
  · exact .inr rfl

/-- A refusal stays one. -/
theorem Refusal.serialize_refused (refusal : Refusal) :
    ∃ sent, refusal.serialize = .refused sent := by
  rcases serializeBounded_cases refusal.toJson.utf8ByteSize (.refused refusal) with heq | heq
  · exact ⟨refusal, heq⟩
  · exact ⟨_, heq⟩

namespace Planner

/-- The planner machine: one text after the other. -/
def machine (answerBytes : AnswerBytes) : Machine Planner RequestText where
  initial p := p = new
  next p text := (p.evaluate answerBytes text).1

/-- What the planner keeps between calls: a coherent engine over spelled ids,
with the two settings that are switched on when it starts. -/
structure Sound (p : Planner) : Prop where
  coherent : p.engine.Coherent
  lettered : p.engine.Lettered
  admission : p.engine.fixedSizeAdmission = true
  fence : p.engine.maximizedFocusFence = true

section
variable {p : Planner} {answerBytes : AnswerBytes} {text : RequestText} {ctx : Validated}
  {r : Request}

/-! ## One call -/

/-- What has no sessions is coherent and spelled. -/
theorem sound_of_empty (hsessions : p.engine.sessions = ∅) (hgaps : p.engine.outerGaps = ∅)
    (hadmission : p.engine.fixedSizeAdmission = true)
    (hfence : p.engine.maximizedFocusFence = true) : p.Sound := by
  have hnone : ∀ (key : DomainKey) (s : Session), p.engine.sessions[key]? ≠ some s := by
    intro key s hs
    simp [hsessions] at hs
  refine ⟨⟨?_, ?_, ?_, ?_, ?_⟩, ?_, hadmission, hfence⟩
  · exact fun key s hs => absurd hs (hnone key s)
  · exact fun key s hs => absurd hs (hnone key s)
  · exact fun key s hs => absurd hs (hnone key s)
  · exact fun key s hs => absurd hs (hnone key s)
  · intro key
    simp [hsessions, hgaps]
  · exact fun key s hs => absurd hs (hnone key s)

theorem new_sound : Sound new := by
  refine sound_of_empty ?_ rfl rfl rfl
  refine Std.ExtTreeMap.ext_getElem? fun key => ?_
  simp [new, Engine.setFixedSizeAdmission, Engine.setMaximizedFocusFence, Engine.new]

theorem Sound.setFixedSizePredicate (h : p.Sound) (request : RequestDto) :
    (p.setFixedSizePredicate request).Sound := by
  unfold Planner.setFixedSizePredicate
  split
  · rename_i predicate _
    have hop : (EngineOp.setFixedSizePredicate predicate).Validated := trivial
    exact ⟨h.coherent.next (.setFixedSizePredicate predicate), h.lettered.next h.coherent hop,
      h.admission, h.fence⟩
  · exact h

theorem Sound.syncBinding (h : p.Sound) (owner : OwnerId) (generation : GenerationId) :
    (p.syncBinding owner generation).Sound := by
  unfold Planner.syncBinding
  split
  · exact h
  · exact sound_of_empty rfl rfl h.admission h.fence

theorem Sound.prepared (h : p.Sound) (ctx : Validated) : (p.prepared ctx).Sound := by
  unfold Planner.prepared
  split
  · exact h.setFixedSizePredicate ctx.request
  · exact (h.setFixedSizePredicate ctx.request).syncBinding ctx.owner ctx.generation

theorem Sound.request (h : p.Sound) (hr : r.Validated) :
    Sound { p with engine := (p.engine.request r).1 } := by
  have hleft := @Engine.Coherent.request p.engine r h.coherent
  have hop : (EngineOp.request r).Validated := hr
  have hlettered := h.lettered.next h.coherent hop
  exact ⟨hleft.coherent h.coherent, hlettered, hleft.settings.1.trans h.admission,
    hleft.settings.2.2.trans h.fence⟩

/-- How a call ends: on the wire, on its command, or in the engine. -/
theorem evaluate_cases (p : Planner) (answerBytes : AnswerBytes) (text : RequestText) :
    (∃ refusal, validateRequest text = .error refusal ∧
      p.evaluate answerBytes text = (p, refusal.serialize)) ∨
    (∃ ctx refusal, validateRequest text = .ok ctx ∧
      ctx.coreRequest ((p.prepared ctx).engine.contains ctx.domain.key) = .error refusal ∧
      p.evaluate answerBytes text = (p.prepared ctx, refusal.serialize)) ∨
    ∃ ctx r, validateRequest text = .ok ctx ∧
      ctx.coreRequest ((p.prepared ctx).engine.contains ctx.domain.key) = .ok r ∧
      p.evaluate answerBytes text =
        ({ p.prepared ctx with engine := ((p.prepared ctx).engine.request r).1 },
          ctx.serialize answerBytes ((p.prepared ctx).engine.request r).2) := by
  unfold Planner.evaluate
  split
  · rename_i refusal hinvalid
    exact .inl ⟨refusal, hinvalid, rfl⟩
  · rename_i ctx hvalid
    rcases hr : ctx.coreRequest ((p.prepared ctx).engine.contains ctx.domain.key) with refusal | r
    · refine .inr (.inl ⟨ctx, refusal, hvalid, hr, ?_⟩)
      simp only [hr]
    · refine .inr (.inr ⟨ctx, r, hvalid, hr, ?_⟩)
      simp only [hr]

theorem Sound.evaluate (h : p.Sound) (text : RequestText) :
    (p.evaluate answerBytes text).1.Sound := by
  rcases p.evaluate_cases answerBytes text with ⟨_, -, heq⟩ | ⟨ctx, _, -, -, heq⟩ | ⟨ctx, r, hvalid, hr, heq⟩
  · rw [heq]
    exact h
  · rw [heq]
    exact h.prepared ctx
  · rw [heq]
    exact (h.prepared ctx).request
      (coreRequest_yields (validateRequest_ok hvalid) hr).toValidated

theorem reachable_sound (h : (machine answerBytes).Reachable p) : p.Sound := by
  have hinvariant : (machine answerBytes).Invariant Sound := {
    initial p h := by
      rw [show p = new from h]
      exact new_sound
    preserved _ text h := h.evaluate text }
  exact hinvariant.reachable h

/-- Whatever texts the planner is called with, the engine it retains is
coherent, with fixed admission and the focus fence on, and every id in it is
spelled with the letters of an opaque id. -/
theorem sound_invariant :
    (machine answerBytes).Invariant fun p => p.Sound ∧ p.engine.SpelledThroughout where
  initial p h := by
    have hreachable : (machine answerBytes).Reachable p := .initial h
    have hsound := reachable_sound hreachable
    exact ⟨hsound, hsound.lettered.spelledThroughout hsound.coherent⟩
  preserved p text h := by
    have hsound : (p.evaluate answerBytes text).1.Sound := h.1.evaluate text
    exact ⟨hsound, hsound.lettered.spelledThroughout hsound.coherent⟩

theorem isPlan_of_serialize {reply : EngineReply}
    (h : (ctx.serialize answerBytes reply).isPlan = true) : reply.isPlan = true := by
  rcases serializeBounded_cases (answerBytes ctx reply) (.answered ctx.request.correlationId reply)
    with heq | heq
  · rw [Validated.serialize, heq] at h
    exact h
  · rw [Validated.serialize, heq] at h
    cases h

theorem refusal_isPlan (refusal : Refusal) : refusal.serialize.isPlan = false := by
  obtain ⟨_, heq⟩ := refusal.serialize_refused
  rw [heq]
  rfl

/-- A call that is answered by a plan over one domain leaves the slot of that
domain showing what the text carried, whatever texts came before. -/
theorem evaluate_answers (h : (machine answerBytes).Reachable p)
    (hplan : (p.evaluate answerBytes text).2.isPlan = true) :
    ∃ ctx r, validateRequest text = .ok ctx ∧
      ctx.coreRequest ((p.prepared ctx).engine.contains ctx.domain.key) = .ok r ∧
      (r.isLocal = true → (p.evaluate answerBytes text).1.engine.Shows r.event) := by
  rcases p.evaluate_cases answerBytes text with ⟨refusal, -, heq⟩ | ⟨_, refusal, -, -, heq⟩ |
    ⟨ctx, r, hvalid, hr, heq⟩
  · rw [heq, refusal_isPlan refusal] at hplan
    cases hplan
  · rw [heq, refusal_isPlan refusal] at hplan
    cases hplan
  · rw [heq] at hplan ⊢
    have hplan := isPlan_of_serialize hplan
    refine ⟨ctx, r, hvalid, hr, fun hlocal => ?_⟩
    have hsound := (reachable_sound h).prepared ctx
    have hyields := coreRequest_yields (validateRequest_ok hvalid) hr
    exact hsound.coherent.answers hsound.lettered hyields.toValidated hlocal hplan

/-- One window on an output, reconciled for an owner. -/
def shownText (owner : String) : RequestText where
  length := 512
  raw := .ok {
    correlationId := some "c-1"
    request := .ok {
      v := 1
      correlationId := "c-1"
      owner
      generation := "g-1"
      revision := 0
      fingerprint := 0
      domain := ⟨"A", "1", ⟨0, 0, 800, 600⟩, 4, 8⟩
      targetDomain := none
      targetWindows := []
      domains := none
      focusedWindow := "u"
      windows := [{ window := "u", output := "A", workspace := "1", rect := ⟨8, 8, 784, 584⟩ }]
      command := ⟨"reconcile", "", .ok .reconcile⟩
      fixedSizePredicate := "both-axes-fixed" } }

/-- The plan for that window is a text of this length. -/
def shownBytes : AnswerBytes := fun _ _ => 335

/-- One window is shown to a new planner. -/
theorem evaluate_answers_shown :
    ∃ ctx r, validateRequest (shownText "kwin") = .ok ctx ∧
      ctx.coreRequest ((new.prepared ctx).engine.contains ctx.domain.key) = .ok r ∧
      (r.isLocal = true →
        (new.evaluate shownBytes (shownText "kwin")).1.engine.Shows r.event) :=
  evaluate_answers (.initial rfl) (by decide +kernel)

/-! ## Identities -/

/-- What is retained belongs to the bound identity. A planner that is not
bound to one retains nothing, then. -/
def Bound (p : Planner) : Prop :=
  ∀ (key : DomainKey) (s : Session), p.engine.sessions[key]? = some s →
    p.owner = some s.owner ∧ p.generation = some s.generation

/-- A text that passes as a send or a migration comes under the identity the
planner is bound to. Other texts may come under any. -/
def TransferBound (p : Planner) (text : RequestText) : Prop :=
  ∀ ctx, validateRequest text = .ok ctx → ctx.isTransfer = true →
    p.owner = some ctx.owner ∧ p.generation = some ctx.generation

theorem setFixedSizePredicate_binding (p : Planner) (request : RequestDto) :
    (p.setFixedSizePredicate request).owner = p.owner ∧
      (p.setFixedSizePredicate request).generation = p.generation := by
  unfold Planner.setFixedSizePredicate
  split
  · exact ⟨rfl, rfl⟩
  · exact ⟨rfl, rfl⟩

theorem Bound.setFixedSizePredicate (h : p.Bound) (request : RequestDto) :
    (p.setFixedSizePredicate request).Bound := by
  unfold Planner.setFixedSizePredicate
  split
  · intro key s' hs
    obtain ⟨s, hbefore, rfl⟩ := Engine.map_sessions rfl hs
    exact h key s hbefore
  · exact h

theorem Bound.syncBinding (h : p.Bound) (owner : OwnerId) (generation : GenerationId) :
    (p.syncBinding owner generation).Bound ∧
      (p.syncBinding owner generation).owner = some owner ∧
      (p.syncBinding owner generation).generation = some generation := by
  unfold Planner.syncBinding
  split
  · rename_i hsame
    simp only [Bool.and_eq_true, beq_iff_eq] at hsame
    exact ⟨h, hsame⟩
  · refine ⟨fun key s hs => ?_, rfl, rfl⟩
    simp at hs

/-- A dispatched request comes under the bound identity. -/
theorem Bound.prepared (h : p.Bound) (hvalid : validateRequest text = .ok ctx)
    (htransfer : p.TransferBound text) :
    (p.prepared ctx).Bound ∧ (p.prepared ctx).owner = some ctx.owner ∧
      (p.prepared ctx).generation = some ctx.generation := by
  have hset := h.setFixedSizePredicate ctx.request
  unfold Planner.prepared
  split
  · rename_i htransfers
    obtain ⟨howner, hgeneration⟩ := p.setFixedSizePredicate_binding ctx.request
    rw [howner, hgeneration]
    exact ⟨hset, htransfer ctx hvalid htransfers⟩
  · exact hset.syncBinding ctx.owner ctx.generation

/-- Sessions made by a request of the bound identity carry it. -/
theorem Bound.request (hsound : p.Sound) (h : p.Bound)
    (howner : p.owner = some r.event.owner) (hgeneration : p.generation = some r.event.generation) :
    Bound { p with engine := (p.engine.request r).1 } := by
  intro key s hs
  have hslot := hsound.coherent.request.slot hs
  have hbefore : ∀ (key : DomainKey) (s : Session), p.engine.sessions[key]? = some s →
      s.owner = r.event.owner ∧ s.generation = r.event.generation := by
    intro key s hs
    obtain ⟨hs₁, hs₂⟩ := h key s hs
    exact ⟨Option.some.inj (hs₁.symm.trans howner), Option.some.inj (hs₂.symm.trans hgeneration)⟩
  obtain ⟨h₁, h₂⟩ := hslot.made.identity hbefore ⟨rfl, rfl⟩
  exact ⟨h₁ ▸ howner, h₂ ▸ hgeneration⟩

theorem Bound.evaluate (hsound : p.Sound) (h : p.Bound) (htransfer : p.TransferBound text) :
    (p.evaluate answerBytes text).1.Bound := by
  rcases p.evaluate_cases answerBytes text with ⟨_, -, heq⟩ | ⟨ctx, _, hvalid, -, heq⟩ |
    ⟨ctx, r, hvalid, hr, heq⟩
  · rw [heq]
    exact h
  · rw [heq]
    exact (h.prepared hvalid htransfer).1
  · rw [heq]
    obtain ⟨hbound, howner, hgeneration⟩ := h.prepared hvalid htransfer
    have hyields := coreRequest_yields (validateRequest_ok hvalid) hr
    refine hbound.request (hsound.prepared ctx) ?_ ?_
    · rw [hyields.identity.1, howner]
    · rw [hyields.identity.2, hgeneration]

/-- In every run whose sends and migrations come under the bound identity,
everything retained belongs to that identity. -/
theorem bound_run (h : (machine answerBytes).Leads TransferBound new p) : p.Bound := by
  have hnew : new.Bound := by
    intro key s hs
    have hempty : new.engine.sessions[key]? = none := by
      simp [new, Engine.setFixedSizeAdmission, Engine.setMaximizedFocusFence, Engine.new]
    rw [hempty] at hs
    cases hs
  have hboth := h.preserved (I := fun p => p.Sound ∧ p.Bound) ⟨new_sound, hnew⟩
    fun p text hkept htransfer => ⟨hkept.1.evaluate text, hkept.2.evaluate hkept.1 htransfer⟩
  exact hboth.2

/-- What is read of a given text is what is in it. -/
theorem validated_request {raw : RawRequest} {request : RequestDto} (hraw : text.raw = .ok raw)
    (hrequest : raw.request = .ok request) (hvalid : validateRequest text = .ok ctx) :
    ctx.request = request := by
  obtain ⟨raw', hraw', hrequest'⟩ := validateRequest_reads hvalid
  obtain rfl := Except.ok.inj (hraw.symm.trans hraw')
  exact (Except.ok.inj (hrequest.symm.trans hrequest')).symm

/-- What is shown is not sent. -/
theorem shownText_local {owner : String} (hvalid : validateRequest (shownText owner) = .ok ctx) :
    ctx.isTransfer = false := by
  rw [Validated.isTransfer, validated_request rfl rfl hvalid]
  rfl

/-- The shown window, sent to another workspace. -/
def sentText : RequestText where
  length := 640
  raw := .ok {
    correlationId := some "c-2"
    request := .ok {
      v := 1
      correlationId := "c-2"
      owner := "kwin"
      generation := "g-1"
      revision := 1
      fingerprint := 0
      domain := ⟨"A", "1", ⟨0, 0, 800, 600⟩, 4, 8⟩
      targetDomain := some ⟨"A", "2", ⟨0, 0, 800, 600⟩, 4, 8⟩
      targetWindows := []
      domains := none
      focusedWindow := "u"
      windows := [{ window := "u", output := "A", workspace := "1", rect := ⟨8, 8, 784, 584⟩ }]
      command := ⟨"send-to-workspace", "u", .ok (.sendToWorkspace "u" "A" "2" true)⟩
      fixedSizePredicate := "both-axes-fixed" } }

/-- The window shown is then sent to another workspace, and both slots are the
client's. -/
theorem bound_run_shown :
    let shown := (new.evaluate shownBytes (shownText "kwin")).1
    let sent := shown.evaluate shownBytes sentText
    sent.2.isPlan = true ∧ (⟨⟨"A"⟩, ⟨"2"⟩⟩ : DomainKey) ∈ sent.1.engine.sessions ∧
      sent.1.Bound := by
  intro shown sent
  have hfirst : (machine shownBytes).Leads TransferBound new new := .refl
  have hshown : new.TransferBound (shownText "kwin") := fun ctx hvalid htransfer =>
    absurd htransfer (by simp [shownText_local hvalid])
  have hsent : shown.TransferBound sentText := by
    intro ctx hvalid _
    obtain ⟨-, howner, hgeneration⟩ := validateRequest_tokens hvalid
    rw [validated_request rfl rfl hvalid] at howner hgeneration
    have hbound : shown.owner.map Token.asStr = some "kwin" ∧
        shown.generation.map Token.asStr = some "g-1" := by decide +kernel
    obtain ⟨owner, hsome, hname⟩ := Option.map_eq_some_iff.mp hbound.1
    obtain ⟨generation, hsome', hname'⟩ := Option.map_eq_some_iff.mp hbound.2
    rw [hsome, hsome']
    exact ⟨congrArg some (Token.ext (hname.trans howner.symm)),
      congrArg some (Token.ext (hname'.trans hgeneration.symm))⟩
  exact ⟨by decide +kernel, by decide +kernel, bound_run ((hfirst.next hshown).next hsent)⟩

/-- A call under another identity, other than a send or a migration, is
answered as by a planner that was never called, and leaves the same behind. -/
theorem evaluate_fresh (h : (machine answerBytes).Reachable p) (hvalid : validateRequest text = .ok ctx)
    (hlocal : ctx.isTransfer = false)
    (hother : ¬(p.owner = some ctx.owner ∧ p.generation = some ctx.generation)) :
    p.evaluate answerBytes text = new.evaluate answerBytes text := by
  have hsound := reachable_sound h
  obtain ⟨predicate, hpredicate⟩ :=
    Option.isSome_iff_exists.mp (validateRequest_ok hvalid).predicate
  have hcleared : ∀ {q : Planner}, q.Sound →
      ¬(q.owner = some ctx.owner ∧ q.generation = some ctx.generation) →
      q.prepared ctx = ⟨⟨∅, ∅, true, true, predicate⟩, some ctx.owner, some ctx.generation⟩ := by
    intro q hq hne
    simp only [Planner.prepared, hlocal, Planner.setFixedSizePredicate, hpredicate,
      Planner.syncBinding, Bool.and_eq_true, beq_iff_eq, if_neg hne, Engine.setFixedSizePredicate,
      hq.admission, hq.fence, Bool.false_eq_true, if_false]
  have hnew : new.prepared ctx = p.prepared ctx := by
    rw [hcleared hsound hother, hcleared new_sound fun hbound => by cases hbound.1]
  unfold Planner.evaluate
  simp only [hvalid, hnew]

end

/-- Another client follows the first. -/
theorem evaluate_fresh_restart :
    (new.evaluate shownBytes (shownText "kwin")).1.evaluate shownBytes (shownText "kwin-2") =
      new.evaluate shownBytes (shownText "kwin-2") := by
  have hreached : (machine shownBytes).Reachable (new.evaluate shownBytes (shownText "kwin")).1 :=
    @Machine.Reachable.next _ _ (machine shownBytes) new (.initial rfl) (shownText "kwin")
  have hbound : (new.evaluate shownBytes (shownText "kwin")).1.owner.map Token.asStr = some "kwin" := by
    decide +kernel
  rcases hvalid : validateRequest (shownText "kwin-2") with refusal | ctx
  · have hok : (validateRequest (shownText "kwin-2")).isOk = true := by decide +kernel
    rw [hvalid] at hok
    cases hok
  · refine evaluate_fresh hreached hvalid (shownText_local hvalid) ?_
    rintro ⟨howner, -⟩
    rw [howner, Option.map_some, (validateRequest_tokens hvalid).2.1,
      validated_request rfl rfl hvalid] at hbound
    exact absurd hbound (by decide)

end Planner

end Wire

end PlasmaTiler
