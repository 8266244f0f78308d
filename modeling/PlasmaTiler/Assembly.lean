import PlasmaTiler.PairWorld
import PlasmaTiler.OuterGaps

/-!
# When a pair assembles

Of everything assembly checks, two retained sessions with disjoint windows
can miss two things only: the identity they are bound to, and the
disjointness of the rectangles retained for windows that float no more. All
the rest (settled, valid, one domain, the presented key, no adjacency of its
own) is what the engine keeps of a session anyway.

A retained rectangle outlives its window in a domain. A window that was once
unfloated in each of two domains leaves one in both, and from then on blocks
their pair, although no window is in both. That is a history and not a state
anybody would build by hand, so the last section runs it as requests of the
engine.
-/

namespace PlasmaTiler

namespace Session

variable {source target pair : Session} {sourceDomain targetDomain : OutputDomain}

/-! ## The two conditions -/

/-- One owner and generation, and no window with a retained rectangle in
both. -/
def mergeable (source target : Session) : Bool :=
  (target.owner == source.owner && target.generation == source.generation) &&
    source.retainedFloatGeometry.keys.all fun id => !target.retainedFloatGeometry.contains id

/-- What a pair asks of the two presented domains. -/
def presentable (sourceDomain targetDomain : OutputDomain) (requireAdjacency : Bool) : Bool :=
  (sourceDomain.validate && targetDomain.validate && sourceDomain.key != targetDomain.key &&
      validateAdjacency [sourceDomain, targetDomain]) &&
    (!requireAdjacency || pairAdjacent sourceDomain targetDomain)

/-- The new session a pair starts from. -/
theorem new_pair {revision : Nat} (owner : OwnerId) (generation : GenerationId) (fingerprint : Nat)
    (hpresent : (sourceDomain.validate && targetDomain.validate &&
      sourceDomain.key != targetDomain.key &&
      validateAdjacency [sourceDomain, targetDomain]) = true)
    (hrevision : isRevision revision = true) :
    ∃ base, Session.new owner generation revision fingerprint [sourceDomain, targetDomain] =
      .ok base := by
  simp only [Bool.and_eq_true, bne_iff_ne] at hpresent
  obtain ⟨⟨⟨hsource, htarget⟩, hkeys⟩, hadjacency⟩ := hpresent
  have howner : isOwnerId owner.asStr = true := owner.valid_asStr
  have hgeneration : isGenerationId generation.asStr = true := generation.valid_asStr
  have hnodup : ([sourceDomain, targetDomain].map OutputDomain.key).Nodup := by simpa using hkeys
  simp only [Session.new, Reconciler.new, howner, hgeneration, hrevision, hadjacency, hnodup,
    hsource, htarget, List.isEmpty_cons, List.all_cons, List.all_nil, Bool.not_false, Bool.and_true,
    decide_true, ensure_true]
  exact ⟨_, rfl⟩

/-- With disjoint windows, the state of two components is disjoint when their
retained rectangles are. -/
theorem disjointState_iff (htarget : target.Valid)
    (hdisjoint : ∀ w, target.isKnown w = true → source.isKnown w = false) :
    disjointState source target = source.retainedFloatGeometry.keys.all fun id =>
      !target.retainedFloatGeometry.contains id := by
  have hwindows : (target.windows.keys.all fun id => !source.isKnown id) = true := by
    rw [List.all_eq_true]
    intro id hid
    rw [hdisjoint id (isKnown_iff.mpr (.inl (Std.ExtTreeMap.mem_keys.mp hid)))]
    rfl
  have hexceptions : (target.exceptions.keys.all fun id => !source.isKnown id) = true := by
    rw [List.all_eq_true]
    intro id hid
    rw [hdisjoint id (isKnown_iff.mpr (.inr (Std.ExtTreeMap.mem_keys.mp hid)))]
    rfl
  have hown : (target.windows.keys.all fun id => !target.exceptions.contains id) = true := by
    rw [List.all_eq_true]
    intro id hid
    rw [contains_eq_false.mpr (htarget.disjoint (Std.ExtTreeMap.mem_keys.mp hid))]
    rfl
  rw [disjointState, hwindows, hexceptions, hown]
  rfl

/-- Two components with disjoint windows pair up exactly when they are
mergeable. -/
theorem pairedFromCanonicalImpl_isOk {requireAdjacency : Bool}
    (hpresent : presentable sourceDomain targetDomain requireAdjacency = true)
    (hs : Component source sourceDomain) (ht : Component target targetDomain)
    (hrevisions : isRevision source.acceptedRevision = true ∧ isRevision target.acceptedRevision = true)
    (hdisjoint : ∀ w, target.isKnown w = true → source.isKnown w = false) :
    (pairedFromCanonicalImpl source (some target) sourceDomain targetDomain
      requireAdjacency).isOk = mergeable source target := by
  obtain ⟨hpair, hadjacent⟩ := Bool.and_eq_true_iff.mp hpresent
  have hnewest : isRevision (if source.acceptedRevision < target.acceptedRevision then target
      else source).acceptedRevision = true := by
    split
    · exact hrevisions.2
    · exact hrevisions.1
  obtain ⟨base, hbase⟩ := new_pair source.owner source.generation (if source.acceptedRevision <
    target.acceptedRevision then target else source).acceptedFingerprint hpair hnewest
  have hvalid : ((base.withSource source sourceDomain.key targetDomain.key).withTarget target
      targetDomain.key (pairTargetNodeRemap source target)).validateCurrentTopology = true := by
    simp only [Bool.and_eq_true, bne_iff_ne] at hpair
    rw [validateCurrentTopology_iff]
    exact withTarget_valid hs ht (new_ok hbase).2.2.2.2.2 hpair.1.1 hpair.1.2 hdisjoint
  have hsource : source.checkComponent sourceDomain = .ok () := checkComponent_iff.mpr hs
  have htarget : target.checkComponent targetDomain = .ok () := checkComponent_iff.mpr ht
  simp only [pairedFromCanonicalImpl, hpair, hadjacent, hsource, htarget, ensure_true, hbase,
    disjointState_iff ht.valid hdisjoint, mergeable]
  generalize (target.owner == source.owner && target.generation == source.generation) = identity
  generalize (source.retainedFloatGeometry.keys.all fun id =>
    !target.retainedFloatGeometry.contains id) = apart
  cases identity <;> cases apart <;>
    simp [bind, Except.bind, pure, Except.pure, hvalid, Except.isOk, Except.toBool, Except.mapError]

/-- A source alone always makes a pair with an absent target. -/
theorem pairedFromCanonicalImpl_absent {requireAdjacency : Bool}
    (hpresent : presentable sourceDomain targetDomain requireAdjacency = true)
    (hs : Component source sourceDomain) (hrevision : isRevision source.acceptedRevision = true) :
    (pairedFromCanonicalImpl source none sourceDomain targetDomain requireAdjacency).isOk = true := by
  obtain ⟨hpair, hadjacent⟩ := Bool.and_eq_true_iff.mp hpresent
  obtain ⟨base, hbase⟩ := new_pair source.owner source.generation source.acceptedFingerprint hpair
    hrevision
  have hvalid : (base.withSource source sourceDomain.key
      targetDomain.key).validateCurrentTopology = true := by
    simp only [Bool.and_eq_true, bne_iff_ne] at hpair
    rw [validateCurrentTopology_iff]
    exact withSource_valid hs (new_ok hbase).2.2.2.2.2 hpair.1.1 hpair.1.2
  have hsource : source.checkComponent sourceDomain = .ok () := checkComponent_iff.mpr hs
  simp [pairedFromCanonicalImpl, hpair, hadjacent, hsource, hbase, bind, Except.bind, pure,
    Except.pure, hvalid, Except.isOk, Except.toBool, Except.mapError]

end Session

namespace Engine

open Session

variable {e : Engine} {source target : OutputDomain} {s t : Session}

/-- A retained session a pair can use: settled and valid, not empty, and over
exactly the presented domain. Its revision is in range, as a new session's is
and every commit keeps it. -/
structure Retains (e : Engine) (domain : OutputDomain) (s : Session) : Prop where
  slot : e.sessions[domain.key]? = some s
  usable : s.canonicalComponentUsable = true
  nonempty : s.committedIsEmpty = false
  bound : s.domains = [domain.canonicalComponent]
  revision : isRevision s.acceptedRevision = true

theorem Retains.toComponent (h : e.Retains source s) : Component s source := by
  obtain ⟨hsettled, hvalid⟩ := Bool.and_eq_true_iff.mp h.usable
  exact ⟨⟨source.canonicalComponent, h.bound, rfl, rfl⟩, hsettled,
    validateCurrentTopology_iff.mp hvalid⟩

theorem Retains.component (h : e.Retains source s) : e.component source = some s := by
  obtain ⟨hsettled, -⟩ := Bool.and_eq_true_iff.mp h.usable
  have husable : s.usable = true := by
    simp only [settledWorld, Bool.and_eq_true] at hsettled
    simp [Session.usable, hsettled]
  have hmatches : s.domainMatches source.canonicalComponent = true := by
    rw [domainMatches, h.bound]
    simp [OutputDomain.canonicalComponent]
  rw [Engine.component, h.slot, Option.filter_some, husable, h.nonempty, hmatches]
  rfl

theorem Retains.targetComponent (h : e.Retains target t) :
    e.targetComponent target = .ok (some t) := by
  have hcontains : e.contains target.key = true :=
    Std.ExtTreeMap.contains_iff_mem.mpr (mem_iff_lookup.mpr ⟨t, h.slot⟩)
  rw [Engine.targetComponent, hcontains, h.component]
  rfl

/-- Two retained domains with disjoint windows pair up, for a directional
request and for a send that observes the target, exactly when their sessions
are mergeable. -/
theorem assemblePair_isOk (hs : e.Retains source s) (ht : e.Retains target t)
    (hpresent : presentable source target true = true)
    (hdisjoint : ∀ w, t.isKnown w = true → s.isKnown w = false) :
    (e.assembleDirectionalPair source target).isOk = mergeable s t ∧
      ∀ event : CoreEvent, event.domain = source → (e.assembleSendPair event target).isOk =
        (event.targetWindows.isEmpty || mergeable s t) := by
  have hsend : presentable source target false = true := by
    obtain ⟨hpair, -⟩ := Bool.and_eq_true_iff.mp hpresent
    exact Bool.and_eq_true_iff.mpr ⟨hpair, rfl⟩
  have hlifted : ∀ {x : Except CanonicalPairError Session},
      (x.mapError pairErrorDetail).isOk = x.isOk := fun {x} => by cases x <;> rfl
  constructor
  · have hpair := pairedFromCanonicalImpl_isOk hpresent hs.toComponent ht.toComponent
      ⟨hs.revision, ht.revision⟩ hdisjoint
    rw [assembleDirectionalPair, hs.component, ht.targetComponent]
    exact hlifted.trans hpair
  · rintro event rfl
    rw [assembleSendPair, hs.component]
    cases event.targetWindows.isEmpty with
    | true =>
      exact hlifted.trans (pairedFromCanonicalImpl_absent hsend hs.toComponent hs.revision)
    | false =>
      have hpair := pairedFromCanonicalImpl_isOk hsend hs.toComponent ht.toComponent
        ⟨hs.revision, ht.revision⟩ hdisjoint
      rw [Bool.false_or, ht.targetComponent]
      exact hlifted.trans hpair

/-! ## A history that blocks a pair -/

/-- The engine after some requests, all of them modelled. -/
def run (e : Engine) (events : List CoreEvent) : Option Engine :=
  events.foldlM (fun e event => (e.handle event).map Prod.fst) e

/-- What `Retains` and disjointness ask, as a check. -/
def retainsBoth (e : Engine) (source target : OutputDomain) : Bool :=
  let retains (domain : OutputDomain) : Bool := e.sessions[domain.key]?.any fun s =>
    s.canonicalComponentUsable && !s.committedIsEmpty &&
      decide (s.domains = [domain.canonicalComponent]) && isRevision s.acceptedRevision
  retains source && retains target &&
    e.sessions[source.key]?.all fun s => e.sessions[target.key]?.all fun t =>
      (t.windows.keys ++ t.exceptions.keys).all fun w => !s.isKnown w

theorem retainsBoth_iff : e.retainsBoth source target = true ↔
    ∃ s t, e.Retains source s ∧ e.Retains target t ∧
      ∀ w, t.isKnown w = true → s.isKnown w = false := by
  have hretains : ∀ {domain : OutputDomain}, (e.sessions[domain.key]?.any fun s =>
      s.canonicalComponentUsable && !s.committedIsEmpty &&
        decide (s.domains = [domain.canonicalComponent]) && isRevision s.acceptedRevision) = true ↔
      ∃ s, e.Retains domain s := by
    intro domain
    simp only [Option.any_eq_true, Bool.and_eq_true, Bool.not_eq_true', decide_eq_true_eq]
    constructor
    · rintro ⟨s, hslot, ⟨⟨husable, hnonempty⟩, hbound⟩, hrevision⟩
      exact ⟨s, hslot, husable, hnonempty, hbound, hrevision⟩
    · rintro ⟨s, hslot, husable, hnonempty, hbound, hrevision⟩
      exact ⟨s, hslot, ⟨⟨husable, hnonempty⟩, hbound⟩, hrevision⟩
  have happart : ∀ {s t : Session}, ((t.windows.keys ++ t.exceptions.keys).all fun w =>
      !s.isKnown w) = true ↔ ∀ w, t.isKnown w = true → s.isKnown w = false := by
    intro s t
    simp only [List.all_eq_true, List.mem_append, Std.ExtTreeMap.mem_keys, Bool.not_eq_true',
      isKnown_iff]
  rw [retainsBoth, Bool.and_eq_true, Bool.and_eq_true, hretains, hretains]
  constructor
  · rintro ⟨⟨⟨s, hs⟩, t, ht⟩, hall⟩
    rw [hs.slot, ht.slot, Option.all_some, Option.all_some, happart] at hall
    exact ⟨s, t, hs, ht, hall⟩
  · rintro ⟨s, t, hs, ht, hdisjoint⟩
    refine ⟨⟨⟨s, hs⟩, t, ht⟩, ?_⟩
    rw [hs.slot, ht.slot, Option.all_some, Option.all_some, happart]
    exact hdisjoint

end Engine

namespace Sample

def carriedFloat (raw output : String) : EngineWindow := { carried raw output with floating := true }

def toggle (d : OutputDomain) (focused : String) (windows : List EngineWindow) (window : String) :
    CoreEvent :=
  request d.canonicalComponent focused windows (.toggleFloat window none)

/-- Three windows on the left output, the first sent to the right. -/
def sentFirst : CoreEvent :=
  { request leftOutput.canonicalComponent "u" [carried "u" "A", carried "v" "A", carried "w" "A"]
      (.sendToOutput "u" "B" "1" false) with
    targetDomain := some rightOutput.canonicalComponent }

/-- One window floats and unfloats on the left output. -/
def floatedLeft : List CoreEvent :=
  [sentFirst,
    toggle leftOutput "w" [carried "v" "A", carried "w" "A"] "w",
    toggle leftOutput "v" [carried "v" "A", carriedFloat "w" "A"] "w"]

/-- It shows up on the right output, floats and unfloats there too, and is
gone from the left one. -/
def floatedTwice : List CoreEvent :=
  floatedLeft ++
    [toggle rightOutput "w" [carried "u" "B", carried "w" "B"] "w",
      toggle rightOutput "u" [carried "u" "B", carriedFloat "w" "B"] "w",
      toggle leftOutput "v" [carried "v" "A"] "v"]

end Sample

namespace Engine

open Session

/-- After one round the pair assembles. -/
theorem assemblePair_floatedLeft :
    ∃ e s t, Sample.engine.run Sample.floatedLeft = some e ∧ e.Retains Sample.leftOutput s ∧
      e.Retains Sample.rightOutput t ∧
      (e.assembleDirectionalPair Sample.leftOutput Sample.rightOutput).isOk = mergeable s t ∧
      ∀ event : CoreEvent, event.domain = Sample.leftOutput →
        (e.assembleSendPair event Sample.rightOutput).isOk =
          (event.targetWindows.isEmpty || mergeable s t) := by
  have hall : (Sample.engine.run Sample.floatedLeft).any (fun e =>
      e.retainsBoth Sample.leftOutput Sample.rightOutput) = true := by decide +kernel
  obtain ⟨e, hrun, hboth⟩ := (Option.any_eq_true _ _).mp hall
  obtain ⟨s, t, hs, ht, hdisjoint⟩ := retainsBoth_iff.mp hboth
  exact ⟨e, s, t, hrun, hs, ht, assemblePair_isOk hs ht (by decide +kernel) hdisjoint⟩

/-- After the second round it does not, though no window is in both domains. -/
theorem assemblePair_blocked :
    ∃ e s t, Sample.engine.run Sample.floatedTwice = some e ∧ e.Retains Sample.leftOutput s ∧
      e.Retains Sample.rightOutput t ∧ (∀ w, t.isKnown w = true → s.isKnown w = false) ∧
      presentable Sample.leftOutput Sample.rightOutput true = true ∧
      (e.assembleDirectionalPair Sample.leftOutput Sample.rightOutput).isOk = false ∧
      (e.assembleSendPair { Sample.crossing 8 with targetWindows := [Sample.carried "u" "B"] }
        Sample.rightOutput).isOk = false := by
  have hall : (Sample.engine.run Sample.floatedTwice).any (fun e =>
      e.retainsBoth Sample.leftOutput Sample.rightOutput &&
        !(e.assembleDirectionalPair Sample.leftOutput Sample.rightOutput).isOk &&
        !(e.assembleSendPair { Sample.crossing 8 with targetWindows := [Sample.carried "u" "B"] }
          Sample.rightOutput).isOk) = true := by decide +kernel
  obtain ⟨e, hrun, hchecks⟩ := (Option.any_eq_true _ _).mp hall
  simp only [Bool.and_eq_true, Bool.not_eq_true'] at hchecks
  obtain ⟨⟨hboth, hmove⟩, hsend⟩ := hchecks
  obtain ⟨s, t, hs, ht, hdisjoint⟩ := retainsBoth_iff.mp hboth
  exact ⟨e, s, t, hrun, hs, ht, hdisjoint, by decide +kernel, hmove, hsend⟩

end Engine

end PlasmaTiler
