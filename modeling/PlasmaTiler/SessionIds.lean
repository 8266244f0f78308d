import PlasmaTiler.RecordIds

/-!
# The ids of a session

A session names ids in many places: its domains, the trees and links of its
worlds, the exceptions and marks, the focus and its stacks, the last active
leaves, the retained rectangles, a drag's capture, and the ids it keeps for
splitting a pair. `SpelledThroughout` lists them all.

The list is not an invariant as it stands. A stack is spelled because its
leaves resolve in the trees, the focus because it is the top of a stack or a
leaf of a tree, the domain of an exception because the topology checks hold.
So what is carried along is smaller: valid worlds and an orderly memory
(`Orderly`), links under their own windows, and the ids that are written and
not derived (`IdsSpelled`): the domains, the trees and links, the records, the
staged world, the capture. `Lettered` is that, kept by every call that carries
opaque ids; and a lettered session is spelled throughout.
-/

namespace PlasmaTiler

namespace Session

section
variable {s s' : Session} {desired : PendingDesired} {observed : SessionObservation}
  {window : WindowId}

/-! ## What is carried along -/

/-- Every id a session holds, in its accepted world, its records, the staged
world, the captured drag and the names kept for a split pair. What the session
has written is spelled, and what a client has named is opaque. -/
structure IdsSpelled (s : Session) : Prop where
  domain : ∀ d ∈ s.domains, d.key.Opaque
  accepted : WorldSpelled s.trees s.windows
  records : s.RecordsSpelled
  desired : ∀ desired, s.pendingDesired = some desired →
    WorldSpelled desired.trees desired.windows ∧ desired.RecordsSpelled
  drag : ∀ capture, s.drag = some capture → CaptureSpelled capture
  restore : ∀ {i j : NodeId}, s.canonicalPairTargetRestore[i]? = some j → i.Spelled ∧ j.Spelled

/-- The records of a session, as one. -/
def records (s : Session) : Exceptions × BTreeMap WindowId Rect × BTreeSet WindowId ×
    BTreeSet WindowId × BTreeMap DomainKey NodeId :=
  (s.exceptions, s.retainedFloatGeometry, s.automaticFixed, s.fixedTileOverride, s.lastActive)

theorem RecordsSpelled.of_records (h : s.RecordsSpelled) (heq : s'.records = s.records) :
    s'.RecordsSpelled := by
  simp only [records, Prod.mk.injEq] at heq
  obtain ⟨hexceptions, hretained, hautomatic, hoverride, hactive⟩ := heq
  refine ⟨?_, fun {w} hw => ?_, fun {key leaf} hleaf => ?_⟩
  · have hapart : Apart s.exceptions s.automaticFixed s.fixedTileOverride := h.apart
    rw [← hexceptions, ← hautomatic, ← hoverride] at hapart
    exact hapart
  · have hw : w ∈ s'.retainedFloatGeometry := hw
    rw [hretained] at hw
    exact h.retained hw
  · have hleaf : s'.lastActive[key]? = some leaf := hleaf
    rw [hactive] at hleaf
    exact h.active hleaf

/-- The ids of the two sessions are the same, except that the second may have
given up the staged world; a drag may have been taken or dropped. -/
structure SameIds (s s' : Session) : Prop where
  domains : s'.domains = s.domains
  trees : s'.trees = s.trees
  windows : s'.windows = s.windows
  records : s'.records = s.records
  desired : s'.pendingDesired = s.pendingDesired ∨ s'.pendingDesired = none
  restore : s'.canonicalPairTargetRestore = s.canonicalPairTargetRestore

/-- Whom the session belongs to, and how it is set. -/
def stamp (s : Session) : OwnerId × GenerationId × Bool × Bool × FixedSizePredicate :=
  (s.owner, s.generation, s.fixedAdmission, s.maximizedFocusFence, s.fixedPredicate)

/-- The ids are the same, and so are owner, generation and every setting. -/
structure SameSession (s s' : Session) : Prop extends SameIds s s' where
  stamp : s'.stamp = s.stamp

theorem SameSession.refl : s.SameSession s := ⟨⟨rfl, rfl, rfl, rfl, .inl rfl, rfl⟩, rfl⟩

theorem IdsSpelled.of_same (h : s.IdsSpelled) (hsame : s.SameIds s')
    (hdrag : ∀ capture, s'.drag = some capture → CaptureSpelled capture) : s'.IdsSpelled where
  domain := hsame.domains ▸ h.domain
  accepted := by
    rw [hsame.trees, hsame.windows]
    exact h.accepted
  records := h.records.of_records hsame.records
  desired desired hdesired := by
    rcases hsame.desired with heq | heq
    · exact h.desired desired (heq ▸ hdesired)
    · rw [heq] at hdesired
      cases hdesired
  drag := hdrag
  restore := by
    rw [hsame.restore]
    exact h.restore

theorem undragged (h : s.drag = none) : ∀ capture, s.drag = some capture → CaptureSpelled capture := by
  intro capture hcapture
  rw [h] at hcapture
  cases hcapture

theorem undesired (h : s.pendingDesired = none) : ∀ desired, s.pendingDesired = some desired →
    WorldSpelled desired.trees desired.windows ∧ desired.RecordsSpelled := by
  intro desired hdesired
  rw [h] at hdesired
  cases hdesired

theorem planBeginDrag_spelled {capture : DragState} (hvalid : s.Valid) (h : s.IdsSpelled)
    (hbegin : s.planBeginDrag window observed = .ok capture) : CaptureSpelled capture := by
  simp only [planBeginDrag, bind_eq_ok, refuseUnless, ensure_eq_ok, okOr_eq_ok, pure_eq_ok] at hbegin
  obtain ⟨_, -, _, -, _, -, _, -, _, -, _, -, _, -, link, hlink, domain, hdomain, _, -, _, -, _, -,
    source, -, rfl⟩ := hbegin
  obtain ⟨hmem, hkey⟩ := domainAt_eq_some hdomain
  exact ⟨linked_spelled hvalid h.accepted hlink, (h.accepted.window hlink).1,
    hkey ▸ h.domain domain hmem⟩

/-- The capture after any call is spelled. -/
theorem IdsSpelled.captured (hvalid : s.Valid) (h : s.IdsSpelled) (op : SessionOp)
    {capture : DragState} (hcapture : (s.next op).drag = some capture) :
    CaptureSpelled capture := by
  rcases next_capture hcapture with ⟨before, hbefore, hsame⟩ | ⟨window, observed, hbegin⟩
  · obtain ⟨hleaf, hwindow, hdomain⟩ := h.drag before hbefore
    rw [hsame]
    exact ⟨hleaf, hwindow, hdomain⟩
  · exact planBeginDrag_spelled hvalid h hbegin

theorem mem_updateDomain {domains : List OutputDomain} {key : DomainKey}
    {f : OutputDomain → OutputDomain} {d : OutputDomain} (h : d ∈ updateDomain domains key f) :
    d ∈ domains ∨ ∃ e ∈ domains, e.key = key ∧ d = f e := by
  induction domains with
  | nil => cases h
  | cons e rest ih =>
    rw [updateDomain] at h
    split at h
    · rcases List.mem_cons.mp h with rfl | h
      · exact .inr ⟨e, List.mem_cons_self, ‹_›, rfl⟩
      · exact .inl (List.mem_cons_of_mem _ h)
    · rcases List.mem_cons.mp h with rfl | h
      · exact .inl List.mem_cons_self
      · rcases ih h with h | ⟨k, hk, hkey⟩
        · exact .inl (List.mem_cons_of_mem _ h)
        · exact .inr ⟨k, List.mem_cons_of_mem _ hk, hkey⟩

/-- A moved value was there. -/
theorem mem_moveKey {ν : Type} {m : BTreeMap DomainKey ν} {source target key : DomainKey} {v : ν}
    (h : (moveKey m source target)[key]? = some v) : ∃ before : DomainKey, m[before]? = some v := by
  unfold moveKey at h
  split at h
  · rename_i moved hmoved
    rw [lookup_insert] at h
    split at h
    · cases h
      exact ⟨source, hmoved⟩
    · rw [lookup_erase] at h
      split at h
      · cases h
      · exact ⟨key, h⟩
  · exact ⟨key, h⟩

theorem relocated_records {source target : DomainKey} {bounds : Rect} {gap : Int}
    (h : s.RecordsSpelled) : (s.relocated source target bounds gap).RecordsSpelled := by
  refine ⟨⟨fun {w r} hr => ?_, h.apart.automatic, h.apart.tileOverride⟩, h.retained,
    fun {key leaf} hleaf => ?_⟩
  · have hmap : (s.relocated source target bounds gap).exceptions[w]? = _ :=
      Std.ExtTreeMap.getElem?_map
    have hr := hmap.symm.trans hr
    obtain ⟨before, hbefore, rfl⟩ := Option.map_eq_some_iff.mp hr
    have hopaque := h.apart.exception hbefore
    split
    · exact hopaque
    · exact hopaque
  · obtain ⟨_, hbefore⟩ := mem_moveKey hleaf
    exact h.active hbefore

theorem relocated_spelled {source target : DomainKey} {bounds : Rect} {gap : Int}
    (h : s.IdsSpelled) (htarget : target.Opaque) (hfree : target ∉ s.trees)
    (hdrag : s.drag = none) : (s.relocated source target bounds gap).IdsSpelled where
  domain d hd := by
    rcases mem_updateDomain hd with hd | ⟨e, he, -, rfl⟩
    · exact h.domain d hd
    · exact ⟨htarget.1, (h.domain e he).2⟩
  accepted := {
    tree := fun {key n} hn => by
      have hlookup : (s.relocated source target bounds gap).trees[key]? =
          if target = key then s.trees[source]? else if source = key then none else s.trees[key]? :=
        moveKey_lookup (Std.ExtTreeMap.getElem?_eq_none hfree)
      rw [treeAt, hlookup] at hn
      split at hn
      · exact h.accepted.tree hn
      · split at hn
        · cases hn
        · exact h.accepted.tree hn
    window := fun {w link} hlink => by
      have hmap : (s.relocated source target bounds gap).windows[w]? = _ :=
        Std.ExtTreeMap.getElem?_map
      rw [hmap] at hlink
      obtain ⟨before, hbefore, rfl⟩ := Option.map_eq_some_iff.mp hlink
      have hopaque := h.accepted.window hbefore
      split
      · exact hopaque
      · exact hopaque }
  records := relocated_records h.records
  desired := h.desired
  drag capture hcapture := by
    have hnone : s.drag = some capture := hcapture
    rw [hdrag] at hnone
    cases hnone
  restore := h.restore

theorem proposal_spelled {p : Proposal} (hvalid : s.Valid) (h : s.IdsSpelled) (hp : p.Opaque) :
    (s.proposal p).1.IdsSpelled := by
  have hdrag : ∀ capture, (s.proposal p).1.drag = some capture → CaptureSpelled capture :=
    fun capture hcapture => h.captured hvalid (.propose p) hcapture
  have heffect := @proposal_effect s p
  generalize hanswer : s.proposal p = answer at heffect hdrag ⊢
  obtain ⟨s', result⟩ := answer
  cases heffect with
  | unchanged _ => exact h
  | cleared _ | halted _ _ => exact h.of_same ⟨rfl, rfl, rfl, rfl, .inr rfl, rfl⟩ hdrag
  | snappedBack | unsupported => exact h.of_same ⟨rfl, rfl, rfl, rfl, .inl rfl, rfl⟩ hdrag
  | @staged basis _ _ _ _ hbasis _ _ _ =>
    obtain ⟨desired, hplans, hdesired, -⟩ := proposal_plans hanswer
    have hworld := hplans.spelled hvalid h.accepted h.drag hp
    have hrecords := hplans.records hvalid h.accepted h.records hworld hp
    have hsame : basis.domains = s.domains ∧ basis.trees = s.trees ∧ basis.windows = s.windows ∧
        basis.canonicalPairTargetRestore = s.canonicalPairTargetRestore ∧
        basis.RecordsSpelled := by
      cases hbasis with
      | self _ => exact ⟨rfl, rfl, rfl, rfl, h.records⟩
      | unfloated _ hrecord hplan =>
        obtain ⟨_, _, -, -, -, rfl, -⟩ := planUnfloat_ok hplan
        exact ⟨rfl, rfl, rfl, rfl, unfloated_records h.records (h.records.apart.exception hrecord).1⟩
    obtain ⟨hdomains, htrees, hwindows, hrestore, hbasis⟩ := hsame
    have haccepted : WorldSpelled basis.trees basis.windows := by
      rw [htrees, hwindows]
      exact h.accepted
    have hback : ∀ {i j : NodeId}, basis.canonicalPairTargetRestore[i]? = some j →
        i.Spelled ∧ j.Spelled := by
      rw [hrestore]
      exact h.restore
    refine ⟨hdomains ▸ h.domain, haccepted, hbasis, fun d hd => ?_, hdrag, hback⟩
    obtain rfl := Option.some.inj (hdesired.symm.trans hd)
    exact ⟨hworld, hrecords⟩

/-- A commit takes the staged world over. -/
theorem Verified.spelled {result : Except VerifyError Commit} (h : s.IdsSpelled)
    (hverified : Verified s s' result) : s'.IdsSpelled := by
  cases hverified with
  | cleared _ | halted _ => exact h.of_same ⟨rfl, rfl, rfl, rfl, .inr rfl, rfl⟩ (undragged rfl)
  | unchanged _ _ => exact h
  | bare _ _ _ => exact h.of_same ⟨rfl, rfl, rfl, rfl, .inl rfl, rfl⟩ h.drag
  | committed _ _ hdesired =>
    obtain ⟨hworld, hrecords⟩ := h.desired _ hdesired
    exact ⟨h.domain, hworld, ⟨hrecords.apart.retain, hrecords.retained, hrecords.active⟩,
      undesired rfl, h.drag, h.restore⟩

theorem Convergence.spelled {observedFocus : Option WindowId}
    {result : Except ProposeError ObservationConvergence} (h : s.IdsSpelled)
    (hobserved : observed.Opaque) (hconverged : Convergence s observed observedFocus s' result) :
    s'.IdsSpelled := by
  cases hconverged with
  | unchanged => exact h
  | halted _ => exact h.of_same ⟨rfl, rfl, rfl, rfl, .inr rfl, rfl⟩ (undragged rfl)
  | refocused _ _ _ _ _ =>
    exact ⟨h.domain, h.accepted, ⟨h.records.apart, h.records.retained,
      fun hleaf => updatedLastActive_spelled h.records h.accepted hleaf⟩, h.desired, h.drag,
      h.restore⟩
  | converged _ _ _ hplan _ _ =>
    have hworld := planConvergence_spelled h.accepted hobserved hplan
    exact ⟨h.domain, hworld, ⟨planConvergence_apart h.records hobserved hplan, h.records.retained,
      fun hleaf => updatedLastActive_spelled h.records hworld hleaf⟩, h.desired, h.drag, h.restore⟩

theorem updateDomainGaps_spelled {key : DomainKey} {bounds : Rect} {gap : Int}
    (h : s.IdsSpelled) : (s.updateDomainGaps key bounds gap).1.IdsSpelled := by
  unfold updateDomainGaps
  split
  · exact h
  · dsimp only
    split
    · refine ⟨fun d hd => ?_, h.accepted, h.records, h.desired, h.drag, h.restore⟩
      rcases mem_updateDomain hd with hd | ⟨e, he, -, rfl⟩
      · exact h.domain d hd
      · exact h.domain e he
    · exact h

theorem relocateDomain_spelled {source target : DomainKey} {bounds : Rect} {gap : Int}
    (h : s.IdsSpelled) (htarget : target.Opaque) :
    (s.relocateDomain source target bounds gap).1.IdsSpelled := by
  unfold relocateDomain
  split
  · exact h
  · rename_i hguard
    simp only [Bool.or_eq_true, not_or, Bool.not_eq_true', Bool.not_eq_false, Bool.not_eq_true,
      contains_eq_false] at hguard
    have hsettled : s.settledWorld = true := hguard.1.1.1.1.1.2
    dsimp only
    split
    · exact relocated_spelled h htarget hguard.1.1.1.1.2 (settledWorld_iff.mp hsettled).2.2.2
    · exact h

theorem syncFocusFromWindow_same {domain : DomainKey} :
    s.SameSession (s.syncFocusFromWindow domain window).1 := by
  unfold syncFocusFromWindow
  split
  · exact ⟨⟨rfl, rfl, rfl, rfl, .inl rfl, rfl⟩, rfl⟩
  · split
    · exact ⟨⟨rfl, rfl, rfl, rfl, .inl rfl, rfl⟩, rfl⟩
    · split
      · exact ⟨⟨rfl, rfl, rfl, rfl, .inl rfl, rfl⟩, rfl⟩
      · exact ⟨⟨rfl, rfl, rfl, rfl, .inl rfl, rfl⟩, rfl⟩

theorem acknowledge_same {ack : AdapterAck} : s.SameSession (s.acknowledge ack).1 := by
  have hanswer := @acknowledge_acknowledged s ack
  generalize s.acknowledge ack = answer at hanswer ⊢
  obtain ⟨s', result⟩ := answer
  cases hanswer with
  | cleared _ | halted _ => exact ⟨⟨rfl, rfl, rfl, rfl, .inr rfl, rfl⟩, rfl⟩
  | unchanged _ _ | acked _ _ => exact ⟨⟨rfl, rfl, rfl, rfl, .inl rfl, rfl⟩, rfl⟩

theorem cancelUnackedPending_same {correlationId : CorrelationId} {baseRevision : Nat} :
    s.SameSession (s.cancelUnackedPending correlationId baseRevision).1 := by
  rcases @cancelUnackedPending_cases s correlationId baseRevision with heq | ⟨-, heq⟩
  · rw [heq]
    exact ⟨⟨rfl, rfl, rfl, rfl, .inl rfl, rfl⟩, rfl⟩
  · rw [heq]
    exact ⟨⟨rfl, rfl, rfl, rfl, .inr rfl, rfl⟩, rfl⟩

/-- The drag calls touch the capture only. -/
theorem withDrag_same {P : Prop} (h : s' = s ∨ P ∧ ∃ drag, s' = s.withDrag (some drag)) :
    s.SameSession s' := by
  rcases h with rfl | ⟨-, drag, rfl⟩
  · exact ⟨⟨rfl, rfl, rfl, rfl, .inl rfl, rfl⟩, rfl⟩
  · exact ⟨⟨rfl, rfl, rfl, rfl, .inl rfl, rfl⟩, rfl⟩

theorem verification_spelled {v : Verification} (h : s.IdsSpelled) :
    (s.verification v).1.IdsSpelled := by
  rcases @verification_verified s v with hanswer | ⟨s', commit, hanswer, heq⟩
  · exact hanswer.spelled h
  · rw [heq]
    obtain ⟨hdomain, haccepted, hrecords, hdesired, hdrag, hrestore⟩ := hanswer.spelled h
    -- the last active leaves are the session's from before the commit
    exact ⟨hdomain, haccepted, ⟨hrecords.apart, hrecords.retained, h.records.active⟩, hdesired,
      hdrag, hrestore⟩

/-- A call that carries opaque ids keeps the session's ids spelled. -/
theorem IdsSpelled.next (hvalid : s.Valid) (h : s.IdsSpelled) {op : SessionOp} (hop : op.Opaque) :
    (s.next op).IdsSpelled := by
  have hdrag : ∀ capture, (s.next op).drag = some capture → CaptureSpelled capture :=
    fun capture hcapture => h.captured hvalid op hcapture
  cases op with
  | propose p => exact proposal_spelled hvalid h hop
  | acknowledge ack => exact h.of_same acknowledge_same.toSameIds hdrag
  | verify v => exact verification_spelled h
  | cancelUnackedPending correlationId baseRevision =>
    exact h.of_same cancelUnackedPending_same.toSameIds hdrag
  | noteAdapterLoss | notePostconditionMismatch =>
    exact h.of_same ⟨rfl, rfl, rfl, rfl, .inr rfl, rfl⟩ hdrag
  | convergeObservation observation observedFocus =>
    exact convergeObservation_convergence.spelled h hop
  | updateDomainGaps key bounds gap => exact updateDomainGaps_spelled h
  | relocateDomain source target bounds gap => exact relocateDomain_spelled h hop
  | syncFocusFromWindow domain window => exact h.of_same syncFocusFromWindow_same.toSameIds hdrag
  | beginDrag window observed => exact h.of_same (withDrag_same beginDrag_withDrag).toSameIds hdrag
  | carryDragPrior carried => exact h.of_same (withDrag_same carryDragPrior_withDrag).toSameIds hdrag
  | previewDrag x y observed => exact h.of_same (withDrag_same previewDrag_withDrag).toSameIds hdrag
  | cancelDrag =>
    have hcancel : (s.next .cancelDrag) = s.withDrag none := cancelDrag_withDrag
    rw [hcancel] at hdrag ⊢
    exact h.of_same ⟨rfl, rfl, rfl, rfl, .inl rfl, rfl⟩ hdrag
  | setFixedSizeAdmission enabled | setMaximizedFocusFence enabled
  | setFixedSizePredicate predicate => exact h.of_same ⟨rfl, rfl, rfl, rfl, .inl rfl, rfl⟩ hdrag

/-- Valid worlds and an orderly memory over spelled ids, each link under its
own window. -/
structure Lettered (s : Session) : Prop extends Orderly s where
  keyed : s.LinksKeyed
  ids : s.IdsSpelled

theorem Lettered.next (h : s.Lettered) {op : SessionOp} (hop : op.Opaque) :
    (s.next op).Lettered :=
  ⟨h.toOrderly.next op, h.keyed.step h.worlds.accepted (next_step op),
    h.ids.next h.worlds.accepted hop⟩

/-! ## All ids -/

/-- Every id of a session, by where it stands: what a client named is opaque,
what was minted is spelled. -/
structure SpelledThroughout (s : Session) : Prop where
  domain : ∀ d ∈ s.domains, d.key.Opaque
  slot : ∀ key ∈ s.trees, key.Opaque
  tree : ∀ {key : DomainKey} {n : Node}, treeAt s.trees key = some n → n.Over Id.Spelled
  link : ∀ {w : WindowId} {link : WindowLink}, s.windows[w]? = some link →
    w.Opaque ∧ link.window.Opaque ∧ link.leaf.Spelled ∧ link.key.Opaque
  exception : ∀ {w : WindowId} {record : ExceptionRecord}, s.exceptions[w]? = some record →
    w.Opaque ∧ record.window.Opaque ∧ record.key.Opaque
  focus : ∀ {key : DomainKey} {leaf : NodeId}, s.focusedDomain = some key →
    s.focusedLeaf = some leaf → key.Opaque ∧ leaf.Spelled
  stack : ∀ {key : DomainKey} {leaves : List NodeId}, s.focusStack[key]? = some leaves →
    key.Opaque ∧ ∀ leaf ∈ leaves, leaf.Spelled
  active : ∀ {key : DomainKey} {leaf : NodeId}, s.lastActive[key]? = some leaf →
    key.Opaque ∧ leaf.Spelled
  retained : ∀ {w : WindowId}, w ∈ s.retainedFloatGeometry → w.Opaque
  automatic : ∀ {w : WindowId}, w ∈ s.automaticFixed → w.Opaque
  tileOverride : ∀ {w : WindowId}, w ∈ s.fixedTileOverride → w.Opaque
  restore : ∀ {i j : NodeId}, s.canonicalPairTargetRestore[i]? = some j → i.Spelled ∧ j.Spelled
  drag : ∀ capture, s.drag = some capture → CaptureSpelled capture

/-- A focus that resolves is an opaque domain and a spelled leaf. -/
theorem Lettered.focus_spelled (h : s.Lettered) {key : DomainKey} {leaf : NodeId}
    (hvalid : validFocus s.trees s.windows (some key) (some leaf) = true) :
    key.Opaque ∧ leaf.Spelled := by
  obtain ⟨d, hd, rfl⟩ := domain_of_focus h.worlds.accepted hvalid
  exact ⟨h.ids.domain d hd, h.ids.accepted.leaf (validFocus_some.mp hvalid).1⟩

theorem Lettered.spelledThroughout (h : s.Lettered) : s.SpelledThroughout := by
  have hvalid : s.Valid := h.worlds.accepted
  have hslot : ∀ key ∈ s.trees, key.Opaque := by
    intro key hkey
    obtain ⟨d, hd, rfl⟩ := hvalid.domain_of_slot key hkey
    exact h.ids.domain d hd
  refine ⟨h.ids.domain, hslot, h.ids.accepted.tree, fun {w link} hlink => ?_,
    fun {w record} hrecord => ?_, fun {key leaf} hkey hleaf => ?_, fun {key leaves} hstack => ?_,
    fun {key leaf} hactive => ?_, h.ids.records.retained, h.ids.records.apart.automatic,
    h.ids.records.apart.tileOverride, h.ids.restore, h.ids.drag⟩
  · obtain ⟨hw, hwindow⟩ := h.ids.accepted.window hlink
    have hfocus := validFocus_of_link hvalid hlink
    obtain ⟨hkey, hleaf⟩ := h.focus_spelled hfocus
    exact ⟨hw, hwindow, hleaf, hkey⟩
  · obtain ⟨hw, hwindow⟩ := h.ids.records.apart.exception hrecord
    have hhomed := hvalid.exception_valid hrecord
    simp only [validException, Bool.and_eq_true, List.any_eq_true, beq_iff_eq] at hhomed
    obtain ⟨-, d, hd, houtput, hworkspace⟩ := hhomed
    have hkey : d.key = record.key := DomainKey.ext houtput hworkspace
    exact ⟨hw, hwindow, hkey ▸ h.ids.domain d hd⟩
  · have hfocus := hvalid.focus
    rw [hkey, hleaf] at hfocus
    exact h.focus_spelled hfocus
  · obtain ⟨hne, -, hlive⟩ := h.stacked.live hstack
    obtain ⟨leaf, hleaf⟩ := List.exists_mem_of_ne_nil leaves hne
    exact ⟨(h.focus_spelled (hlive leaf hleaf)).1,
      fun leaf hleaf => (h.focus_spelled (hlive leaf hleaf)).2⟩
  · obtain ⟨d, hd, rfl⟩ := h.remembers.active hactive
    exact ⟨h.ids.domain d hd, h.ids.records.active hactive⟩

/-- Any sequence of calls that carry opaque ids. -/
theorem Lettered.run (h : s.Lettered) {ops : List SessionOp} (hops : ∀ op ∈ ops, op.Opaque) :
    (machine.run s ops).Lettered := by
  induction ops generalizing s with
  | nil => exact h
  | cons op ops ih =>
    obtain ⟨hop, hops⟩ := List.forall_mem_cons.mp hops
    exact ih (h.next hop) hops

/-- A fresh session has no tree. -/
theorem new_lettered {owner : OwnerId} {generation : GenerationId} {revision fingerprint : Nat}
    {domains : List OutputDomain} (hdomains : ∀ d ∈ domains, d.key.Opaque)
    (h : new owner generation revision fingerprint domains = .ok s) : s.Lettered := by
  have hnew : s.IsNew := ⟨owner, generation, revision, fingerprint, domains, h⟩
  obtain ⟨hblank, -, -, -, -, hdomain⟩ := new_ok h
  have htrees : ∀ {key : DomainKey} {n : Node}, treeAt s.trees key ≠ some n := by
    intro key n hn
    rw [treeAt_eq_some, hblank.trees, lookup_slots] at hn
    split at hn
    · cases hn
    · simp at hn
  obtain ⟨hrecords, hrestore⟩ : s.RecordsSpelled ∧ s.canonicalPairTargetRestore = ∅ := by
    simp only [new, bind_eq_ok, pure_eq_ok] at h
    obtain ⟨_, -, _, -, _, -, _, -, _, -, _, -, r, -, rfl⟩ := h
    refine ⟨⟨.empty, fun {w} hw => ?_, fun {key leaf} hleaf => ?_⟩, rfl⟩
    · exact absurd hw Std.ExtTreeMap.not_mem_empty
    · have hnone : (∅ : BTreeMap DomainKey NodeId)[key]? = some leaf := hleaf
      simp at hnone
  refine ⟨(Obtainable.new hnew).orderly, (linksKeyed_invariant.initial s hnew).2,
    ⟨hdomain ▸ hdomains, ⟨fun hn => absurd hn htrees, ?_⟩, hrecords, undesired hblank.desired,
      undragged hblank.drag, ?_⟩⟩
  · intro w link hlink
    rw [hblank.windows] at hlink
    simp at hlink
  · intro i j hij
    rw [hrestore] at hij
    simp at hij

end

end Session

end PlasmaTiler
