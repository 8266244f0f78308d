import PlasmaTiler.Halves
import PlasmaTiler.SpelledIds

/-!
# The ids a session keeps records under

Beside its trees and links a session keeps records: the windows held out of
the trees, the rectangles retained for floats, the automatic marks and the
tile wins, and the last active leaf of each domain. A window enters them in
three ways only. It is admitted by a command, it is observed by a convergence,
or it was already known when it was floated or tiled again. So the windows of
the records are opaque when those a client names are.

A last active leaf is written when the focus resolves, and a focus that
resolves is a leaf of a tree; so these leaves are spelled as the trees are.
They may outlive the leaf they name, which is why they are a record of their
own here and not a fact about the trees.

`Apart` is the part a convergence rebuilds pass by pass; `RecordsSpelled` is
the whole, for the accepted records and for those a plan stages.
-/

namespace PlasmaTiler

/-! ## Windows held apart -/

/-- The exceptions, the automatic marks and the tile wins are those of opaque
windows. -/
structure Apart (exceptions : Exceptions) (automatic tileOverride : BTreeSet WindowId) : Prop where
  exception : ∀ {w : WindowId} {r : ExceptionRecord}, exceptions[w]? = some r →
    w.Opaque ∧ r.window.Opaque
  automatic : ∀ {w : WindowId}, w ∈ automatic → w.Opaque
  tileOverride : ∀ {w : WindowId}, w ∈ tileOverride → w.Opaque

namespace Apart

variable {exceptions : Exceptions} {automatic tileOverride : BTreeSet WindowId} {w : WindowId}
  {r : ExceptionRecord}

theorem empty : Apart ∅ ∅ ∅ where
  exception h := by simp at h
  automatic h := by simp at h
  tileOverride h := by simp at h

theorem insert (h : Apart exceptions automatic tileOverride) (hw : w.Opaque) (hr : r.window.Opaque) :
    Apart (exceptions.insert w r) automatic tileOverride where
  exception hlookup := by
    rw [lookup_insert] at hlookup
    split at hlookup
    · rename_i heq
      cases hlookup
      exact ⟨heq ▸ hw, hr⟩
    · exact h.exception hlookup
  automatic := h.automatic
  tileOverride := h.tileOverride

theorem erase (h : Apart exceptions automatic tileOverride) :
    Apart (exceptions.erase w) automatic tileOverride where
  exception hlookup := by
    rw [lookup_erase] at hlookup
    split at hlookup
    · cases hlookup
    · exact h.exception hlookup
  automatic := h.automatic
  tileOverride := h.tileOverride

theorem mark (h : Apart exceptions automatic tileOverride) (hw : w.Opaque) :
    Apart exceptions (automatic.insert w) tileOverride where
  exception := h.exception
  automatic hmem := by
    rcases mem_set_insert.mp hmem with rfl | hmem
    · exact hw
    · exact h.automatic hmem
  tileOverride := h.tileOverride

theorem unmark (h : Apart exceptions automatic tileOverride) :
    Apart exceptions (automatic.erase w) tileOverride where
  exception := h.exception
  automatic hmem := h.automatic (mem_set_erase.mp hmem).2
  tileOverride := h.tileOverride

theorem win (h : Apart exceptions automatic tileOverride) (hw : w.Opaque) :
    Apart exceptions automatic (tileOverride.insert w) where
  exception := h.exception
  automatic := h.automatic
  tileOverride hmem := by
    rcases mem_set_insert.mp hmem with rfl | hmem
    · exact hw
    · exact h.tileOverride hmem

theorem yield (h : Apart exceptions automatic tileOverride) :
    Apart exceptions automatic (tileOverride.erase w) where
  exception := h.exception
  automatic := h.automatic
  tileOverride hmem := h.tileOverride (mem_set_erase.mp hmem).2

theorem retain {p q : WindowId → Bool} (h : Apart exceptions automatic tileOverride) :
    Apart exceptions (retain automatic p) (retain tileOverride q) where
  exception := h.exception
  automatic hmem := h.automatic (mem_retain.mp hmem).1
  tileOverride hmem := h.tileOverride (mem_retain.mp hmem).1

end Apart

/-- The world in the making keeps its records under opaque windows, and each
window in one of them alone. -/
def Converging.Held (c : Converging) : Prop := Apart c.exceptions c.automatic c.tileOverride

/-! ## Records -/

/-- Every id a world keeps records under: exceptions, the two marks and
retained rectangles by opaque windows, and last-active leaves that are
spelled. -/
structure PendingDesired.RecordsSpelled (d : PendingDesired) : Prop where
  apart : Apart d.exceptions d.automaticFixed d.fixedTileOverride
  retained : ∀ {w : WindowId}, w ∈ d.retainedFloatGeometry → w.Opaque
  active : ∀ {key : DomainKey} {leaf : NodeId}, d.lastActive[key]? = some leaf → leaf.Spelled

namespace Session

section
variable {s : Session} {desired : PendingDesired} {observed : SessionObservation}
  {trees : Trees} {windows : Links} {window : WindowId}

/-- The records the session has accepted are spelled, exceptions, marks,
retained rectangles and last-active leaves alike. -/
def RecordsSpelled (s : Session) : Prop := s.accepted.RecordsSpelled

/-- The leaf that becomes the last active one resolves. -/
theorem updatedLastActive_spelled {focusDomain : Option DomainKey} {focusLeaf : Option NodeId}
    (h : s.RecordsSpelled) (hworld : WorldSpelled trees windows) {key : DomainKey} {leaf : NodeId}
    (hleaf : (s.updatedLastActive focusDomain focusLeaf trees windows)[key]? = some leaf) :
    leaf.Spelled := by
  unfold updatedLastActive at hleaf
  split at hleaf
  · split at hleaf
    · rename_i hvalid
      rw [lookup_insert] at hleaf
      split at hleaf
      · cases hleaf
        exact hworld.leaf (validFocus_some.mp hvalid).1
      · exact h.active hleaf
    · exact h.active hleaf
  · exact h.active hleaf

/-- A known window is opaque. -/
theorem known_isOpaque (hs : WorldSpelled s.trees s.windows) (h : s.RecordsSpelled)
    (hknown : s.isKnown window = true) : window.Opaque := by
  rw [isKnown, Bool.or_eq_true, Std.ExtTreeMap.contains_iff_mem,
    Std.ExtTreeMap.contains_iff_mem] at hknown
  rcases hknown with hknown | hknown
  · obtain ⟨link, hlink⟩ := mem_iff_lookup.mp hknown
    exact (hs.window hlink).1
  · obtain ⟨record, hrecord⟩ := mem_iff_lookup.mp hknown
    exact (h.apart.exception hrecord).1

/-! ## What is staged -/

theorem planAdmit_records {c : AdmitCommand} {staging : Staging LifecyclePlan}
    (hs : WorldSpelled s.trees s.windows) (h : s.RecordsSpelled) (hwindow : c.window.Opaque)
    (hplan : s.planAdmit c observed = .ok staging) : staging.desired.RecordsSpelled := by
  have hworld := planAdmit_spelled hs hwindow hplan
  simp only [planAdmit, bind_eq_ok, refuseUnless, ensure_eq_ok, okOr_eq_ok] at hplan
  obtain ⟨_, -, _, -, entry, -, _, -, _, -, _, -, _, -, _, -, hplan⟩ := hplan
  split at hplan
  · simp only [planAdmitDeferred, bind_eq_ok, refuseUnless, ensure_eq_ok, pure_eq_ok] at hplan
    obtain ⟨_, -, rfl⟩ := hplan
    exact ⟨h.apart.insert hwindow hwindow, h.retained, h.active⟩
  · split at hplan
    · cases hplan
      exact ⟨(h.apart.insert hwindow hwindow).mark hwindow, h.retained, h.active⟩
    · simp only [planAdmitTiled, bind_eq_ok, refuseUnless, ensure_eq_ok, pure_eq_ok] at hplan
      obtain ⟨_, -, _, -, _, -, _, -, _, -, rfl⟩ := hplan
      refine ⟨?_, h.retained, fun hleaf => updatedLastActive_spelled h hworld hleaf⟩
      -- the tile win is recorded with the admission, or nothing is
      dsimp only
      split
      · exact h.apart.unmark.win hwindow
      · exact h.apart

theorem planRemove_records {staging : Staging LifecyclePlan}
    (hs : WorldSpelled s.trees s.windows) (h : s.RecordsSpelled)
    (hplan : s.planRemove window observed = .ok staging) : staging.desired.RecordsSpelled := by
  have hworld := planRemove_spelled hs hplan
  rcases planRemove_cases hplan with ⟨record, -, -, rfl⟩ | ⟨link, -, -, htiled⟩
  · exact ⟨h.apart.erase, h.retained, fun hleaf => updatedLastActive_spelled h hs hleaf⟩
  · rw [(planRemoveTiled_ok htiled).1] at hworld ⊢
    exact ⟨h.apart, h.retained, fun hleaf => updatedLastActive_spelled h hworld hleaf⟩

/-- A send changes no record but the last active leaf. -/
theorem planSend_records {target : DomainKey} {follow cross : Bool} {trace : SendPlacementTrace}
    {staging : Staging LifecyclePlan} (h : s.RecordsSpelled)
    (hworld : WorldSpelled staging.desired.trees staging.desired.windows)
    (hplan : s.planSend window target follow cross observed = .ok (staging, trace)) :
    staging.desired.RecordsSpelled := by
  simp only [planSend, bind_eq_ok, refuseUnless, ensure_eq_ok, okOr_eq_ok, pure_eq_ok,
    Prod.mk.injEq] at hplan
  obtain ⟨_, -, _, -, link, -, domain, -, leaf, -, _, -, _, -, _, -, _, -, d, -, _, -, _, -,
    ⟨n, ids⟩, -, _, -, _, -, _, -, _, -, rfl, -⟩ := hplan
  exact ⟨h.apart, h.retained, fun hleaf => updatedLastActive_spelled h hworld hleaf⟩

theorem unfloated_records {retained : Option Rect} (h : s.RecordsSpelled) (hwindow : window.Opaque) :
    (s.unfloated window retained).RecordsSpelled := by
  refine ⟨h.apart.erase, fun {w} hw => ?_, h.active⟩
  cases retained with
  | none => exact h.retained hw
  | some rect =>
    obtain ⟨kept, hkept⟩ := mem_iff_lookup.mp hw
    have hkept : (s.retainedFloatGeometry.insert window rect)[w]? = some kept := hkept
    rw [lookup_insert] at hkept
    split at hkept
    · rename_i heq
      exact heq ▸ hwindow
    · exact h.retained (mem_iff_lookup.mpr ⟨kept, hkept⟩)

/-- A float joins the records of the removal it edits. -/
theorem floated_records {target : ObservedWindow} {effective : Rect} (h : desired.RecordsSpelled)
    (hwindow : window.Opaque) : (desired.floated target window effective).RecordsSpelled := by
  refine ⟨(h.apart.unmark.yield).insert hwindow hwindow, fun {w} hw => ?_, h.active⟩
  obtain ⟨kept, hkept⟩ := mem_iff_lookup.mp hw
  have hkept : (desired.retainedFloatGeometry.insert window effective)[w]? = some kept := hkept
  rw [lookup_insert] at hkept
  split at hkept
  · rename_i heq
    exact heq ▸ hwindow
  · exact h.retained (mem_iff_lookup.mpr ⟨kept, hkept⟩)

/-- A resize changes no record. -/
theorem ResizedWorld.records (h : s.ResizedWorld desired) (hs : s.RecordsSpelled) :
    desired.RecordsSpelled := by
  obtain ⟨key, _, tree, updated, -, -, -, -, hdesired⟩ := h.resized
  rw [hdesired]
  exact ⟨hs.apart, hs.retained, hs.active⟩

/-- Every plan stages records of opaque windows and spelled leaves. An
exception that is new was known before or is named by the proposal. -/
theorem Plans.records {p : Proposal} (hvalid : s.Valid) (hs : WorldSpelled s.trees s.windows)
    (h : s.RecordsSpelled) (hworld : WorldSpelled desired.trees desired.windows) (hp : p.Opaque)
    (hplans : s.Plans p desired) : desired.RecordsSpelled := by
  cases hplans with
  | admits hplan => exact planAdmit_records hs h hp hplan
  | remove hplan => exact planRemove_records hs h hplan
  | @unfloat window _ _ _ _ _ _ _ _ hrecord hunfloat hplan =>
    obtain ⟨_, retained, -, -, -, rfl, -⟩ := planUnfloat_ok hunfloat
    have hcandidate : WorldSpelled (s.unfloated window retained).trees
        (s.unfloated window retained).windows := hs
    exact planAdmit_records hcandidate (unfloated_records h (h.apart.exception hrecord).1)
      (planAdmit_isOpaque (SessionObservation.Opaque.settled hp) hplan) hplan
  | @float window _ _ _ _ _ _ _ _ hfloat hplan =>
    have hknown : s.isKnown window = true := by
      rw [isKnown, (planFloat_ok hfloat).2, Bool.true_or]
    exact floated_records (planRemove_records hs h hplan) (known_isOpaque hs h hknown)
  | send hplan => exact planSend_records h hworld hplan
  | orientation _ hplan =>
    obtain ⟨_, _, _, _, _, -, -, -, -, hdesired, -⟩ := planToggleOrientation_ok hplan
    rw [hdesired]
    exact ⟨h.apart, h.retained, fun hleaf => updatedLastActive_spelled h hs hleaf⟩
  | fittedAdmit hplan =>
    obtain ⟨_, -, -, -, hdesired, -⟩ := planFittedAdmit_ok hplan
    rw [hdesired] at hworld ⊢
    exact ⟨h.apart, h.retained, fun hleaf => updatedLastActive_spelled h hworld hleaf⟩
  | move hplan =>
    obtain ⟨_, _, _, -, -, -, -, -, hdesired, -⟩ := planMoveWithSameAxis_ok hplan
    rw [hdesired] at hworld ⊢
    exact ⟨h.apart, h.retained, fun hleaf => updatedLastActive_spelled h hworld hleaf⟩
  | focus hplan =>
    obtain ⟨_, hdesired, -⟩ := planFocusIn_ok hvalid hplan
    rw [hdesired]
    exact ⟨h.apart, h.retained, fun hleaf => updatedLastActive_spelled h hs hleaf⟩
  | crossOutputFocus hplan =>
    obtain ⟨_, _, hdesired, -⟩ := planCrossOutputFocus_ok hplan
    rw [hdesired]
    exact ⟨h.apart, h.retained, fun hleaf => updatedLastActive_spelled h hs hleaf⟩
  | resize hplan => exact (planKeyboardResize_ok hplan).records h
  | pointerResize hplan => exact (planPointerResize_ok hplan).records h
  | pointerResizeCorner hplan => exact (planPointerResizeCorner_ok hplan).records h
  | drop hcapture hplan =>
    obtain ⟨_, _, _, _, _, _, -, -, -, -, hdesired⟩ := (planDrop_ok hcapture hplan).dropped
    rw [hdesired]
    exact ⟨h.apart, h.retained, h.active⟩

/-! ## Convergence -/

section
variable {c : Converging} {p : WindowId × ObservedWindow}

theorem removeStep_apart {observed : BTreeMap WindowId ObservedWindow} {c' : Converging}
    (hc : c.Held) (h : removeStep observed c window = some c') : c'.Held := by
  unfold removeStep at h
  split at h
  · cases h
    exact hc
  · split at h
    · cases h
      exact hc
    · split at h
      · cases h
        exact hc.erase
      · cases h

theorem floatStep_apart (hp : p.1.Opaque) (hc : c.Held) : (s.floatStep c p).Held := by
  unfold floatStep
  split
  · exact hc
  · split
    · exact hc
    · exact hc.insert hp hp

theorem retileStep_apart {observed : BTreeMap WindowId ObservedWindow}
    (hobserved : ∀ (w : WindowId) (e : ObservedWindow), observed[w]? = some e → w.Opaque)
    (hc : c.Held) : (s.retileStep observed c window).Held := by
  unfold retileStep
  split
  · exact hc
  · rename_i entry hentry
    have hwindow := hobserved window entry hentry
    dsimp only
    split
    · exact hc
    · split
      · exact hc.mark hwindow
      · split
        · exact hc.unmark.erase.win hwindow
        · exact hc.unmark.erase

theorem stickyStep_apart (hc : c.Held) : (stickyStep c p).Held := by
  unfold stickyStep
  split
  · exact hc.unmark
  · exact hc

theorem originStep_apart (hp : p.1.Opaque) (hc : c.Held) : (s.originStep c p).Held := by
  unfold originStep
  split
  · exact hc.mark hp
  · exact hc

theorem newFloatStep_apart (hp : p.1.Opaque) (hc : c.Held) : (s.newFloatStep c p).Held := by
  have hfloat : (c.float p.1 p.2 none).Held := hc.insert hp hp
  unfold newFloatStep
  split
  · dsimp only
    split
    · exact hfloat.mark hp
    · exact hfloat
  · exact hc

theorem fullscreenStep_apart (hp : p.1.Opaque) (hc : c.Held) : (s.fullscreenStep c p).Held := by
  unfold fullscreenStep
  split
  · exact hc.insert hp hp
  · exact hc

theorem fixedStep_apart (hp : p.1.Opaque) (hc : c.Held) : (s.fixedStep c p).Held := by
  unfold fixedStep
  split
  · exact (hc.insert hp hp).mark hp
  · exact hc

theorem admitStep_apart {baseRevision : Nat} {toTile : List WindowId} {a a' : Admitting}
    (hp : p.1.Opaque) (ha : a.world.Held) (h : s.admitStep baseRevision toTile a p = .ok a') :
    a'.world.Held := by
  rcases admitStep_cases h with ⟨-, rfl⟩ | ⟨_, _, next, ids, -, -, hworld, -⟩
  · exact ha
  · rw [hworld]
    unfold Converging.Held Converging.tiled
    dsimp only
    split
    · exact ha.unmark.win hp
    · exact ha

/-- The passes between removal and admission, in the source's order. -/
theorem classify_apart {observed : BTreeMap WindowId ObservedWindow}
    (hobserved : ∀ (w : WindowId) (e : ObservedWindow), observed[w]? = some e → w.Opaque)
    (hc : c.Held) : (s.classify observed c).Held := by
  have hentry : ∀ p ∈ observed.toList, p.1.Opaque := fun p hp =>
    hobserved p.1 p.2 (Std.ExtTreeMap.mem_toList_iff_getElem?_eq_some.mp hp)
  have hretiled := foldl_keeps (P := Converging.Held) (l := s.toTile observed c)
    (f := s.retileStep observed) (fun _ _ _ h => retileStep_apart hobserved h) hc
  have hsticky := foldl_keeps (P := Converging.Held) (l := observed.toList) (f := stickyStep)
    (fun _ _ _ h => stickyStep_apart h) hretiled
  have horigin := foldl_keeps (P := Converging.Held) (l := observed.toList) (f := s.originStep)
    (fun _ p hp h => originStep_apart (hentry p hp) h) hsticky
  have hnew := foldl_keeps (P := Converging.Held) (l := observed.toList) (f := s.newFloatStep)
    (fun _ p hp h => newFloatStep_apart (hentry p hp) h) horigin
  have hheld := foldl_keeps (P := Converging.Held) (l := observed.toList) (f := s.fullscreenStep)
    (fun _ p hp h => fullscreenStep_apart (hentry p hp) h) hnew
  exact foldl_keeps (P := Converging.Held) (l := observed.toList) (f := s.fixedStep)
    (fun _ p hp h => fixedStep_apart (hentry p hp) h) hheld

theorem planConvergence_apart {observedFocus : Option WindowId} {converged : Converged}
    (h : s.RecordsSpelled) (hobserved : observed.Opaque)
    (hplan : s.planConvergence observed observedFocus = .ok converged) : converged.world.Held := by
  obtain ⟨world, hpasses, hworld⟩ := (planConvergence_ok hplan).passes
  obtain ⟨present, a, hpresent, hadmit, rfl⟩ := convergePasses_ok hpasses
  have hlookup := observedById_lookup_opaque hobserved
  have hentry : ∀ p ∈ (observedById observed.windows).toList, p.1.Opaque := fun p hp =>
    hlookup p.1 p.2 (Std.ExtTreeMap.mem_toList_iff_getElem?_eq_some.mp hp)
  have hremoved : present.Held :=
    (folded_of_foldlM_some hpresent).preserves (P := Converging.Held)
      (fun _ _ _ _ hstep hc => removeStep_apart hc hstep) h.apart
  have hfloated := foldl_keeps (P := Converging.Held)
    (l := (observedById observed.windows).toList) (f := s.floatStep)
    (fun _ p hp hc => floatStep_apart (hentry p hp) hc) hremoved
  have hclassified := classify_apart (s := s) hlookup hfloated
  have hadmitted := (folded_of_foldlM_ok hadmit).preserves (P := fun a => a.world.Held)
    (fun _ p _ hp hstep ha => admitStep_apart (hentry p hp) ha hstep) hclassified
  rw [hworld]
  exact hadmitted.retain

end

end

end Session

end PlasmaTiler
