import PlasmaTiler.Divergence

/-!
# Refused proposals

A proposal that is refused, or finds a plan or a drag under way, leaves the
session as it was; a refused drop at most ends its own drag. Beginning a drag
changes nothing when it fails, and a preview updates nothing but the hover its
capture remembers. So a client may try, and has nothing to repair when it
fails.

Of proposals it is read off `Effect`: the answers that are refusals are those
that leave the session untouched. The drag calls are few and taken one by
one. A divergence is no refusal; it is what changes a session for good.
-/

namespace PlasmaTiler

/-- A refusal of any kind: every failure but a divergence, which ends the
session for good and is told apart for that reason. -/
def ProposeError.isRefusal : ProposeError → Bool
  | .diverged _ => false
  | _ => true

namespace Session

variable {s s' : Session} {p : Proposal} {e : ProposeError}

/-- The two sessions are equal but for the capture of the drag, the one field
that a refused drop may give up. -/
def SameButDrag (s s' : Session) : Prop := s' = s.withDrag s'.drag

theorem sameButDrag_refl : SameButDrag s s := rfl

/-- While a drag is under way every other proposal finds the session busy. -/
theorem proposal_dragging (hdrag : s.drag ≠ none) (hp : p.isDrop = false) :
    (s.proposal p).2 = .error .pendingExists ∨
      ∃ reason, (s.proposal p).2 = .error (.diverged reason) := by
  cases hdiverged : s.divergence with
  | some reason => exact .inr ⟨reason, proposal_diverged hdiverged⟩
  | none =>
    have hactive : s.hasDrag = true := Option.isSome_iff_ne_none.mpr hdrag
    have hidle : s.checkIdle = .error .pendingExists := by
      simp [checkIdle, hdiverged, hactive]
    have hsettled : s.checkSettled = .error .pendingExists := by
      simp [checkSettled, hdiverged, hactive]
    exact .inl (proposal_of_busy hidle hsettled hp)

/-- A refused proposal leaves the session, a refused drop all but its drag. -/
theorem proposal_refused (h : (s.proposal p).2 = .error e) (he : e.isRefusal = true) :
    SameButDrag s (s.proposal p).1 ∧ (p.isDrop = false → (s.proposal p).1 = s) := by
  have heffect := @proposal_effect s p
  have hbusy := @proposal_dragging s p
  rw [h] at heffect hbusy
  generalize (s.proposal p).1 = s' at heffect ⊢
  cases heffect with
  | unchanged _ => exact ⟨sameButDrag_refl, fun _ => rfl⟩
  | cleared _ => cases he
  | halted _ _ => cases he
  | unsupported =>
    refine ⟨rfl, fun hp => ?_⟩
    -- a capture would have made any other proposal busy
    have hnone : s.drag = none := Classical.byContradiction fun hdrag => by
      rcases hbusy hdrag hp with hpending | ⟨reason, hdiverged⟩
      · cases hpending
      · cases hdiverged
    rw [← hnone]

theorem beginDrag_refused {window : WindowId} {observed : SessionObservation}
    (h : (s.beginDrag window observed).2 = .error e) : (s.beginDrag window observed).1 = s := by
  unfold beginDrag attempt at h ⊢
  cases hplan : s.planBeginDrag window observed with
  | error e' => rfl
  | ok drag =>
    rw [hplan] at h
    cases h

theorem previewDrag_sameButDrag {x y : Int} {observed : List ObservedWindow} :
    SameButDrag s (s.previewDrag x y observed).1 := by
  rcases @previewDrag_withDrag s x y observed with hsame | ⟨-, drag, hdrag⟩
  · rw [hsame]
    exact sameButDrag_refl
  · rw [hdrag]
    exact rfl

/-- A call of the transaction or of a drag that is refused changes nothing
but, where it previews or drops one, the drag. -/
theorem refused_unchanged :
    (∀ p e, (s.proposal p).2 = .error e → e.isRefusal = true →
      SameButDrag s (s.proposal p).1 ∧ (p.isDrop = false → (s.proposal p).1 = s)) ∧
    (∀ window observed e, (s.beginDrag window observed).2 = .error e → e.isRefusal = true →
      (s.beginDrag window observed).1 = s) ∧
    ∀ x y observed e, (s.previewDrag x y observed).2 = .error e → e.isRefusal = true →
      SameButDrag s (s.previewDrag x y observed).1 :=
  ⟨fun _ _ h he => proposal_refused h he, fun _ _ _ h _ => beginDrag_refused h,
    fun _ _ _ _ _ _ => previewDrag_sameButDrag⟩

/-- Tiling a window again over an incomplete observation is refused. -/
theorem refused_unchanged_incomplete :
    (Sample.floating.proposal (.command (.toggleFloat ⟨"w"⟩ none) (Sample.observation 1 [])
      Sample.correlationId Sample.lifecycle)).1 = Sample.floating :=
  (refused_unchanged.1 _ (.refused .partialObservation) (by decide +kernel) rfl).2 rfl

end Session

end PlasmaTiler
