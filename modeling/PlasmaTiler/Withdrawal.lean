import PlasmaTiler.Effects

/-!
# Withdrawing a plan

Cancelling a plan before it is acknowledged should leave no trace of it in
the accepted state. A plan is staged beside the accepted world and adopted
only by its verification, so there should be nothing to undo: `cancel` drops
what is transient, and what is left is the session the plan was staged over.

For one proposal that session is not the one it was called on. Tiling a float
again has to plan an admission of a window that is already known, and so it
plans on a copy whose float record is gone; when the plan is staged the copy
is what is kept. Cancelling keeps the copy as well, and the window is then
neither tiled nor an exception.

`withdrawsTo_iff` says it of every proposal that opened a plan: withdrawing
it brings the accepted state back exactly unless it tiles an exception again.
What the sends and the other families stage over the session itself is read
off `Effect`; `unfloat_not_withdrawn` is the float that is lost.
-/

namespace PlasmaTiler

namespace Sample

def empty : Session := session [domain "A" "1"] one_domain_new

/-- Admit the window. -/
def firstAdmission : Proposal :=
  .command (.admitWindow ⟨⟨"w"⟩, ⟨"A"⟩, ⟨"1"⟩, .none, none, ⟨0, 0, 1000, 800⟩, false⟩)
    (observation 0 [window "w"]) correlationId lifecycle

/-- A session that has adopted one floating window. -/
def floating : Session :=
  Session.machine.run empty
    [.convergeObservation (observation 0 [{ window "w" with floating := true }]) none]

/-- Tile that window again. It was born floating, so no record of an earlier
leaf is there to return to. -/
def unfloat : Proposal :=
  .command (.toggleFloat ⟨"w"⟩ none) (observation 1 [{ window "w" with floating := true }])
    correlationId lifecycle

theorem two_workspaces_new :
    (Session.new owner generation 0 0 [domain "A" "1", domain "A" "2"]).toOption.isSome = true := by
  decide +kernel

/-- A plain window on workspace 2. -/
def elsewhere (raw : String) : ObservedWindow := { window raw with workspace := ⟨"2"⟩ }

def stockedWindows : List ObservedWindow :=
  [window "a", window "b", elsewhere "c", { elsewhere "d" with floating := true }]

/-- A session with two tiles on one workspace, a tile and a float on another. -/
def stocked : Session :=
  Session.machine.run (session [domain "A" "1", domain "A" "2"] two_workspaces_new)
    [.convergeObservation (observation 0 stockedWindows) (some ⟨"b"⟩)]

/-- Admit one more window beside its two tiles. -/
def admission : Proposal :=
  .command (.admitWindow ⟨⟨"w"⟩, ⟨"A"⟩, ⟨"1"⟩, .none, none, ⟨0, 0, 1000, 800⟩, false⟩)
    (observation 1 (stockedWindows ++ [window "w"])) correlationId lifecycle

/-- One of those tiles gone, the other maximized, the float tiled, and a new
window. -/
def restocked : SessionObservation :=
  observation 1 [{ window "b" with maximized := true }, elsewhere "c", elsewhere "d", window "e"]

end Sample

namespace Session

/-- Everything a session has accepted. -/
structure AcceptedState where
  world : PendingDesired
  focusStack : BTreeMap DomainKey (List NodeId)
  verifiedRevision : Nat
  verifiedFingerprint : Nat
  acceptedFingerprint : Nat

def acceptedState (s : Session) : AcceptedState where
  world := s.accepted
  focusStack := s.focusStack
  verifiedRevision := s.reconciler.verifiedRevision
  verifiedFingerprint := s.reconciler.verifiedFingerprint
  acceptedFingerprint := s.acceptedFingerprint

/-- Cancelling the plan that led from `s` to `s'` succeeds and brings the
accepted state of `s` back. -/
def WithdrawsTo (s s' : Session) (plan : PlanBinding) : Prop :=
  (s'.cancelUnackedPending plan.correlationId plan.baseRevision).2 = .ok () ∧
    (s'.cancelUnackedPending plan.correlationId plan.baseRevision).1.acceptedState =
      s.acceptedState

section
variable {s s' : Session} {p : Proposal} {plan : PlanBinding} {kind : PendingKind}
  {desired : PendingDesired} {trace : Option SendPlacementTrace} {window : WindowId}
  {record : ExceptionRecord} {retained : Option Rect}

/-- A staged plan can be cancelled, and what is left is the session it was
staged over without anything transient. -/
theorem cancel_staged {correlationId : CorrelationId} (hdiverged : s.divergence = none) :
    ((s.staged correlationId kind desired trace).cancelUnackedPending correlationId
        s.acceptedRevision).2 = .ok () ∧
      ((s.staged correlationId kind desired trace).cancelUnackedPending correlationId
        s.acceptedRevision).1.acceptedState = s.acceptedState := by
  have hnone : s.reconciler.diverged = none := hdiverged
  have hcancel : (s.staged correlationId kind desired trace).cancelUnackedPending correlationId
      s.acceptedRevision = ({ s.staged correlationId kind desired trace with
        reconciler := { s.reconciler with pending := none }, pendingDesired := none }, .ok ()) := by
    simp [cancelUnackedPending, hasDrag, staged, Reconciler.cancelUnacked, Reconciler.opened,
      acceptedRevision, hnone]
  rw [hcancel]
  exact ⟨rfl, rfl⟩

/-- The copy an unfloat plans on has lost the float record. -/
theorem unfloated_acceptedState_ne (hrecord : s.exceptions[window]? = some record) :
    (s.unfloated window retained).acceptedState ≠ s.acceptedState := by
  intro h
  have hexceptions : s.exceptions.erase window = s.exceptions :=
    congrArg (fun a : AcceptedState => a.world.exceptions) h
  rw [← hexceptions, lookup_erase, if_pos rfl] at hrecord
  cases hrecord

/-- A proposed plan is withdrawn exactly unless it tiles an exception again:
then the plan sits on a copy without the float record, and withdrawing it
keeps the copy. -/
theorem withdrawsTo_iff (h : (s.proposal p).2 = .ok (some plan)) :
    WithdrawsTo s (s.proposal p).1 plan ↔ s.unfloats p = false := by
  have heffect := @proposal_effect s p
  rw [h] at heffect
  generalize (s.proposal p).1 = s' at heffect ⊢
  cases heffect with
  | staged hbasis hstages hdiverged hpending =>
    cases hbasis with
    | self hp => exact iff_of_true (cancel_staged hdiverged) hp
    | unfloated hp hrecord hplan =>
      obtain ⟨-, retained, -, -, -, rfl, -⟩ := planUnfloat_ok hplan
      refine iff_of_false (fun hwithdraws => ?_) (by rw [hp]; decide)
      obtain ⟨-, hstate⟩ := cancel_staged (s := s.unfloated _ retained) hdiverged
      exact unfloated_acceptedState_ne hrecord (hstate.symm.trans hwithdraws.2)

end

/-- The plan of an admission beside other windows can be withdrawn. -/
theorem withdrawsTo_admission :
    WithdrawsTo Sample.stocked (Sample.stocked.proposal Sample.admission).1
      ⟨Sample.correlationId, 1⟩ :=
  (withdrawsTo_iff (by decide +kernel)).mpr rfl

/-- Tiling a float again and withdrawing the plan loses the float record. -/
theorem unfloat_not_withdrawn :
    ∃ s p plan, Reachable s ∧ s.hasPending = false ∧ (s.proposal p).2 = .ok (some plan) ∧
      ¬WithdrawsTo s (s.proposal p).1 plan := by
  refine ⟨Sample.floating, Sample.unfloat, ⟨Sample.correlationId, 1⟩,
    Sample.session_reachable _ _, by decide +kernel, by decide +kernel, fun h => ?_⟩
  have hlost : ((Sample.floating.proposal Sample.unfloat).1.cancelUnackedPending
      Sample.correlationId 1).1.exceptions.contains ⟨"w"⟩ =
        Sample.floating.exceptions.contains ⟨"w"⟩ :=
    congrArg (fun a : AcceptedState => a.world.exceptions.contains ⟨"w"⟩) h.2
  exact absurd hlost (by decide +kernel)

end Session

end PlasmaTiler
