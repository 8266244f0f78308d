import PlasmaTiler.WorkspacePartition

/-!
# What a signal does

A topology signal is a pass between other stages, and each stage waits where
it cannot read the surface. Rather than carry these cases through every later
proof, `Signals` says what a signal can have cleaned up in the end: what it
found, what it pruned, or what a pass left. `signals` is the case analysis
for all of them; `signal_passes` the one a signal takes when it can read
everything.

The other half is that cleaning is harmless. It leaves the records, and every
desktop that stays is where it was (`Cleaned`); so whatever the pass says
about owners and records is still true when the signal ends.
-/

namespace PlasmaTiler

namespace Native

open Buckets

/-! ## Records -/

namespace Desk

/-- The record of an absent output. -/
def record (d : Desk) (o : OutputKey) : Option Displaced := d.mapping.displacedByOrigin.get o

/-- The desktop is in no record: no absent output claims it. -/
def Unrecorded (d : Desk) (id : DesktopId) : Prop :=
  ∀ o entry, d.record o = some entry → id ∉ entry.workspaceIds

end Desk

section
variable {w : World} {live : List DesktopId} {o : OutputKey} {id : DesktopId}
  {entry : Displaced}

theorem World.pruned_rebuildKeys : w.rebuildKeys.pruned live = w.pruned live := by
  rw [World.rebuildKeys]
  cases w.surface.liveScreens <;> rfl

/-- Pruned records name live desktops of the records. -/
theorem World.record_of_pruned (h : (w.pruned live).record o = some entry) :
    ∃ entry', w.desk.record o = some entry' ∧ entry.destKey = entry'.destKey ∧
      ∀ id, id ∈ entry.workspaceIds ↔ id ∈ entry'.workspaceIds ∧ id ∈ live := by
  simp only [Desk.record, World.pruned, Mapping.pruneDisplaced, OrderedMap.get_map,
    OrderedMap.get_filter, Option.map_eq_some_iff, Option.filter_eq_some_iff] at h
  obtain ⟨entry', ⟨hentry', -⟩, rfl⟩ := h
  exact ⟨entry', hentry', rfl, fun id => by simp⟩

/-- All of them. -/
theorem World.pruned_of_record (h : w.desk.record o = some entry) (hid : id ∈ entry.workspaceIds)
    (hlive : id ∈ live) : ∃ entry', (w.pruned live).record o = some entry' ∧
      entry'.destKey = entry.destKey ∧ id ∈ entry'.workspaceIds := by
  refine ⟨{ entry with workspaceIds := entry.workspaceIds.filter fun id => live.contains id }, ?_,
    rfl, by simp [hid, hlive]⟩
  simp only [Desk.record, World.pruned, Mapping.pruneDisplaced, OrderedMap.get_map,
    OrderedMap.get_filter, Option.map_eq_some_iff, Option.filter_eq_some_iff]
  refine ⟨entry, ⟨h, ?_⟩, rfl⟩
  rw [Bool.or_eq_true, List.any_eq_true]
  exact Or.inr ⟨id, hid, by simpa using hlive⟩

theorem World.pruned_unrecorded (h : w.desk.Unrecorded id) : (w.pruned live).Unrecorded id := by
  intro o entry hentry hid
  obtain ⟨entry', hentry', -, hiff⟩ := World.record_of_pruned hentry
  exact h o entry' hentry' ((hiff id).mp hid).1

end

/-! ## Cleaning -/

namespace Desk

/-- A cleanup leaves the records as they are. Desktops may have gone and new
ones come, but what stays is on the list it was on. -/
structure Cleaned (mode : WorkspaceMode) (d d' : Desk) : Prop where
  record : ∀ o, d'.record o = d.record o
  old : ∀ id ∈ d'.surface.desktops.ids, id ∈ d.surface.desktops.used →
    id ∈ d.surface.desktops.ids
  used : ∀ id ∈ d.surface.desktops.used, id ∈ d'.surface.desktops.used
  keep : ∀ k, ∀ id ∈ d'.surface.desktops.ids, (d.lists mode).On k id → (d'.lists mode).On k id

section
variable {mode : WorkspaceMode} {connected : List OutputKey} {visible occupied : List DesktopId}
  {d d' d'' : Desk} {keys : SessionOutputKeys} {id : DesktopId}

theorem Cleaned.refl : Cleaned mode d d := ⟨fun _ => rfl, fun _ h _ => h, fun _ h => h,
  fun _ _ _ h => h⟩

theorem Cleaned.trans (h : Cleaned mode d d') (h' : Cleaned mode d' d'') (hd : d.Sound) :
    Cleaned mode d d'' where
  record o := (h'.record o).trans (h.record o)
  old id hid hused := h.old id (h'.old id hid (h.used id hused)) hused
  used id hid := h'.used id (h.used id hid)
  keep k id hid hon := h'.keep k id hid
    (h.keep k id (h'.old id hid (h.used id (hd.mapping.used hon))) hon)

theorem Act.cleaned (h : Act mode connected visible occupied d d') : Cleaned mode d d' := by
  cases h with
  | @retires id h =>
    refine ⟨fun o => by rw [Desk.record, h.displaced]; rfl, fun a ha _ => ?_, fun a ha => ?_,
      fun k a ha hon => ?_⟩
    · rw [h.surface] at ha
      exact List.mem_of_mem_erase ha
    · rw [h.surface]
      exact ha
    · rw [h.surface] at ha
      exact (h.on k a).mpr ⟨hon, (d.surface.desktops.nodup.mem_erase_iff.mp ha).1⟩
  | @creates key hkey h =>
    refine ⟨fun o => by rw [Desk.record, h.displaced]; rfl, fun a ha hused => ?_, fun a ha => ?_,
      fun k a _ hon => (h.on k a).mpr (Or.inl hon)⟩
    · rw [h.surface] at ha
      rcases List.mem_append.mp ha with ha | ha
      · exact ha
      · exact absurd (List.mem_singleton.mp ha ▸ hused) (d.surface.mint.fresh _)
    · rw [h.surface]
      exact List.mem_append_left _ ha

theorem cleaned_of_acts (hd : d.Sound)
    (h : Relation.ReflTransGen (Act mode connected visible occupied) d d') : Cleaned mode d d' := by
  induction h with
  | refl => exact .refl
  | tail _ hact ih => exact ih.trans hact.cleaned hd

theorem cleaned_rebuild (hd : d.Sound) (hmode : mode ≠ .shared) :
    Cleaned mode d (d.rebuild mode keys) := by
  have hsame : (d.rebuild mode keys).mapping = d.mapping → Cleaned mode d (d.rebuild mode keys) := by
    intro hsame
    have : d.rebuild mode keys = d := congrArg (Desk.mk · d.surface) hsame
    rw [this]
    exact .refl
  cases hscreens : d.surface.liveScreens with
  | none =>
    refine hsame ?_
    cases mode with
    | shared => exact absurd rfl hmode
    | perOutputLocal => simp only [rebuild, onMapping, Mapping.rebuildMapping,
        Mapping.rebuildLocalMapping, hscreens]
    | globalUnique => simp only [rebuild, onMapping, Mapping.rebuildMapping,
        Mapping.rebuildGlobalMapping, hscreens]
  | some screens =>
    cases hlive : d.surface.liveOrdered with
    | none =>
      refine hsame ?_
      cases mode with
      | shared => exact absurd rfl hmode
      | perOutputLocal =>
        simp only [rebuild, onMapping, Mapping.rebuildMapping, Mapping.rebuildLocalMapping,
          hscreens, hlive]
        split <;> rfl
      | globalUnique =>
        simp only [rebuild, onMapping, Mapping.rebuildMapping, Mapping.rebuildGlobalMapping,
          hscreens, hlive]
        split <;> rfl
    | some live =>
      by_cases hkeys : keys.screenKeys screens = []
      · refine hsame ?_
        cases mode with
        | shared => exact absurd rfl hmode
        | perOutputLocal => simp only [rebuild, onMapping, Mapping.rebuildMapping,
            Mapping.rebuildLocalMapping, hscreens, hkeys]
        | globalUnique => simp only [rebuild, onMapping, Mapping.rebuildMapping,
            Mapping.rebuildGlobalMapping, hscreens, hkeys]
      · have hrebuilt := rebuilt hd hmode hscreens hlive hkeys
        exact {
          record := fun o => by rw [Desk.record, hrebuilt.displaced]; rfl
          old := fun _ hid _ => hid
          used := fun _ hid => hid
          keep := fun k id hid hon => hrebuilt.keep k id hon hid }

theorem cleaned_cleanup (hd : d.Sound) (hmode : mode ≠ .shared) :
    Cleaned mode d (d.cleanupDesktops mode keys) := by
  cases hvisible : d.surface.visibleIds with
  | none =>
    simp only [cleanupDesktops, hvisible]
    exact .refl
  | some visible =>
  cases hoccupied : d.surface.occupiedIds with
  | none =>
    simp only [cleanupDesktops, hvisible, hoccupied]
    exact .refl
  | some occupied =>
  cases hlive : d.surface.liveOrdered with
  | none =>
    simp only [cleanupDesktops, hvisible, hoccupied, hlive]
    exact .refl
  | some live =>
    have hscreens := hvisible
    simp only [Surface.visibleIds, Option.bind_eq_bind, Option.bind_eq_some_iff] at hscreens
    obtain ⟨screens, hscreens, -⟩ := hscreens
    exact (cleaned_rebuild hd hmode).trans
      (cleaned_of_acts hd.rebuild (cleanup_acts hd hmode hscreens hlive hvisible hoccupied).2) hd

end

end Desk

/-! ## Signals -/

namespace World

/-- What a signal can do: it cleans up what it found, or what it has pruned of
dead desktops, or what a full pass over the screens has left. -/
inductive Signals (w : World) (d : Desk) : Prop
  | cleans (h : Desk.Cleaned w.adapter.mode w.desk d)
  | prunes {live : List DesktopId} (hlive : w.surface.liveOrdered = some live)
      (h : Desk.Cleaned w.adapter.mode (w.pruned live) d)
  | passes {screens : List Output} {live : List DesktopId}
      (hscreens : w.surface.liveScreens = some screens) (hlive : w.surface.liveOrdered = some live)
      (hfits : (w.rebuildKeys.pass screens live).Fits w.surface.desktops)
      (hkeys : w.rebuildKeys.connected = (w.rebuildKeys.pass screens live).currentKeys)
      (h : Desk.Cleaned w.adapter.mode ((w.rebuildKeys.pass screens live).run (w.pruned live)) d)

section
variable {w : World} {e : Event} {id : DesktopId}

theorem signal_desk (henabled : w.adapter.enabled = true) (hmode : w.adapter.mode ≠ .shared) :
    w.handleTopologySignal.desk = w.rebuildKeys.reconcileOutputDisplacement.desk.cleanupDesktops
      w.adapter.mode w.rebuildKeys.adapter.outputKeys := by
  have hkeys : w.rebuildKeys.adapter.mode = w.adapter.mode := by
    rw [rebuildKeys]
    split <;> rfl
  have hreconcile : ∀ w : World, w.adapter.mode ≠ .shared →
      w.reconcileOutputDisplacement.adapter.mode = w.adapter.mode ∧
        w.reconcileOutputDisplacement.adapter.outputKeys = w.adapter.outputKeys := by
    intro w hmode
    rw [reconcileOutputDisplacement, if_neg hmode]
    split
    · dsimp only
      split <;> exact ⟨rfl, rfl⟩
    · exact ⟨rfl, rfl⟩
  obtain ⟨hrmode, hrkeys⟩ := hreconcile w.rebuildKeys (hkeys ▸ hmode)
  have hshared : w.rebuildKeys.reconcileOutputDisplacement.observeShared =
      w.rebuildKeys.reconcileOutputDisplacement := by
    rw [observeShared, if_neg]
    rw [hrmode, hkeys]
    exact hmode
  have hcleanup : ∀ w' : World, w'.cleanup.validate.desk =
      w'.desk.cleanupDesktops w'.adapter.mode w'.adapter.outputKeys := fun _ => rfl
  rw [handleTopologySignal, henabled]
  simp only [Bool.not_true, Bool.false_eq_true, if_false]
  rw [hshared, hcleanup, hrmode, hrkeys, hkeys]

theorem rebuildKeys_mode : w.rebuildKeys.adapter.mode = w.adapter.mode := by
  rw [rebuildKeys]
  split <;> rfl

theorem rebuildKeys_surface : w.rebuildKeys.surface = w.surface := by
  rw [rebuildKeys]
  split <;> rfl

theorem pass_mode {screens : List Output} {live : List DesktopId} :
    (w.rebuildKeys.pass screens live).mode = w.adapter.mode := rebuildKeys_mode

/-- With enough to read, a signal cleans up what a pass left. -/
theorem signal_passes {screens : List Output} {live : List DesktopId} (h : w.desk.Sound)
    (henabled : w.adapter.enabled = true) (hmode : w.adapter.mode ≠ .shared)
    (hscreens : w.surface.liveScreens = some screens) (hlive : w.surface.liveOrdered = some live)
    (hne : w.rebuildKeys.connected ≠ []) :
    (w.rebuildKeys.pass screens live).Fits w.surface.desktops ∧
      w.rebuildKeys.connected = (w.rebuildKeys.pass screens live).currentKeys ∧
      Desk.Cleaned w.adapter.mode ((w.rebuildKeys.pass screens live).run (w.pruned live))
        w.handleTopologySignal.desk := by
  have hsound : w.rebuildKeys.desk.Sound := by rwa [rebuildKeys_desk]
  have hsurface := rebuildKeys_surface (w := w)
  have hkeys : w.rebuildKeys.connected = (w.rebuildKeys.pass screens live).currentKeys := by
    rw [connected, hsurface, hscreens]
    rfl
  have hclean := @Desk.cleaned_cleanup _ _ w.rebuildKeys.adapter.outputKeys
    (reconcile_sound hsound) hmode
  have hmode' : w.rebuildKeys.adapter.mode ≠ .shared := by rwa [rebuildKeys_mode]
  have hne' : w.rebuildKeys.adapter.outputKeys.screenKeys screens ≠ [] := by
    rw [hkeys] at hne
    exact hne
  rw [← signal_desk henabled hmode, (reconcile_eq (w := w.rebuildKeys) hmode'
    (hsurface ▸ hscreens) (hsurface ▸ hlive) hne').1, pruned_rebuildKeys] at hclean
  exact ⟨hsurface ▸ pass_fits (hsurface ▸ hlive) hne', hkeys, hclean⟩

theorem signals (h : w.desk.Sound) (hmode : w.adapter.mode ≠ .shared) :
    Signals w w.handleTopologySignal.desk := by
  by_cases henabled : w.adapter.enabled = true
  swap
  · rw [handleTopologySignal, if_pos (by simp [henabled])]
    exact .cleans .refl
  have hsurface := rebuildKeys_surface (w := w)
  have hsound : w.rebuildKeys.desk.Sound := by rwa [rebuildKeys_desk]
  have hclean := @Desk.cleaned_cleanup _ _ w.rebuildKeys.adapter.outputKeys
    (reconcile_sound hsound) hmode
  rw [← signal_desk henabled hmode] at hclean
  have hidle : w.rebuildKeys.reconcileOutputDisplacement = w.rebuildKeys →
      Signals w w.handleTopologySignal.desk := by
    intro heq
    rw [heq, rebuildKeys_desk] at hclean
    exact .cleans hclean
  cases hscreens : w.surface.liveScreens with
  | none => exact hidle (by simp only [reconcileOutputDisplacement, hsurface, hscreens, ite_self])
  | some screens =>
  cases hlive : w.surface.liveOrdered with
  | none =>
    exact hidle (by simp only [reconcileOutputDisplacement, hsurface, hscreens, hlive, ite_self])
  | some live =>
    by_cases hne : w.rebuildKeys.connected = []
    · have hempty : (w.rebuildKeys.pass screens live).currentKeys.isEmpty = true := by
        rw [connected, hsurface, hscreens] at hne
        rw [List.isEmpty_iff]
        exact hne
      have hmode' : w.rebuildKeys.adapter.mode ≠ .shared := by rwa [rebuildKeys_mode]
      have : w.rebuildKeys.reconcileOutputDisplacement.desk = w.pruned live := by
        simp only [reconcileOutputDisplacement, if_neg hmode', hsurface, hscreens, hlive, hempty,
          if_true]
        exact pruned_rebuildKeys
      rw [this] at hclean
      exact .prunes hlive hclean
    · obtain ⟨hfits, hkeys, hclean⟩ := signal_passes h henabled hmode hscreens hlive hne
      exact .passes hscreens hlive hfits hkeys hclean

theorem signal_adapter : w.handleTopologySignal.adapter.mode = w.adapter.mode ∧
    w.handleTopologySignal.adapter.enabled = w.adapter.enabled := by
  have hkeys : w.rebuildKeys.adapter.mode = w.adapter.mode ∧
      w.rebuildKeys.adapter.enabled = w.adapter.enabled := by
    rw [rebuildKeys]
    split <;> exact ⟨rfl, rfl⟩
  have hreconcile : ∀ w : World, w.reconcileOutputDisplacement.adapter.mode = w.adapter.mode ∧
      w.reconcileOutputDisplacement.adapter.enabled = w.adapter.enabled := by
    intro w
    rw [reconcileOutputDisplacement]
    split
    · exact ⟨rfl, rfl⟩
    split
    · dsimp only
      split <;> exact ⟨rfl, rfl⟩
    · exact ⟨rfl, rfl⟩
  have hshared : ∀ w : World, w.observeShared.adapter.mode = w.adapter.mode ∧
      w.observeShared.adapter.enabled = w.adapter.enabled := by
    intro w
    rw [observeShared]
    split <;> exact ⟨rfl, rfl⟩
  have hcleanup : ∀ w : World, w.cleanup.validate.adapter.mode = w.adapter.mode ∧
      w.cleanup.validate.adapter.enabled = w.adapter.enabled := fun _ => ⟨rfl, rfl⟩
  rw [handleTopologySignal]
  split
  · exact ⟨rfl, rfl⟩
  · rw [(hcleanup _).1, (hcleanup _).2, (hshared _).1, (hshared _).2, (hreconcile _).1,
      (hreconcile _).2]
    exact hkeys

end

end World

end Native

end PlasmaTiler
