import PlasmaTiler.WorkspaceSound

/-!
# What a displacement pass does

A pass visits the absent outputs, then those that are connected, and at each
it takes one of several branches: a new displacement, one that stands, one
whose survivor is gone as well, a return in one of two modes, or nothing. The
later modules need the same few facts about all of them, so the branches are
named once here. `Displaces` has a constructor for each thing that may happen
to an absent output, `Returns` for each thing that may happen to a connected
one, and `displaces` and `returns` say that `displaceOrigin` and
`returnOrigin` always do one of them. No later proof unfolds the pass.

The constructors carry what the branch found as hypotheses (which record
there was, whether the destination is connected), because the proofs that
follow split on exactly these. Two things hold of every constructor: what is
shown afterwards is a live desktop (`Shows`), and nothing is ever put on the
list of an absent output. The second is the reason why a displaced list can
only shrink until its output is back.
-/

namespace PlasmaTiler

namespace Native

open Buckets

/-! ## What showing does -/

/-- The surface changed in what it shows only: live desktops may be shown
where others were, and no output lost its view. -/
structure Shows (s s' : Surface) : Prop where
  only : s' = { s with currents := s'.currents }
  shown : ∀ o id, s'.currents.get o = some id → s.currents.get o = some id ∨ id ∈ s.desktops.ids
  still : ∀ o id, s.currents.get o = some id → ∃ id', s'.currents.get o = some id'

/-- A sound mapping on a surface that shows only what is or was a desktop;
every pass and cleanup keeps it. -/
structure Desk.Sound (d : Desk) : Prop where
  mapping : d.mapping.Sound d.surface.desktops
  shown : ∀ o id, d.surface.currents.get o = some id → id ∈ d.surface.desktops.used

section
variable {s s' s'' : Surface} {id : DesktopId} {o : Output} {m : Mapping} {d d' : Desk}

theorem Shows.refl : Shows s s := ⟨rfl, fun _ _ h => Or.inl h, fun _ id h => ⟨id, h⟩⟩

theorem Shows.desktops (h : Shows s s') : s'.desktops = s.desktops := by
  rw [h.only]

theorem Shows.liveOrdered (h : Shows s s') : s'.liveOrdered = s.liveOrdered := by
  rw [h.only]
  rfl

theorem Shows.trans (h : Shows s s') (h' : Shows s' s'') : Shows s s'' where
  only := by
    rw [h'.only, h.only]
  shown o id hid := by
    rcases h'.shown o id hid with hid | hid
    · exact h.shown o id hid
    · exact Or.inr (h.desktops ▸ hid)
  still o id hid := by
    obtain ⟨id', hid'⟩ := h.still o id hid
    exact h'.still o id' hid'

theorem shows_writeCurrent (h : id ∈ s.desktops.ids) : Shows s (s.writeCurrent id o) where
  only := rfl
  shown o' id' hid := by
    rw [Surface.writeCurrent, OrderedMap.get_set] at hid
    split at hid
    · rw [← Option.some.inj hid]
      exact Or.inr h
    · exact Or.inl hid
  still o' id' hid := by
    rw [Surface.writeCurrent, OrderedMap.get_set]
    split
    · exact ⟨id, rfl⟩
    · exact ⟨id', hid⟩

theorem live_eq {live : List DesktopId} (h : s.liveOrdered = some live) : live = s.desktops.ids := by
  rw [Surface.liveOrdered] at h
  split at h
  · exact (Option.some.inj h).symm
  · cases h

theorem findLive_mem {target : DesktopId} (h : s.findLive id = some target) :
    target ∈ s.desktops.ids := by
  simp only [Surface.findLive, Option.bind_eq_bind, Option.bind_eq_some_iff] at h
  obtain ⟨live, hlive, hfind⟩ := h
  rw [← live_eq hlive]
  exact List.mem_of_find?_eq_some hfind

theorem Pass.shows_showIfActiveThere {p : Pass} {ids : List DesktopId} {key : OutputKey} :
    Shows s (p.showIfActiveThere ids key s) := by
  simp only [Pass.showIfActiveThere]
  split
  · exact .refl
  · rename_i target output hshown
    simp only [Option.bind_eq_bind, Option.bind_eq_some_iff, Option.pure_def,
      Option.some.injEq, Prod.mk.injEq] at hshown
    obtain ⟨_, -, _, -, _, -, _, -, _, htarget, rfl, -⟩ := hshown
    exact shows_writeCurrent (findLive_mem htarget)

theorem Desk.Sound.shows (h : d.Sound) (hm : d'.mapping.Sound d.surface.desktops)
    (hs : Shows d.surface d'.surface) : d'.Sound where
  mapping := hs.desktops ▸ hm
  shown o id hid := by
    rw [hs.desktops]
    rcases hs.shown o id hid with hid | hid
    · exact h.shown o id hid
    · exact d.surface.desktops.known id hid

end

/-! ## Steps of a pass -/

/-- The pass is about the desktops of this surface and the keys of its
screens, and something is connected to put them on. -/
structure Pass.Fits (p : Pass) (ds : Desktops) : Prop where
  live : p.live = ds.ids
  current : p.currentKeys = p.keys.screenKeys p.screens
  connected : p.currentKeys ≠ []

namespace Pass

/-- What happens to an absent output: its desktops stay on their survivor, or
they have expired, or they go to a survivor, anew or on from one that has
gone. -/
inductive Displaces (p : Pass) (origin : OutputKey) (d d' : Desk) : Prop
  /-- Its desktops are kept on their survivor. -/
  | stays {entry : Displaced} (hrecord : d.mapping.displacedByOrigin.get origin = some entry)
      (hdest : entry.destKey ∈ p.currentKeys)
      (hplaced : Mapping.Placed p.mode (p.liveOnly entry.workspaceIds) entry.destKey
        d.surface.desktops d.mapping d'.mapping) (hsurface : d'.surface = d.surface)
  /-- They are no longer. -/
  | expires {entry : Displaced} (hrecord : d.mapping.displacedByOrigin.get origin = some entry)
      (hdest : entry.destKey ∉ p.currentKeys) (hnone : p.liveOnly entry.workspaceIds = [])
      (hplaced : Mapping.Placed p.mode [] 0 d.surface.desktops (d.mapping.forget origin) d'.mapping)
      (hsurface : d'.surface = d.surface)
  /-- Their survivor is gone, and they go on. -/
  | moves {entry : Displaced} {destKey : OutputKey}
      (hrecord : d.mapping.displacedByOrigin.get origin = some entry)
      (hgone : entry.destKey ∉ p.currentKeys) (hdest : destKey ∈ p.currentKeys)
      (hmapping : d'.mapping = (d.mapping.record origin
        ⟨p.liveOnly entry.workspaceIds, destKey⟩).moveLocalIdsTo
          (p.liveOnly entry.workspaceIds) destKey) (hsurface : d'.surface = d.surface)
  /-- Nothing was there. -/
  | empty (hrecord : d.mapping.displacedByOrigin.get origin = none) (hnone : p.captured origin = [])
      (hplaced : Mapping.Placed p.mode [] 0 d.surface.desktops d.mapping d'.mapping)
      (hsurface : d'.surface = d.surface)
  /-- What is captured goes to a survivor. -/
  | leaves {destKey : OutputKey} {m : Mapping}
      (hrecord : d.mapping.displacedByOrigin.get origin = none) (hsome : p.captured origin ≠ [])
      (hdest : destKey ∈ p.currentKeys)
      (hplaced : Mapping.Placed p.mode (p.captured origin) destKey d.surface.desktops
        (d.mapping.record origin ⟨p.captured origin, destKey⟩) m)
      (hdropped : Mapping.Dropped p.mode origin d.surface.desktops m d'.mapping)
      (hsurface : Shows d.surface d'.surface)

/-- What happens to a connected output: it has no record, or one whose
desktops have all expired, or its desktops are back on its list and struck
from the record. -/
inductive Returns (p : Pass) (key : OutputKey) (d d' : Desk) : Prop
  | none (hrecord : d.mapping.displacedByOrigin.get key = .none) (hsame : d' = d)
  | expires {entry : Displaced} (hrecord : d.mapping.displacedByOrigin.get key = some entry)
      (hnone : p.liveOnly entry.workspaceIds = [])
      (hplaced : Mapping.Placed p.mode [] 0 d.surface.desktops (d.mapping.forget key) d'.mapping)
      (hsurface : d'.surface = d.surface)
  | returns {entry : Displaced} {m : Mapping}
      (hrecord : d.mapping.displacedByOrigin.get key = some entry)
      (hplaced : Mapping.Placed p.mode (p.liveOnly entry.workspaceIds) key d.surface.desktops
        d.mapping m)
      (hmapping : d'.mapping = if (entry.workspaceIds.filter fun id =>
          !(p.liveOnly entry.workspaceIds).contains id).isEmpty then m.forget key
        else m.record key { entry with
          workspaceIds := entry.workspaceIds.filter fun id =>
            !(p.liveOnly entry.workspaceIds).contains id })
      (hsurface : Shows d.surface d'.surface)

section
variable {p : Pass} {d : Desk} {s : Surface} {origin key : OutputKey} {ds : Desktops}

theorem mem_liveOnly {ids : List DesktopId} {id : DesktopId} :
    id ∈ p.liveOnly ids ↔ id ∈ ids ∧ id ∈ p.live := by
  simp [liveOnly]

theorem mem_captured {id : DesktopId} : id ∈ p.captured origin ↔
    (p.prev.On origin id ∨ id ∈ (p.memory.lastKnownByKey.get origin).getD [] ∨
      p.memory.lastVisibleByKey.get origin = some id) ∧ id ∈ p.live := by
  rw [captured, mem_liveOnly, mem_pushNew, mem_pushNew, List.mem_append, ← on_iff_getD,
    Option.mem_toList]
  simp [or_assoc]

theorem chooseDisplacedDestination_mem {survivors : List OutputKey} {activeKey : Option OutputKey}
    (h : survivors ≠ []) : ∃ key ∈ survivors,
      chooseDisplacedDestination survivors activeKey = some key := by
  match survivors with
  | [] => exact absurd rfl h
  | [only] => exact ⟨only, List.mem_cons_self, rfl⟩
  | first :: second :: rest =>
    cases activeKey with
    | none => exact ⟨first, List.mem_cons_self, rfl⟩
    | some key =>
      simp only [chooseDisplacedDestination]
      split
      · rename_i hkey
        exact ⟨key, hkey, rfl⟩
      · exact ⟨first, List.mem_cons_self, rfl⟩

/-- There always is a survivor. -/
theorem selectSurvivorKey_mem (h : p.Fits ds) :
    ∃ key ∈ p.currentKeys, p.selectSurvivorKey s = some key := by
  have hmem : ∀ key, key ∈ (p.screens.filterMap p.keys.keyFor).filter
      (fun key => p.currentKeys.contains key) ↔ key ∈ p.currentKeys := by
    intro key
    rw [List.mem_filter, h.current, SessionOutputKeys.screenKeys]
    simp
  obtain ⟨key, hkey⟩ := List.exists_mem_of_ne_nil _ h.connected
  obtain ⟨key', hkey', hchosen⟩ := @chooseDisplacedDestination_mem _ (p.activeScreenKey s)
      (List.ne_nil_of_mem ((hmem key).mpr hkey))
  exact ⟨key', (hmem key').mp hkey', hchosen⟩

theorem sound_record {m : Mapping} {entry : Displaced} (h : m.Sound ds) :
    (m.record origin entry).Sound ds := h.congr ⟨rfl, rfl, rfl⟩

theorem sound_forget {m : Mapping} (h : m.Sound ds) : (m.forget origin).Sound ds :=
  h.congr ⟨rfl, rfl, rfl⟩

theorem displaces (h : d.mapping.Sound d.surface.desktops) (hfits : p.Fits d.surface.desktops)
    (habsent : origin ∉ p.currentKeys) : p.Displaces origin d (p.displaceOrigin d origin) := by
  have hlive : ∀ ids : List DesktopId, ∀ id ∈ p.liveOnly ids, id ∈ d.surface.desktops.ids :=
    fun ids id hid => hfits.live ▸ (mem_liveOnly.mp hid).2
  obtain ⟨destKey, hdestKey, hselect⟩ := selectSurvivorKey_mem hfits (s := d.surface)
  have hne : destKey ≠ origin := fun heq => habsent (heq ▸ hdestKey)
  rw [displaceOrigin]
  cases hrecord : d.mapping.displacedByOrigin.get origin with
  | some entry =>
    simp only [keepDisplaced]
    split
    · rename_i hdest
      exact .stays hrecord hdest (Mapping.placed_ensureDisplacedPresent h (hlive _)) rfl
    · rename_i hgone
      split
      · rename_i hnone
        exact .expires hrecord hgone hnone (Mapping.placed_dropOriginMapping (sound_forget h)) rfl
      · simp only [hselect, if_neg hne]
        exact .moves hrecord hgone hdestKey rfl rfl
  | none =>
    simp only [displaceNew]
    split
    · rename_i hnone
      exact .empty hrecord hnone (Mapping.placed_dropOriginMapping h) rfl
    · rename_i hsome
      simp only [hselect, if_neg hne]
      have hplaced : Mapping.Placed p.mode (p.captured origin) destKey d.surface.desktops
          (d.mapping.record origin ⟨p.captured origin, destKey⟩) _ :=
        Mapping.placed_assignTo (sound_record h)
          fun id hid => d.surface.desktops.known id (hfits.live ▸ (mem_captured.mp hid).2)
      exact .leaves hrecord hsome hdestKey hplaced
        (Mapping.dropped_dropDisplacedList hplaced.sound) shows_showIfActiveThere

theorem returns (h : d.mapping.Sound d.surface.desktops) (hfits : p.Fits d.surface.desktops) :
    p.Returns key d (p.returnOrigin d key) := by
  rw [returnOrigin]
  cases hrecord : d.mapping.displacedByOrigin.get key with
  | none => exact .none hrecord rfl
  | some entry =>
    dsimp only
    split
    · rename_i hnone
      exact .expires hrecord hnone (Mapping.placed_dropOriginMapping (sound_forget h)) rfl
    · exact .returns hrecord (Mapping.placed_assignTo h fun id hid =>
        d.surface.desktops.known id (hfits.live ▸ (mem_liveOnly.mp hid).2)) rfl
          shows_showIfActiveThere

end

end Pass

end Native

end PlasmaTiler
