import PlasmaTiler.WorkspaceCommands

/-!
# The workspaces are partitioned

In every mode with workspaces of each output, the lists are to be a partition
of the live desktops among the connected outputs. Half of this holds in every
run with no condition: no desktop is twice within or across the lists, and in
the global mode the inverse map and the lists name each other (`Partitioned`,
an invariant of `step`).

The other half, that every live desktop is on the list of a connected output
after a signal, needs the pass to empty the list of every output that is
absent. A displacement that stands moves the desktops of its record, and
those only; what got onto the list of the absent output in another way stays
there. That takes an output which is displaced, comes back, gets a new
desktop, and goes again before a signal has seen it back: the record is still
there and does not name the new desktop. `Anchored` is the condition that the
list of a displaced absent output holds desktops of its record only, and it
reads the state before the signal.

The proof goes through the pass one output at a time (`Displaces.clears`, no
live desktop is left on an anchored list; `displaceAll_clears`,
`returnAll`), then through the cleanup, whose acts keep covered desktops
covered. `Covered` after the pass is `run_connected`.

`workspaces_partitioned` is the headline; `not_always_each_once` is the run
in which a desktop is stranded.
-/

namespace PlasmaTiler

namespace Native

open Buckets

/-! ## The pass -/

namespace Pass

section
variable {p : Pass} {d d' : Desk} {origin key : OutputKey} {ds : Desktops}

theorem Displaces.shows (h : p.Displaces origin d d') : Shows d.surface d'.surface := by
  cases h with
  | stays _ _ _ hsurface => exact hsurface ▸ .refl
  | expires _ _ _ _ hsurface => exact hsurface ▸ .refl
  | moves _ _ _ _ hsurface => exact hsurface ▸ .refl
  | empty _ _ _ hsurface => exact hsurface ▸ .refl
  | leaves _ _ _ _ _ hsurface => exact hsurface

theorem Displaces.sound (h : p.Displaces origin d d') (hd : d.Sound)
    (hfits : p.Fits d.surface.desktops) : d'.Sound := by
  refine hd.shows ?_ h.shows
  cases h with
  | stays _ _ hplaced => exact hplaced.sound
  | expires _ _ _ hplaced => exact hplaced.sound
  | moves _ _ _ hmapping =>
    rw [hmapping]
    exact (@Mapping.placed_moveLocalIdsTo _ _ .perOutputLocal _ _ (sound_record hd.mapping)
      (fun id hid => d.surface.desktops.known id (hfits.live ▸ (mem_liveOnly.mp hid).2)) nofun).sound
  | empty _ _ hplaced => exact hplaced.sound
  | leaves _ _ _ _ hdropped => exact hdropped.sound

/-- Where a local move puts a desktop, in the lists of the mode. -/
theorem on_moveLocalIdsTo {mode : WorkspaceMode} {ids : List DesktopId} {m : Mapping}
    {k : OutputKey} {a : DesktopId} (h : m.Sound ds) :
    ((m.moveLocalIdsTo ids key).lists mode).On k a ↔
      if mode ≠ .globalUnique ∧ a ∈ ids then k = key else (m.lists mode).On k a := by
  cases mode with
  | globalUnique =>
    simp only [ne_eq, not_true_eq_false, false_and, if_false]
    exact Iff.rfl
  | perOutputLocal =>
    simp only [ne_eq, reduceCtorEq, not_false_eq_true, true_and]
    exact h.localPart.on_moveTo
  | shared =>
    simp only [ne_eq, reduceCtorEq, not_false_eq_true, true_and]
    exact h.localPart.on_moveTo

/-- Nothing goes to the list of an absent output. -/
theorem Displaces.on {k : OutputKey} {a : DesktopId} (h : p.Displaces origin d d') (hd : d.Sound)
    (hon : (d'.lists p.mode).On k a) : k ∈ p.currentKeys ∨ (d.lists p.mode).On k a := by
  cases h with
  | stays _ hdest hplaced =>
    have := (hplaced.on k a).mp hon
    split at this
    · exact Or.inl (this ▸ hdest)
    · exact Or.inr this
  | expires _ _ _ hplaced => exact Or.inr (hplaced.on_nil.mp hon)
  | moves _ _ hdest hmapping =>
    rw [Desk.lists, hmapping, on_moveLocalIdsTo (sound_record hd.mapping)] at hon
    split at hon
    · exact Or.inl (hon ▸ hdest)
    · exact Or.inr hon
  | empty _ _ hplaced => exact Or.inr (hplaced.on_nil.mp hon)
  | leaves _ _ hdest hplaced hdropped =>
    have := (hplaced.on k a).mp (hdropped.sub k a hon)
    split at this
    · exact Or.inl (this ▸ hdest)
    · exact Or.inr this

theorem Displaces.record (h : p.Displaces origin d d') (hne : key ≠ origin) :
    d'.mapping.displacedByOrigin.get key = d.mapping.displacedByOrigin.get key := by
  cases h with
  | stays _ _ hplaced => rw [hplaced.displaced]
  | expires _ _ _ hplaced =>
    rw [hplaced.displaced]
    exact (OrderedMap.get_delete).trans (if_neg hne)
  | moves _ _ _ hmapping =>
    rw [hmapping]
    exact (OrderedMap.get_set).trans (if_neg hne)
  | empty _ _ hplaced => rw [hplaced.displaced]
  | leaves _ _ _ hplaced hdropped =>
    rw [hdropped.displaced, hplaced.displaced]
    exact (OrderedMap.get_set).trans (if_neg hne)

/-- The list of an absent output with a record holds desktops of the record
only, and none where a lost survivor leaves them unmoved. -/
def Anchored (p : Pass) (d : Desk) (origin : OutputKey) : Prop :=
  ∀ entry, d.mapping.displacedByOrigin.get origin = some entry →
    ∀ a ∈ p.live, (d.lists p.mode).On origin a →
      a ∈ entry.workspaceIds ∧ (entry.destKey ∈ p.currentKeys ∨ p.mode ≠ .globalUnique)

/-- After an anchored output was displaced no live desktop is left on its
list: its record names them all, or it captured them all. -/
theorem Displaces.clears {a : DesktopId} (h : p.Displaces origin d d') (hd : d.Sound)
    (habsent : origin ∉ p.currentKeys) (hprev : ∀ a ∈ p.live, (d.lists p.mode).On origin a →
      p.prev.On origin a) (hanchored : p.Anchored d origin) (ha : a ∈ p.live) :
    ¬ (d'.lists p.mode).On origin a := by
  intro hon
  cases h with
  | stays hrecord hdest hplaced =>
    have hon := (hplaced.on origin a).mp hon
    split at hon
    · exact habsent (hon ▸ hdest)
    · rename_i hnot
      exact hnot (mem_liveOnly.mpr ⟨(hanchored _ hrecord a ha hon).1, ha⟩)
  | expires hrecord _ hnone hplaced =>
    have hon : (d.lists p.mode).On origin a := hplaced.on_nil.mp hon
    have : a ∈ p.liveOnly _ := mem_liveOnly.mpr ⟨(hanchored _ hrecord a ha hon).1, ha⟩
    rw [hnone] at this
    cases this
  | moves hrecord hgone hdest hmapping =>
    rw [Desk.lists, hmapping, on_moveLocalIdsTo (sound_record hd.mapping)] at hon
    split at hon
    · exact habsent (hon ▸ hdest)
    · rename_i hnot
      obtain ⟨hmem, hmode⟩ := hanchored _ hrecord a ha hon
      exact hnot ⟨hmode.resolve_left hgone, mem_liveOnly.mpr ⟨hmem, ha⟩⟩
  | empty _ hnone hplaced =>
    have hon : (d.lists p.mode).On origin a := hplaced.on_nil.mp hon
    have : a ∈ p.captured origin := mem_captured.mpr ⟨Or.inl (hprev a ha hon), ha⟩
    rw [hnone] at this
    cases this
  | leaves _ _ hdest hplaced hdropped =>
    have hon := (hplaced.on origin a).mp (hdropped.sub origin a hon)
    split at hon
    · exact habsent (hon ▸ hdest)
    · rename_i hnot
      exact hnot (mem_captured.mpr ⟨Or.inl (hprev a ha hon), ha⟩)

theorem Returns.shows (h : p.Returns key d d') : Shows d.surface d'.surface := by
  cases h with
  | none _ hsame => exact hsame ▸ .refl
  | expires _ _ _ hsurface => exact hsurface ▸ .refl
  | returns _ _ _ hsurface => exact hsurface

/-- What the mapping is but for the records. -/
theorem returned_lists {m : Mapping} {c : Bool} {entry : Displaced} :
    m.SameLists (if c then m.forget key else m.record key entry) := by
  cases c <;> exact ⟨rfl, rfl, rfl⟩

theorem Returns.sound (h : p.Returns key d d') (hd : d.Sound) : d'.Sound := by
  refine hd.shows ?_ h.shows
  cases h with
  | none _ hsame => exact hsame ▸ hd.mapping
  | expires _ _ hplaced => exact hplaced.sound
  | returns _ hplaced hmapping => exact hmapping ▸ hplaced.sound.congr returned_lists

theorem Returns.on {k : OutputKey} {a : DesktopId} (h : p.Returns key d d')
    (hon : (d'.lists p.mode).On k a) : k = key ∨ (d.lists p.mode).On k a := by
  cases h with
  | none _ hsame => exact Or.inr (hsame ▸ hon)
  | expires _ _ hplaced => exact Or.inr (hplaced.on_nil.mp hon)
  | returns _ hplaced hmapping =>
    rw [Desk.lists, hmapping, returned_lists.lists] at hon
    have := (hplaced.on k a).mp hon
    split at this
    · exact Or.inl this
    · exact Or.inr this

/-- Displacing the outputs in turn. -/
theorem displaceAll {origins : List OutputKey} (hd : d.Sound) (hfits : p.Fits d.surface.desktops)
    (habsent : ∀ origin ∈ origins, origin ∉ p.currentKeys) :
    (origins.foldl p.displaceOrigin d).Sound ∧
      Shows d.surface (origins.foldl p.displaceOrigin d).surface ∧
      ∀ k a, ((origins.foldl p.displaceOrigin d).lists p.mode).On k a →
        k ∈ p.currentKeys ∨ (d.lists p.mode).On k a := by
  induction origins generalizing d with
  | nil => exact ⟨hd, .refl, fun _ _ hon => Or.inr hon⟩
  | cons origin origins ih =>
    have hstep := displaces hd.mapping hfits (habsent origin List.mem_cons_self)
    have hfits' : p.Fits (p.displaceOrigin d origin).surface.desktops :=
      hstep.shows.desktops ▸ hfits
    obtain ⟨hsound, hshows, hon⟩ := ih (hstep.sound hd hfits) hfits'
      fun o ho => habsent o (List.mem_cons_of_mem _ ho)
    refine ⟨hsound, hstep.shows.trans hshows, fun k a hk => ?_⟩
    rcases hon k a hk with hk | hk
    · exact Or.inl hk
    · exact hstep.on hd hk

/-- If every list is anchored, none keeps a live desktop. -/
theorem displaceAll_clears {origins : List OutputKey} (hd : d.Sound)
    (hfits : p.Fits d.surface.desktops) (habsent : ∀ origin ∈ origins, origin ∉ p.currentKeys)
    (hnodup : origins.Nodup) (hprev : ∀ origin ∈ origins, ∀ a ∈ p.live,
      (d.lists p.mode).On origin a → p.prev.On origin a)
    (hanchored : ∀ origin ∈ origins, p.Anchored d origin) :
    ∀ origin ∈ origins, ∀ a ∈ p.live,
      ¬ ((origins.foldl p.displaceOrigin d).lists p.mode).On origin a := by
  induction origins generalizing d with
  | nil => exact fun _ h => absurd h List.not_mem_nil
  | cons first origins ih =>
    have hfirst := habsent first List.mem_cons_self
    have hstep := displaces hd.mapping hfits hfirst
    have hfits' : p.Fits (p.displaceOrigin d first).surface.desktops :=
      hstep.shows.desktops ▸ hfits
    have hd' := hstep.sound hd hfits
    have hrest : ∀ o ∈ origins, o ∉ p.currentKeys := fun o ho => habsent o (List.mem_cons_of_mem _ ho)
    obtain ⟨hnotin, hnodup'⟩ := List.nodup_cons.mp hnodup
    have hback : ∀ o ∈ origins, ∀ a, ((p.displaceOrigin d first).lists p.mode).On o a →
        (d.lists p.mode).On o a := fun o ho a hon =>
      (hstep.on hd hon).resolve_left (hrest o ho)
    intro origin horigin a ha
    rcases List.mem_cons.mp horigin with rfl | horigin
    · intro hon
      have hclear := hstep.clears hd hfirst (hprev _ List.mem_cons_self)
        (hanchored _ List.mem_cons_self) ha
      rcases (displaceAll hd' hfits' hrest).2.2 _ a hon with hk | hk
      · exact hfirst hk
      · exact hclear hk
    · refine ih hd' hfits' hrest hnodup' (fun o ho a ha hon => ?_) (fun o ho entry hentry a ha hon =>
        ?_) origin horigin a ha
      · exact hprev o (List.mem_cons_of_mem _ ho) a ha (hback o ho a hon)
      · have hne : o ≠ first := fun heq => hnotin (heq ▸ ho)
        rw [hstep.record hne] at hentry
        exact hanchored o (List.mem_cons_of_mem _ ho) entry hentry a ha (hback o ho a hon)

theorem returnAll {keys : List OutputKey} (hd : d.Sound) (hfits : p.Fits d.surface.desktops) :
    (keys.foldl p.returnOrigin d).Sound ∧ Shows d.surface (keys.foldl p.returnOrigin d).surface ∧
      ∀ k a, ((keys.foldl p.returnOrigin d).lists p.mode).On k a →
        k ∈ keys ∨ (d.lists p.mode).On k a := by
  induction keys generalizing d with
  | nil => exact ⟨hd, .refl, fun _ _ hon => Or.inr hon⟩
  | cons key keys ih =>
    have hstep := @returns _ _ key hd.mapping hfits
    have hfits' : p.Fits (p.returnOrigin d key).surface.desktops := hstep.shows.desktops ▸ hfits
    obtain ⟨hsound, hshows, hon⟩ := ih (hstep.sound hd) hfits'
    refine ⟨hsound, hstep.shows.trans hshows, fun k a hk => ?_⟩
    rcases hon k a hk with hk | hk
    · exact Or.inl (List.mem_cons_of_mem _ hk)
    · rcases hstep.on hk with hk | hk
      · exact Or.inl (hk ▸ List.mem_cons_self)
      · exact Or.inr hk

theorem mem_removed {m : Mapping} : origin ∈ p.removed m ↔
    origin ∈ p.knownKeys m ∧ origin ∉ p.currentKeys := by
  simp [removed]

theorem removed_nodup {m : Mapping} : (p.removed m).Nodup := (nodup_pushNew List.nodup_nil).filter _

theorem run_sound (hd : d.Sound) (hfits : p.Fits d.surface.desktops) :
    (p.run d).Sound ∧ Shows d.surface (p.run d).surface := by
  obtain ⟨hsound, hshows, -⟩ := displaceAll hd hfits
    fun _ ho => (mem_removed (m := d.mapping).mp ho).2
  obtain ⟨hsound', hshows', -⟩ := @returnAll _ _ p.currentKeys hsound (hshows.desktops ▸ hfits)
  exact ⟨hsound', hshows.trans hshows'⟩

/-- After a pass live desktops are on lists of connected outputs only. -/
theorem run_connected {k : OutputKey} {a : DesktopId} (hd : d.Sound)
    (hfits : p.Fits d.surface.desktops) (hprev : p.prev = d.lists p.mode)
    (hanchored : ∀ origin, origin ∉ p.currentKeys → p.Anchored d origin) (ha : a ∈ p.live)
    (hon : ((p.run d).lists p.mode).On k a) : k ∈ p.currentKeys := by
  have habsent : ∀ origin ∈ p.removed d.mapping, origin ∉ p.currentKeys := fun _ ho =>
    (mem_removed.mp ho).2
  obtain ⟨hsound, hshows, hback⟩ := displaceAll hd hfits habsent
  obtain ⟨-, -, hreturned⟩ := @returnAll _ _ p.currentKeys hsound (hshows.desktops ▸ hfits)
  rcases hreturned k a hon with hk | hon
  · exact hk
  by_contra hk
  have horigin : k ∈ p.removed d.mapping := by
    refine mem_removed.mpr ⟨?_, hk⟩
    obtain ⟨xs, hget, -⟩ := (hback k a hon).resolve_left hk
    rw [knownKeys, mem_pushNew, hprev]
    simp only [List.mem_append]
    exact Or.inr (Or.inl (Or.inl (Or.inl (OrderedMap.mem_keys_iff.mpr ⟨xs, hget⟩))))
  exact displaceAll_clears hd hfits habsent removed_nodup (fun o _ a _ hon => hprev ▸ hon)
    (fun o ho => hanchored o (habsent o ho)) k horigin a ha hon

end

end Pass

/-! ## Cleaning up -/

namespace Desk

section
variable {mode : WorkspaceMode} {connected : List OutputKey} {visible occupied : List DesktopId}
  {d d' : Desk} {keys : SessionOutputKeys}

/-- Every live desktop is on the list of some connected output, so it can be
shown and reached. -/
def Covered (mode : WorkspaceMode) (connected : List OutputKey) (d : Desk) : Prop :=
  ∀ a ∈ d.surface.desktops.ids, ∃ k ∈ connected, (d.lists mode).On k a

theorem Act.covered (h : Act mode connected visible occupied d d') (hd : d.Covered mode connected) :
    d'.Covered mode connected := by
  intro a ha
  cases h with
  | @retires id h =>
    rw [h.surface] at ha
    obtain ⟨hne, ha⟩ := d.surface.desktops.nodup.mem_erase_iff.mp ha
    obtain ⟨k, hk, hon⟩ := hd a ha
    exact ⟨k, hk, (h.on k a).mpr ⟨hon, hne⟩⟩
  | @creates key hkey h =>
    rw [h.surface] at ha
    rcases List.mem_append.mp ha with ha | ha
    · obtain ⟨k, hk, hon⟩ := hd a ha
      exact ⟨k, hk, (h.on k a).mpr (Or.inl hon)⟩
    · exact ⟨key, hkey, (h.on key a).mpr (Or.inr ⟨rfl, List.mem_singleton.mp ha⟩)⟩

theorem covered_of_acts (h : Relation.ReflTransGen (Act mode connected visible occupied) d d')
    (hd : d.Covered mode connected) : d'.Covered mode connected := by
  induction h with
  | refl => exact hd
  | tail _ hact ih => exact hact.covered ih

theorem acts_screens (h : Relation.ReflTransGen (Act mode connected visible occupied) d d') :
    d'.surface.liveScreens = d.surface.liveScreens := by
  induction h with
  | refl => rfl
  | tail _ hact ih =>
    rw [← ih]
    cases hact with
    | retires h =>
      rw [h.surface]
      rfl
    | creates _ h =>
      rw [h.surface]
      rfl

theorem covered_rebuild {m' : Mapping}
    (h : Mapping.Rebuilt mode connected d.surface.desktops d.mapping m')
    (hd : ∀ a ∈ d.surface.desktops.ids, ∀ k, (d.lists mode).On k a → k ∈ connected) :
    Desk.Covered mode connected { d with mapping := m' } := by
  intro a ha
  obtain ⟨k, hk⟩ := h.all a ha
  rcases (h.sub k a hk).2 with hon | ⟨hkey, -⟩
  · exact ⟨k, hd a ha k hon, hk⟩
  · exact ⟨k, hkey, hk⟩

/-- A cleanup with enough to read is a rebuild and then acts. -/
theorem cleanup_acts {screens : List Output} {live : List DesktopId} (hd : d.Sound)
    (hmode : mode ≠ .shared) (hscreens : d.surface.liveScreens = some screens)
    (hlive : d.surface.liveOrdered = some live)
    (hvisible : d.surface.visibleIds = some visible)
    (hoccupied : d.surface.occupiedIds = some occupied) :
    (d.cleanupDesktops mode keys).Sound ∧
      Relation.ReflTransGen (Act mode (keys.screenKeys screens) visible occupied)
        (d.rebuild mode keys) (d.cleanupDesktops mode keys) := by
  simp only [cleanupDesktops, hvisible, hoccupied, hlive]
  have hscreens' : (d.rebuild mode keys).surface.liveScreens = some screens := hscreens
  cases mode with
  | shared => exact absurd rfl hmode
  | perOutputLocal => exact tidied_enforceLocal hscreens' rfl hd.rebuild
  | globalUnique => exact tidied_enforceGlobal hscreens' rfl hd.rebuild

/-- Retiring and creating in the shared list. -/
theorem Sound.enforceShared (h : d.Sound) : (d.enforceSharedTrailing visible occupied).Sound := by
  rw [enforceSharedTrailing]
  split
  · exact h
  · refine ensureTrailing_rel (R := fun d d' : Desk => d.Sound → d'.Sound) (fun _ hd => hd)
      (fun hab hbc hd => hbc (hab hd)) (fun d id hd => ?_) (fun d hd => hd.appendShared.1) h
    rw [removeManagedEmptyShared, removeManagedWith]
    split
    · have hremoved : Desk.Sound ⟨{ d.mapping with managed := d.mapping.managed.erase id },
          d.surface.removeDesktop id⟩ :=
        hd.ofSurface (hd.mapping.remove.congr ⟨rfl, rfl, rfl⟩) rfl fun _ hid => hid
      exact @Desk.Sound.rebuild _ .shared {} hremoved
    · exact hd

theorem Sound.cleanup (h : d.Sound) : (d.cleanupDesktops mode keys).Sound := by
  rw [cleanupDesktops]
  split
  · rename_i visible occupied live hvisible hoccupied hlive
    cases mode with
    | shared => exact h.rebuild.enforceShared
    | perOutputLocal =>
      cases hscreens : d.surface.liveScreens with
      | none =>
        have : (d.rebuild .perOutputLocal keys).surface.liveScreens = none := hscreens
        simp only [enforceTrailing, enforceLocalTrailing, this]
        exact h.rebuild
      | some screens => exact (@tidied_enforceLocal (keys.screenKeys screens) _ _
          (d.rebuild .perOutputLocal keys) _ _ hscreens rfl h.rebuild).1
    | globalUnique =>
      cases hscreens : d.surface.liveScreens with
      | none =>
        have : (d.rebuild .globalUnique keys).surface.liveScreens = none := hscreens
        simp only [enforceTrailing, enforceGlobalTrailing, this]
        exact h.rebuild
      | some screens => exact (@tidied_enforceGlobal (keys.screenKeys screens) _ _
          (d.rebuild .globalUnique keys) _ _ hscreens rfl h.rebuild).1
  · exact h

end

end Desk

/-! ## Signals -/

namespace World

section
variable {w : World} {screens : List Output} {live : List DesktopId}

/-- The mapping a pass starts with. -/
def pruned (w : World) (live : List DesktopId) : Desk :=
  { w.desk with mapping := w.adapter.mapping.pruneDisplaced live }

theorem pruned_sound (h : w.desk.Sound) : (w.pruned live).Sound :=
  h.congrMapping ⟨rfl, rfl, rfl⟩

theorem pass_fits (hlive : w.surface.liveOrdered = some live)
    (hne : w.adapter.outputKeys.screenKeys screens ≠ []) :
    (w.pass screens live).Fits w.surface.desktops := ⟨live_eq hlive, rfl, hne⟩

theorem reconcile_eq (hmode : w.adapter.mode ≠ .shared)
    (hscreens : w.surface.liveScreens = some screens) (hlive : w.surface.liveOrdered = some live)
    (hne : w.adapter.outputKeys.screenKeys screens ≠ []) :
    w.reconcileOutputDisplacement.desk = (w.pass screens live).run (w.pruned live) ∧
      w.reconcileOutputDisplacement.adapter.mode = w.adapter.mode ∧
      w.reconcileOutputDisplacement.adapter.outputKeys = w.adapter.outputKeys := by
  have hempty : (w.pass screens live).currentKeys.isEmpty = false := by
    rw [List.isEmpty_eq_false_iff]
    exact hne
  simp only [reconcileOutputDisplacement, if_neg hmode, hscreens, hlive, hempty, Bool.false_eq_true,
    if_false]
  exact ⟨rfl, trivial, trivial⟩

theorem reconcile_sound (h : w.desk.Sound) : w.reconcileOutputDisplacement.desk.Sound := by
  by_cases hmode : w.adapter.mode = .shared
  · rw [reconcileOutputDisplacement, if_pos hmode]
    exact h
  cases hscreens : w.surface.liveScreens with
  | none =>
    simp only [reconcileOutputDisplacement, if_neg hmode, hscreens]
    exact h
  | some screens =>
    cases hlive : w.surface.liveOrdered with
    | none =>
      simp only [reconcileOutputDisplacement, if_neg hmode, hscreens, hlive]
      exact h
    | some live =>
      cases hkeys : w.adapter.outputKeys.screenKeys screens with
      | nil =>
        have hempty : (w.pass screens live).currentKeys.isEmpty = true := by
          rw [List.isEmpty_iff]
          exact hkeys
        simp only [reconcileOutputDisplacement, if_neg hmode, hscreens, hlive, hempty, if_true]
        exact pruned_sound h
      | cons first rest =>
        have hne : w.adapter.outputKeys.screenKeys screens ≠ [] := by rw [hkeys]; nofun
        rw [(reconcile_eq hmode hscreens hlive hne).1]
        exact (Pass.run_sound (pruned_sound h) (pass_fits hlive hne)).1

theorem rebuildKeys_desk : w.rebuildKeys.desk = w.desk := by
  rw [rebuildKeys]
  split <;> rfl

theorem observeShared_desk : w.observeShared.desk = w.desk := by
  rw [observeShared]
  split <;> rfl

theorem signal_sound (h : w.desk.Sound) : w.handleTopologySignal.desk.Sound := by
  rw [handleTopologySignal]
  split
  · exact h
  · have hkeys : w.rebuildKeys.desk.Sound := by rwa [rebuildKeys_desk]
    have hreconciled := reconcile_sound hkeys
    rw [← observeShared_desk] at hreconciled
    exact hreconciled.cleanup

/-- The keys of the connected outputs. -/
def connected (w : World) : List OutputKey :=
  match w.surface.liveScreens with
  | none => []
  | some screens => w.adapter.outputKeys.screenKeys screens

/-- A signal can read everything it needs of the surface, and at least one
output is there to put desktops on. -/
structure Readable (w : World) : Prop where
  connected : w.rebuildKeys.connected ≠ []
  live : w.surface.liveOrdered.isSome = true
  visible : w.surface.visibleIds.isSome = true
  occupied : w.surface.occupiedIds.isSome = true

/-- The list of an absent output that is displaced holds desktops of its
record only. -/
def Anchored (w : World) : Prop :=
  ∀ screens live, w.surface.liveScreens = some screens → w.surface.liveOrdered = some live →
    ∀ origin, origin ∉ w.rebuildKeys.connected →
      (w.rebuildKeys.pass screens live).Anchored (w.rebuildKeys.pruned live) origin

theorem visible_shows {s s' : Surface} (h : Shows s s') (hvisible : s.visibleIds.isSome = true) :
    s'.visibleIds.isSome = true := by
  obtain ⟨visible, hvisible⟩ := Option.isSome_iff_exists.mp hvisible
  simp only [Surface.visibleIds, Option.bind_eq_bind, Option.bind_eq_some_iff, Option.pure_def,
    Option.some.injEq] at hvisible
  obtain ⟨screens, hscreens, shown, hshown, global, hglobal, -⟩ := hvisible
  have hscreens' : s'.liveScreens = some screens := by
    rw [h.only]
    exact hscreens
  have hglobal' : s'.currentDesktop = some global := by
    rw [h.only]
    exact hglobal
  have hmap : ∀ (screens : List Output) (shown : List DesktopId),
      screens.mapM s.currentOnOutput = some shown →
        ∃ shown', screens.mapM s'.currentOnOutput = some shown' := by
    intro screens
    induction screens with
    | nil => exact fun _ _ => ⟨[], rfl⟩
    | cons o screens ih =>
      intro shown hshown
      simp only [List.mapM_cons, Option.bind_eq_bind, Option.bind_eq_some_iff, Option.pure_def,
        Option.some.injEq] at hshown
      obtain ⟨id, hid, rest, hrest, -⟩ := hshown
      obtain ⟨id', hid'⟩ := h.still o.ref id hid
      obtain ⟨rest', hrest'⟩ := ih rest hrest
      exact ⟨id' :: rest', by simp [List.mapM_cons, Surface.currentOnOutput, hid', hrest']⟩
  obtain ⟨shown', hshown'⟩ := hmap screens shown hshown
  simp [Surface.visibleIds, hscreens', hshown', hglobal']

/-- After a readable signal every live desktop is on the list of a connected
output. -/
theorem signal_covers (h : w.desk.Sound) (henabled : w.adapter.enabled = true)
    (hmode : w.adapter.mode ≠ .shared) (hreadable : w.Readable) (hanchored : w.Anchored) :
    w.handleTopologySignal.connected = w.rebuildKeys.connected ∧
      w.handleTopologySignal.adapter.mode = w.adapter.mode ∧
      w.handleTopologySignal.desk.Covered w.adapter.mode w.rebuildKeys.connected := by
  cases hscreens : w.surface.liveScreens with
  | none => exact absurd (by simp [rebuildKeys, connected, hscreens]) hreadable.connected
  | some screens =>
  obtain ⟨live, hlive⟩ := Option.isSome_iff_exists.mp hreadable.live
  obtain ⟨occupied, hoccupied⟩ := Option.isSome_iff_exists.mp hreadable.occupied
  have hkeys : w.rebuildKeys =
      { w with adapter := { w.adapter with outputKeys := w.adapter.outputKeys.rebuild screens } } := by
    simp only [rebuildKeys, hscreens]
  have hconnected : w.rebuildKeys.connected = w.rebuildKeys.adapter.outputKeys.screenKeys screens := by
    rw [hkeys]
    simp only [connected, hscreens]
  have hne := hconnected ▸ hreadable.connected
  have hsound : w.rebuildKeys.desk.Sound := by rwa [rebuildKeys_desk]
  have hsurface : w.rebuildKeys.surface = w.surface := by rw [hkeys]
  have hmode' : w.rebuildKeys.adapter.mode = w.adapter.mode := by rw [hkeys]
  have hscreens' : w.rebuildKeys.surface.liveScreens = some screens := hsurface ▸ hscreens
  have hlive' : w.rebuildKeys.surface.liveOrdered = some live := hsurface ▸ hlive
  obtain ⟨hdesk, hrmode, hrkeys⟩ := reconcile_eq (w := w.rebuildKeys) (hmode' ▸ hmode) hscreens'
    hlive' hne
  have hfits := pass_fits (w := w.rebuildKeys) hlive' hne
  obtain ⟨hrun, hshows⟩ := Pass.run_sound (@pruned_sound _ live hsound) hfits
  -- the lists after the pass
  have hon : ∀ a ∈ live, ∀ k,
      (((w.rebuildKeys.pass screens live).run (w.rebuildKeys.pruned live)).lists
        w.rebuildKeys.adapter.mode).On k a → k ∈ w.rebuildKeys.connected := by
    intro a ha k hk
    rw [hconnected]
    refine Pass.run_connected (p := w.rebuildKeys.pass screens live) (pruned_sound hsound) hfits ?_
      (fun origin ho => hanchored screens live hscreens hlive origin (hconnected ▸ ho)) ha hk
    exact (Mapping.SameLists.lists (m := w.rebuildKeys.adapter.mapping) ⟨rfl, rfl, rfl⟩).symm
  have hcleaned : w.handleTopologySignal.desk =
        ((w.rebuildKeys.pass screens live).run (w.rebuildKeys.pruned live)).cleanupDesktops
          w.adapter.mode w.rebuildKeys.adapter.outputKeys ∧
      w.handleTopologySignal.adapter.outputKeys = w.rebuildKeys.adapter.outputKeys ∧
      w.handleTopologySignal.adapter.mode = w.adapter.mode := by
    have hshared : w.rebuildKeys.reconcileOutputDisplacement.observeShared =
        w.rebuildKeys.reconcileOutputDisplacement := by
      rw [observeShared, if_neg]
      rw [hrmode, hmode']
      exact hmode
    have hcleanup : ∀ w' : World, w'.cleanup.validate.desk =
          w'.desk.cleanupDesktops w'.adapter.mode w'.adapter.outputKeys ∧
        w'.cleanup.validate.adapter.outputKeys = w'.adapter.outputKeys ∧
        w'.cleanup.validate.adapter.mode = w'.adapter.mode := fun _ => ⟨rfl, rfl, rfl⟩
    rw [handleTopologySignal, henabled]
    simp only [Bool.not_true, Bool.false_eq_true, if_false]
    rw [hshared, (hcleanup _).1, (hcleanup _).2.1, (hcleanup _).2.2, hdesk, hrmode, hrkeys, hmode']
    exact ⟨rfl, rfl, rfl⟩
  generalize (w.rebuildKeys.pass screens live).run (w.rebuildKeys.pruned live) = d at *
  have hrunSurface : Shows w.surface d.surface := by
    have : Shows w.rebuildKeys.surface d.surface := hshows
    rwa [hsurface] at this
  have hdscreens : d.surface.liveScreens = some screens := by
    rw [hrunSurface.only]
    exact hscreens
  have hdlive : d.surface.liveOrdered = some live := hrunSurface.liveOrdered.trans hlive
  have hdoccupied : d.surface.occupiedIds = some occupied := by
    rw [hrunSurface.only]
    exact hoccupied
  obtain ⟨visible, hdvisible⟩ := Option.isSome_iff_exists.mp
    (visible_shows hrunSurface hreadable.visible)
  obtain ⟨-, hacts⟩ := @Desk.cleanup_acts _ _ _ _ w.rebuildKeys.adapter.outputKeys _ _ hrun hmode
    hdscreens hdlive hdvisible hdoccupied
  have hrebuilt := Desk.rebuilt hrun hmode hdscreens hdlive hne
  obtain ⟨hcleaned, hckeys, hcmode⟩ := hcleaned
  refine ⟨?_, hcmode, ?_⟩
  · have hcscreens : w.handleTopologySignal.surface.liveScreens = some screens := by
      have : w.handleTopologySignal.surface = w.handleTopologySignal.desk.surface := rfl
      rw [this, hcleaned]
      exact (Desk.acts_screens hacts).trans hdscreens
    rw [hconnected, connected, hcscreens, hckeys]
  · rw [hcleaned, hconnected]
    refine Desk.covered_of_acts hacts (Desk.covered_rebuild hrebuilt fun a ha k hk => ?_)
    rw [← hconnected]
    exact hon a (live_eq hdlive ▸ ha) k (hmode' ▸ hk)

/-! ## Migration -/

theorem mem_insertAfter {shown id a : DesktopId} {ids : List DesktopId} :
    a ∈ insertAfter shown id ids ↔ a ∈ ids ∨ a = id := by
  rw [insertAfter]
  split
  · simp
  · rename_i position _
    rw [List.mem_append, List.mem_cons]
    constructor
    · rintro (ha | rfl | ha)
      · exact Or.inl (List.mem_of_mem_take ha)
      · exact Or.inr rfl
      · exact Or.inl (List.mem_of_mem_drop ha)
    · rintro (ha | rfl)
      · rw [← List.take_append_drop (position + 1) ids] at ha
        rcases List.mem_append.mp ha with ha | ha
        · exact Or.inl ha
        · exact Or.inr (Or.inr ha)
      · exact Or.inr (Or.inl rfl)

/-- One desktop changes lists. It is on that of the target, no list gains
another, and no live desktop is lost from one. -/
structure Migrated (mode : WorkspaceMode) (source target : OutputKey) (id : DesktopId)
    (ds : Desktops) (m m' : Mapping) : Prop where
  sound : m'.Sound ds
  here : (m'.lists mode).On target id
  sub : ∀ k a, a ≠ id → (m'.lists mode).On k a → (m.lists mode).On k a
  keep : ∀ k a, a ≠ id → a ∈ ds.ids → (m.lists mode).On k a → (m'.lists mode).On k a
  displaced : m'.displacedByOrigin = m.displacedByOrigin

theorem migrated {m : Mapping} {ds : Desktops} {mode : WorkspaceMode} {source target : OutputKey}
    {shown id : DesktopId} (h : m.Sound ds) (hid : id ∈ ds.ids) (hne : source ≠ target)
    (hon : (m.lists mode).On source id) :
    Migrated mode source target id ds m (moveBetween mode ds.ids source target shown id m) := by
  have hlocal : ∀ {mode : WorkspaceMode}, mode ≠ .globalUnique → m.localWorkspaces.On source id →
      Migrated mode source target id ds m { m with
        localWorkspaces := (m.localWorkspaces.set source
          (((m.localWorkspaces.get source).getD []).filter fun x => x != id)).set target
            (pushNew [] (insertAfter shown id ((m.localWorkspaces.get target).getD []))) } := by
    intro mode hmode hon
    have hat : ∀ k a, On ((m.localWorkspaces.set source
          (((m.localWorkspaces.get source).getD []).filter fun x => x != id)).set target
            (pushNew [] (insertAfter shown id ((m.localWorkspaces.get target).getD [])))) k a ↔
        if a = id then k = target else m.localWorkspaces.On k a := by
      intro k a
      rw [on_set]
      split
      · rename_i hk
        subst hk
        rw [mem_pushNew, mem_insertAfter, ← on_iff_getD]
        by_cases ha : a = id <;> simp [ha]
      · rename_i hk
        rw [on_set]
        split
        · rename_i hk'
          subst hk'
          rw [List.mem_filter, ← on_iff_getD]
          by_cases ha : a = id <;> simp [ha, hk]
        · rename_i hk'
          split
          · rename_i ha
            subst ha
            exact ⟨fun hk'' => absurd (h.localPart.one k source a hk'' hon) hk',
              fun hk'' => absurd hk'' hk⟩
          · exact Iff.rfl
    have hpart : Partition ((m.localWorkspaces.set source
          (((m.localWorkspaces.get source).getD []).filter fun x => x != id)).set target
            (pushNew [] (insertAfter shown id ((m.localWorkspaces.get target).getD [])))) := by
      refine (h.localPart.set (h.localPart.nodup_getD.filter _) fun a ha k' hk' => ?_).set
        (nodup_pushNew List.nodup_nil) fun a ha k' hk' => ?_
      · rw [List.mem_filter, ← on_iff_getD] at ha
        exact h.localPart.one k' source a hk' ha.1
      · rw [mem_pushNew, mem_insertAfter, ← on_iff_getD] at ha
        rw [on_set] at hk'
        rcases ha with ha | ha | rfl
        · cases ha
        · split at hk'
          · rw [List.mem_filter, ← on_iff_getD] at hk'
            exact absurd (h.localPart.one source target a hk'.1 ha) hne
          · exact h.localPart.one k' target a hk' ha
        · split at hk'
          · simp at hk'
          · rename_i hk''
            exact absurd (h.localPart.one k' source a hk' hon) hk''
    have hsound : Mapping.Sound { m with
        localWorkspaces := (m.localWorkspaces.set source
          (((m.localWorkspaces.get source).getD []).filter fun x => x != id)).set target
            (pushNew [] (insertAfter shown id ((m.localWorkspaces.get target).getD []))) } ds :=
      { h with
        localPart := hpart
        localUsed := fun k a hk => by
          have := (hat k a).mp hk
          split at this
          · rename_i ha
            exact ha ▸ ds.known id hid
          · exact h.localUsed k a this }
    cases mode with
    | globalUnique => exact absurd rfl hmode
    | perOutputLocal =>
      exact ⟨hsound, (hat target id).mpr (by simp),
        fun k a ha hk => (if_neg ha).mp ((hat k a).mp hk),
        fun k a ha _ hk => (hat k a).mpr ((if_neg ha).mpr hk), rfl⟩
    | shared =>
      exact ⟨hsound, (hat target id).mpr (by simp),
        fun k a ha hk => (if_neg ha).mp ((hat k a).mp hk),
        fun k a ha _ hk => (hat k a).mpr ((if_neg ha).mpr hk), rfl⟩
  cases mode with
  | perOutputLocal => exact hlocal (fun h => by cases h) hon
  | shared => exact hlocal (fun h => by cases h) hon
  | globalUnique =>
    have hreleased := @Mapping.Sound.unassignGlobal _ _ id h
    have hout := fun k a => @Mapping.on_unassignGlobal _ _ k id a h
    have hat : ∀ k a, On ((m.unassignGlobal id).globalAssigned.set target
        (pushNew [] (insertAfter shown id ((m.unassignGlobal id).globalOrdered ds.ids target)))) k a ↔
        if a = id then k = target else m.globalAssigned.On k a ∧ (k = target → a ∈ ds.ids) := by
      intro k a
      rw [on_set]
      split
      · rename_i hk
        subst hk
        rw [mem_pushNew, mem_insertAfter, Mapping.globalOrdered, List.mem_filter, ← on_iff_getD, hout]
        by_cases ha : a = id <;> simp [ha]
      · rename_i hk
        rw [hout]
        by_cases ha : a = id <;> simp [ha, hk]
    have hnodup : ((m.unassignGlobal id).globalOrdered ds.ids target).Nodup :=
      hreleased.globalPart.nodup_getD.filter _
    refine ⟨{ hreleased with
      globalPart := hreleased.globalPart.set (nodup_pushNew List.nodup_nil) fun a ha k' hk' => ?_
      inverse := fun k a hk => ?_
      assigned := fun a ha k hk => ?_
      inverseUsed := fun a k hk => ?_ }, (hat target id).mpr (by simp), fun k a ha hk => ?_,
      fun k a ha hlive hk => (hat k a).mpr (by simpa [ha] using ⟨hk, fun _ => hlive⟩),
      Desk.unassignGlobal_displaced⟩
    · rw [mem_pushNew, mem_insertAfter, Mapping.globalOrdered, List.mem_filter, ← on_iff_getD] at ha
      rcases ha with ha | ha | rfl
      · cases ha
      · exact hreleased.globalPart.one k' target a hk' ha.1
      · exact absurd rfl ((hout k' a).mp hk').2
    · have hk := (hat k a).mp hk
      rw [moveBetween, OrderedMap.get_set]
      split at hk
      · rename_i ha
        rw [if_pos ha, hk]
      · rename_i ha
        rw [if_neg ha]
        exact hreleased.inverse k a ((hout k a).mpr ⟨hk.1, ha⟩)
    · rw [moveBetween, OrderedMap.get_set] at hk
      refine (hat k a).mpr ?_
      split at hk
      · rename_i ha'
        rw [if_pos ha', Option.some.inj hk]
      · rename_i ha'
        rw [if_neg ha']
        exact ⟨((hout k a).mp (hreleased.assigned a ha k hk)).1, fun _ => ha⟩
    · rw [moveBetween, OrderedMap.get_set] at hk
      split at hk
      · rename_i ha
        exact ha ▸ ds.known id hid
      · exact hreleased.inverseUsed a k hk
    · have := (hat k a).mp hk
      rw [if_neg ha] at this
      exact this.1

/-- What a migration that is not refused found. -/
theorem migration_spec {source target : Output} {id shown : DesktopId}
    {sourceKey targetKey : OutputKey} (hlive : w.surface.liveOrdered = some live)
    (h : w.migration source target id live = some (sourceKey, targetKey, shown)) :
    sourceKey ≠ targetKey ∧ id ∈ w.surface.desktops.ids ∧
      (w.adapter.mapping.lists w.adapter.mode).On sourceKey id := by
  simp only [migration, Option.bind_eq_bind, Option.bind_eq_some_iff] at h
  obtain ⟨_, -, _, -, _, -, h⟩ := h
  split at h
  · rename_i hall
    simp only [Option.some.injEq, Prod.mk.injEq] at h
    obtain ⟨rfl, rfl, rfl⟩ := h
    obtain ⟨hne, hmem, hscope, -, -⟩ := hall
    rw [List.contains_iff_mem] at hmem hscope
    refine ⟨hne, live_eq hlive ▸ hmem, on_iff_getD.mpr ?_⟩
    cases hmode : w.adapter.mode with
    | globalUnique =>
      rw [hmode] at hscope
      exact List.mem_of_mem_filter hscope
    | perOutputLocal =>
      rw [hmode] at hscope
      exact hscope
    | shared =>
      rw [hmode] at hscope
      exact hscope
  · cases h

/-- A migration is refused and leaves the desk as it was, or rebuilt at most;
or it moves the desktop and strikes it from the records. -/
inductive Migrates (w : World) (id : DesktopId) : World → Prop
  | refused {w' : World} (h : w'.desk = w.desk ∨
      w'.desk = w.desk.rebuild w.adapter.mode w.adapter.outputKeys) : Migrates w id w'
  | moved {w' : World} {sourceKey targetKey : OutputKey} {m : Mapping}
      (hmode : w.adapter.mode ≠ .shared)
      (h : Migrated w.adapter.mode sourceKey targetKey id w.surface.desktops
        (w.desk.rebuild w.adapter.mode w.adapter.outputKeys).mapping m)
      (hmapping : w'.adapter.mapping = undisplace id (m.manage [id]))
      (hsurface : w'.surface = w.surface) : Migrates w id w'

theorem migrates {source target : Output} {id : DesktopId} (h : w.desk.Sound) :
    Migrates w id (w.commitWorkspaceMigration source target id).2 := by
  rw [commitWorkspaceMigration]
  dsimp only
  split
  · exact .refused (Or.inl rfl)
  · rename_i hmode
    simp only [Bool.or_eq_true, Bool.not_eq_true', decide_eq_true_eq, not_or] at hmode
    split
    · exact .refused (Or.inl rfl)
    · rename_i live hlive
      split
      · exact .refused (Or.inr rfl)
      · rename_i sourceKey targetKey shown hmigration
        obtain ⟨hne, hid, hon⟩ := migration_spec
          (w := w.withDesk (w.desk.rebuild w.adapter.mode w.adapter.outputKeys)) hlive hmigration
        obtain rfl := live_eq hlive
        exact .moved hmode.2
          (migrated (@Desk.Sound.rebuild _ w.adapter.mode w.adapter.outputKeys h).mapping hid hne hon)
          rfl rfl

theorem Migrates.sound {w' : World} {id : DesktopId} (h : Migrates w id w') (hw : w.desk.Sound) :
    w'.desk.Sound := by
  cases h with
  | refused h =>
    rcases h with h | h
    · rw [h]
      exact hw
    · rw [h]
      exact hw.rebuild
  | moved _ h hmapping hsurface =>
    refine ⟨?_, ?_⟩
    · have : w'.desk.mapping.Sound w.surface.desktops := by
        rw [desk, hmapping]
        exact h.sound.congr ⟨rfl, rfl, rfl⟩
      rw [desk, hsurface]
      exact this
    · rw [desk, hsurface]
      exact hw.shown

/-! ## Runs -/

theorem enable_sound {mode : WorkspaceMode} {refill : MigrationSourceRefill} (h : w.desk.Sound) :
    (w.enable mode refill).desk.Sound := by
  rw [enable]
  split
  · exact h
  · have hreset : Desk.Sound ⟨{}, w.surface⟩ := ⟨Mapping.sound_empty, h.shown⟩
    have hprime : ∀ w' : World, w'.primeDisplacedTracking.desk = w'.desk := by
      intro w'
      rw [primeDisplacedTracking]
      split <;> rfl
    rw [hprime]
    refine Desk.Sound.cleanup (Desk.Sound.rebuild ?_)
    rw [rebuildKeys_desk]
    exact hreset

theorem selectPrevious_sound (h : w.desk.Sound) : w.selectPrevious.2.desk.Sound := by
  rw [selectPrevious]
  split
  · rw [selectPreviousShared]
    split
    · rename_i previousId live _ hlive
      split
      · exact h
      split
      · exact h
      · rename_i hmem _
        exact h.synchronizeShared (w.surface.desktops.known _ (live_eq hlive ▸ by simpa using hmem))
    · exact h
  · dsimp only
    split
    · exact h
    · rename_i hfound
      simp only [Option.bind_eq_bind, Option.bind_eq_some_iff, Option.pure_def, Option.some.injEq,
        Prod.mk.injEq] at hfound
      obtain ⟨_, -, _, -, _, -, _, hlive, rfl, rfl, rfl, rfl⟩ := hfound
      split
      · exact h
      · rename_i hscope
        simp only [Bool.or_eq_true, Bool.not_eq_true', not_or, Bool.not_eq_false] at hscope
        split
        · exact h
        · exact h.showOn (w.surface.desktops.known _ (live_eq hlive ▸ by simpa using hscope.1))

theorem command_sound {f : WorkspaceMode → SessionOutputKeys → Desk → Desk} (h : w.desk.Sound)
    (hf : ∀ mode keys d, d.Sound → (f mode keys d).Sound) : (w.command f).desk.Sound := by
  rw [command]
  split
  · exact hf _ _ _ h
  · exact h

/-- Every event keeps the mapping sound. -/
theorem step_sound {e : Event} (h : w.desk.Sound) (hallowed : w.Allowed e) :
    (w.step e).desk.Sound := by
  cases e with
  | enable mode refill => exact enable_sound h
  | disable => exact ⟨Mapping.sound_empty, h.shown⟩
  | topology => exact signal_sound h
  | select index => exact command_sound h fun _ _ _ hd => hd.selectLogical
  | selectTrailing => exact command_sound h fun _ _ _ hd => hd.selectTrailingOrCreate
  | selectPrevious =>
    simp only [step]
    split
    · exact selectPrevious_sound h
    · exact h
  | selectRelative forward => exact command_sound h fun _ _ _ hd => hd.selectRelative
  | relativeMoveTarget forward => exact command_sound h fun _ _ _ hd => hd.resolveRelativeMoveTarget
  | appendMoveTarget => exact command_sound h fun _ _ _ hd => hd.resolveOrAppendMoveTarget
  | migrate source target id => exact (migrates h).sound h
  | refill refill => exact h
  | surface s =>
    exact ⟨h.mapping.follows hallowed.used hallowed.fresh, hallowed.shown⟩

theorem run_sound {events : List Event} (h : w.desk.Sound) (hallowed : Always Allowed w events) :
    (w.run events).desk.Sound := by
  induction events generalizing w with
  | nil => exact h
  | cons e events ih => exact ih (step_sound h hallowed.1) hallowed.2

end

/-- Before anything happened. -/
def start (s : Surface) : World := ⟨{}, s⟩

theorem start_sound {s : Surface} (hshown : ∀ o id, s.currents.get o = some id → id ∈ s.desktops.used) :
    (start s).desk.Sound := ⟨Mapping.sound_empty, hshown⟩

/-! ## The partition -/

/-- No desktop is twice within or across the lists, and in the global mode
the inverse map and the lists name each other. -/
structure Partitioned (w : World) : Prop where
  localWorkspaces : w.adapter.mapping.localWorkspaces.Partition
  globalAssigned : w.adapter.mapping.globalAssigned.Partition
  inverse : w.adapter.mode = .globalUnique → ∀ id ∈ w.surface.desktops.ids, ∀ k,
    w.adapter.mapping.globalAssigned.On k id ↔ w.adapter.mapping.globalInverse.get id = some k

/-- Every live desktop is on one list and no other, and that is the list of a
connected output. -/
def EachOnce (w : World) : Prop :=
  ∀ id ∈ w.surface.desktops.ids, ∃ k ∈ w.connected, (w.desk.lists w.adapter.mode).On k id ∧
    ∀ k', (w.desk.lists w.adapter.mode).On k' id → k' = k

/-- In every run the lists are a partition, and a readable topology signal
that finds absent outputs anchored puts every live desktop on the list of
exactly one connected output. -/
theorem workspaces_partitioned (s : Surface)
    (hshown : ∀ o id, s.currents.get o = some id → id ∈ s.desktops.used) (events : List Event)
    (hallowed : Always Allowed (start s) events) :
    ((start s).run events).Partitioned ∧
      (((start s).run events).adapter.enabled = true →
        ((start s).run events).adapter.mode ≠ .shared → ((start s).run events).Readable →
          ((start s).run events).Anchored → ((start s).run events).handleTopologySignal.EachOnce) := by
  have hsound := run_sound (start_sound hshown) hallowed
  generalize (start s).run events = w at *
  refine ⟨⟨hsound.mapping.localPart, hsound.mapping.globalPart, fun _ id hid k =>
    ⟨hsound.mapping.inverse k id, hsound.mapping.assigned id hid k⟩⟩, ?_⟩
  intro henabled hmode hreadable hanchored id hid
  obtain ⟨hconnected, hmode', hcovered⟩ := signal_covers hsound henabled hmode hreadable hanchored
  obtain ⟨k, hk, hon⟩ := hcovered id hid
  rw [← hmode'] at hon
  exact ⟨k, hconnected ▸ hk, hon, fun k' hon' =>
    (signal_sound hsound).mapping.partition.one k' k id hon' hon⟩

/-! ## Two outputs -/

/-- Events that follow what happened. -/
def follow (w : World) : List (World → Event) → List Event
  | [] => []
  | f :: fs => f w :: follow (w.step (f w)) fs

theorem always_follow {w : World} {fs : List (World → Event)} (h : w.desk.Sound)
    (hfs : ∀ f ∈ fs, ∀ w : World, w.desk.Sound → w.Allowed (f w)) :
    Always Allowed w (w.follow fs) := by
  induction fs generalizing w with
  | nil => trivial
  | cons f fs ih =>
    have hf := hfs f List.mem_cons_self w h
    exact ⟨hf, ih (step_sound h hf) fun g hg => hfs g (List.mem_cons_of_mem _ hg)⟩

/-- Only the screens change; the first is active. -/
def plug (screens : List Output) (w : World) : Event :=
  .surface { w.surface with screens := some screens, activeScreen := screens.head? }

theorem plug_allowed {w : World} {screens : List Output} (h : w.desk.Sound) :
    w.Allowed (plug screens w) := ⟨fun _ hid => hid, fun _ hid => Or.inl hid, h.shown⟩

def outputA : Output := ⟨0, some "A"⟩

def outputB : Output := ⟨1, some "B"⟩

theorem capacity_ok : 25 ≤ maxDesktops := by decide

/-- Two outputs and two desktops, with a window on the first. -/
def twoOutputs : Surface where
  desktops := ⟨["a", "b"], ["a", "b"], by decide, fun _ h => h⟩
  capacity := 25
  capacity_le := capacity_ok
  mint := .longest
  screens := some [outputA, outputB]
  windows := some [{ output := some outputA, desktops := some ["a"] }]
  currents := (OrderedMap.empty.set 0 "a").set 1 "b"
  currentDesktop := some "a"
  activeScreen := some outputA

theorem twoOutputs_shown : ∀ o id, twoOutputs.currents.get o = some id →
    id ∈ twoOutputs.desktops.used := by
  intro o id h
  simp only [twoOutputs, OrderedMap.get_set, OrderedMap.get_empty] at h
  split at h
  · rw [← Option.some.inj h]
    decide
  split at h
  · rw [← Option.some.inj h]
    decide
  · cases h

theorem anchored_of {w : World} {screens : List Output} {live : List DesktopId}
    (hscreens : w.surface.liveScreens = some screens) (hlive : w.surface.liveOrdered = some live)
    (hrecords : ∀ record ∈ (w.rebuildKeys.pruned live).mapping.displacedByOrigin.entries,
      ∀ a ∈ live, On ((w.rebuildKeys.pruned live).lists (w.rebuildKeys.pass screens live).mode)
        record.1 a → a ∈ record.2.workspaceIds ∧
          record.2.destKey ∈ (w.rebuildKeys.pass screens live).currentKeys) : w.Anchored := by
  intro screens' live' hscreens' hlive' origin _ entry hentry a ha hon
  obtain rfl := Option.some.inj (hscreens.symm.trans hscreens')
  obtain rfl := Option.some.inj (hlive.symm.trans hlive')
  obtain ⟨hid, hdest⟩ := hrecords (origin, entry) (OrderedMap.mem_entries_of_get hentry) a ha hon
  exact ⟨hid, .inl hdest⟩

/-- The first output goes and is displaced. -/
def unplugged : List (World → Event) :=
  [fun _ => .enable .perOutputLocal .lastRemaining, plug [outputB], fun _ => .topology]

/-- After an unplug, with a record that is anchored. -/
theorem workspaces_partitioned_unplugged :
    let w := (start twoOutputs).run ((start twoOutputs).follow unplugged)
    (w.adapter.mapping.displacedByOrigin.get 0).isSome = true ∧
      w.handleTopologySignal.EachOnce := by
  intro w
  have hallowed : Always Allowed (start twoOutputs) ((start twoOutputs).follow unplugged) := by
    refine always_follow (start_sound twoOutputs_shown) fun f hf w hw => ?_
    simp only [unplugged, List.mem_cons, List.not_mem_nil, or_false] at hf
    rcases hf with rfl | rfl | rfl
    · trivial
    · exact plug_allowed hw
    · trivial
  refine ⟨by decide +kernel, (workspaces_partitioned twoOutputs twoOutputs_shown _ hallowed).2
    (by decide +kernel) (by decide +kernel) ?_ ?_⟩
  · exact ⟨by decide +kernel, by decide +kernel, by decide +kernel, by decide +kernel⟩
  · exact @anchored_of _ [outputB] ["a", "b", "dd"] (by decide +kernel) (by decide +kernel)
      (by unfold Desk.lists; decide +kernel)

/-- The first output goes and is displaced, comes back, gets a desktop, and
goes again before a signal. -/
def unsignalled : List (World → Event) :=
  [fun _ => .enable .perOutputLocal .lastRemaining, plug [outputB], fun _ => .topology,
   plug [outputA, outputB], fun _ => .selectTrailing, plug [outputB]]

/-- After the signal the desktop it got is on the list of no connected output.
-/
theorem not_always_each_once : ¬ ∀ (s : Surface)
    (_ : ∀ o id, s.currents.get o = some id → id ∈ s.desktops.used) (events : List Event)
    (_ : Always Allowed (start s) events), ((start s).run events).adapter.enabled = true →
      ((start s).run events).adapter.mode ≠ .shared → ((start s).run events).Readable →
        ((start s).run events).handleTopologySignal.EachOnce := by
  intro h
  have hallowed : Always Allowed (start twoOutputs) ((start twoOutputs).follow unsignalled) := by
    refine always_follow (start_sound twoOutputs_shown) fun f hf w hw => ?_
    simp only [unsignalled, List.mem_cons, List.not_mem_nil, or_false] at hf
    rcases hf with rfl | rfl | rfl | rfl | rfl | rfl
    · trivial
    · exact plug_allowed hw
    · trivial
    · exact plug_allowed hw
    · trivial
    · exact plug_allowed hw
  have honce := h twoOutputs twoOutputs_shown _ hallowed (by decide +kernel) (by decide +kernel)
    ⟨by decide +kernel, by decide +kernel, by decide +kernel, by decide +kernel⟩
  obtain ⟨k, hk, hon, -⟩ := honce "ddd" (by decide +kernel)
  have hnone : ∀ k ∈ ((start twoOutputs).run
      ((start twoOutputs).follow unsignalled)).handleTopologySignal.connected,
      ¬ On (((start twoOutputs).run
        ((start twoOutputs).follow unsignalled)).handleTopologySignal.desk.lists .perOutputLocal) k
          "ddd" := by
    decide +kernel
  exact hnone k hk hon

end World

end Native

end PlasmaTiler
