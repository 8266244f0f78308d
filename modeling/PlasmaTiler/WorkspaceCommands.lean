import PlasmaTiler.WorkspaceTidy

/-!
# Every command keeps the mapping sound

The commands read the mapping, may create a desktop, and show one. None of
them moves a desktop between outputs: that is migration, which has its step
lemma with the partition. So each command is a rebuild, then at most one act,
then a write of what is shown, and the proofs follow that order.

What is shown has to be a desktop that is known to the surface (`used`), and
that is all that soundness asks of a write. So each way to find a target (the
n-th of a list, the trailing one, a neighbour on the ring, a created one)
comes with the lemma that the target is known. In the global mode a desktop
that another output shows changes places with the one shown here, which is
two such writes.
-/

namespace PlasmaTiler

namespace Native

open Buckets

namespace Desk

section
variable {d : Desk} {mode : WorkspaceMode} {keys : SessionOutputKeys} {id target : DesktopId}
  {o : Output} {key : OutputKey}

theorem Sound.congrMapping {m : Mapping} (h : d.Sound) (hsame : d.mapping.SameLists m) :
    Desk.Sound { d with mapping := m } := ⟨h.mapping.congr hsame, h.shown⟩

/-- Rebuilding with enough to read. -/
theorem rebuilt {screens : List Output} {live : List DesktopId} (h : d.Sound)
    (hmode : mode ≠ .shared) (hscreens : d.surface.liveScreens = some screens)
    (hlive : d.surface.liveOrdered = some live) (hkeys : keys.screenKeys screens ≠ []) :
    Mapping.Rebuilt mode (keys.screenKeys screens) d.surface.desktops d.mapping
      (d.rebuild mode keys).mapping := by
  obtain rfl := live_eq hlive
  obtain ⟨first, rest, heq⟩ := List.exists_cons_of_ne_nil hkeys
  cases mode with
  | shared => exact absurd rfl hmode
  | perOutputLocal =>
    simp only [rebuild, onMapping, Mapping.rebuildMapping, Mapping.rebuildLocalMapping, hscreens,
      hlive, heq]
    exact Mapping.rebuilt_local h.mapping (by simp)
  | globalUnique =>
    simp only [rebuild, onMapping, Mapping.rebuildMapping, Mapping.rebuildGlobalMapping, hscreens,
      hlive, heq]
    exact Mapping.rebuilt_global h.mapping (by simp)

theorem Sound.rebuild (h : d.Sound) : (d.rebuild mode keys).Sound := by
  refine ⟨?_, h.shown⟩
  cases mode with
  | shared =>
    simp only [Desk.rebuild, onMapping, Mapping.rebuildMapping, Mapping.rebuildSharedMapping]
    split
    · exact h.mapping
    · exact h.mapping.congr ⟨rfl, rfl, rfl⟩
  | perOutputLocal =>
    simp only [Desk.rebuild, onMapping, Mapping.rebuildMapping, Mapping.rebuildLocalMapping]
    split
    · exact h.mapping
    split
    · exact h.mapping
    split
    · exact h.mapping
    · rename_i hne _ _ hlive
      obtain rfl := live_eq hlive
      exact (Mapping.rebuilt_local h.mapping hne).sound
  | globalUnique =>
    simp only [Desk.rebuild, onMapping, Mapping.rebuildMapping, Mapping.rebuildGlobalMapping]
    split
    · exact h.mapping
    split
    · exact h.mapping
    split
    · exact h.mapping
    · rename_i hne _ _ hlive
      obtain rfl := live_eq hlive
      exact (Mapping.rebuilt_global h.mapping hne).sound

theorem Sound.writeCurrent (h : d.Sound) (hid : id ∈ d.surface.desktops.used) :
    (d.writeCurrent id o).Sound := by
  refine ⟨h.mapping, fun o' id' hget => ?_⟩
  simp only [Desk.writeCurrent, Surface.writeCurrent, OrderedMap.get_set] at hget
  split at hget
  · rw [← Option.some.inj hget]
    exact hid
  · exact h.shown o' id' hget

theorem Sound.synchronizeShared (h : d.Sound) (hid : id ∈ d.surface.desktops.used) :
    Desk.Sound { d with surface := d.surface.synchronizeShared id } := by
  rw [Surface.synchronizeShared]
  split
  · exact ⟨h.mapping, h.shown⟩
  · rename_i screens _
    have key : ∀ (screens : List Output) (s : Surface), s.desktops = d.surface.desktops →
        Desk.Sound ⟨d.mapping, s⟩ →
          Desk.Sound ⟨d.mapping, screens.foldl (fun s o => s.writeCurrent id o) s⟩ := by
      intro screens
      induction screens with
      | nil => exact fun _ _ hs => hs
      | cons o screens ih =>
        exact fun s hdesktops hs => ih _ hdesktops (hs.writeCurrent (hdesktops ▸ hid))
    exact key screens d.surface rfl h

theorem Sound.showOn (h : d.Sound) (hid : target ∈ d.surface.desktops.used) :
    (d.showOn mode keys target o).Sound := by
  cases mode with
  | perOutputLocal => exact h.writeCurrent hid
  | shared => exact h.writeCurrent hid
  | globalUnique =>
    have hswap : (d.swapGlobalIfVisibleElsewhere keys target o).Sound ∧
        (d.swapGlobalIfVisibleElsewhere keys target o).surface.desktops = d.surface.desktops := by
      simp only [swapGlobalIfVisibleElsewhere]
      split
      · exact ⟨h, rfl⟩
      · rename_i hsome
        simp only [Option.bind_eq_bind, Option.bind_eq_some_iff] at hsome
        obtain ⟨_, -, other, -, activeCurrent, hcurrent, _, -, _, -, hsome⟩ := hsome
        split at hsome
        · cases hsome
        · obtain ⟨rfl, rfl, rfl, rfl⟩ : _ = _ ∧ activeCurrent = _ ∧ _ = _ ∧ _ = _ := by
            simpa using hsome
          have hused := h.shown _ _ hcurrent
          have hwrite := (h.writeCurrent (o := o) hid).writeCurrent (o := other) hused
          exact ⟨⟨(h.mapping.assignGlobal hid).assignGlobal hused, hwrite.shown⟩, rfl⟩
    exact hswap.1.writeCurrent (hswap.2 ▸ hid)

/-- Acts of a cleanup that appends. -/
theorem Sound.append (h : d.Sound) {mode : WorkspaceMode} (hmode : mode ≠ .shared) :
    (d.appendForOutput mode keys o).2.Sound ∧ ∀ id, (d.appendForOutput mode keys o).1 = some id →
      id ∈ (d.appendForOutput mode keys o).2.surface.desktops.used := by
  rw [appendForOutput]
  split
  · exact ⟨h, fun _ h => by cases h⟩
  · rename_i key _
    have hfresh : ∀ (place : DesktopId → Mapping → Mapping) (id : DesktopId),
        (d.appendWith place).1 = some id →
          id ∈ (d.appendWith place).2.surface.desktops.used := by
      intro place id hid
      rw [appendWith] at hid ⊢
      rcases appendDesktop_cases (d := d) with happend | ⟨-, happend⟩
      · rw [happend] at hid
        cases hid
      · rw [happend] at hid ⊢
        rw [← Option.some.inj hid]
        exact List.mem_append_right _ (List.mem_singleton_self _)
    cases mode with
    | shared => exact absurd rfl hmode
    | perOutputLocal =>
      exact ⟨(@tidied_appendDesktopForOutputKey [key] [] [] _ _
        List.mem_cons_self h).1, hfresh _⟩
    | globalUnique =>
      exact ⟨(@tidied_appendDesktopForGlobalKey [key] [] [] _ _
        List.mem_cons_self h).1, hfresh _⟩

theorem Sound.appendShared (h : d.Sound) : d.appendDesktopForShared.2.Sound ∧
    ∀ id, d.appendDesktopForShared.1 = some id →
      id ∈ d.appendDesktopForShared.2.surface.desktops.used := by
  rw [appendDesktopForShared]
  rcases appendDesktop_cases (d := d) with happend | ⟨-, happend⟩
  · rw [happend]
    exact ⟨h, fun _ h => by cases h⟩
  · rw [happend]
    have hcreated : Desk.Sound ⟨d.mapping.manage [d.surface.mint.name d.surface.desktops.used],
        { d.surface with desktops := d.surface.desktops.create d.surface.mint }⟩ :=
      h.ofSurface (h.mapping.create.congr ⟨rfl, rfl, rfl⟩) rfl fun _ hid => List.mem_append_left _ hid
    refine ⟨@Desk.Sound.rebuild _ .shared {} hcreated, fun id hid => ?_⟩
    rw [← Option.some.inj hid]
    exact List.mem_append_right _ (List.mem_singleton_self _)

theorem trailingOf_used {ids : List DesktopId} {id : DesktopId} (h : d.trailingOf ids = some id) :
    id ∈ d.surface.desktops.used := by
  simp only [trailingOf, Option.bind_eq_bind, Option.bind_eq_some_iff] at h
  obtain ⟨_, -, _, -, h⟩ := h
  split at h
  · cases h
  · exact d.surface.desktops.known _ (findLive_mem h)

theorem resolveTrailing_used (h : d.resolveTrailing mode keys o = some id) :
    id ∈ d.surface.desktops.used := by
  simp only [resolveTrailing, Option.bind_eq_bind, Option.bind_eq_some_iff] at h
  obtain ⟨_, -, h⟩ := h
  split at h
  · simp only [Option.bind_eq_some_iff] at h
    obtain ⟨_, -, h⟩ := h
    exact trailingOf_used h
  · exact trailingOf_used h

theorem Sound.trailingOrAppend (h : d.Sound) (hmode : mode ≠ .shared) :
    (d.trailingOrAppend mode keys o).2.Sound ∧ ∀ id, (d.trailingOrAppend mode keys o).1 = some id →
      id ∈ (d.trailingOrAppend mode keys o).2.surface.desktops.used := by
  rw [Desk.trailingOrAppend]
  split
  · rename_i existing hexisting
    refine ⟨h.rebuild, fun id hid => ?_⟩
    rw [← Option.some.inj hid]
    exact resolveTrailing_used hexisting
  · exact h.rebuild.append hmode

theorem Sound.sharedTrailingOrAppend (h : d.Sound) : d.sharedTrailingOrAppend.2.Sound ∧
    ∀ id, d.sharedTrailingOrAppend.1 = some id →
      id ∈ d.sharedTrailingOrAppend.2.surface.desktops.used := by
  rw [Desk.sharedTrailingOrAppend]
  split
  · rename_i existing hexisting
    obtain ⟨live, -, htrailing⟩ := Option.bind_eq_some_iff.mp hexisting
    refine ⟨h, fun id hid => ?_⟩
    rw [← Option.some.inj hid]
    exact trailingOf_used htrailing
  · exact h.appendShared

/-! ## Commands -/

theorem nth_mem {ids : List DesktopId} {index : Nat} (h : nth ids index = some id) : id ∈ ids :=
  List.mem_of_getElem? h

theorem live_used {live : List DesktopId} (h : d.surface.liveOrdered = some live)
    (hid : id ∈ live) : id ∈ d.surface.desktops.used :=
  d.surface.desktops.known id (live_eq h ▸ hid)

theorem Sound.selectLogical (h : d.Sound) {index : Nat} :
    (d.selectLogical mode keys index).2.Sound := by
  simp only [Desk.selectLogical]
  split
  · exact h
  cases mode with
  | perOutputLocal =>
    simp only [selectLocal]
    split
    · exact h
    split
    · split
      · exact h.rebuild
      · have hrebuilt := @Desk.Sound.rebuild _ .perOutputLocal keys h
        exact ⟨hrebuilt.mapping, hrebuilt.shown⟩
    · split
      · exact h.rebuild
      · rename_i htarget
        simp only [localTargetForOutput, Option.bind_eq_bind, Option.bind_eq_some_iff] at htarget
        obtain ⟨_, -, _, -, _, -, hfind⟩ := htarget
        exact h.rebuild.writeCurrent (d.surface.desktops.known _ (findLive_mem hfind))
  | globalUnique =>
    simp only [selectGlobal]
    split
    · exact h
    split
    · exact h
    · rename_i htarget
      simp only [globalTargetForOutput, Option.bind_eq_bind, Option.bind_eq_some_iff] at htarget
      obtain ⟨_, -, _, hlive, hnth⟩ := htarget
      have hmem := nth_mem hnth
      rw [Mapping.globalOrdered, List.mem_filter] at hmem
      have hused := live_used hlive (by simpa using hmem.2)
      exact @Desk.Sound.showOn _ .globalUnique keys _ _ h hused
  | shared =>
    simp only [selectShared]
    split
    · exact h
    · rename_i hlive
      split
      · exact h.rebuild
      · rename_i hnth
        exact h.rebuild.synchronizeShared (live_used hlive (nth_mem hnth))

theorem Sound.selectTrailingOrCreate (h : d.Sound) :
    (d.selectTrailingOrCreate mode keys).2.Sound := by
  cases mode with
  | shared =>
    simp only [Desk.selectTrailingOrCreate]
    have hstep := (@Desk.Sound.rebuild _ .shared keys h).sharedTrailingOrAppend
    cases hpair : (d.rebuild .shared keys).sharedTrailingOrAppend with
    | mk found d' =>
      rw [hpair] at hstep
      cases found with
      | none => exact hstep.1
      | some id =>
        dsimp only
        split
        · exact hstep.1
        · exact hstep.1.synchronizeShared (hstep.2 id rfl)
  | perOutputLocal =>
    simp only [Desk.selectTrailingOrCreate]
    split
    · exact h
    · rename_i output _
      have hstep := @Desk.Sound.trailingOrAppend _ .perOutputLocal keys output h nofun
      cases hpair : d.trailingOrAppend .perOutputLocal keys output with
      | mk found d' =>
        rw [hpair] at hstep
        cases found with
        | none => exact hstep.1
        | some id =>
          dsimp only
          split
          · exact hstep.1
          · exact hstep.1.writeCurrent (hstep.2 id rfl)
  | globalUnique =>
    simp only [Desk.selectTrailingOrCreate]
    split
    · exact h
    · rename_i output _
      have hstep := @Desk.Sound.trailingOrAppend _ .globalUnique keys output h nofun
      cases hpair : d.trailingOrAppend .globalUnique keys output with
      | mk found d' =>
        rw [hpair] at hstep
        cases found with
        | none => exact hstep.1
        | some id =>
          dsimp only
          split
          · exact hstep.1
          · exact hstep.1.writeCurrent (hstep.2 id rfl)

theorem ringStep_mem {forward : Bool} {ring : List DesktopId} {current next : DesktopId}
    (h : ringStep forward ring current = some next) : next ∈ ring := by
  simp only [ringStep, Option.bind_eq_bind, Option.bind_eq_some_iff] at h
  obtain ⟨_, -, h⟩ := h
  exact List.mem_of_getElem? h

theorem scopedRingIds_live {live : List DesktopId} {m : Mapping}
    (h : id ∈ scopedRingIds mode key live m) : id ∈ live := by
  cases mode with
  | globalUnique =>
    rw [scopedRingIds, Mapping.globalOrdered, List.mem_filter] at h
    simpa using h.2
  | perOutputLocal =>
    rw [scopedRingIds, List.mem_filter] at h
    · simpa using h.2
    · nofun
  | shared =>
    rw [scopedRingIds, List.mem_filter] at h
    · simpa using h.2
    · nofun

/-- One step along the ring of an output. -/
theorem Sound.stepRing (h : d.Sound) {forward : Bool} {live : List DesktopId} {output : Output}
    (hlive : d.surface.liveOrdered = some live) :
    Desk.Sound (match (do
        let key ← keys.keyFor output
        let current ← (d.rebuild mode keys).surface.currentOnOutput output
        let next ← ringStep forward (scopedRingIds mode key live (d.rebuild mode keys).mapping) current
        return (current, next) : Option (DesktopId × DesktopId)) with
      | none => (false, d.rebuild mode keys)
      | some (current, next) =>
        if next = current then (true, d.rebuild mode keys)
        else (true, (d.rebuild mode keys).showOn mode keys next output)).2 := by
  split
  · exact h.rebuild
  · rename_i hsome
    simp only [Option.bind_eq_bind, Option.bind_eq_some_iff, Option.pure_def, Option.some.injEq,
      Prod.mk.injEq] at hsome
    obtain ⟨_, -, _, -, _, hring, -, rfl⟩ := hsome
    split
    · exact h.rebuild
    · exact h.rebuild.showOn (live_used hlive (scopedRingIds_live (ringStep_mem hring)))

theorem Sound.selectRelative (h : d.Sound) {forward : Bool} :
    (d.selectRelative mode keys forward).2.Sound := by
  rw [Desk.selectRelative]
  split
  · exact h
  · rename_i live hlive
    cases mode with
    | shared =>
      dsimp only
      split
      · exact h.rebuild
      · rename_i hnext
        obtain ⟨_, -, hring⟩ := Option.bind_eq_some_iff.mp hnext
        split
        · exact h.rebuild
        · exact h.rebuild.synchronizeShared (live_used hlive (ringStep_mem hring))
    | perOutputLocal =>
      dsimp only
      split
      · exact h
      · exact h.stepRing hlive
    | globalUnique =>
      dsimp only
      split
      · exact h
      · exact h.stepRing hlive

theorem Sound.resolveRelativeMoveTarget (h : d.Sound) {forward : Bool} :
    (d.resolveRelativeMoveTarget mode keys forward).2.Sound := by
  cases mode with
  | shared => exact h
  | perOutputLocal =>
    simp only [Desk.resolveRelativeMoveTarget]
    split
    · exact h.rebuild
    · exact h
  | globalUnique =>
    simp only [Desk.resolveRelativeMoveTarget]
    split
    · exact h.rebuild
    · exact h

theorem Sound.resolveOrAppendMoveTarget (h : d.Sound) :
    (d.resolveOrAppendMoveTarget mode keys).2.Sound := by
  cases mode with
  | shared => exact h.sharedTrailingOrAppend.1
  | perOutputLocal =>
    simp only [Desk.resolveOrAppendMoveTarget]
    split
    · exact h
    · exact (@Desk.Sound.trailingOrAppend _ .perOutputLocal _ _ h nofun).1
  | globalUnique =>
    simp only [Desk.resolveOrAppendMoveTarget]
    split
    · exact h
    · exact (@Desk.Sound.trailingOrAppend _ .globalUnique _ _ h nofun).1

end

end Desk

end Native

end PlasmaTiler
