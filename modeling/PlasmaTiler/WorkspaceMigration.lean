import PlasmaTiler.WorkspaceSignal

/-!
# Migrations are final

A desktop the user migrates to another output is meant to stay there: it is
taken out of every record, so that the return of its former output does not
pull it back. The code does so for the records it has at that moment, but not
for what it remembers of an output besides its list. The desktops the windows
of an output were last seen on (`lastKnown`) are captured too when it goes,
and the entry of an output is only overwritten while that output has windows.
An output that migrates its only window away is remembered with the desktop
it has just given up, and takes it along when it is next unplugged.

So there are two parts. What one pass takes is stated exactly: displacing an
output takes what it captures and what its record names, and nothing else. A
desktop that nobody captures (`Leaves`) and that no other record claims
(`Keeps`) is on the same list after the pass (`run_keeps`); the induction is
over the displacements and then over the returns, with `run_induct` as the
rule for both. What a run does is stated from the moment of the migration:
the migrated desktop is in no record, it gets into one only when a newly
absent output captures it, and so long as no signal finds it captured it
stays where the user put it (`run_unrecorded`, `committed`).

`displacement_takes_own` is the headline, with the conditions on the state
before each signal; `not_migration_final` is the run in which the migrated
desktop goes back.
-/

namespace PlasmaTiler

namespace Native

open Buckets

/-! ## Commands leave the records -/

section
variable {m : Mapping} {keys : SessionOutputKeys} {mode : WorkspaceMode} {s : Surface} {d : Desk}
  {o : Output} {id target : DesktopId} {live : List DesktopId}

theorem Mapping.adoptGlobal_displaced {primary : Option OutputKey} :
    (m.adoptGlobal primary id).displacedByOrigin = m.displacedByOrigin := by
  unfold Mapping.adoptGlobal
  split <;> rfl

theorem Mapping.rebuildMapping_displaced :
    (m.rebuildMapping mode keys s).displacedByOrigin = m.displacedByOrigin := by
  have hadopt : ∀ (primary : Option OutputKey) (ids : List DesktopId) (m : Mapping),
      (ids.foldl (adoptGlobal primary) m).displacedByOrigin = m.displacedByOrigin := by
    intro primary ids
    induction ids with
    | nil => exact fun _ => rfl
    | cons id ids ih => exact fun m => (ih _).trans adoptGlobal_displaced
  cases mode with
  | perOutputLocal =>
    simp only [rebuildMapping, rebuildLocalMapping]
    split
    · rfl
    split
    · rfl
    split
    · rfl
    · rw [rebuildLocalWith]
      split <;> rfl
  | globalUnique =>
    simp only [rebuildMapping, rebuildGlobalMapping]
    split
    · rfl
    split
    · rfl
    split
    · rfl
    · exact hadopt _ _ _
  | shared =>
    simp only [rebuildMapping, rebuildSharedMapping]
    split <;> rfl

/-- The records of displaced desktops are the same, and no id that was used
becomes unused. -/
structure Desk.SameRecords (d d' : Desk) : Prop where
  records : d'.mapping.displacedByOrigin = d.mapping.displacedByOrigin
  used : ∀ id ∈ d.surface.desktops.used, id ∈ d'.surface.desktops.used

namespace Desk

theorem SameRecords.refl : d.SameRecords d := ⟨rfl, fun _ h => h⟩

theorem SameRecords.trans {d' d'' : Desk} (h : d.SameRecords d') (h' : d'.SameRecords d'') :
    d.SameRecords d'' := ⟨h'.records.trans h.records, fun id hid => h'.used id (h.used id hid)⟩

theorem SameRecords.record {d' : Desk} (h : d.SameRecords d') (k : OutputKey) :
    d'.record k = d.record k := by
  rw [Desk.record, h.records]
  rfl

/-- No more desktops are recorded as displaced than before, and no id that was
used becomes unused. -/
structure Fewer (d d' : Desk) : Prop where
  unrecorded : ∀ id, d.Unrecorded id → d'.Unrecorded id
  used : ∀ id ∈ d.surface.desktops.used, id ∈ d'.surface.desktops.used

theorem SameRecords.fewer {d' : Desk} (h : d.SameRecords d') : d.Fewer d' :=
  ⟨fun _ hd o entry hentry => hd o entry (h.record o ▸ hentry), h.used⟩

theorem Fewer.trans {d' d'' : Desk} (h : d.Fewer d') (h' : d'.Fewer d'') : d.Fewer d'' :=
  ⟨fun id hid => h'.unrecorded id (h.unrecorded id hid), fun id hid => h'.used id (h.used id hid)⟩

/-- Without records. -/
theorem fewer_empty {d' : Desk} (h : d'.mapping.displacedByOrigin = .empty)
    (hused : ∀ id ∈ d.surface.desktops.used, id ∈ d'.surface.desktops.used) : d.Fewer d' := by
  refine ⟨fun id _ o entry hentry => ?_, hused⟩
  rw [Desk.record, h, OrderedMap.get_empty] at hentry
  cases hentry

/-- Showing a desktop. -/
theorem SameRecords.shown {s' : Surface} (h : s'.desktops = d.surface.desktops) :
    d.SameRecords { d with surface := s' } := ⟨rfl, fun _ hid => h ▸ hid⟩

theorem synchronizeShared_desktops : (s.synchronizeShared id).desktops = s.desktops := by
  have hfold : ∀ (screens : List Output) (s : Surface),
      (screens.foldl (fun s o => s.writeCurrent id o) s).desktops = s.desktops := by
    intro screens
    induction screens with
    | nil => exact fun _ => rfl
    | cons o screens ih => exact fun s => ih _
  rw [Surface.synchronizeShared]
  split
  · rfl
  · exact hfold _ _

theorem sameRecords_rebuild : d.SameRecords (d.rebuild mode keys) :=
  ⟨Mapping.rebuildMapping_displaced, fun _ h => h⟩

theorem sameRecords_showOn : d.SameRecords (d.showOn mode keys target o) := by
  cases mode with
  | globalUnique =>
    rw [showOn, swapGlobalIfVisibleElsewhere]
    split <;> exact ⟨rfl, fun _ h => h⟩
  | perOutputLocal => exact .shown rfl
  | shared => exact .shown rfl

theorem sameRecords_appendDesktop : d.SameRecords d.appendDesktop.2 := by
  rcases appendDesktop_cases (d := d) with happend | ⟨-, happend⟩
  · rw [happend]
    exact .refl
  · rw [happend]
    exact ⟨rfl, fun _ h => List.mem_append_left _ h⟩

theorem sameRecords_appendWith {place : DesktopId → Mapping → Mapping}
    (hplace : ∀ id (m : Mapping), (place id m).displacedByOrigin = m.displacedByOrigin) :
    d.SameRecords (d.appendWith place).2 := by
  have h := sameRecords_appendDesktop (d := d)
  rw [appendWith]
  split <;> (rename_i heq; rw [heq] at h)
  · exact h
  · exact ⟨(hplace _ _).trans h.records, h.used⟩

theorem sameRecords_appendForOutput : d.SameRecords (d.appendForOutput mode keys o).2 := by
  rw [appendForOutput]
  split
  · exact .refl
  split
  · exact sameRecords_appendWith fun _ _ => rfl
  · exact sameRecords_appendWith fun _ _ => rfl

theorem sameRecords_appendShared : d.SameRecords d.appendDesktopForShared.2 := by
  have h := sameRecords_appendDesktop (d := d)
  rw [appendDesktopForShared]
  split <;> (rename_i heq; rw [heq] at h)
  · exact h
  · exact ⟨(@Mapping.rebuildMapping_displaced _ {} .shared _).trans h.records, h.used⟩

theorem sameRecords_trailingOrAppend : d.SameRecords (d.trailingOrAppend mode keys o).2 := by
  rw [trailingOrAppend]
  split
  · exact sameRecords_rebuild
  · exact sameRecords_rebuild.trans sameRecords_appendForOutput

theorem sameRecords_sharedTrailingOrAppend : d.SameRecords d.sharedTrailingOrAppend.2 := by
  rw [sharedTrailingOrAppend]
  split
  · exact .refl
  · exact sameRecords_appendShared

theorem sameRecords_selectLogical {index : Nat} :
    d.SameRecords (d.selectLogical mode keys index).2 := by
  simp only [selectLogical]
  split
  · exact .refl
  cases mode with
  | perOutputLocal =>
    have hrebuild := @sameRecords_rebuild keys .perOutputLocal d
    simp only [selectLocal]
    split
    · exact .refl
    split
    · split
      · exact hrebuild
      · exact hrebuild.trans (.shown rfl)
    · split
      · exact hrebuild
      · exact hrebuild.trans (.shown rfl)
  | globalUnique =>
    simp only [selectGlobal]
    split
    · exact .refl
    split
    · exact .refl
    · exact @sameRecords_showOn keys .globalUnique _ _ _
  | shared =>
    have hrebuild := @sameRecords_rebuild {} .shared d
    simp only [selectShared]
    split
    · exact .refl
    split
    · exact hrebuild
    · exact hrebuild.trans (.shown synchronizeShared_desktops)

theorem sameRecords_selectTrailingOrCreate :
    d.SameRecords (d.selectTrailingOrCreate mode keys).2 := by
  cases mode with
  | shared =>
    have h := (@sameRecords_rebuild keys .shared d).trans
      (sameRecords_sharedTrailingOrAppend (d := d.rebuild .shared keys))
    simp only [selectTrailingOrCreate]
    split <;> (rename_i heq; rw [heq] at h)
    · exact h
    · split
      · exact h
      · exact h.trans (.shown synchronizeShared_desktops)
  | perOutputLocal =>
    simp only [selectTrailingOrCreate]
    split
    · exact .refl
    · rename_i output _
      have h := @sameRecords_trailingOrAppend keys .perOutputLocal d output
      split <;> (rename_i heq; rw [heq] at h)
      · exact h
      · split
        · exact h
        · exact h.trans (.shown rfl)
  | globalUnique =>
    simp only [selectTrailingOrCreate]
    split
    · exact .refl
    · rename_i output _
      have h := @sameRecords_trailingOrAppend keys .globalUnique d output
      split <;> (rename_i heq; rw [heq] at h)
      · exact h
      · split
        · exact h
        · exact h.trans (.shown rfl)

theorem sameRecords_selectRelative {forward : Bool} :
    d.SameRecords (d.selectRelative mode keys forward).2 := by
  have hrebuild := @sameRecords_rebuild keys mode d
  rw [selectRelative]
  split
  · exact .refl
  cases mode with
  | shared =>
    dsimp only
    split
    · exact hrebuild
    · split
      · exact hrebuild
      · exact hrebuild.trans (.shown synchronizeShared_desktops)
  | perOutputLocal =>
    dsimp only
    split
    · exact .refl
    split
    · exact hrebuild
    split
    · exact hrebuild
    · exact hrebuild.trans (@sameRecords_showOn keys .perOutputLocal _ _ _)
  | globalUnique =>
    dsimp only
    split
    · exact .refl
    split
    · exact hrebuild
    split
    · exact hrebuild
    · exact hrebuild.trans (@sameRecords_showOn keys .globalUnique _ _ _)

theorem sameRecords_resolveRelativeMoveTarget {forward : Bool} :
    d.SameRecords (d.resolveRelativeMoveTarget mode keys forward).2 := by
  cases mode with
  | shared => exact .refl
  | perOutputLocal =>
    simp only [resolveRelativeMoveTarget]
    split
    · exact sameRecords_rebuild
    · exact .refl
  | globalUnique =>
    simp only [resolveRelativeMoveTarget]
    split
    · exact sameRecords_rebuild
    · exact .refl

theorem sameRecords_resolveOrAppendMoveTarget :
    d.SameRecords (d.resolveOrAppendMoveTarget mode keys).2 := by
  cases mode with
  | shared => exact sameRecords_sharedTrailingOrAppend
  | perOutputLocal =>
    simp only [resolveOrAppendMoveTarget]
    split
    · exact .refl
    · exact sameRecords_trailingOrAppend
  | globalUnique =>
    simp only [resolveOrAppendMoveTarget]
    split
    · exact .refl
    · exact sameRecords_trailingOrAppend

theorem sameRecords_removeManagedWith {forget : DesktopId → Desk → Mapping}
    {visible occupied : List DesktopId} {count : Option Nat}
    (hforget : ∀ id (d : Desk), (forget id d).displacedByOrigin = d.mapping.displacedByOrigin) :
    d.SameRecords (removeManagedWith forget visible occupied count id d).2 := by
  rw [removeManagedWith]
  split
  · exact ⟨hforget _ _, fun _ h => h⟩
  · exact .refl

/-- A cleanup of any mode leaves the records alone: it only creates and
retires desktops, and rebuilds the lists between. -/
theorem sameRecords_cleanup : d.SameRecords (d.cleanupDesktops mode keys) := by
  have htrail : ∀ {ids : List DesktopId} {isEmpty isVisible : DesktopId → Bool}
      {remove : DesktopId → Desk → Bool × Desk} {create : Desk → Option DesktopId × Desk}
      {d : Desk}, (∀ (d : Desk) id, d.SameRecords (remove id d).2) →
      (∀ d : Desk, d.SameRecords (create d).2) →
        d.SameRecords (ensureTrailingEmptyDesktop ids isEmpty isVisible remove create d).2 :=
    ensureTrailing_rel (R := SameRecords) (fun _ => .refl) .trans
  have hfold : ∀ {α : Type} {f : Desk → α → Desk} (xs : List α) {d : Desk},
      (∀ (d : Desk) x, d.SameRecords (f d x)) → d.SameRecords (xs.foldl f d) := by
    intro α f xs
    induction xs with
    | nil => exact fun _ => .refl
    | cons x xs ih => exact fun hf => (hf _ x).trans (ih hf)
  rw [cleanupDesktops]
  split
  · refine (@sameRecords_rebuild keys mode _).trans ?_
    cases mode with
    | perOutputLocal =>
      simp only [enforceTrailing, enforceLocalTrailing]
      split
      · refine (hfold _ fun d key => ?_).trans (hfold _ fun d id => ?_)
        · exact htrail (fun _ _ => sameRecords_removeManagedWith fun _ _ => rfl)
            fun _ => sameRecords_appendWith fun _ _ => rfl
        · rw [retireUnassigned]
          split
          · exact .refl
          · exact sameRecords_removeManagedWith fun _ _ => rfl
      · exact .refl
    | globalUnique =>
      simp only [enforceTrailing, enforceGlobalTrailing]
      split
      · exact hfold _ fun d key => htrail
          (fun _ _ => sameRecords_removeManagedWith fun _ _ => unassignGlobal_displaced)
          fun _ => sameRecords_appendWith fun _ _ => rfl
      · exact .refl
    | shared =>
      simp only [enforceTrailing, enforceSharedTrailing]
      split
      · exact .refl
      · exact htrail (fun _ _ => sameRecords_removeManagedWith fun _ _ =>
          @Mapping.rebuildMapping_displaced _ {} .shared _)
          fun _ => sameRecords_appendShared
  · exact .refl

end Desk

end

/-! ## What a pass takes -/

namespace Pass

/-- A record that names the desktop is the key's own, or of an absent output
with the key as survivor. -/
def Keeps (p : Pass) (d : Desk) (k : OutputKey) (id : DesktopId) : Prop :=
  ∀ o entry, d.record o = some entry → id ∈ entry.workspaceIds →
    o = k ∨ o ∉ p.currentKeys ∧ entry.destKey = k

/-- No newly absent output captures the desktop: where an output went without
a record, the desktop is not in what it takes along. -/
def Leaves (p : Pass) (d : Desk) (id : DesktopId) : Prop :=
  ∀ o, o ∉ p.currentKeys → d.record o = none → id ∉ p.captured o

section
variable {p : Pass} {d d' : Desk} {origin key k o : OutputKey} {id : DesktopId}
  {entry' : Displaced}

/-- Where the records of a displacement come from. -/
theorem Displaces.recorded (h : p.Displaces origin d d') (hentry : d'.record o = some entry')
    (hid : id ∈ entry'.workspaceIds) :
    o = origin ∧ d.record o = none ∧ id ∈ p.captured o ∨
      ∃ entry, d.record o = some entry ∧ id ∈ entry.workspaceIds ∧
        (entry'.destKey = entry.destKey ∨ o = origin ∧ entry.destKey ∉ p.currentKeys) := by
  by_cases ho : o = origin
  swap
  · rw [Desk.record, h.record ho] at hentry
    exact Or.inr ⟨entry', hentry, hid, Or.inl rfl⟩
  subst ho
  cases h with
  | stays _ _ hplaced =>
    rw [Desk.record, hplaced.displaced] at hentry
    exact Or.inr ⟨entry', hentry, hid, Or.inl rfl⟩
  | expires _ _ _ hplaced =>
    rw [Desk.record, hplaced.displaced, Mapping.forget, OrderedMap.get_delete, if_pos rfl] at hentry
    cases hentry
  | moves hrecord hgone _ hmapping =>
    rw [Desk.record, hmapping] at hentry
    obtain rfl := Option.some.inj ((OrderedMap.get_set.trans (if_pos rfl)).symm.trans hentry)
    exact Or.inr ⟨_, hrecord, (mem_liveOnly.mp hid).1, Or.inr ⟨rfl, hgone⟩⟩
  | empty _ _ hplaced =>
    rw [Desk.record, hplaced.displaced] at hentry
    exact Or.inr ⟨entry', hentry, hid, Or.inl rfl⟩
  | leaves hrecord _ _ hplaced hdropped =>
    rw [Desk.record, hdropped.displaced, hplaced.displaced] at hentry
    obtain rfl := Option.some.inj ((OrderedMap.get_set.trans (if_pos rfl)).symm.trans hentry)
    exact Or.inl ⟨rfl, hrecord, hid⟩

/-- Returning only shortens records. -/
theorem Returns.recorded (h : p.Returns key d d') (hentry : d'.record o = some entry')
    (hid : id ∈ entry'.workspaceIds) :
    ∃ entry, d.record o = some entry ∧ id ∈ entry.workspaceIds ∧
      entry'.destKey = entry.destKey := by
  cases h with
  | none _ hsame => exact ⟨entry', hsame ▸ hentry, hid, rfl⟩
  | expires _ _ hplaced =>
    rw [Desk.record, hplaced.displaced, Mapping.forget, OrderedMap.get_delete] at hentry
    split at hentry
    · cases hentry
    · exact ⟨entry', hentry, hid, rfl⟩
  | @returns entry m hrecord hplaced hmapping hsurface =>
    rw [Desk.record, hmapping] at hentry
    by_cases ho : o = key
    · subst ho
      split at hentry
      · rw [Mapping.forget, OrderedMap.get_delete, if_pos rfl] at hentry
        cases hentry
      · rw [Mapping.record, OrderedMap.get_set, if_pos rfl] at hentry
        obtain rfl := Option.some.inj hentry
        exact ⟨entry, hrecord, List.mem_of_mem_filter hid, rfl⟩
    · refine ⟨entry', ?_, hid, rfl⟩
      rw [Desk.record, ← hplaced.displaced, ← hentry]
      split
      · rw [Mapping.forget, OrderedMap.get_delete, if_neg ho]
      · rw [Mapping.record, OrderedMap.get_set, if_neg ho]

/-- One displacement leaves a kept desktop where it is. -/
theorem Displaces.keeps (h : p.Displaces origin d d') (hd : d.Sound)
    (habsent : origin ∉ p.currentKeys) (hk : k ∈ p.currentKeys)
    (hleaves : d.record origin = none → id ∉ p.captured origin) (hkeeps : p.Keeps d k id)
    (hon : (d.lists p.mode).On k id) : (d'.lists p.mode).On k id ∧ p.Keeps d' k id := by
  have hne : k ≠ origin := fun heq => habsent (heq ▸ hk)
  have hguest : ∀ {entry}, d.record origin = some entry → id ∈ entry.workspaceIds →
      entry.destKey = k := fun hentry hid =>
    ((hkeeps origin _ hentry hid).resolve_left hne.symm).2
  refine ⟨?_, fun o entry hentry hid => ?_⟩
  · cases h with
    | stays hrecord _ hplaced =>
      refine (hplaced.on k id).mpr ?_
      split
      · rename_i hmem
        exact (hguest hrecord (mem_liveOnly.mp hmem).1).symm
      · exact hon
    | expires _ _ _ hplaced => exact hplaced.on_nil.mpr hon
    | moves hrecord hgone _ hmapping =>
      rw [Desk.lists, hmapping, on_moveLocalIdsTo (sound_record hd.mapping), if_neg]
      · exact hon
      · rintro ⟨-, hmem⟩
        exact hgone (hguest hrecord (mem_liveOnly.mp hmem).1 ▸ hk)
    | empty _ _ hplaced => exact hplaced.on_nil.mpr hon
    | leaves hrecord _ _ hplaced hdropped =>
      refine hdropped.keep k id ((hplaced.on k id).mpr ?_) hne
      rw [if_neg (hleaves hrecord)]
      exact hon
  · rcases h.recorded hentry hid with ⟨rfl, hnone, hmem⟩ | ⟨entry', hentry', hid', hdest⟩
    · exact absurd hmem (hleaves hnone)
    · rcases hkeeps o entry' hentry' hid' with rfl | ⟨ho, hdest'⟩
      · exact Or.inl rfl
      · rcases hdest with hdest | ⟨-, hgone⟩
        · exact Or.inr ⟨ho, hdest.trans hdest'⟩
        · exact absurd (hdest' ▸ hk) hgone

theorem Returns.keeps (h : p.Returns key d d') (hkey : key ∈ p.currentKeys)
    (hkeeps : p.Keeps d k id) (hon : (d.lists p.mode).On k id) :
    (d'.lists p.mode).On k id ∧ p.Keeps d' k id := by
  refine ⟨?_, fun o entry hentry hid => ?_⟩
  · cases h with
    | none _ hsame => exact hsame ▸ hon
    | expires _ _ hplaced => exact hplaced.on_nil.mpr hon
    | returns hrecord hplaced hmapping =>
      rw [Desk.lists, hmapping, returned_lists.lists]
      refine (hplaced.on k id).mpr ?_
      split
      · rename_i hmem
        rcases hkeeps key _ hrecord (mem_liveOnly.mp hmem).1 with hkk | ⟨habsent, -⟩
        · exact hkk.symm
        · exact absurd hkey habsent
      · exact hon
  · obtain ⟨entry', hentry', hid', hdest⟩ := h.recorded hentry hid
    rw [hdest]
    exact hkeeps o entry' hentry' hid'

/-- What every displacement keeps holds after all of them; each output still
has the record it had. -/
theorem displace_induct {P : Desk → Prop} {origins : List OutputKey} (hd : d.Sound)
    (hfits : p.Fits d.surface.desktops) (habsent : ∀ o ∈ origins, o ∉ p.currentKeys)
    (hnodup : origins.Nodup) (hP : P d)
    (hstep : ∀ d' : Desk, ∀ o ∈ origins, d'.Sound → Shows d.surface d'.surface →
      d'.record o = d.record o → P d' → P (p.displaceOrigin d' o)) :
    P (origins.foldl p.displaceOrigin d) := by
  have key : ∀ (rest : List OutputKey) (d' : Desk), rest.Nodup → (∀ o ∈ rest, o ∈ origins) →
      (∀ o ∈ rest, d'.record o = d.record o) → d'.Sound → Shows d.surface d'.surface → P d' →
        P (rest.foldl p.displaceOrigin d') := by
    intro rest
    induction rest with
    | nil => exact fun _ _ _ _ _ _ hP => hP
    | cons o rest ih =>
      intro d' hnodup hsub hsame hd' hshows hP'
      obtain ⟨hnotin, hnodup⟩ := List.nodup_cons.mp hnodup
      have ho := hsub o List.mem_cons_self
      have hfits' : p.Fits d'.surface.desktops := hshows.desktops ▸ hfits
      have hdone := displaces hd'.mapping hfits' (habsent o ho)
      refine ih _ hnodup (fun o' ho' => hsub o' (List.mem_cons_of_mem _ ho')) (fun o' ho' => ?_)
        (hdone.sound hd' hfits') (hshows.trans hdone.shows)
        (hstep d' o ho hd' hshows (hsame o List.mem_cons_self) hP')
      exact (hdone.record fun heq => hnotin (heq ▸ ho')).trans
        (hsame o' (List.mem_cons_of_mem _ ho'))
  exact key origins d hnodup (fun _ ho => ho) (fun _ _ => rfl) hd .refl hP

/-- What every return keeps holds after all of them. -/
theorem return_induct {P : List OutputKey → Desk → Prop} {keys : List OutputKey} (hd : d.Sound)
    (hfits : p.Fits d.surface.desktops) (hnodup : keys.Nodup) (hP : P [] d)
    (hstep : ∀ (d' : Desk) (done : List OutputKey), ∀ key ∈ keys, key ∉ done → d'.Sound →
      Shows d.surface d'.surface → P done d' → P (done ++ [key]) (p.returnOrigin d' key)) :
    P keys (keys.foldl p.returnOrigin d) := by
  have key : ∀ (rest done : List OutputKey) (d' : Desk), done ++ rest = keys → d'.Sound →
      Shows d.surface d'.surface → P done d' → P keys (rest.foldl p.returnOrigin d') := by
    intro rest
    induction rest with
    | nil =>
      intro done d' hkeys _ _ hP'
      rw [List.append_nil] at hkeys
      exact hkeys ▸ hP'
    | cons key rest ih =>
      intro done d' hkeys hd' hshows hP'
      have hfits' : p.Fits d'.surface.desktops := hshows.desktops ▸ hfits
      have hdone := @returns _ _ key hd'.mapping hfits'
      have hkey : key ∈ keys := hkeys ▸ List.mem_append_right _ List.mem_cons_self
      have hnew : key ∉ done := fun hmem =>
        (List.nodup_append.mp (hkeys ▸ hnodup)).2.2 key hmem key List.mem_cons_self rfl
      exact ih (done ++ [key]) _ (by simpa using hkeys) (hdone.sound hd')
        (hshows.trans hdone.shows) (hstep d' done key hkey hnew hd' hshows hP')
  exact key keys [] d rfl hd .refl hP

theorem currentKeys_nodup (hfits : p.Fits d.surface.desktops) : p.currentKeys.Nodup := by
  rw [hfits.current]
  exact nodup_pushNew List.nodup_nil

/-- What displacing keeps and then returning keeps holds after the pass. -/
theorem run_induct {P : Desk → Prop} (hd : d.Sound) (hfits : p.Fits d.surface.desktops) (hP : P d)
    (hdisplace : ∀ d' : Desk, ∀ o, o ∉ p.currentKeys → d'.Sound → Shows d.surface d'.surface →
      d'.record o = d.record o → P d' → P (p.displaceOrigin d' o))
    (hreturn : ∀ d' : Desk, ∀ key ∈ p.currentKeys, d'.Sound → Shows d.surface d'.surface →
      P d' → P (p.returnOrigin d' key)) : P (p.run d) := by
  have habsent : ∀ o ∈ p.removed d.mapping, o ∉ p.currentKeys := fun _ ho => (mem_removed.mp ho).2
  obtain ⟨hsound, hshows, -⟩ := displaceAll hd hfits habsent
  have hfits' := hshows.desktops ▸ hfits
  exact return_induct (P := fun _ => P) hsound hfits' (currentKeys_nodup hfits)
    (displace_induct hd hfits habsent removed_nodup hP
      fun d' o ho hd' hs => hdisplace d' o (habsent o ho) hd' hs)
    fun d' _ key hkey _ hd' hs => hreturn d' key hkey hd' (hshows.trans hs)

/-- A pass leaves a kept desktop that nobody captures where it is. -/
theorem run_keeps (hd : d.Sound) (hfits : p.Fits d.surface.desktops) (hk : k ∈ p.currentKeys)
    (hleaves : p.Leaves d id) (hkeeps : p.Keeps d k id) (hon : (d.lists p.mode).On k id) :
    ((p.run d).lists p.mode).On k id := by
  refine (run_induct (P := fun d => (d.lists p.mode).On k id ∧ p.Keeps d k id) hd hfits
    ⟨hon, hkeeps⟩ (fun d' o ho hd' hshows hsame h => ?_) fun d' key hkey hd' hshows h => ?_).1
  · exact (displaces hd'.mapping (hshows.desktops ▸ hfits) ho).keeps hd' ho hk
      (fun hnone => hleaves o ho (hsame.symm.trans hnone)) h.2 h.1
  · exact (returns hd'.mapping (hshows.desktops ▸ hfits)).keeps hkey h.2 h.1

/-- A pass records what newly absent outputs capture, and nothing else. -/
theorem run_unrecorded (hd : d.Sound) (hfits : p.Fits d.surface.desktops)
    (hleaves : p.Leaves d id) (hunrecorded : d.Unrecorded id) : (p.run d).Unrecorded id := by
  refine run_induct (P := fun d => d.Unrecorded id) hd hfits hunrecorded
    (fun d' o ho hd' hshows hsame h => ?_) fun d' key hkey hd' hshows h => ?_
  · intro o' entry hentry hid
    rcases (displaces hd'.mapping (hshows.desktops ▸ hfits) ho).recorded hentry hid with
      ⟨rfl, hnone, hmem⟩ | ⟨entry', hentry', hid', -⟩
    · exact hleaves o' ho (hsame.symm.trans hnone) hmem
    · exact h o' entry' hentry' hid'
  · intro o entry hentry hid
    obtain ⟨entry', hentry', hid', -⟩ :=
      (returns hd'.mapping (hshows.desktops ▸ hfits)).recorded hentry hid
    exact h o entry' hentry' hid'

theorem captured_known {m : Mapping} (h : id ∈ p.captured o) : o ∈ p.knownKeys m := by
  rw [knownKeys, mem_pushNew]
  simp only [List.mem_append]
  rcases (mem_captured.mp h).1 with ⟨xs, hget, -⟩ | hknown | hvisible
  · exact Or.inr (Or.inl (Or.inl (Or.inl (OrderedMap.mem_keys_iff.mpr ⟨xs, hget⟩))))
  · cases hget : p.memory.lastKnownByKey.get o with
    | none =>
      rw [hget] at hknown
      cases hknown
    | some xs => exact Or.inr (Or.inl (Or.inr (OrderedMap.mem_keys_iff.mpr ⟨xs, hget⟩)))
  · exact Or.inr (Or.inl (Or.inl (Or.inr (OrderedMap.mem_keys_iff.mpr ⟨id, hvisible⟩))))

end

end Pass

/-! ## Signals and runs -/

namespace World

/-- No output that is newly absent at a signal captures the desktop: it is
neither on its list nor remembered of it. -/
def Leaves (w : World) (id : DesktopId) : Prop :=
  ∀ screens live, w.surface.liveScreens = some screens → w.surface.liveOrdered = some live →
    (w.rebuildKeys.pass screens live).Leaves (w.pruned live) id

/-- Every record that names the desktop is the key's own, or of an absent
output with the key as survivor. -/
def Keeps (w : World) (k : OutputKey) (id : DesktopId) : Prop :=
  ∀ screens live, w.surface.liveScreens = some screens → w.surface.liveOrdered = some live →
    (w.rebuildKeys.pass screens live).Keeps (w.pruned live) k id

section
variable {w w' : World} {screens : List Output} {live : List DesktopId} {k : OutputKey}
  {id : DesktopId} {e : Event} {source target : Output}

theorem pruned_lists {mode : WorkspaceMode} : (w.pruned live).lists mode = w.desk.lists mode :=
  Mapping.SameLists.lists (m := w.adapter.mapping) ⟨rfl, rfl, rfl⟩

theorem Leaves.keeps (h : w.desk.Unrecorded id) : w.Keeps k id := by
  intro screens live _ _ o entry hentry hid
  exact absurd hid (pruned_unrecorded h o entry hentry)

/-- A signal leaves a kept desktop that nobody captures on its list. -/
theorem signal_keeps (h : w.desk.Sound) (hmode : w.adapter.mode ≠ .shared)
    (hk : k ∈ w.rebuildKeys.connected) (hleaves : w.Leaves id) (hkeeps : w.Keeps k id)
    (hid : id ∈ w.handleTopologySignal.surface.desktops.ids)
    (hon : (w.desk.lists w.adapter.mode).On k id) :
    (w.handleTopologySignal.desk.lists w.adapter.mode).On k id := by
  cases signals h hmode with
  | cleans hclean => exact hclean.keep k id hid hon
  | prunes _ hclean =>
    refine hclean.keep k id hid ?_
    rw [pruned_lists]
    exact hon
  | @passes screens live hscreens hlive hfits hkeys hclean =>
    have hmode' := @pass_mode w screens live
    refine hclean.keep k id hid (hmode' ▸ Pass.run_keeps (pruned_sound h) hfits (hkeys ▸ hk)
      (hleaves screens live hscreens hlive) (hkeeps screens live hscreens hlive) ?_)
    rw [hmode', pruned_lists]
    exact hon

theorem signal_shared (hmode : w.adapter.mode = .shared) :
    w.desk.SameRecords w.handleTopologySignal.desk := by
  have hkeys : w.rebuildKeys.adapter.mode = .shared := by
    rw [rebuildKeys]
    split <;> exact hmode
  have hdesk : w.rebuildKeys.observeShared.desk = w.desk := by
    rw [observeShared_desk, rebuildKeys_desk]
  rw [handleTopologySignal]
  split
  · exact .refl
  · rw [reconcileOutputDisplacement, if_pos hkeys]
    have hclean : w.rebuildKeys.observeShared.desk.SameRecords
        w.rebuildKeys.observeShared.cleanup.validate.desk := Desk.sameRecords_cleanup
    rwa [hdesk] at hclean

/-- A desktop nobody captures stays out of the records. -/
theorem signal_unrecorded (h : w.desk.Sound) (hleaves : w.Leaves id)
    (hunrecorded : w.desk.Unrecorded id) : w.handleTopologySignal.desk.Unrecorded id := by
  have hcleaned : ∀ {d : Desk}, Desk.Cleaned w.adapter.mode d w.handleTopologySignal.desk →
      d.Unrecorded id → w.handleTopologySignal.desk.Unrecorded id :=
    fun hclean hd o entry hentry => hd o entry (hclean.record o ▸ hentry)
  by_cases hmode : w.adapter.mode = .shared
  · exact (signal_shared hmode).fewer.unrecorded id hunrecorded
  · cases signals h hmode with
    | cleans hclean => exact hcleaned hclean hunrecorded
    | prunes _ hclean => exact hcleaned hclean (pruned_unrecorded hunrecorded)
    | passes hscreens hlive hfits _ hclean =>
      exact hcleaned hclean (Pass.run_unrecorded (pruned_sound h) hfits
        (hleaves _ _ hscreens hlive) (pruned_unrecorded hunrecorded))

theorem signal_used (h : w.desk.Sound) (hid : id ∈ w.surface.desktops.used) :
    id ∈ w.handleTopologySignal.surface.desktops.used := by
  by_cases hmode : w.adapter.mode = .shared
  · exact (signal_shared hmode).used id hid
  · cases signals h hmode with
    | cleans hclean => exact hclean.used id hid
    | prunes _ hclean => exact hclean.used id hid
    | passes _ _ hfits _ hclean =>
      refine hclean.used id ?_
      rw [(Pass.run_sound (pruned_sound h) hfits).2.desktops]
      exact hid

theorem undisplace_unrecorded {m : Mapping} {d : Desk} (h : d.mapping = undisplace id m) :
    d.Unrecorded id := by
  intro o entry hentry hid
  simp only [Desk.record, h, undisplace, OrderedMap.get_map, OrderedMap.get_filter,
    Option.map_eq_some_iff] at hentry
  obtain ⟨_, -, rfl⟩ := hentry
  simp at hid

/-- Taking a desktop out of the records. -/
theorem fewer_undisplace {m : Mapping} {d d' : Desk} {a : DesktopId}
    (h : d'.mapping = undisplace a m) (hsame : m.displacedByOrigin = d.mapping.displacedByOrigin)
    (hsurface : d'.surface = d.surface) : d.Fewer d' := by
  refine ⟨fun id hd o entry hentry hid => ?_, fun id hid => hsurface ▸ hid⟩
  simp only [Desk.record, h, undisplace, OrderedMap.get_map, OrderedMap.get_filter, hsame,
    Option.map_eq_some_iff, Option.filter_eq_some_iff] at hentry
  obtain ⟨entry', ⟨hentry', -⟩, rfl⟩ := hentry
  exact hd o entry' hentry' (List.mem_of_mem_filter hid)

theorem fewer_enable {mode : WorkspaceMode} {refill : MigrationSourceRefill} :
    w.desk.Fewer (w.enable mode refill).desk := by
  rw [enable]
  split
  · exact Desk.SameRecords.refl.fewer
  · have hprime : ∀ w' : World, w'.primeDisplacedTracking.desk = w'.desk := by
      intro w'
      rw [primeDisplacedTracking]
      split <;> rfl
    rw [hprime]
    refine Desk.Fewer.trans ?_ (Desk.sameRecords_rebuild.trans Desk.sameRecords_cleanup).fewer
    rw [rebuildKeys_desk]
    exact Desk.fewer_empty rfl fun _ hid => hid

theorem sameRecords_selectPrevious : w.desk.SameRecords w.selectPrevious.2.desk := by
  rw [selectPrevious]
  split
  · rw [selectPreviousShared]
    split
    · split
      · exact .refl
      split
      · exact .refl
      · exact .shown Desk.synchronizeShared_desktops
    · exact .refl
  · dsimp only
    split
    · exact .refl
    split
    · exact .refl
    split
    · exact .refl
    · exact Desk.sameRecords_showOn

/-- Only a signal records a desktop. Commands and migrations may strike
records, and a change of the surface leaves them. -/
theorem step_fewer (h : w.desk.Sound) (hallowed : w.Allowed e) (he : e ≠ .topology) :
    w.desk.Fewer (w.step e).desk := by
  have hcommand : ∀ {f : WorkspaceMode → SessionOutputKeys → Desk → Desk},
      (∀ mode keys (d : Desk), d.SameRecords (f mode keys d)) →
        w.desk.Fewer (w.command f).desk := by
    intro f hf
    rw [command]
    split
    · exact (hf _ _ _).fewer
    · exact Desk.SameRecords.refl.fewer
  cases e with
  | enable mode refill => exact fewer_enable
  | disable => exact Desk.fewer_empty rfl fun _ hid => hid
  | topology => exact absurd rfl he
  | select index => exact hcommand fun _ _ _ => Desk.sameRecords_selectLogical
  | selectTrailing => exact hcommand fun _ _ _ => Desk.sameRecords_selectTrailingOrCreate
  | selectPrevious =>
    simp only [step]
    split
    · exact sameRecords_selectPrevious.fewer
    · exact Desk.SameRecords.refl.fewer
  | selectRelative forward => exact hcommand fun _ _ _ => Desk.sameRecords_selectRelative
  | relativeMoveTarget forward =>
    exact hcommand fun _ _ _ => Desk.sameRecords_resolveRelativeMoveTarget
  | appendMoveTarget => exact hcommand fun _ _ _ => Desk.sameRecords_resolveOrAppendMoveTarget
  | migrate source target a =>
    cases @migrates _ source target a h with
    | refused hsame =>
      simp only [step]
      rcases hsame with hsame | hsame
      · rw [hsame]
        exact Desk.SameRecords.refl.fewer
      · rw [hsame]
        exact Desk.sameRecords_rebuild.fewer
    | moved _ hmoved hmapping hsurface =>
      exact fewer_undisplace hmapping (hmoved.displaced.trans
        (Desk.sameRecords_rebuild (d := w.desk)).records) hsurface
  | refill refill => exact Desk.SameRecords.refl.fewer
  | surface s => exact ⟨fun _ hd => hd, hallowed.used⟩

theorem step_unrecorded (h : w.desk.Sound) (hallowed : w.Allowed e)
    (hleaves : e = .topology → w.Leaves id) (hunrecorded : w.desk.Unrecorded id) :
    (w.step e).desk.Unrecorded id := by
  by_cases he : e = .topology
  · subst he
    exact signal_unrecorded h (hleaves rfl) hunrecorded
  · exact (step_fewer h hallowed he).unrecorded id hunrecorded

/-- From step to run. -/
theorem run_unrecorded {events : List Event} (h : w.desk.Sound)
    (hallowed : Always Allowed w events)
    (hleaves : Always (fun w e => e = .topology → w.Leaves id) w events)
    (hunrecorded : w.desk.Unrecorded id) : (w.run events).desk.Unrecorded id := by
  induction events generalizing w with
  | nil => exact hunrecorded
  | cons e events ih =>
    exact ih (step_sound h hallowed.1) hallowed.2 hleaves.2
      (step_unrecorded h hallowed.1 hleaves.1 hunrecorded)

/-- A successful migration puts the desktop on the list of the target, and in
no record. -/
theorem committed {refill : Option DesktopId} (h : w.desk.Sound)
    (hcommit : w.commitWorkspaceMigration source target id = (some refill, w')) :
    ∃ key, w.adapter.outputKeys.keyFor target = some key ∧
      (w'.desk.lists w.adapter.mode).On key id ∧ w'.desk.Unrecorded id := by
  rw [commitWorkspaceMigration] at hcommit
  dsimp only at hcommit
  split at hcommit
  · cases hcommit
  split at hcommit
  · cases hcommit
  · rename_i live hlive
    split at hcommit
    · cases hcommit
    · rename_i sourceKey targetKey shown hmigration
      obtain ⟨hne, hid, hon⟩ := migration_spec
        (w := w.withDesk (w.desk.rebuild w.adapter.mode w.adapter.outputKeys)) hlive hmigration
      simp only [migration, Option.bind_eq_bind, Option.bind_eq_some_iff] at hmigration
      obtain ⟨sourceKey', -, targetKey', htarget, shown', -, hmigration⟩ := hmigration
      split at hmigration
      swap
      · cases hmigration
      simp only [Option.some.injEq, Prod.mk.injEq] at hmigration
      obtain ⟨rfl, rfl, rfl⟩ := hmigration
      obtain rfl := live_eq hlive
      have hmoved := @migrated _ _ _ _ _ shown' _
        (@Desk.Sound.rebuild _ w.adapter.mode w.adapter.outputKeys h).mapping hid hne hon
      obtain ⟨-, rfl⟩ := Prod.mk.inj hcommit
      exact ⟨targetKey', htarget, hmoved.here, undisplace_unrecorded rfl⟩

end

/-- The desktop is on the list of the key, by the lists of the mode the
adapter is in. -/
def Holds (w : World) (k : OutputKey) (id : DesktopId) : Prop :=
  (w.desk.lists w.adapter.mode).On k id

/-- The next signal leaves the desktop, while there, on the list of the
connected output. -/
def SignalKeeps (w : World) (k : OutputKey) (id : DesktopId) : Prop :=
  w.adapter.mode ≠ .shared → k ∈ w.rebuildKeys.connected →
    id ∈ w.handleTopologySignal.surface.desktops.ids → w.Holds k id →
      w.handleTopologySignal.Holds k id

/-- A step that leaves the output of the key connected: a signal that finds it
there, or a change of the surface alone. -/
def Elsewhere (k : OutputKey) (w : World) : Event → Prop
  | .topology => k ∈ w.rebuildKeys.connected
  | .surface _ => True
  | _ => False

theorem keeps_signal {w : World} {k : OutputKey} {id : DesktopId} (h : w.desk.Sound)
    (hleaves : w.Leaves id) (hkeeps : w.Keeps k id) : w.SignalKeeps k id := by
  intro hmode hk hid hon
  rw [Holds, signal_adapter.1]
  exact signal_keeps h hmode hk hleaves hkeeps hid hon

/-- In every run a signal leaves a desktop on the list of a connected output,
if no newly absent output captures it and no other record claims it. A
migrated desktop is on the list of its target, and stays over every later
signal, while no newly absent output captures it. -/
theorem displacement_takes_own (s : Surface)
    (hshown : ∀ o id, s.currents.get o = some id → id ∈ s.desktops.used) (events : List Event)
    (hallowed : Always Allowed (start s) events) :
    (∀ k id, ((start s).run events).Leaves id → ((start s).run events).Keeps k id →
      ((start s).run events).SignalKeeps k id) ∧
    ∀ source target id refill w',
      ((start s).run events).commitWorkspaceMigration source target id = (some refill, w') →
        ∃ k, ((start s).run events).adapter.outputKeys.keyFor target = some k ∧
          (w'.desk.lists ((start s).run events).adapter.mode).On k id ∧
          ∀ after, Always Allowed w' after →
            Always (fun w e => e = .topology → w.Leaves id) w' after →
              (w'.run after).Leaves id → (w'.run after).SignalKeeps k id := by
  have hsound := run_sound (start_sound hshown) hallowed
  generalize (start s).run events = w at *
  refine ⟨fun k id hleaves hkeeps => keeps_signal hsound hleaves hkeeps, ?_⟩
  intro source target id refill w' hcommit
  obtain ⟨k, hkey, hon, hunrecorded⟩ := committed hsound hcommit
  have hsound' : w'.desk.Sound := by
    have := (@migrates _ source target id hsound).sound hsound
    rwa [hcommit] at this
  exact ⟨k, hkey, hon, fun after hafter hleaves hlast => keeps_signal (run_sound hsound' hafter)
    hlast (Leaves.keeps (run_unrecorded hsound' hafter hleaves hunrecorded))⟩

/-! ## A migrated desktop that does not stay -/

/-- Screens, where the windows are, and what the two outputs show. -/
def rewired (screens : List Output) (windows : List (Output × DesktopId)) (onA onB : DesktopId)
    (w : World) : Event :=
  .surface { w.surface with
    screens := some screens
    windows := some (windows.map fun (o, id) => { output := some o, desktops := some [id] })
    currents := (OrderedMap.empty.set 0 onA).set 1 onB
    activeScreen := screens.head? }

theorem rewired_allowed {w : World} {screens : List Output} {windows : List (Output × DesktopId)}
    {onA onB : DesktopId} (hA : onA ∈ w.surface.desktops.used)
    (hB : onB ∈ w.surface.desktops.used) : w.Allowed (rewired screens windows onA onB w) := by
  refine ⟨fun _ hid => hid, fun _ hid => Or.inl hid, fun o id hid => ?_⟩
  simp only [OrderedMap.get_set, OrderedMap.get_empty] at hid
  split at hid
  · rwa [← Option.some.inj hid]
  split at hid
  · rwa [← Option.some.inj hid]
  · cases hid

/-- The first output migrates its desktop, with the window, to the second. -/
def migratedA : World :=
  (((start twoOutputs).run [.enable .perOutputLocal .lastRemaining]).commitWorkspaceMigration
    outputA outputB "a").2

/-- Then it goes and comes back. -/
def afterMigration : List (World → Event) :=
  [rewired [outputA, outputB] [(outputB, "a")] "b" "a", fun _ => .topology,
   rewired [outputB] [(outputB, "a")] "b" "a", fun _ => .topology,
   rewired [outputA, outputB] [(outputB, "a")] "b" "a"]

/-- Or it gets a window of its own, and goes after a signal. -/
def afterRefill : List (World → Event) :=
  [rewired [outputA, outputB] [(outputB, "a"), (outputA, "b")] "b" "a", fun _ => .topology,
   rewired [outputB] [(outputB, "a")] "b" "a"]

theorem leaves_of {w : World} {screens : List Output} {live : List DesktopId} {id : DesktopId}
    (hscreens : w.surface.liveScreens = some screens) (hlive : w.surface.liveOrdered = some live)
    (hown : ∀ o ∈ (w.rebuildKeys.pass screens live).knownKeys w.adapter.mapping,
      o ∉ (w.rebuildKeys.pass screens live).currentKeys →
        id ∉ (w.rebuildKeys.pass screens live).captured o) : w.Leaves id := by
  intro screens' live' hscreens' hlive' o ho _ hcaptured
  obtain rfl := Option.some.inj (hscreens.symm.trans hscreens')
  obtain rfl := Option.some.inj (hlive.symm.trans hlive')
  exact hown o (Pass.captured_known hcaptured) ho hcaptured

/-- What the first output then takes along is not what it has migrated. -/
theorem displacement_takes_own_migrated :
    let w := migratedA.run (migratedA.follow afterRefill)
    0 ∉ w.rebuildKeys.connected ∧ w.SignalKeeps 1 "a" := by
  intro w
  have hallowed : Always Allowed (start twoOutputs) [.enable .perOutputLocal .lastRemaining] :=
    ⟨trivial, trivial⟩
  obtain ⟨k, hk, -, hkeeps⟩ := (displacement_takes_own twoOutputs twoOutputs_shown _ hallowed).2
    outputA outputB "a" (some "b") migratedA
    (Prod.ext (by decide +kernel) rfl)
  obtain rfl : 1 = k := Option.some.inj (Eq.trans (by decide +kernel) hk)
  refine ⟨by decide +kernel, hkeeps _ ?_ ?_ ?_⟩
  · simp only [follow, afterRefill, Always]
    refine ⟨rewired_allowed ?_ ?_, trivial, rewired_allowed ?_ ?_, trivial⟩ <;> decide +kernel
  · simp only [follow, afterRefill, Always, rewired, reduceCtorEq, false_implies, true_and, and_true,
      forall_const]
    exact @leaves_of _ [outputA, outputB] ["a", "b", "dd"] _ (by decide +kernel)
      (by decide +kernel) (by decide +kernel)
  · exact @leaves_of _ [outputB] ["a", "b", "dd", "ddd", "dddd"] _ (by decide +kernel)
      (by decide +kernel) (by decide +kernel)

/-- When the first output has gone and comes back, the desktop does not stay
with the second. -/
theorem not_migration_final : ¬ ∀ (s : Surface)
    (_ : ∀ o id, s.currents.get o = some id → id ∈ s.desktops.used) (events : List Event)
    (_ : Always Allowed (start s) events) (source target : Output) (id : DesktopId)
    (refill : Option DesktopId) (w' : World) (k : OutputKey),
    ((start s).run events).commitWorkspaceMigration source target id = (some refill, w') →
      ((start s).run events).adapter.outputKeys.keyFor target = some k →
        ∀ after, Always Allowed w' after → Always (Elsewhere k) w' after →
          (w'.run after).SignalKeeps k id := by
  intro h
  have hkeeps := h twoOutputs twoOutputs_shown [.enable .perOutputLocal .lastRemaining]
    ⟨trivial, trivial⟩ outputA outputB "a" (some "b") migratedA 1
    (Prod.ext (by decide +kernel) rfl) (by decide +kernel) (migratedA.follow afterMigration) ?_ ?_
  · have : ¬ (migratedA.run (migratedA.follow afterMigration)).handleTopologySignal.Holds 1 "a" := by
      rw [Holds, Desk.lists, signal_adapter.1]
      decide +kernel
    exact this (hkeeps (by decide +kernel) (by decide +kernel) (by decide +kernel)
      (by unfold Holds Desk.lists; decide +kernel))
  · simp only [follow, afterMigration, Always]
    refine ⟨rewired_allowed ?_ ?_, trivial, rewired_allowed ?_ ?_, trivial, rewired_allowed ?_ ?_,
      trivial⟩ <;> decide +kernel
  · simp only [follow, afterMigration, Always, rewired, Elsewhere]
    refine ⟨trivial, ?_, trivial, ?_, trivial, trivial⟩ <;> decide +kernel

end World

end Native

end PlasmaTiler
