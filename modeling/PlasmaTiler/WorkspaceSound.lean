import PlasmaTiler.WorkspaceAdapter

/-!
# Sound workspace mappings

`Mapping.Sound` is what every event keeps, whatever the surface does in
between. The lists of either mode are partitions, the inverse map of the
global mode names the list a desktop is in, and only ids that were a desktop
at some time are listed or recorded. For live desktops the inverse map and
the lists agree both ways; an id in the inverse map whose desktop is dead may
have lost its list already, which is why `assigned` asks for a live one.

Most operations put some desktops on a list and leave the rest where it is,
by very different means in the two modes. `Placed` states that effect once
for both, so that a caller never sees how a desktop got there; dropping a
list (`Dropped`) and rebuilding all of them (`Rebuilt`) are the other two
effects there are. Each operation has one lemma that it has its effect and
keeps the mapping sound.
-/

namespace PlasmaTiler

namespace Native

open Buckets

/-- A mapping that fits the desktops: both families of lists are partitions,
the inverse map agrees with the global one, and only used ids are in them. -/
structure Mapping.Sound (m : Mapping) (ds : Desktops) : Prop where
  localPart : m.localWorkspaces.Partition
  globalPart : m.globalAssigned.Partition
  inverse : ∀ k id, m.globalAssigned.On k id → m.globalInverse.get id = some k
  assigned : ∀ id ∈ ds.ids, ∀ k, m.globalInverse.get id = some k → m.globalAssigned.On k id
  localUsed : ∀ k id, m.localWorkspaces.On k id → id ∈ ds.used
  inverseUsed : ∀ id k, m.globalInverse.get id = some k → id ∈ ds.used

/-- The lists and the inverse map are the same; records and managed ids may be
different. -/
structure Mapping.SameLists (m m' : Mapping) : Prop where
  localWorkspaces : m'.localWorkspaces = m.localWorkspaces
  globalAssigned : m'.globalAssigned = m.globalAssigned
  globalInverse : m'.globalInverse = m.globalInverse

section
variable {m m' : Mapping} {ds ds' : Desktops} {mode : WorkspaceMode} {k key : OutputKey}
  {id : DesktopId} {ids : List DesktopId}

namespace Mapping

theorem Sound.congr (h : m.Sound ds) (hsame : m.SameLists m') : m'.Sound ds := by
  obtain ⟨hl, hg, hi⟩ := hsame
  exact {
    localPart := hl ▸ h.localPart
    globalPart := hg ▸ h.globalPart
    inverse := by rw [hg, hi]; exact h.inverse
    assigned := by rw [hg, hi]; exact h.assigned
    localUsed := by rw [hl]; exact h.localUsed
    inverseUsed := by rw [hi]; exact h.inverseUsed }

theorem SameLists.lists (h : m.SameLists m') : m'.lists mode = m.lists mode := by
  cases mode
  · exact h.localWorkspaces
  · exact h.globalAssigned
  · exact h.localWorkspaces

theorem sound_empty : Sound {} ds where
  localPart := partition_empty
  globalPart := partition_empty
  inverse _ _ h := absurd h not_on_empty
  assigned _ _ _ h := by cases h
  localUsed _ _ h := absurd h not_on_empty
  inverseUsed _ _ h := by cases h

theorem Sound.partition (h : m.Sound ds) : (m.lists mode).Partition := by
  cases mode
  · exact h.localPart
  · exact h.globalPart
  · exact h.localPart

theorem Sound.used (h : m.Sound ds) (hon : (m.lists mode).On k id) : id ∈ ds.used := by
  cases mode
  · exact h.localUsed k id hon
  · exact h.inverseUsed id k (h.inverse k id hon)
  · exact h.localUsed k id hon

/-- More ids are used, and what is new was never used. -/
theorem Sound.follows (h : m.Sound ds) (hused : ∀ id ∈ ds.used, id ∈ ds'.used)
    (hfresh : ∀ id ∈ ds'.ids, id ∈ ds.ids ∨ id ∉ ds.used) : m.Sound ds' where
  localPart := h.localPart
  globalPart := h.globalPart
  inverse := h.inverse
  assigned id hid k hk := by
    rcases hfresh id hid with hid | hid
    · exact h.assigned id hid k hk
    · exact absurd (h.inverseUsed id k hk) hid
  localUsed k id hon := hused id (h.localUsed k id hon)
  inverseUsed id k hk := hused id (h.inverseUsed id k hk)

theorem Sound.create {mint : Mint} (h : m.Sound ds) : m.Sound (ds.create mint) := by
  refine h.follows (fun _ hid => List.mem_append_left _ hid) fun id hid => ?_
  rcases List.mem_append.mp hid with hid | hid
  · exact Or.inl hid
  · rw [List.mem_singleton.mp hid]
    exact Or.inr (mint.fresh _)

theorem Sound.remove (h : m.Sound ds) : m.Sound (ds.remove id) :=
  h.follows (fun _ hid => hid) fun _ hid => Or.inl (List.mem_of_mem_erase hid)

/-! ## One desktop in the global lists -/

/-- Where a desktop is not, or is by its inverse. -/
theorem Sound.not_on (h : m.Sound ds) (hnone : m.globalInverse.get id = none) :
    ¬ m.globalAssigned.On k id := fun hon => by
  rw [h.inverse k id hon] at hnone
  cases hnone

/-- Out of the list its inverse names. -/
def released (id : DesktopId) (key : OutputKey) (m : Mapping) : Buckets OutputKey DesktopId :=
  match m.globalInverse.get id with
  | none => m.globalAssigned
  | some previous =>
    if previous = key then m.globalAssigned else m.globalAssigned.takeFrom previous id

theorem Sound.released (h : m.Sound ds) : (m.released id key).Partition ∧
    (∀ k, (m.released id key).On k id → k = key) ∧
    ∀ k a, a ≠ id → ((m.released id key).On k a ↔ m.globalAssigned.On k a) := by
  rw [Mapping.released]
  cases hinverse : m.globalInverse.get id with
  | none =>
    exact ⟨h.globalPart, fun k hon => absurd hon (h.not_on hinverse), fun _ _ _ => Iff.rfl⟩
  | some previous =>
    have hkey : ∀ k, m.globalAssigned.On k id → k = previous := fun k hon =>
      Option.some.inj ((h.inverse k id hon).symm.trans hinverse)
    dsimp only
    split
    · rename_i heq
      subst heq
      exact ⟨h.globalPart, hkey, fun _ _ _ => Iff.rfl⟩
    · refine ⟨h.globalPart.takeFrom, fun k hon => ?_, fun k a ha => ?_⟩
      · obtain ⟨hon, hne⟩ := h.globalPart.on_takeFrom.mp hon
        exact absurd ⟨hkey k hon, rfl⟩ hne
      · rw [h.globalPart.on_takeFrom]
        exact and_iff_left fun heq => ha heq.2

theorem assignGlobal_assigned : (m.assignGlobal id key).globalAssigned =
    (m.released id key).push key [id] := by
  unfold assignGlobal Mapping.released
  cases m.globalInverse.get id <;> rfl

theorem on_assignGlobal {a : DesktopId} (h : m.Sound ds) :
    (m.assignGlobal id key).globalAssigned.On k a ↔
      if a = id then k = key else m.globalAssigned.On k a := by
  obtain ⟨-, hid, hother⟩ := @Mapping.Sound.released _ _ key id h
  rw [assignGlobal_assigned, on_push, List.mem_singleton]
  split
  · rename_i ha
    subst ha
    exact ⟨fun hor => hor.elim (hid k) fun hk => hk.1, fun hk => Or.inr ⟨hk, rfl⟩⟩
  · rename_i ha
    rw [hother k a ha]
    exact or_iff_left fun hk => ha hk.2

theorem Sound.assignGlobal (h : m.Sound ds) (hused : id ∈ ds.used) :
    (m.assignGlobal id key).Sound ds := by
  obtain ⟨hpart, hid, -⟩ := @Mapping.Sound.released _ _ key id h
  refine {
    localPart := h.localPart
    globalPart := ?_
    inverse := fun k a hon => ?_
    assigned := fun a ha k hk => ?_
    localUsed := h.localUsed
    inverseUsed := fun a k hk => ?_ }
  · rw [assignGlobal_assigned]
    exact hpart.push fun a ha k' hon => hid k' (List.mem_singleton.mp ha ▸ hon)
  · rw [on_assignGlobal h] at hon
    rw [Mapping.assignGlobal, OrderedMap.get_set]
    split at hon
    · rename_i ha
      rw [if_pos ha, hon]
    · rename_i ha
      rw [if_neg ha]
      exact h.inverse k a hon
  · rw [Mapping.assignGlobal, OrderedMap.get_set] at hk
    rw [on_assignGlobal h]
    split at hk
    · rename_i ha'
      rw [if_pos ha', Option.some.inj hk]
    · rename_i ha'
      rw [if_neg ha']
      exact h.assigned a ha k hk
  · rw [Mapping.assignGlobal, OrderedMap.get_set] at hk
    split at hk
    · rename_i ha
      rw [ha]
      exact hused
    · exact h.inverseUsed a k hk

theorem on_unassignGlobal {a : DesktopId} (h : m.Sound ds) :
    (m.unassignGlobal id).globalAssigned.On k a ↔ m.globalAssigned.On k a ∧ a ≠ id := by
  rw [unassignGlobal]
  cases hinverse : m.globalInverse.get id with
  | none =>
    refine (and_iff_left_of_imp fun hon ha => ?_).symm
    exact h.not_on hinverse (ha ▸ hon)
  | some key =>
    rw [h.globalPart.on_takeFrom]
    refine and_congr_right fun hon => not_congr ⟨fun heq => heq.2, fun ha => ⟨?_, ha⟩⟩
    exact Option.some.inj ((h.inverse k a hon).symm.trans (ha ▸ hinverse))

theorem get_unassignGlobal {a : DesktopId} : (m.unassignGlobal id).globalInverse.get a =
    if a = id then none else m.globalInverse.get a := by
  rw [unassignGlobal]
  cases hinverse : m.globalInverse.get id with
  | none =>
    dsimp only
    split
    · rename_i ha
      rw [ha, hinverse]
    · rfl
  | some key => exact OrderedMap.get_delete

theorem Sound.unassignGlobal (h : m.Sound ds) : (m.unassignGlobal id).Sound ds where
  localPart := by
    rw [Mapping.unassignGlobal]
    cases m.globalInverse.get id <;> exact h.localPart
  globalPart := by
    rw [Mapping.unassignGlobal]
    cases m.globalInverse.get id
    · exact h.globalPart
    · exact h.globalPart.takeFrom
  inverse k a hon := by
    obtain ⟨hon, ha⟩ := (on_unassignGlobal h).mp hon
    rw [get_unassignGlobal, if_neg ha]
    exact h.inverse k a hon
  assigned a ha k hk := by
    rw [get_unassignGlobal] at hk
    split at hk
    · cases hk
    · rename_i hne
      exact (on_unassignGlobal h).mpr ⟨h.assigned a ha k hk, hne⟩
  localUsed := by
    rw [Mapping.unassignGlobal]
    cases m.globalInverse.get id <;> exact h.localUsed
  inverseUsed a k hk := by
    rw [get_unassignGlobal] at hk
    split at hk
    · cases hk
    · exact h.inverseUsed a k hk

/-! ## Placing -/

/-- The desktops are on the list of the key and on no other, and every other
desktop is where it was, the records included. -/
structure Placed (mode : WorkspaceMode) (ids : List DesktopId) (key : OutputKey) (ds : Desktops)
    (m m' : Mapping) : Prop where
  sound : m'.Sound ds
  on : ∀ k a, (m'.lists mode).On k a ↔ if a ∈ ids then k = key else (m.lists mode).On k a
  displaced : m'.displacedByOrigin = m.displacedByOrigin
  managed : m'.managed = m.managed

theorem Placed.on_nil {a : DesktopId} (h : Placed mode [] key ds m m') :
    (m'.lists mode).On k a ↔ (m.lists mode).On k a := by
  simpa using h.on k a

theorem placed_moveLocalIdsTo (h : m.Sound ds) (hids : ∀ id ∈ ids, id ∈ ds.used)
    (hmode : mode ≠ .globalUnique) : Placed mode ids key ds m (m.moveLocalIdsTo ids key) where
  sound := { h with
    localPart := h.localPart.moveTo
    localUsed := fun k a hon => by
      rw [moveLocalIdsTo, h.localPart.on_moveTo] at hon
      split at hon
      · rename_i ha
        exact hids a ha
      · exact h.localUsed k a hon }
  on k a := by
    cases mode with
    | perOutputLocal => exact h.localPart.on_moveTo
    | shared => exact h.localPart.on_moveTo
    | globalUnique => exact absurd rfl hmode
  displaced := rfl
  managed := rfl

/-- One after the other. -/
theorem placed_foldl {f : Mapping → DesktopId → Mapping} (h : m.Sound ds)
    (hf : ∀ m id, m.Sound ds → id ∈ ids → Placed mode [id] key ds m (f m id)) :
    Placed mode ids key ds m (ids.foldl f m) := by
  induction ids generalizing m with
  | nil => exact ⟨h, fun k a => by simp, rfl, rfl⟩
  | cons id ids ih =>
    obtain ⟨hsound, hon, hdisplaced, hmanaged⟩ := hf m id h List.mem_cons_self
    obtain ⟨hsound', hon', hdisplaced', hmanaged'⟩ :=
      ih hsound fun m x hm hx => hf m x hm (List.mem_cons_of_mem _ hx)
    refine ⟨hsound', fun k a => ?_, hdisplaced'.trans hdisplaced, hmanaged'.trans hmanaged⟩
    rw [List.foldl_cons, hon', hon]
    simp only [List.mem_cons]
    by_cases ha : a ∈ ids <;> by_cases ha' : a = id <;> simp [ha, ha']

theorem placed_assignGlobal (h : m.Sound ds) (hid : id ∈ ds.used) :
    Placed .globalUnique [id] key ds m (m.assignGlobal id key) where
  sound := h.assignGlobal hid
  on k a := by
    simp only [List.mem_singleton]
    exact on_assignGlobal h
  displaced := rfl
  managed := rfl

theorem placed_assignTo (h : m.Sound ds) (hids : ∀ id ∈ ids, id ∈ ds.used) :
    Placed mode ids key ds m (m.assignTo mode ids key) := by
  cases mode with
  | perOutputLocal => exact placed_moveLocalIdsTo h hids nofun
  | shared => exact placed_moveLocalIdsTo h hids nofun
  | globalUnique =>
    exact placed_foldl h fun m id hm hid => placed_assignGlobal hm (hids id hid)

/-- What is already there may stay. -/
theorem placed_refl (h : m.Sound ds) (hon : (m.lists mode).On key id) :
    Placed mode [id] key ds m m where
  sound := h
  on k a := by
    simp only [List.mem_singleton]
    split
    · rename_i ha
      subst ha
      exact ⟨fun hk => h.partition.one k key a hk hon, fun hk => hk ▸ hon⟩
    · exact Iff.rfl
  displaced := rfl
  managed := rfl

theorem placed_ensureLocalStep (h : m.Sound ds) (hid : id ∈ ds.used)
    (hmode : mode ≠ .globalUnique) : Placed mode [id] key ds m (m.ensureLocalStep key id) := by
  rw [ensureLocalStep]
  split
  · exact placed_moveLocalIdsTo h (fun a ha => List.mem_singleton.mp ha ▸ hid) hmode
  · rename_i hpresent
    rw [not_or, not_not, not_not] at hpresent
    have hon : m.localWorkspaces.On key id := on_iff_getD.mpr hpresent.2
    cases mode with
    | perOutputLocal => exact placed_refl h hon
    | shared => exact placed_refl h hon
    | globalUnique => exact absurd rfl hmode

/-- An empty list more changes nothing. -/
theorem placed_emptyList (h : m.Sound ds) (hnone : m.localWorkspaces.get key = none)
    (hmode : mode ≠ .globalUnique) :
    Placed mode [] key ds m { m with localWorkspaces := m.localWorkspaces.set key [] } := by
  have hon : ∀ k a, On (m.localWorkspaces.set key []) k a ↔ m.localWorkspaces.On k a := by
    intro k a
    rw [on_set]
    split
    · rename_i hk
      subst hk
      simp [On, hnone]
    · exact Iff.rfl
  refine ⟨{ h with
    localPart := h.localPart.set List.nodup_nil fun a ha => absurd ha List.not_mem_nil
    localUsed := fun k a hk => h.localUsed k a ((hon k a).mp hk) }, fun k a => ?_, rfl, rfl⟩
  cases mode with
  | perOutputLocal => exact (hon k a).trans (by simp [lists])
  | shared => exact (hon k a).trans (by simp [lists])
  | globalUnique => exact absurd rfl hmode

theorem Placed.trans {m'' : Mapping} (h : Placed mode ids key ds m m')
    (h' : Placed mode [] key ds m' m'') : Placed mode ids key ds m m'' where
  sound := h'.sound
  on k a := (h'.on k a).trans (by simpa using h.on k a)
  displaced := h'.displaced.trans h.displaced
  managed := h'.managed.trans h.managed

theorem placed_ensureLocal (h : m.Sound ds) (hids : ∀ id ∈ ids, id ∈ ds.used)
    (hmode : mode ≠ .globalUnique) : Placed mode ids key ds m
      (let m := ids.foldl (ensureLocalStep key) m
       if (m.localWorkspaces.get key).isSome then m
       else { m with localWorkspaces := m.localWorkspaces.set key [] }) := by
  have hplaced : Placed mode ids key ds m (ids.foldl (ensureLocalStep key) m) :=
    placed_foldl h fun m id hm hid => placed_ensureLocalStep hm (hids id hid) hmode
  dsimp only
  split
  · exact hplaced
  · rename_i hnone
    exact hplaced.trans (placed_emptyList hplaced.sound (by simpa using hnone) hmode)

theorem placed_ensureDisplacedPresent (h : m.Sound ds) (hids : ∀ id ∈ ids, id ∈ ds.ids) :
    Placed mode ids key ds m (m.ensureDisplacedPresent mode ids key) := by
  have hused : ∀ id ∈ ids, id ∈ ds.used := fun id hid => ds.known id (hids id hid)
  cases mode with
  | perOutputLocal => exact placed_ensureLocal h hused nofun
  | shared => exact placed_ensureLocal h hused nofun
  | globalUnique =>
    refine placed_foldl h fun m id hm hid => ?_
    split
    · rename_i hinverse
      exact placed_refl hm (hm.assigned id (hids id hid) key hinverse)
    · exact placed_assignGlobal hm (hused id hid)

/-! ## Dropping lists -/

/-- A list without elements may go. -/
theorem on_delete_empty {lists : Buckets OutputKey DesktopId} {a : DesktopId}
    (h : lists.get key = some []) : On (lists.delete key) k a ↔ lists.On k a := by
  rw [on_delete]
  refine and_iff_right_of_imp fun hon hk => ?_
  obtain ⟨xs, hget, ha⟩ := hon
  rw [hk, h] at hget
  obtain rfl := Option.some.inj hget
  cases ha

theorem sound_deleteLocal (h : m.Sound ds) :
    Sound { m with localWorkspaces := m.localWorkspaces.delete key } ds :=
  { h with
    localPart := h.localPart.delete
    localUsed := fun k a hk => h.localUsed k a (on_delete.mp hk).2 }

theorem sound_deleteGlobal (h : m.Sound ds) (hempty : m.globalAssigned.get key = some []) :
    Sound { m with globalAssigned := m.globalAssigned.delete key } ds :=
  { h with
    globalPart := h.globalPart.delete
    inverse := fun k a hk => h.inverse k a (on_delete.mp hk).2
    assigned := fun a ha k hk => (on_delete_empty hempty).mpr (h.assigned a ha k hk) }

theorem placed_dropOriginMapping (h : m.Sound ds) {origin : OutputKey} :
    Placed mode [] key ds m (m.dropOriginMapping mode origin) := by
  have hrefl : Placed mode [] key ds m m := ⟨h, fun _ _ => by simp, rfl, rfl⟩
  cases mode with
  | globalUnique =>
    simp only [dropOriginMapping]
    split
    · rename_i hempty
      exact ⟨sound_deleteGlobal h hempty.1,
        fun k a => (on_delete_empty hempty.1).trans (by simp [lists]), rfl, rfl⟩
    · exact hrefl
  | perOutputLocal =>
    simp only [dropOriginMapping]
    split
    · rename_i hempty
      exact ⟨sound_deleteLocal h,
        fun k a => (on_delete_empty hempty).trans (by simp [lists]), rfl, rfl⟩
    · exact hrefl
  | shared =>
    simp only [dropOriginMapping]
    split
    · rename_i hempty
      exact ⟨sound_deleteLocal h,
        fun k a => (on_delete_empty hempty).trans (by simp [lists]), rfl, rfl⟩
    · exact hrefl

/-- The list of a displaced output goes with what is left in it; the other
lists and the records stay. -/
structure Dropped (mode : WorkspaceMode) (origin : OutputKey) (ds : Desktops) (m m' : Mapping) :
    Prop where
  sound : m'.Sound ds
  sub : ∀ k a, (m'.lists mode).On k a → (m.lists mode).On k a
  keep : ∀ k a, (m.lists mode).On k a → k ≠ origin → (m'.lists mode).On k a
  displaced : m'.displacedByOrigin = m.displacedByOrigin
  managed : m'.managed = m.managed

theorem dropped_dropDisplacedList (h : m.Sound ds) {origin : OutputKey} :
    Dropped mode origin ds m (m.dropDisplacedList mode origin) := by
  cases mode with
  | globalUnique =>
    simp only [dropDisplacedList]
    split
    · rename_i hempty
      exact ⟨sound_deleteGlobal h hempty, fun k a => (on_delete_empty hempty).mp,
        fun k a hon _ => (on_delete_empty hempty).mpr hon, rfl, rfl⟩
    · exact ⟨h, fun _ _ hon => hon, fun _ _ hon _ => hon, rfl, rfl⟩
  | perOutputLocal =>
    exact ⟨sound_deleteLocal h, fun k a hon => (on_delete.mp hon).2,
      fun k a hon hk => on_delete.mpr ⟨hk, hon⟩, rfl, rfl⟩
  | shared =>
    exact ⟨sound_deleteLocal h, fun k a hon => (on_delete.mp hon).2,
      fun k a hon hk => on_delete.mpr ⟨hk, hon⟩, rfl, rfl⟩

/-! ## Rebuilding -/

/-- Live desktops stay where they are; one that is nowhere goes to a connected
output. -/
structure Rebuilt (mode : WorkspaceMode) (keys : List OutputKey) (ds : Desktops)
    (m m' : Mapping) : Prop where
  sound : m'.Sound ds
  sub : ∀ k a, (m'.lists mode).On k a → a ∈ ds.ids ∧
    ((m.lists mode).On k a ∨ k ∈ keys ∧ ∀ k', ¬ (m.lists mode).On k' a)
  keep : ∀ k a, (m.lists mode).On k a → a ∈ ds.ids → (m'.lists mode).On k a
  all : ∀ a ∈ ds.ids, ∃ k, (m'.lists mode).On k a
  displaced : m'.displacedByOrigin = m.displacedByOrigin

theorem primaryAmong_mem {primary : Option OutputKey} {keys : List OutputKey} (hkeys : keys ≠ []) :
    ∃ key ∈ keys, primaryAmong primary keys = some key := by
  obtain ⟨first, rest, rfl⟩ := List.exists_cons_of_ne_nil hkeys
  cases primary with
  | none => exact ⟨first, List.mem_cons_self, rfl⟩
  | some key =>
    rw [primaryAmong]
    split
    · rename_i hkey
      exact ⟨key, hkey, rfl⟩
    · exact ⟨first, List.mem_cons_self, rfl⟩

theorem mem_unassigned {lists : Buckets OutputKey DesktopId} {a : DesktopId} :
    a ∈ ids.filter (fun id => !lists.all.contains id) ↔ a ∈ ids ∧ ∀ k, ¬ lists.On k a := by
  simp only [List.mem_filter, Bool.not_eq_true', List.contains_eq_mem, decide_eq_false_iff_not,
    mem_all, not_exists]

theorem rebuilt_local {keys : List OutputKey} (h : m.Sound ds) (hkeys : keys ≠ []) :
    Rebuilt .perOutputLocal keys ds m (m.rebuildLocalWith keys ds.ids) := by
  obtain ⟨primary, hprimary, hamong⟩ := @primaryAmong_mem m.localPrimary _ hkeys
  have hretained : ∀ k a, On (m.localWorkspaces.retain fun id => ds.ids.contains id) k a ↔
      m.localWorkspaces.On k a ∧ a ∈ ds.ids := fun k a => by simp
  have hrest : ∀ a, a ∈ ds.ids.filter (fun id =>
        !(m.localWorkspaces.retain fun id => ds.ids.contains id).all.contains id) ↔
      a ∈ ds.ids ∧ ∀ k, ¬ m.localWorkspaces.On k a := by
    intro a
    rw [mem_unassigned]
    constructor
    · rintro ⟨ha, hnone⟩
      exact ⟨ha, fun k hon => hnone k ((hretained k a).mpr ⟨hon, ha⟩)⟩
    · rintro ⟨ha, hnone⟩
      exact ⟨ha, fun k hon => hnone k ((hretained k a).mp hon).1⟩
  simp only [rebuildLocalWith, hamong]
  refine ⟨{ h with
    localPart := h.localPart.retain.push fun a ha k' hon =>
      absurd ((hretained k' a).mp hon).1 (((hrest a).mp ha).2 k')
    localUsed := fun k a hon => ?_ }, fun k a hon => ?_, fun k a hon ha => ?_, fun a ha => ?_, rfl⟩
  · rcases on_push.mp hon with hon | ⟨-, ha⟩
    · exact h.localUsed k a ((hretained k a).mp hon).1
    · exact ds.known a ((hrest a).mp ha).1
  · rcases on_push.mp hon with hon | ⟨rfl, ha⟩
    · obtain ⟨hon, ha⟩ := (hretained k a).mp hon
      exact ⟨ha, Or.inl hon⟩
    · obtain ⟨ha, hnone⟩ := (hrest a).mp ha
      exact ⟨ha, Or.inr ⟨hprimary, hnone⟩⟩
  · exact on_push.mpr (Or.inl ((hretained k a).mpr ⟨hon, ha⟩))
  · by_cases hon : ∃ k, m.localWorkspaces.On k a
    · obtain ⟨k, hon⟩ := hon
      exact ⟨k, on_push.mpr (Or.inl ((hretained k a).mpr ⟨hon, ha⟩))⟩
    · exact ⟨primary, on_push.mpr (Or.inr ⟨rfl, (hrest a).mpr ⟨ha, fun k hk => hon ⟨k, hk⟩⟩⟩)⟩

/-- The global lists after their dead desktops are out: what is left of each
is its live part, and the inverse map has lost the same desktops. -/
theorem pruned_global {keys : List OutputKey} {primary : Option OutputKey} (h : m.Sound ds) :
    let m' : Mapping := { m with
      globalPrimary := primary
      globalAssigned := Buckets.retain (fun id => ds.ids.contains id)
        (m.globalAssigned.filter (m.keepsList keys ds.ids))
      globalInverse := m.globalInverse.filter fun id _ => ds.ids.contains id }
    m'.Sound ds ∧ ∀ k a, m'.globalAssigned.On k a ↔ m.globalAssigned.On k a ∧ a ∈ ds.ids := by
  have hon : ∀ k a, On (Buckets.retain (fun id => ds.ids.contains id)
      (m.globalAssigned.filter (m.keepsList keys ds.ids))) k a ↔
        m.globalAssigned.On k a ∧ a ∈ ds.ids := by
    intro k a
    simp only [on_retain, List.contains_eq_mem, decide_eq_true_eq]
    refine and_congr_left fun ha => ⟨?_, ?_⟩
    · rintro ⟨xs, hget, hmem⟩
      rw [OrderedMap.get_filter, Option.filter_eq_some_iff] at hget
      exact ⟨xs, hget.1, hmem⟩
    · rintro ⟨xs, hget, hmem⟩
      refine ⟨xs, ?_, hmem⟩
      rw [OrderedMap.get_filter, Option.filter_eq_some_iff]
      refine ⟨hget, ?_⟩
      have : (xs.filter fun id => ds.ids.contains id).isEmpty = false := by
        rw [List.isEmpty_eq_false_iff]
        exact List.ne_nil_of_mem (List.mem_filter.mpr ⟨hmem, by simpa using ha⟩)
      rw [keepsList, this, Bool.not_false, Bool.true_or, Bool.true_or]
  have hinverse : ∀ id k, (m.globalInverse.filter fun id _ => ds.ids.contains id).get id = some k ↔
      m.globalInverse.get id = some k ∧ id ∈ ds.ids := by
    intro id k
    rw [OrderedMap.get_filter, Option.filter_eq_some_iff]
    simp
  exact ⟨{ h with
    globalPart := h.globalPart.filter.retain
    inverse := fun k a hk => (hinverse a k).mpr
      ⟨h.inverse k a ((hon k a).mp hk).1, ((hon k a).mp hk).2⟩
    assigned := fun a ha k hk => (hon k a).mpr ⟨h.assigned a ha k ((hinverse a k).mp hk).1, ha⟩
    inverseUsed := fun a k hk => h.inverseUsed a k ((hinverse a k).mp hk).1 }, hon⟩

/-- Adopting the desktops that nobody has: each goes to the primary unless
some list has it already. By induction along the desktops. -/
theorem adopted_global {primary : OutputKey} (h : m.Sound ds) (hids : ∀ id ∈ ids, id ∈ ds.ids) :
    let m' := ids.foldl (adoptGlobal (some primary)) m
    m'.Sound ds ∧ m'.displacedByOrigin = m.displacedByOrigin ∧
      (∀ k a, m'.globalAssigned.On k a ↔ m.globalAssigned.On k a ∨
        k = primary ∧ a ∈ ids ∧ ∀ k', ¬ m.globalAssigned.On k' a) := by
  induction ids generalizing m with
  | nil => exact ⟨h, rfl, fun k a => by simp⟩
  | cons id ids ih =>
    have hid := hids id List.mem_cons_self
    have hstep : (adoptGlobal (some primary) m id).Sound ds ∧
        (adoptGlobal (some primary) m id).displacedByOrigin = m.displacedByOrigin ∧
        ∀ k a, (adoptGlobal (some primary) m id).globalAssigned.On k a ↔
          m.globalAssigned.On k a ∨ k = primary ∧ a = id ∧ ∀ k', ¬ m.globalAssigned.On k' a := by
      unfold adoptGlobal
      cases hinverse : m.globalInverse.get id with
      | some key =>
        refine ⟨h, rfl, fun k a => (or_iff_left ?_).symm⟩
        rintro ⟨-, rfl, hnone⟩
        exact hnone key (h.assigned a hid key hinverse)
      | none =>
        refine ⟨(h.assignGlobal (ds.known id hid)).congr ⟨rfl, rfl, rfl⟩, rfl, fun k a => ?_⟩
        refine (on_assignGlobal h).trans ?_
        split
        · rename_i ha
          subst ha
          exact ⟨fun hk => Or.inr ⟨hk, rfl, fun k' => h.not_on hinverse⟩,
            fun hor => hor.elim (fun hon => absurd hon (h.not_on hinverse)) fun hk => hk.1⟩
        · rename_i ha
          exact (or_iff_left fun hk => ha hk.2.1).symm
    obtain ⟨hsound, hdisplaced, hon⟩ := hstep
    obtain ⟨hsound', hdisplaced', hon'⟩ := ih hsound fun x hx => hids x (List.mem_cons_of_mem _ hx)
    refine ⟨hsound', hdisplaced'.trans hdisplaced, fun k a => ?_⟩
    rw [List.foldl_cons, hon', hon]
    simp only [hon, List.mem_cons]
    by_cases ha : a = id
    · subst ha
      constructor
      · rintro ((h | h) | ⟨hk, -, hnone⟩)
        · exact Or.inl h
        · exact Or.inr ⟨h.1, Or.inl rfl, h.2.2⟩
        · exact Or.inr ⟨hk, Or.inl rfl, fun k' hk' => hnone k' (Or.inl hk')⟩
      · rintro (h | ⟨hk, -, hnone⟩)
        · exact Or.inl (Or.inl h)
        · exact Or.inl (Or.inr ⟨hk, rfl, hnone⟩)
    · simp [ha]

theorem rebuilt_global {keys : List OutputKey} (h : m.Sound ds) (hkeys : keys ≠ []) :
    Rebuilt .globalUnique keys ds m (m.rebuildGlobalWith keys ds.ids) := by
  obtain ⟨primary, hprimary, hamong⟩ := @primaryAmong_mem m.globalPrimary _ hkeys
  obtain ⟨hsound, hpruned⟩ := @pruned_global _ _ keys (some primary) h
  obtain ⟨hsound', hdisplaced, hon⟩ := @adopted_global _ _ ds.ids primary hsound fun _ hid => hid
  simp only [rebuildGlobalWith, hamong]
  have hiff : ∀ k a, (lists .globalUnique (ds.ids.foldl (adoptGlobal (some primary)) { m with
      globalPrimary := some primary
      globalAssigned := Buckets.retain (fun id => ds.ids.contains id)
        (m.globalAssigned.filter (m.keepsList keys ds.ids))
      globalInverse := m.globalInverse.filter fun id _ => ds.ids.contains id })).On k a ↔
        (m.globalAssigned.On k a ∧ a ∈ ds.ids) ∨
        k = primary ∧ a ∈ ds.ids ∧ ∀ k', ¬ (m.globalAssigned.On k' a ∧ a ∈ ds.ids) := by
    intro k a
    refine (hon k a).trans ?_
    simp only [hpruned]
  refine ⟨hsound', fun k a hk => ?_, fun k a hk ha => (hiff k a).mpr (Or.inl ⟨hk, ha⟩),
    fun a ha => ?_, hdisplaced⟩
  · rcases (hiff k a).mp hk with ⟨hk, ha⟩ | ⟨rfl, ha, hnone⟩
    · exact ⟨ha, Or.inl hk⟩
    · exact ⟨ha, Or.inr ⟨hprimary, fun k' hk' => hnone k' ⟨hk', ha⟩⟩⟩
  · by_cases hany : ∃ k, m.globalAssigned.On k a
    · obtain ⟨k, hk⟩ := hany
      exact ⟨k, (hiff k a).mpr (Or.inl ⟨hk, ha⟩)⟩
    · exact ⟨primary, (hiff primary a).mpr (Or.inr ⟨rfl, ha, fun k' hk' => hany ⟨k', hk'.1⟩⟩)⟩

end Mapping

end

end Native

end PlasmaTiler
