import Mathlib.Logic.Relation
import PlasmaTiler.WorkspacePass

/-!
# What a cleanup does

A cleanup runs loops over lists of ids, in one of three modes, and its loops
both retire and create desktops. All the later modules want to know is that
each turn of a loop does one of two things: it retires a desktop that may go,
taking it off its list, or it appends a new one to the list of a connected
output. These are the acts (`Act`), and a cleanup is a chain of them.

`ensureTrailing_rel` is the rule for the loops: a transitive relation between
a state and the next survives the trailing rule, whatever the removal and the
creation are. Taken at `Tidied`, from a sound desk to a sound desk by acts,
it gives the local and the global enforcement in turn.

What one act keeps is then kept by a whole cleanup, by induction on the chain
and with no second look at the loops.
-/

namespace PlasmaTiler

namespace Native

open Buckets

/-- A transitive relation between a state and the next survives the trailing
rule. -/
theorem ensureTrailing_rel {σ : Type} {R : σ → σ → Prop} {orderedIds : List DesktopId}
    {isEmpty isVisible : DesktopId → Bool} {removeDesktop : DesktopId → σ → Bool × σ}
    {createDesktop : σ → Option DesktopId × σ} {s : σ} (hrefl : ∀ s, R s s)
    (htrans : ∀ {a b c}, R a b → R b c → R a c) (hremove : ∀ s id, R s (removeDesktop id s).2)
    (hcreate : ∀ s, R s (createDesktop s).2) :
    R s (ensureTrailingEmptyDesktop orderedIds isEmpty isVisible removeDesktop createDesktop s).2 := by
  have hfold : ∀ (trailing : Option DesktopId) (ids : List DesktopId) (acc : List DesktopId × σ),
      R acc.2 (ids.foldl (retireStep trailing isEmpty isVisible removeDesktop) acc).2 := by
    intro trailing ids
    induction ids with
    | nil => exact fun acc => hrefl acc.2
    | cons id ids ih =>
      intro acc
      refine htrans ?_ (ih _)
      rw [retireStep]
      split
      · exact hrefl _
      split
      · exact hrefl _
      · have := hremove acc.2 id
        split <;> (rename_i heq; rw [heq] at this; exact this)
  simp only [ensureTrailingEmptyDesktop]
  split
  · exact hfold _ orderedIds ([], s)
  · exact htrans (hfold _ orderedIds ([], s)) (hcreate _)

namespace Desk

/-- The lists of the mode. -/
def lists (mode : WorkspaceMode) (d : Desk) : Buckets OutputKey DesktopId := d.mapping.lists mode

/-- A desktop that may go is gone, from the surface and from its list; no
other desktop is moved by it. -/
structure Retires (mode : WorkspaceMode) (visible occupied : List DesktopId) (id : DesktopId)
    (d d' : Desk) : Prop where
  removable : ∃ count, d.removable visible occupied count id = true
  surface : d'.surface = d.surface.removeDesktop id
  on : ∀ k a, (d'.lists mode).On k a ↔ (d.lists mode).On k a ∧ a ≠ id
  displaced : d'.mapping.displacedByOrigin = d.mapping.displacedByOrigin

/-- There was room for one more desktop: it has a new id, and is on the list
of one output alone. -/
structure Creates (mode : WorkspaceMode) (key : OutputKey) (d d' : Desk) : Prop where
  room : d.surface.desktops.ids.length < d.surface.capacity
  surface : d'.surface = { d.surface with desktops := d.surface.desktops.create d.surface.mint }
  on : ∀ k a, (d'.lists mode).On k a ↔
    (d.lists mode).On k a ∨ k = key ∧ a = d.surface.mint.name d.surface.desktops.used
  displaced : d'.mapping.displacedByOrigin = d.mapping.displacedByOrigin

/-- One act of a cleanup: a desktop is retired, or one is created for a
connected output. -/
inductive Act (mode : WorkspaceMode) (connected : List OutputKey) (visible occupied : List DesktopId)
    (d d' : Desk) : Prop
  | retires {id : DesktopId} (h : Retires mode visible occupied id d d')
  | creates {key : OutputKey} (hkey : key ∈ connected) (h : Creates mode key d d')

/-- From a sound desk, a sound desk by such acts, one after the other; every
part of a cleanup is one of these. -/
def Tidied (mode : WorkspaceMode) (connected : List OutputKey) (visible occupied : List DesktopId)
    (d d' : Desk) : Prop :=
  d.Sound → d'.Sound ∧ Relation.ReflTransGen (Act mode connected visible occupied) d d'

section
variable {mode : WorkspaceMode} {connected : List OutputKey} {visible occupied : List DesktopId}
  {d d' d'' : Desk} {id : DesktopId} {key : OutputKey} {count : Option Nat}

theorem Tidied.refl : Tidied mode connected visible occupied d d := fun h => ⟨h, .refl⟩

theorem Tidied.trans (h : Tidied mode connected visible occupied d d')
    (h' : Tidied mode connected visible occupied d' d'') :
    Tidied mode connected visible occupied d d'' := fun hd =>
  let ⟨hd', hacts⟩ := h hd
  let ⟨hd'', hacts'⟩ := h' hd'
  ⟨hd'', hacts.trans hacts'⟩

theorem Tidied.foldl {α : Type} {f : Desk → α → Desk} {xs : List α}
    (h : ∀ d, ∀ x ∈ xs, Tidied mode connected visible occupied d (f d x)) :
    Tidied mode connected visible occupied d (xs.foldl f d) := by
  induction xs generalizing d with
  | nil => exact .refl
  | cons x xs ih =>
    exact (h d x List.mem_cons_self).trans (ih fun d y hy => h d y (List.mem_cons_of_mem _ hy))

/-- Showing is not touched by acts. -/
theorem Sound.ofSurface {m : Mapping} (h : d.Sound) {s : Surface}
    (hm : m.Sound s.desktops) (hcurrents : s.currents = d.surface.currents)
    (hused : ∀ id ∈ d.surface.desktops.used, id ∈ s.desktops.used) : Desk.Sound ⟨m, s⟩ where
  mapping := hm
  shown o id hid := hused id (h.shown o id (hcurrents ▸ hid))

/-! ## Retiring -/

theorem tidied_removeManagedEmpty :
    Tidied .perOutputLocal connected visible occupied d
      (d.removeManagedEmpty visible occupied count id).2 := by
  intro h
  rw [removeManagedEmpty, removeManagedWith]
  split
  · rename_i hremovable
    refine ⟨h.ofSurface ({ @Mapping.Sound.remove _ _ id h.mapping with
      localPart := h.mapping.localPart.removeEverywhere
      localUsed := fun k a hk => h.mapping.localUsed k a
        (h.mapping.localPart.on_removeEverywhere.mp hk).1 }) rfl fun _ hid => hid, ?_⟩
    exact .single (.retires ⟨⟨count, hremovable⟩, rfl,
      fun k a => h.mapping.localPart.on_removeEverywhere, rfl⟩)
  · exact ⟨h, .refl⟩

theorem unassignGlobal_displaced {m : Mapping} :
    (m.unassignGlobal id).displacedByOrigin = m.displacedByOrigin := by
  rw [Mapping.unassignGlobal]
  cases m.globalInverse.get id <;> rfl

theorem tidied_removeManagedEmptyGlobal :
    Tidied .globalUnique connected visible occupied d
      (d.removeManagedEmptyGlobal visible occupied count id).2 := by
  intro h
  rw [removeManagedEmptyGlobal, removeManagedWith]
  split
  · rename_i hremovable
    have hsound : Mapping.Sound { d.mapping with managed := d.mapping.managed.erase id }
        (d.surface.desktops.remove id) := h.mapping.remove.congr ⟨rfl, rfl, rfl⟩
    refine ⟨h.ofSurface (@Mapping.Sound.unassignGlobal _ _ id hsound) rfl fun _ hid => hid, ?_⟩
    exact .single (.retires ⟨⟨count, hremovable⟩, rfl,
      fun k a => Mapping.on_unassignGlobal hsound, unassignGlobal_displaced⟩)
  · exact ⟨h, .refl⟩

/-! ## Creating -/

/-- What is created can be read. -/
theorem liveOrdered_create {s : Surface} {live : List DesktopId} (h : s.liveOrdered = some live)
    (hroom : s.desktops.ids.length < s.capacity) :
    ({ s with desktops := s.desktops.create s.mint } : Surface).liveOrdered =
      some (s.desktops.ids ++ [s.mint.name s.desktops.used]) := by
  have hcapacity := s.capacity_le
  have hreadable : s.readable = true := by
    rw [Surface.liveOrdered] at h
    split at h
    · rename_i hread
      simp only [Bool.and_eq_true] at hread
      exact hread.1.1
    · cases h
  refine if_pos ?_
  simp only [hreadable, Desktops.create, Bool.true_and, Bool.and_eq_true, decide_eq_true_eq,
    List.length_append, List.length_singleton]
  exact ⟨by simp, by omega⟩

/-- Creating either does nothing or adds one desktop. -/
theorem appendDesktop_cases : d.appendDesktop = (none, d) ∨
    d.surface.desktops.ids.length < d.surface.capacity ∧
      d.appendDesktop = (some (d.surface.mint.name d.surface.desktops.used), {
        mapping := d.mapping.manage [d.surface.mint.name d.surface.desktops.used]
        surface := { d.surface with desktops := d.surface.desktops.create d.surface.mint } }) := by
  cases hlive : d.surface.liveOrdered with
  | none =>
    left
    simp only [appendDesktop, hlive]
  | some before =>
    obtain rfl := live_eq hlive
    by_cases hroom : d.surface.desktops.ids.length < d.surface.capacity
    · have hcreate : d.surface.createDesktop =
          { d.surface with desktops := d.surface.desktops.create d.surface.mint } := if_pos hroom
      have hnew : d.surface.mint.name d.surface.desktops.used ∉ d.surface.desktops.ids :=
        fun hid => d.surface.mint.fresh _ (d.surface.desktops.known _ hid)
      have hfilter : (d.surface.desktops.ids ++
          [d.surface.mint.name d.surface.desktops.used]).filter
            (fun id => !d.surface.desktops.ids.contains id) =
          [d.surface.mint.name d.surface.desktops.used] := by
        rw [List.filter_append, List.filter_eq_nil_iff.mpr (by simp), List.nil_append]
        simp [hnew]
      right
      refine ⟨hroom, ?_⟩
      simp only [appendDesktop, hlive, hcreate, liveOrdered_create hlive hroom, hfilter,
        List.getLast?_singleton]
    · have hcreate : d.surface.createDesktop = d.surface := if_neg hroom
      have hfilter : d.surface.desktops.ids.filter
          (fun id => !d.surface.desktops.ids.contains id) = [] := by simp
      left
      simp only [appendDesktop, hlive, hcreate, hfilter, List.getLast?_nil]

theorem tidied_appendDesktopForOutputKey (hkey : key ∈ connected) :
    Tidied .perOutputLocal connected visible occupied d (d.appendDesktopForOutputKey key).2 := by
  intro h
  rw [appendDesktopForOutputKey, appendWith]
  rcases appendDesktop_cases (d := d) with happend | ⟨hroom, happend⟩
  · rw [happend]
    exact ⟨h, .refl⟩
  · rw [happend]
    have hfresh := d.surface.mint.fresh d.surface.desktops.used
    have hnew : ∀ k, ¬ d.mapping.localWorkspaces.On k
        (d.surface.mint.name d.surface.desktops.used) := fun k hon =>
      hfresh (h.mapping.localUsed k _ hon)
    have hon : ∀ k a, On (d.mapping.localWorkspaces.set key
        ((d.mapping.localWorkspaces.get key).getD [] ++
          [d.surface.mint.name d.surface.desktops.used])) k a ↔
        d.mapping.localWorkspaces.On k a ∨ k = key ∧
          a = d.surface.mint.name d.surface.desktops.used := by
      intro k a
      rw [on_set, List.mem_append, List.mem_singleton, ← on_iff_getD]
      split
      · rename_i hk
        subst hk
        simp
      · rename_i hk
        simp [hk]
    have hcreated := @Mapping.Sound.create _ _ d.surface.mint h.mapping
    refine ⟨h.ofSurface ({ hcreated with
      localPart := h.mapping.localPart.set ?_ ?_
      localUsed := fun k a hk => ?_ }) rfl fun _ hid => List.mem_append_left _ hid,
      .single (.creates hkey ⟨hroom, rfl, hon, rfl⟩)⟩
    · refine List.nodup_append.mpr ⟨h.mapping.localPart.nodup_getD, List.nodup_singleton _, ?_⟩
      intro a ha b hb hab
      rw [List.mem_singleton.mp hb] at hab
      exact hnew key (on_iff_getD.mpr (hab ▸ ha))
    · intro a ha k' hk'
      rcases List.mem_append.mp ha with ha | ha
      · exact h.mapping.localPart.one k' key a hk' (on_iff_getD.mpr ha)
      · exact absurd (List.mem_singleton.mp ha ▸ hk') (hnew k')
    · rcases (hon k a).mp hk with hk | ⟨-, rfl⟩
      · exact List.mem_append_left _ (h.mapping.localUsed k a hk)
      · exact List.mem_append_right _ (List.mem_singleton_self _)

theorem tidied_appendDesktopForGlobalKey (hkey : key ∈ connected) :
    Tidied .globalUnique connected visible occupied d (d.appendDesktopForGlobalKey key).2 := by
  intro h
  rw [appendDesktopForGlobalKey, appendWith]
  rcases appendDesktop_cases (d := d) with happend | ⟨hroom, happend⟩
  · rw [happend]
    exact ⟨h, .refl⟩
  · rw [happend]
    have hfresh := d.surface.mint.fresh d.surface.desktops.used
    have hcreated : (d.mapping.manage [d.surface.mint.name d.surface.desktops.used]).Sound
        (d.surface.desktops.create d.surface.mint) := h.mapping.create.congr ⟨rfl, rfl, rfl⟩
    refine ⟨h.ofSurface (hcreated.assignGlobal (List.mem_append_right _ (List.mem_singleton_self _)))
      rfl fun _ hid => List.mem_append_left _ hid, .single (.creates hkey ⟨hroom, rfl, ?_, rfl⟩)⟩
    intro k a
    refine (Mapping.on_assignGlobal hcreated).trans ?_
    split
    · rename_i ha
      subst ha
      exact ⟨fun hk => Or.inr ⟨hk, rfl⟩, fun hor => hor.elim
        (fun hon => absurd (h.mapping.inverseUsed _ k (h.mapping.inverse k _ hon)) hfresh)
        fun hk => hk.1⟩
    · rename_i ha
      exact (or_iff_left fun hk => ha hk.2).symm

/-! ## Enforcing -/

theorem tidied_ensureTrailing {orderedIds : List DesktopId} {isEmpty isVisible : DesktopId → Bool}
    {removeDesktop : DesktopId → Desk → Bool × Desk} {createDesktop : Desk → Option DesktopId × Desk}
    (hremove : ∀ d id, Tidied mode connected visible occupied d (removeDesktop id d).2)
    (hcreate : ∀ d, Tidied mode connected visible occupied d (createDesktop d).2) :
    Tidied mode connected visible occupied d
      (ensureTrailingEmptyDesktop orderedIds isEmpty isVisible removeDesktop createDesktop d).2 :=
  ensureTrailing_rel (R := Tidied mode connected visible occupied) (fun _ => .refl) .trans hremove
    hcreate

theorem tidied_enforceLocal {keys : SessionOutputKeys} {screens : List Output}
    (hscreens : d.surface.liveScreens = some screens) (hconnected : connected = keys.screenKeys screens) :
    Tidied .perOutputLocal connected visible occupied d
      (d.enforceLocalTrailing keys visible occupied) := by
  rw [enforceLocalTrailing, hscreens]
  split
  · rename_i screens' _ heq _
    obtain rfl := Option.some.inj heq
    subst hconnected
    refine Tidied.trans (Tidied.foldl fun d key hkey => ?_) (Tidied.foldl fun d id _ => ?_)
    · exact tidied_ensureTrailing (fun _ _ => tidied_removeManagedEmpty)
        fun _ => tidied_appendDesktopForOutputKey hkey
    · rw [retireUnassigned]
      split
      · exact .refl
      · exact tidied_removeManagedEmpty
  · exact .refl

theorem tidied_enforceGlobal {keys : SessionOutputKeys} {screens : List Output}
    (hscreens : d.surface.liveScreens = some screens) (hconnected : connected = keys.screenKeys screens) :
    Tidied .globalUnique connected visible occupied d
      (d.enforceGlobalTrailing keys visible occupied) := by
  rw [enforceGlobalTrailing, hscreens]
  split
  · rename_i screens' _ heq _
    obtain rfl := Option.some.inj heq
    subst hconnected
    exact Tidied.foldl fun d key hkey => tidied_ensureTrailing
      (fun _ _ => tidied_removeManagedEmptyGlobal) fun _ => tidied_appendDesktopForGlobalKey hkey
  · exact .refl

end

end Desk

end Native

end PlasmaTiler
