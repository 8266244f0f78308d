import PlasmaTiler.WorkspaceMigration

/-!
# Displaced workspaces return to their output

When an output goes, its desktops are captured by a survivor and recorded
under their origin; when it comes back, `returnOrigin` gives them back. That
the right desktops come back is a statement about three things at once: the
record (it names no desktop twice, and no desktop of another record), the
list the recorded desktops wait on (the survivor's, not some third output's),
and the list they end on.

The code does not keep the records apart in every pass. A survivor that goes
in turn is captured with its guests on its list, so the guests enter its
record while they are still in the record of their own output: unplug `A`,
unplug `B` that has A's desktops, plug both back, and the desktops of `A` are
in two records. `Orderly` is the condition on a pass that excludes this: no
survivor is gone together with its guests, and what is captured of a newly
absent output is on its own list and in no record. It reads the state before
the signal only.

Under it every desktop has one `Owner`, the origin of its record, else the
output whose list it is on, and nothing a pass does changes the owner:
`Displacing` compares the desk in the middle of the displacements with the
start of the pass, `Returning` does the same for the returns, and `run_ran`
puts them together. Pruning and cleaning leave owners alone for simpler
reasons. `signal_faithful` is then the step lemma and `run_faithful` the run
lemma; with enough to read, a signal also puts every desktop on its owner
once that is connected (`signal_returns`).

`workspaces_return` is the headline; `not_always_return` is the run above.
-/

namespace PlasmaTiler

namespace Native

open Buckets

/-- The output a desktop belongs to: the origin of its record, else the output
it is on. -/
def Desk.Owner (mode : WorkspaceMode) (d : Desk) (k : OutputKey) (id : DesktopId) : Prop :=
  (∃ entry, d.record k = some entry ∧ id ∈ entry.workspaceIds) ∨
    (d.lists mode).On k id ∧ d.Unrecorded id

/-- No two records hold the same desktop, so no desktop is claimed by two
outputs that come back. -/
def Desk.Disjoint (d : Desk) : Prop :=
  ∀ o o' entry entry', d.record o = some entry → d.record o' = some entry' →
    ∀ id ∈ entry.workspaceIds, id ∈ entry'.workspaceIds → o = o'

/-- Live desktops that are recorded are where their record says, on the list
of its survivor. -/
def Desk.Home (mode : WorkspaceMode) (d : Desk) : Prop :=
  ∀ o entry, d.record o = some entry → ∀ id ∈ entry.workspaceIds,
    id ∈ d.surface.desktops.ids → (d.lists mode).On entry.destKey id

namespace Pass

/-- The pass displaces only what is the absent outputs' own: no survivor of a
record has gone, and what a newly absent output captures is on its list and in
no record. -/
structure Orderly (p : Pass) (d : Desk) : Prop where
  survivors : ∀ o entry, o ∉ p.currentKeys → d.record o = some entry →
    entry.destKey ∈ p.currentKeys
  own : ∀ o, o ∉ p.currentKeys → d.record o = none → ∀ id ∈ p.captured o,
    (d.lists p.mode).On o id ∧ d.Unrecorded id

/-- An orderly pass about to run on a sound desk: it starts from the desk's
own lists, and every recorded desktop is live, at home and in one record. -/
structure Begins (p : Pass) (d : Desk) : Prop where
  sound : d.Sound
  fits : p.Fits d.surface.desktops
  prev : p.prev = d.lists p.mode
  live : ∀ o entry, d.record o = some entry → ∀ id ∈ entry.workspaceIds, id ∈ p.live
  home : d.Home p.mode
  disjoint : d.Disjoint
  orderly : p.Orderly d

/-- What displacing did so far, compared with the start: records are kept, new
ones are of newly absent outputs and hold what these captured, and only the
captured has changed lists. -/
structure Displacing (p : Pass) (d₀ d : Desk) : Prop where
  record : ∀ o entry, d.record o = some entry → d₀.record o = some entry ∨
    o ∉ p.currentKeys ∧ d₀.record o = none ∧ entry.workspaceIds = p.captured o ∧
      entry.destKey ∈ p.currentKeys
  kept : ∀ o entry, d₀.record o = some entry → d.record o = some entry
  keep : ∀ k, ∀ id ∈ p.live, (d₀.lists p.mode).On k id → (d.lists p.mode).On k id ∨
    d₀.record k = none ∧ ∃ entry, d.record k = some entry ∧ id ∈ entry.workspaceIds
  home : ∀ o entry, d.record o = some entry → d₀.record o = none →
    ∀ id ∈ entry.workspaceIds, (d.lists p.mode).On entry.destKey id

section
variable {p : Pass} {d₀ d₁ d d' : Desk} {origin key k o : OutputKey} {id : DesktopId}
  {done : List OutputKey}

theorem Displacing.refl : p.Displacing d₀ d₀ where
  record _ _ hentry := Or.inl hentry
  kept _ _ hentry := hentry
  keep _ _ _ hon := Or.inl hon
  home _ _ hentry hnone := by
    rw [hnone] at hentry
    cases hentry

/-- A connected output has its record from the start. -/
theorem Displacing.connected (h : p.Displacing d₀ d) (hk : k ∈ p.currentKeys) {entry : Displaced}
    (hentry : d.record k = some entry) : d₀.record k = some entry :=
  (h.record k entry hentry).resolve_right fun hnew => hnew.1 hk

/-- Steps that leave the records and the lists. -/
theorem Displacing.same (h : p.Displacing d₀ d)
    (hrecord : d'.mapping.displacedByOrigin = d.mapping.displacedByOrigin)
    (hon : ∀ k a, (d'.lists p.mode).On k a ↔ (d.lists p.mode).On k a) : p.Displacing d₀ d' := by
  have hrec : ∀ o, d'.record o = d.record o := fun o => by rw [Desk.record, hrecord]; rfl
  exact {
    record := fun o entry hentry => h.record o entry (hrec o ▸ hentry)
    kept := fun o entry hentry => (hrec o).trans (h.kept o entry hentry)
    keep := fun k id hid hk => by
      simp only [hrec, hon]
      exact h.keep k id hid hk
    home := fun o entry hentry hnone id hid => (hon _ _).mpr
      (h.home o entry (hrec o ▸ hentry) hnone id hid) }

/-- One absent output. Its record keeps its desktops where they are; without
one, it captures its own and nobody else's, as the pass is orderly. -/
theorem Displacing.step (hbegins : p.Begins d₀) (h : p.Displacing d₀ d) (hd : d.Sound)
    (hshows : Shows d₀.surface d.surface) (habsent : origin ∉ p.currentKeys)
    (htodo : d.record origin = d₀.record origin) :
    p.Displacing d₀ (p.displaceOrigin d origin) := by
  have hfits : p.Fits d.surface.desktops := hshows.desktops ▸ hbegins.fits
  have hstep := displaces hd.mapping hfits habsent
  have hpart := @Mapping.Sound.partition _ _ p.mode hbegins.sound.mapping
  generalize p.displaceOrigin d origin = d' at *
  cases hstep with
  | @stays entry hrecord hdest hplaced hsurface =>
    have hrecord₀ : d₀.record origin = some entry := htodo ▸ hrecord
    refine h.same hplaced.displaced fun k a => ?_
    refine (hplaced.on k a).trans ?_
    split
    · rename_i ha
      obtain ⟨hmem, hlive⟩ := mem_liveOnly.mp ha
      -- it is there already, and so nowhere else
      have hon : (d.lists p.mode).On entry.destKey a := by
        have hhome := hbegins.home origin entry hrecord₀ a hmem (hbegins.fits.live ▸ hlive)
        refine (h.keep _ a hlive hhome).resolve_right fun hnew => ?_
        obtain ⟨hnone, entry', hentry', -⟩ := hnew
        rw [h.connected hdest hentry'] at hnone
        cases hnone
      exact ⟨fun hk => hk ▸ hon, fun hk => hd.mapping.partition.one k _ a hk hon⟩
    · exact Iff.rfl
  | expires hrecord hdest =>
    exact absurd (hbegins.orderly.survivors origin _ habsent (htodo ▸ hrecord)) hdest
  | moves hrecord hgone =>
    exact absurd (hbegins.orderly.survivors origin _ habsent (htodo ▸ hrecord)) hgone
  | empty _ _ hplaced => exact h.same hplaced.displaced fun _ _ => hplaced.on_nil
  | @leaves destKey m hrecord _ hdest hplaced hdropped =>
    have hnone₀ : d₀.record origin = none := htodo ▸ hrecord
    have hne : destKey ≠ origin := fun heq => habsent (heq ▸ hdest)
    have hown := hbegins.orderly.own origin habsent hnone₀
    have hrec : ∀ o, d'.record o =
        if o = origin then some ⟨p.captured origin, destKey⟩ else d.record o := by
      intro o
      rw [Desk.record, hdropped.displaced, hplaced.displaced]
      exact OrderedMap.get_set
    have hother : ∀ o entry, d.record o = some entry → o ≠ origin := by
      rintro o entry hentry rfl
      rw [Desk.record, hrecord] at hentry
      cases hentry
    have hcaptured : ∀ a ∈ p.live, (d₀.lists p.mode).On origin a → a ∈ p.captured origin :=
      fun a ha hon => mem_captured.mpr ⟨Or.inl (hbegins.prev ▸ hon), ha⟩
    have honm : ∀ k a, (m.lists p.mode).On k a ↔
        if a ∈ p.captured origin then k = destKey else (d.lists p.mode).On k a := hplaced.on
    refine {
      record := fun o entry hentry => ?_
      kept := fun o entry hentry => ?_
      keep := fun k id hid hk => ?_
      home := fun o entry hentry hnone id hid => ?_ }
    · rw [hrec] at hentry
      split at hentry
      · rename_i ho
        subst ho
        obtain rfl := Option.some.inj hentry
        exact Or.inr ⟨habsent, hnone₀, rfl, hdest⟩
      · exact h.record o entry hentry
    · have hentry' := h.kept o entry hentry
      rw [hrec, if_neg (hother o entry hentry')]
      exact hentry'
    · by_cases hmem : id ∈ p.captured origin
      · obtain rfl := hpart.one k origin id hk (hown id hmem).1
        exact Or.inr ⟨hnone₀, _, (hrec k).trans (if_pos rfl), hmem⟩
      · rcases h.keep k id hid hk with hk' | ⟨hnone, entry, hentry, hin⟩
        · have hko : k ≠ origin := fun hko => hmem (hcaptured id hid (hko ▸ hk))
          exact Or.inl (hdropped.keep k id ((honm k id).mpr (by rwa [if_neg hmem])) hko)
        · refine Or.inr ⟨hnone, entry, ?_, hin⟩
          rw [hrec, if_neg (hother k entry hentry)]
          exact hentry
    · rw [hrec] at hentry
      split at hentry
      · obtain rfl := Option.some.inj hentry
        exact hdropped.keep _ id ((honm destKey id).mpr (by rw [if_pos hid])) hne
      · rename_i ho
        have hon := h.home o entry hentry hnone id hid
        obtain ⟨hoabsent, -, hids, hodest⟩ := (h.record o entry hentry).resolve_left fun heq => by
          rw [hnone] at heq
          cases heq
        have hnot : id ∉ p.captured origin := fun hmem => ho (hpart.one o origin id
          (hbegins.orderly.own o hoabsent hnone id (hids ▸ hid)).1 (hown id hmem).1)
        exact hdropped.keep _ id ((honm _ id).mpr (by rwa [if_neg hnot]))
          fun heq => habsent (heq ▸ hodest)

/-- The records stay apart. -/
theorem Displacing.disjoint (hbegins : p.Begins d₀) (h : p.Displacing d₀ d) : d.Disjoint := by
  intro o o' entry entry' hentry hentry' id hid hid'
  rcases h.record o entry hentry with hold | ⟨habsent, hnone, hids, -⟩
  · rcases h.record o' entry' hentry' with hold' | ⟨habsent', hnone', hids', -⟩
    · exact hbegins.disjoint o o' entry entry' hold hold' id hid hid'
    · exact absurd hid ((hbegins.orderly.own o' habsent' hnone' id (hids' ▸ hid')).2 o entry hold)
  · have hown := hbegins.orderly.own o habsent hnone id (hids ▸ hid)
    rcases h.record o' entry' hentry' with hold' | ⟨habsent', hnone', hids', -⟩
    · exact absurd hid' (hown.2 o' entry' hold')
    · exact hbegins.sound.mapping.partition.one o o' id hown.1
        (hbegins.orderly.own o' habsent' hnone' id (hids' ▸ hid')).1

/-- What is recorded is live. -/
theorem Displacing.live (hbegins : p.Begins d₀) (h : p.Displacing d₀ d) {entry : Displaced}
    (hentry : d.record o = some entry) (hid : id ∈ entry.workspaceIds) : id ∈ p.live := by
  rcases h.record o entry hentry with hold | ⟨-, -, hids, -⟩
  · exact hbegins.live o entry hold id hid
  · exact (mem_captured.mp (hids ▸ hid)).2

/-- Recorded desktops are where their record says. -/
theorem Displacing.homes (hbegins : p.Begins d₀) (h : p.Displacing d₀ d) {entry : Displaced}
    (habsent : o ∉ p.currentKeys) (hentry : d.record o = some entry)
    (hid : id ∈ entry.workspaceIds) : (d.lists p.mode).On entry.destKey id := by
  rcases h.record o entry hentry with hold | ⟨-, hnone, -, -⟩
  · have hlive := hbegins.live o entry hold id hid
    have hdest := hbegins.orderly.survivors o entry habsent hold
    refine (h.keep _ id hlive
      (hbegins.home o entry hold id hid (hbegins.fits.live ▸ hlive))).resolve_right fun hnew => ?_
    obtain ⟨hnone, entry', hentry', -⟩ := hnew
    rw [h.connected hdest hentry'] at hnone
    cases hnone
  · exact h.home o entry hentry hnone id hid

/-! ## Returning -/

/-- What returning did so far: the records of the outputs gone through are
struck, and what they held is on the lists of their own outputs again. -/
structure Returning (p : Pass) (d₁ : Desk) (done : List OutputKey) (d : Desk) : Prop where
  record : ∀ o entry, d.record o = some entry ↔ d₁.record o = some entry ∧ o ∉ done
  keep : ∀ k id, (d₁.lists p.mode).On k id → (d.lists p.mode).On k id ∨
    ∃ key ∈ done, ∃ entry, d₁.record key = some entry ∧ id ∈ entry.workspaceIds
  back : ∀ key ∈ done, ∀ entry, d₁.record key = some entry → ∀ id ∈ entry.workspaceIds,
    (d.lists p.mode).On key id

theorem Returning.refl : p.Returning d₁ [] d₁ where
  record _ _ := by simp
  keep _ _ hon := Or.inl hon
  back _ hkey := absurd hkey List.not_mem_nil

/-- One connected output. If it has a record, the recorded desktops go to its
list and the record is struck; what it takes were guests elsewhere, as the
records are disjoint. -/
theorem Returning.step (h : p.Returning d₁ done d) (hd : d.Sound)
    (hfits : p.Fits d.surface.desktops) (hdisjoint : d₁.Disjoint)
    (hlive : ∀ o entry, d₁.record o = some entry → ∀ id ∈ entry.workspaceIds, id ∈ p.live)
    (hkey : key ∉ done) : p.Returning d₁ (done ++ [key]) (p.returnOrigin d key) := by
  have hstep := @returns p _ key hd.mapping hfits
  generalize p.returnOrigin d key = d' at *
  have hadd : ∀ o, o ∉ done ++ [key] ↔ o ∉ done ∧ o ≠ key := by simp
  have hforget : (∀ o, d'.record o = if o = key then none else d.record o) →
      ∀ o entry, d'.record o = some entry ↔ d₁.record o = some entry ∧ o ∉ done ++ [key] := by
    intro hrec o entry
    rw [hrec, hadd]
    split
    · rename_i ho
      simp [ho]
    · rename_i ho
      rw [h.record]
      simp [ho]
  -- nothing of the key: its record, if any, names nothing
  have hsame : (∀ o entry, d'.record o = some entry ↔ d₁.record o = some entry ∧
        o ∉ done ++ [key]) → (∀ k a, (d'.lists p.mode).On k a ↔ (d.lists p.mode).On k a) →
      (∀ entry, d₁.record key = some entry → entry.workspaceIds = []) →
        p.Returning d₁ (done ++ [key]) d' := by
    intro hrecord hon hnone
    refine ⟨hrecord, fun k id hk => ?_, fun key' hkey' entry hentry id hid => ?_⟩
    · rcases h.keep k id hk with hk | ⟨key', hkey', hrest⟩
      · exact Or.inl ((hon k id).mpr hk)
      · exact Or.inr ⟨key', List.mem_append_left _ hkey', hrest⟩
    · rcases List.mem_append.mp hkey' with hkey' | hkey'
      · exact (hon key' id).mpr (h.back key' hkey' entry hentry id hid)
      · obtain rfl := List.mem_singleton.mp hkey'
        rw [hnone entry hentry] at hid
        cases hid
  cases hstep with
  | none hrecord heq =>
    subst heq
    have hnone : ∀ entry, d₁.record key ≠ some entry := fun entry hentry => by
      have := (h.record key entry).mpr ⟨hentry, hkey⟩
      rw [Desk.record, hrecord] at this
      cases this
    refine hsame (hforget fun o => ?_) (fun _ _ => Iff.rfl) fun entry hentry =>
      absurd hentry (hnone entry)
    split
    · rename_i ho
      rw [ho]
      exact hrecord
    · rfl
  | @expires entry hrecord hnone hplaced =>
    refine hsame (hforget fun o => ?_) (fun _ _ => hplaced.on_nil) fun entry' hentry' => ?_
    · rw [Desk.record, hplaced.displaced]
      exact OrderedMap.get_delete
    · have hentry := (h.record key entry).mp hrecord
      obtain rfl := Option.some.inj (hentry.1.symm.trans hentry')
      refine List.eq_nil_iff_forall_not_mem.mpr fun id hid => ?_
      have : id ∈ p.liveOnly entry.workspaceIds :=
        mem_liveOnly.mpr ⟨hid, hlive key entry hentry' id hid⟩
      rw [hnone] at this
      cases this
  | @returns entry m hrecord hplaced hmapping =>
    have hentry := ((h.record key entry).mp hrecord).1
    have hmem : ∀ id, id ∈ p.liveOnly entry.workspaceIds ↔ id ∈ entry.workspaceIds := fun id =>
      mem_liveOnly.trans (and_iff_left_of_imp (hlive key entry hentry id))
    have hremaining : (entry.workspaceIds.filter fun id =>
        !(p.liveOnly entry.workspaceIds).contains id) = [] := by
      refine List.filter_eq_nil_iff.mpr fun id hid => ?_
      simpa using (hmem id).mpr hid
    rw [hremaining, List.isEmpty_nil, if_pos rfl] at hmapping
    have hon : ∀ k a, (d'.lists p.mode).On k a ↔
        if a ∈ entry.workspaceIds then k = key else (d.lists p.mode).On k a := by
      intro k a
      rw [Desk.lists, hmapping]
      refine (hplaced.on k a).trans ?_
      simp only [hmem]
      exact Iff.rfl
    refine ⟨hforget fun o => ?_, fun k id hk => ?_, fun key' hkey' entry' hentry' id hid => ?_⟩
    · rw [Desk.record, hmapping, Mapping.forget, hplaced.displaced]
      exact OrderedMap.get_delete
    · by_cases hin : id ∈ entry.workspaceIds
      · exact Or.inr ⟨key, List.mem_append_right _ (List.mem_singleton_self _), entry, hentry, hin⟩
      · rcases h.keep k id hk with hk | ⟨key', hkey', hrest⟩
        · exact Or.inl ((hon k id).mpr (by rwa [if_neg hin]))
        · exact Or.inr ⟨key', List.mem_append_left _ hkey', hrest⟩
    · refine (hon key' id).mpr ?_
      split
      · rename_i hin
        exact hdisjoint key' key entry' entry hentry' hentry id hid hin
      · rename_i hin
        rcases List.mem_append.mp hkey' with hkey' | hkey'
        · exact h.back key' hkey' entry' hentry' id hid
        · obtain rfl := List.mem_singleton.mp hkey'
          exact absurd (Option.some.inj (hentry'.symm.trans hentry) ▸ hid) hin

/-! ## A whole pass -/

/-- What an orderly pass keeps: every live desktop its owner, the records at
home and disjoint, and of these exactly those of absent outputs. -/
structure Ran (p : Pass) (d₀ d : Desk) : Prop where
  owner : ∀ k, ∀ id ∈ p.live, d₀.Owner p.mode k id → d.Owner p.mode k id
  home : d.Home p.mode
  disjoint : d.Disjoint
  absent : ∀ o entry, d.record o = some entry → o ∉ p.currentKeys
  kept : ∀ o entry, o ∉ p.currentKeys → d₀.record o = some entry → d.record o = some entry

theorem run_ran (hbegins : p.Begins d) : p.Ran d (p.run d) := by
  have habsent : ∀ o ∈ p.removed d.mapping, o ∉ p.currentKeys := fun _ ho => (mem_removed.mp ho).2
  obtain ⟨hsound, hshows, -⟩ := displaceAll hbegins.sound hbegins.fits habsent
  have hfits₁ := hshows.desktops ▸ hbegins.fits
  have hdisplaced : p.Displacing d ((p.removed d.mapping).foldl p.displaceOrigin d) :=
    displace_induct hbegins.sound hbegins.fits habsent removed_nodup .refl
      fun d' o ho hd' hs hsame h => h.step hbegins hd' hs (habsent o ho) hsame
  have hdisjoint := hdisplaced.disjoint hbegins
  have hreturned : p.Returning _ p.currentKeys (p.run d) :=
    return_induct (P := p.Returning ((p.removed d.mapping).foldl p.displaceOrigin d)) hsound hfits₁
      (currentKeys_nodup hfits₁) .refl fun d' done key _ hnew hd' hs h =>
        h.step hd' (hs.desktops ▸ hfits₁) hdisjoint
          (fun o entry hentry id hid => hdisplaced.live hbegins hentry hid) hnew
  generalize (p.removed d.mapping).foldl p.displaceOrigin d = d₁ at *
  refine {
    owner := fun k id hid howner => ?_
    home := fun o entry hentry id hid _ => ?_
    disjoint := fun o o' entry entry' hentry hentry' => hdisjoint o o' entry entry'
      ((hreturned.record o entry).mp hentry).1 ((hreturned.record o' entry').mp hentry').1
    absent := fun o entry hentry => ((hreturned.record o entry).mp hentry).2
    kept := fun o entry ho hentry =>
      (hreturned.record o entry).mpr ⟨hdisplaced.kept o entry hentry, ho⟩ }
  · have hrecorded : ∀ entry, d₁.record k = some entry → id ∈ entry.workspaceIds →
        (p.run d).Owner p.mode k id := by
      intro entry hentry hin
      by_cases hk : k ∈ p.currentKeys
      · refine Or.inr ⟨hreturned.back k hk entry hentry id hin, fun o entry' hentry' hin' => ?_⟩
        obtain ⟨hentry', ho⟩ := (hreturned.record o entry').mp hentry'
        exact ho (hdisjoint o k entry' entry hentry' hentry id hin' hin ▸ hk)
      · exact Or.inl ⟨entry, (hreturned.record k entry).mpr ⟨hentry, hk⟩, hin⟩
    rcases howner with ⟨entry, hentry, hin⟩ | ⟨hon, hunrecorded⟩
    · exact hrecorded entry (hdisplaced.kept k entry hentry) hin
    · rcases hdisplaced.keep k id hid hon with hon₁ | ⟨-, entry, hentry, hin⟩
      swap
      · exact hrecorded entry hentry hin
      by_cases hnew : ∃ o entry, d₁.record o = some entry ∧ id ∈ entry.workspaceIds
      · -- only an output it is on may have captured it
        obtain ⟨o, entry, hentry, hin⟩ := hnew
        rcases hdisplaced.record o entry hentry with hold | ⟨hoabsent, hnone, hids, -⟩
        · exact absurd hin (hunrecorded o entry hold)
        · obtain rfl := hbegins.sound.mapping.partition.one k o id hon
            (hbegins.orderly.own o hoabsent hnone id (hids ▸ hin)).1
          exact hrecorded entry hentry hin
      · refine Or.inr ⟨(hreturned.keep k id hon₁).resolve_right fun hback => ?_,
          fun o entry hentry hin => ?_⟩
        · obtain ⟨key, -, entry, hentry, hin⟩ := hback
          exact hnew ⟨key, entry, hentry, hin⟩
        · exact hnew ⟨o, entry, ((hreturned.record o entry).mp hentry).1, hin⟩
  · obtain ⟨hentry₁, ho⟩ := (hreturned.record o entry).mp hentry
    refine (hreturned.keep _ id (hdisplaced.homes hbegins ho hentry₁ hid)).resolve_right
      fun hback => ?_
    obtain ⟨key, hkey, entry', hentry', hin⟩ := hback
    exact ho (hdisjoint o key entry entry' hentry₁ hentry' id hid hin ▸ hkey)

end

end Pass

/-! ## Pruning and cleaning -/

/-- Only what was ever a desktop is recorded, so an id that the surface mints
for a new one is in no record. -/
def Desk.Known (d : Desk) : Prop := ∀ id, id ∉ d.surface.desktops.used → d.Unrecorded id

namespace Desk

section
variable {mode : WorkspaceMode} {d d' : Desk} {k o : OutputKey} {id : DesktopId}
  {entry : Displaced}

theorem Known.used (h : d.Known) (hentry : d.record o = some entry)
    (hid : id ∈ entry.workspaceIds) : id ∈ d.surface.desktops.used := by
  by_contra hnot
  exact h id hnot o entry hentry hid

theorem Cleaned.unrecorded (h : Cleaned mode d d') (hd : d.Unrecorded id) : d'.Unrecorded id :=
  fun o entry hentry => hd o entry (h.record o ▸ hentry)

theorem Cleaned.known (h : Cleaned mode d d') (hd : d.Known) : d'.Known := fun id hid =>
  h.unrecorded (hd id fun hused => hid (h.used id hused))

theorem Cleaned.home (h : Cleaned mode d d') (hknown : d.Known) (hd : d.Home mode) :
    d'.Home mode := by
  intro o entry hentry id hid hlive
  rw [h.record] at hentry
  exact h.keep _ id hlive (hd o entry hentry id hid (h.old id hlive (hknown.used hentry hid)))

theorem Cleaned.disjoint (h : Cleaned mode d d') (hd : d.Disjoint) : d'.Disjoint := by
  intro o o' entry entry' hentry hentry'
  rw [h.record] at hentry hentry'
  exact hd o o' entry entry' hentry hentry'

theorem Cleaned.owner (h : Cleaned mode d d') (hid : id ∈ d'.surface.desktops.ids)
    (hd : d.Owner mode k id) : d'.Owner mode k id := by
  rcases hd with ⟨entry, hentry, hin⟩ | ⟨hon, hunrecorded⟩
  · exact Or.inl ⟨entry, (h.record k).trans hentry, hin⟩
  · exact Or.inr ⟨h.keep k id hid hon, h.unrecorded hunrecorded⟩

end

end Desk

namespace World

section
variable {w : World} {live : List DesktopId} {mode : WorkspaceMode} {k : OutputKey}
  {id : DesktopId}

theorem pruned_known (h : w.desk.Known) : (w.pruned live).Known := fun id hid =>
  pruned_unrecorded (h id hid)

theorem pruned_home (h : w.desk.Home mode) : (w.pruned live).Home mode := by
  intro o entry hentry id hid hlive
  obtain ⟨entry', hentry', hdest, hiff⟩ := record_of_pruned hentry
  rw [pruned_lists, hdest]
  exact h o entry' hentry' id ((hiff id).mp hid).1 hlive

theorem pruned_disjoint (h : w.desk.Disjoint) : (w.pruned live).Disjoint := by
  intro o o' entry entry' hentry hentry' id hid hid'
  obtain ⟨_, hold, -, hiff⟩ := record_of_pruned hentry
  obtain ⟨_, hold', -, hiff'⟩ := record_of_pruned hentry'
  exact h o o' _ _ hold hold' id ((hiff id).mp hid).1 ((hiff' id).mp hid').1

theorem pruned_owner (hid : id ∈ live) (h : w.desk.Owner mode k id) :
    (w.pruned live).Owner mode k id := by
  rcases h with ⟨entry, hentry, hin⟩ | ⟨hon, hunrecorded⟩
  · obtain ⟨entry', hentry', -, hin'⟩ := pruned_of_record hentry hin hid
    exact Or.inl ⟨entry', hentry', hin'⟩
  · refine Or.inr ⟨?_, pruned_unrecorded hunrecorded⟩
    rw [pruned_lists]
    exact hon

end

/-! ## Signals -/

/-- At a signal that can read screens and desktops, the pass it starts is
orderly on the pruned desk. -/
def Orderly (w : World) : Prop :=
  ∀ screens live, w.surface.liveScreens = some screens → w.surface.liveOrdered = some live →
    w.rebuildKeys.connected ≠ [] → (w.rebuildKeys.pass screens live).Orderly (w.pruned live)

/-- Between signals: recorded desktops are on their survivors, and each is in
one record. -/
structure Settled (w : World) : Prop where
  home : w.desk.Home w.adapter.mode
  disjoint : w.desk.Disjoint

def Owner (w : World) (k : OutputKey) (id : DesktopId) : Prop := w.desk.Owner w.adapter.mode k id

/-- A desktop of one output is a guest of another: the output has a record of
it, with that other one as the survivor. -/
def Guest (w : World) (o k : OutputKey) (id : DesktopId) : Prop :=
  ∃ entry, w.desk.record o = some entry ∧ entry.destKey = k ∧ id ∈ entry.workspaceIds

/-- Every desktop that was there before and still is has the owner it had, and
the world is settled again. -/
structure Faithful (w w' : World) : Prop where
  settled : w'.Settled
  old : ∀ id ∈ w'.surface.desktops.ids, id ∈ w.surface.desktops.used →
    id ∈ w.surface.desktops.ids
  used : ∀ id ∈ w.surface.desktops.used, id ∈ w'.surface.desktops.used
  owner : ∀ k, ∀ id ∈ w'.surface.desktops.ids, id ∈ w.surface.desktops.used →
    w.Owner k id → w'.Owner k id

/-- Changes that come from outside the adapter: the surface changes, and
signals follow. No desktop is migrated by hand. -/
def External : Event → Prop
  | .topology => True
  | .surface _ => True
  | _ => False

section
variable {w w' w'' : World} {screens : List Output} {live : List DesktopId} {e : Event}
  {k o : OutputKey} {id : DesktopId}

theorem Faithful.refl (h : w.Settled) : w.Faithful w :=
  ⟨h, fun _ hid _ => hid, fun _ hid => hid, fun _ _ _ _ howner => howner⟩

theorem Faithful.trans (h : w.Faithful w') (h' : w'.Faithful w'') : w.Faithful w'' where
  settled := h'.settled
  old id hid hused := h.old id (h'.old id hid (h.used id hused)) hused
  used id hid := h'.used id (h.used id hid)
  owner k id hid hused howner := h'.owner k id hid (h.used id hused)
    (h.owner k id (h'.old id hid (h.used id hused)) hused howner)

theorem begins (h : w.desk.Sound) (hsettled : w.Settled)
    (hfits : (w.rebuildKeys.pass screens live).Fits w.surface.desktops)
    (horderly : (w.rebuildKeys.pass screens live).Orderly (w.pruned live)) :
    (w.rebuildKeys.pass screens live).Begins (w.pruned live) where
  sound := pruned_sound h
  fits := hfits
  prev := by
    rw [pruned_lists, pass_mode]
    have : w.rebuildKeys.adapter.mapping = w.adapter.mapping :=
      congrArg Desk.mapping rebuildKeys_desk
    rw [pass, rebuildKeys_mode, this]
    rfl
  live o entry hentry id hid := by
    obtain ⟨_, -, -, hiff⟩ := record_of_pruned hentry
    exact ((hiff id).mp hid).2
  home := by
    rw [pass_mode]
    exact pruned_home hsettled.home
  disjoint := pruned_disjoint hsettled.disjoint
  orderly := horderly

theorem signal_known (h : w.desk.Sound) (hknown : w.desk.Known) :
    w.handleTopologySignal.desk.Known := by
  intro id hid
  have hnot : id ∉ w.surface.desktops.used := fun hused => hid (signal_used h hused)
  refine signal_unrecorded h (fun screens live _ hlive o _ _ hmem => hnot ?_) (hknown id hnot)
  have := (Pass.mem_captured.mp hmem).2
  exact w.surface.desktops.known id (live_eq hlive ▸ this)

/-- An orderly signal keeps every owner. Whatever the signal does, it ends
with a cleanup, which keeps what stays on the list it was on. -/
theorem signal_faithful (h : w.desk.Sound) (hknown : w.desk.Known)
    (hmode : w.adapter.mode ≠ .shared) (hsettled : w.Settled) (horderly : w.Orderly) :
    w.Faithful w.handleTopologySignal := by
  have hcleaned : ∀ {d : Desk}, Desk.Cleaned w.adapter.mode d w.handleTopologySignal.desk →
      d.Known → d.Home w.adapter.mode → d.Disjoint → d.surface.desktops = w.surface.desktops →
      (∀ k, ∀ id ∈ w.surface.desktops.ids, w.Owner k id → d.Owner w.adapter.mode k id) →
        w.Faithful w.handleTopologySignal := by
    intro d hclean hdknown hhome hdisjoint hdesktops howner
    refine ⟨⟨?_, hclean.disjoint hdisjoint⟩, ?_, ?_, fun k id hid hused hown => ?_⟩
    · rw [signal_adapter.1]
      exact hclean.home hdknown hhome
    · have := hclean.old
      rwa [hdesktops] at this
    · have := hclean.used
      rwa [hdesktops] at this
    · have hlive := hclean.old id hid (hdesktops ▸ hused)
      rw [Owner, signal_adapter.1]
      exact hclean.owner hid (howner k id (hdesktops ▸ hlive) hown)
  cases signals h hmode with
  | cleans hclean =>
    exact hcleaned hclean hknown hsettled.home hsettled.disjoint rfl fun _ _ _ hown => hown
  | prunes hlive hclean =>
    exact hcleaned hclean (pruned_known hknown) (pruned_home hsettled.home)
      (pruned_disjoint hsettled.disjoint) rfl
      fun k id hid hown => pruned_owner (live_eq hlive ▸ hid) hown
  | @passes screens live hscreens hlive hfits hkeys hclean =>
    have hne : w.rebuildKeys.connected ≠ [] := hkeys ▸ hfits.connected
    have hran := Pass.run_ran (begins h hsettled hfits (horderly screens live hscreens hlive hne))
    have hshows := (Pass.run_sound (@pruned_sound _ live h) hfits).2
    refine hcleaned hclean (fun id hid => ?_) (pass_mode ▸ hran.home) hran.disjoint hshows.desktops
      fun k id hid hown => ?_
    · rw [hshows.desktops] at hid
      refine Pass.run_unrecorded (pruned_sound h) hfits (fun o _ _ hmem => hid ?_)
        (pruned_known hknown id hid)
      exact w.surface.desktops.known id (hfits.live ▸ (Pass.mem_captured.mp hmem).2)
    · have hmem : id ∈ live := live_eq hlive ▸ hid
      rw [← @pass_mode w screens live]
      refine hran.owner k id hmem ?_
      rw [pass_mode]
      exact pruned_owner hmem hown

/-- A guest stays while its own output is absent. -/
theorem signal_guest (h : w.desk.Sound) (hknown : w.desk.Known)
    (hmode : w.adapter.mode ≠ .shared) (hsettled : w.Settled) (horderly : w.Orderly)
    (ho : o ∉ w.rebuildKeys.connected) (hid : id ∈ w.handleTopologySignal.surface.desktops.ids)
    (hguest : w.Guest o k id) : w.handleTopologySignal.Guest o k id := by
  obtain ⟨entry, hentry, hdest, hin⟩ := hguest
  have hlive : id ∈ w.surface.desktops.ids :=
    (signal_faithful h hknown hmode hsettled horderly).old id hid (hknown.used hentry hin)
  cases signals h hmode with
  | cleans hclean => exact ⟨entry, (hclean.record o).trans hentry, hdest, hin⟩
  | @prunes live hreads hclean =>
    obtain ⟨entry', hentry', hdest', hin'⟩ :=
      @pruned_of_record _ live _ _ _ hentry hin (live_eq hreads ▸ hlive)
    exact ⟨entry', (hclean.record o).trans hentry', hdest'.trans hdest, hin'⟩
  | @passes screens live hscreens hreads hfits hkeys hclean =>
    obtain ⟨entry', hentry', hdest', hin'⟩ :=
      @pruned_of_record _ live _ _ _ hentry hin (live_eq hreads ▸ hlive)
    have hne : w.rebuildKeys.connected ≠ [] := hkeys ▸ hfits.connected
    have hran := Pass.run_ran (begins h hsettled hfits (horderly screens live hscreens hreads hne))
    exact ⟨entry', (hclean.record o).trans (hran.kept o entry' (hkeys ▸ ho) hentry'),
      hdest'.trans hdest, hin'⟩

/-- With enough to read, a desktop is on its connected owner after a signal. -/
theorem signal_returns (h : w.desk.Sound) (hknown : w.desk.Known)
    (henabled : w.adapter.enabled = true) (hmode : w.adapter.mode ≠ .shared)
    (hsettled : w.Settled) (horderly : w.Orderly) (hreadable : w.surface.liveOrdered.isSome = true)
    (hk : k ∈ w.rebuildKeys.connected) (hid : id ∈ w.handleTopologySignal.surface.desktops.ids)
    (hused : id ∈ w.surface.desktops.used) (howner : w.Owner k id) :
    w.handleTopologySignal.Holds k id := by
  obtain ⟨live, hlive⟩ := Option.isSome_iff_exists.mp hreadable
  have hne : w.rebuildKeys.connected ≠ [] := List.ne_nil_of_mem hk
  obtain ⟨screens, hscreens⟩ : ∃ screens, w.surface.liveScreens = some screens := by
    rw [connected, rebuildKeys_surface] at hne
    cases hscreens : w.surface.liveScreens with
    | none => simp [hscreens] at hne
    | some screens => exact ⟨screens, rfl⟩
  obtain ⟨hfits, hkeys, hclean⟩ := signal_passes h henabled hmode hscreens hlive hne
  have hran := Pass.run_ran (begins h hsettled hfits (horderly screens live hscreens hlive hne))
  have hfaithful := signal_faithful h hknown hmode hsettled horderly
  rcases hfaithful.owner k id hid hused howner with ⟨entry, hentry, -⟩ | ⟨hon, -⟩
  · exact absurd (hkeys ▸ hk) (hran.absent k entry ((hclean.record k).symm.trans hentry))
  · exact hon

/-! ## Runs -/

theorem step_known (h : w.desk.Sound) (hallowed : w.Allowed e) (hknown : w.desk.Known) :
    (w.step e).desk.Known := by
  by_cases he : e = .topology
  · subst he
    exact signal_known h hknown
  · have hfewer := step_fewer h hallowed he
    exact fun id hid => hfewer.unrecorded id (hknown id fun hused => hid (hfewer.used id hused))

theorem run_known {events : List Event} (h : w.desk.Sound) (hallowed : Always Allowed w events)
    (hknown : w.desk.Known) : (w.run events).desk.Known := by
  induction events generalizing w with
  | nil => exact hknown
  | cons e events ih =>
    exact ih (step_sound h hallowed.1) hallowed.2 (step_known h hallowed.1 hknown)

theorem external_adapter (he : External e) : (w.step e).adapter.mode = w.adapter.mode ∧
    (w.step e).adapter.enabled = w.adapter.enabled := by
  cases e with
  | topology => exact signal_adapter
  | surface s => exact ⟨rfl, rfl⟩
  | _ => exact he.elim

/-- Signals and what happens on the surface keep every owner. -/
theorem external_faithful (h : w.desk.Sound) (hknown : w.desk.Known)
    (hmode : w.adapter.mode ≠ .shared) (hsettled : w.Settled) (hallowed : w.Allowed e)
    (he : External e) (horderly : e = .topology → w.Orderly) : w.Faithful (w.step e) := by
  cases e with
  | topology => exact signal_faithful h hknown hmode hsettled (horderly rfl)
  | surface s =>
    have hold : ∀ id ∈ s.desktops.ids, id ∈ w.surface.desktops.used →
        id ∈ w.surface.desktops.ids := fun id hid hused =>
      (hallowed.fresh id hid).resolve_right fun hnot => hnot hused
    refine ⟨⟨fun o entry hentry id hid hlive => ?_, hsettled.disjoint⟩, hold, hallowed.used,
      fun _ _ _ _ hown => hown⟩
    exact hsettled.home o entry hentry id hid (hold id hlive (hknown.used hentry hid))
  | _ => exact he.elim

theorem run_faithful {events : List Event} (h : w.desk.Sound) (hknown : w.desk.Known)
    (hmode : w.adapter.mode ≠ .shared) (hsettled : w.Settled) (hallowed : Always Allowed w events)
    (hexternal : ∀ e ∈ events, External e)
    (horderly : Always (fun w e => e = .topology → w.Orderly) w events) :
    w.Faithful (w.run events) ∧ (w.run events).adapter.mode = w.adapter.mode ∧
      (w.run events).adapter.enabled = w.adapter.enabled := by
  induction events generalizing w with
  | nil => exact ⟨.refl hsettled, rfl, rfl⟩
  | cons e events ih =>
    have he := hexternal e List.mem_cons_self
    obtain ⟨hemode, heenabled⟩ := external_adapter (w := w) he
    have hstep := external_faithful h hknown hmode hsettled hallowed.1 he horderly.1
    obtain ⟨hrest, hrmode, hrenabled⟩ := ih (step_sound h hallowed.1)
      (step_known h hallowed.1 hknown) (hemode ▸ hmode) hstep.settled hallowed.2
      (fun e he => hexternal e (List.mem_cons_of_mem _ he)) horderly.2
    exact ⟨hstep.trans hrest, hrmode.trans hemode, hrenabled.trans heenabled⟩

theorem run_guest {events : List Event} (h : w.desk.Sound) (hknown : w.desk.Known)
    (hmode : w.adapter.mode ≠ .shared) (hsettled : w.Settled) (hallowed : Always Allowed w events)
    (hexternal : ∀ e ∈ events, External e)
    (horderly : Always (fun w e => e = .topology → w.Orderly) w events)
    (habsent : Always (fun w e => e = .topology → o ∉ w.rebuildKeys.connected) w events)
    (hid : id ∈ (w.run events).surface.desktops.ids) (hguest : w.Guest o k id) :
    (w.run events).Guest o k id := by
  induction events generalizing w with
  | nil => exact hguest
  | cons e events ih =>
    have he := hexternal e List.mem_cons_self
    have hrest := fun e he => hexternal e (List.mem_cons_of_mem _ he)
    have hstep := external_faithful h hknown hmode hsettled hallowed.1 he horderly.1
    have hmode' := (external_adapter (w := w) he).1 ▸ hmode
    have hsound := step_sound h hallowed.1
    have hknown' := step_known h hallowed.1 hknown
    have hrun := (run_faithful hsound hknown' hmode' hstep.settled hallowed.2 hrest horderly.2).1
    refine ih hsound hknown' hmode' hstep.settled hallowed.2 hrest horderly.2 habsent.2 hid ?_
    obtain ⟨entry, hentry, hdest, hin⟩ := hguest
    have hused := hstep.used id (hknown.used hentry hin)
    cases e with
    | topology =>
      exact signal_guest h hknown hmode hsettled (horderly.1 rfl) (habsent.1 rfl)
        (hrun.old id hid hused) ⟨entry, hentry, hdest, hin⟩
    | surface s => exact ⟨entry, hentry, hdest, hin⟩
    | _ => exact he.elim

end

/-! ## Returning -/

theorem start_known {s : Surface} : (start s).desk.Known := fun _ _ _ _ hentry => by
  cases hentry

/-- From any settled state of any run, over disconnects, reconnects and orderly
signals: no desktop is in two records, and after a signal every desktop is on
the list of exactly its owner, while that is connected. A guest stays where it
is until then. -/
theorem workspaces_return (s : Surface)
    (hshown : ∀ o id, s.currents.get o = some id → id ∈ s.desktops.used) (events after : List Event)
    (hallowed : Always Allowed (start s) events)
    (henabled : ((start s).run events).adapter.enabled = true)
    (hmode : ((start s).run events).adapter.mode ≠ .shared)
    (hsettled : ((start s).run events).Settled)
    (hafter : Always Allowed ((start s).run events) after) (hexternal : ∀ e ∈ after, External e)
    (horderly : Always (fun w e => e = .topology → w.Orderly) ((start s).run events) after) :
    (((start s).run events).run after).desk.Disjoint ∧
      ((((start s).run events).run after).surface.liveOrdered.isSome = true →
        (((start s).run events).run after).Orderly →
        ∀ id ∈ (((start s).run events).run after).handleTopologySignal.surface.desktops.ids,
          (∀ k ∈ (((start s).run events).run after).rebuildKeys.connected,
            id ∈ ((start s).run events).surface.desktops.ids → ((start s).run events).Owner k id →
              (((start s).run events).run after).handleTopologySignal.Holds k id ∧
                ∀ k', (((start s).run events).run after).handleTopologySignal.Holds k' id →
                  k' = k) ∧
          ∀ o k, ((start s).run events).Guest o k id →
            Always (fun w e => e = .topology → o ∉ w.rebuildKeys.connected) ((start s).run events)
              after → o ∉ (((start s).run events).run after).rebuildKeys.connected →
                (((start s).run events).run after).handleTopologySignal.Holds k id) := by
  have hsound := run_sound (start_sound hshown) hallowed
  have hknown := run_known (start_sound hshown) hallowed start_known
  generalize (start s).run events = w at *
  obtain ⟨hfaithful, hamode, haenabled⟩ :=
    run_faithful hsound hknown hmode hsettled hafter hexternal horderly
  have hsound' := run_sound hsound hafter
  have hknown' := run_known hsound hafter hknown
  have hmode' := hamode ▸ hmode
  refine ⟨hfaithful.settled.disjoint, fun hreadable hlast id hid => ⟨fun k hk hlive howner => ?_,
    fun o k hguest habsent ho => ?_⟩⟩
  · have hsignal := signal_faithful hsound' hknown' hmode' hfaithful.settled hlast
    have hused := w.surface.desktops.known id hlive
    have hused' := hfaithful.used id hused
    have hon := signal_returns hsound' hknown' (haenabled ▸ henabled) hmode' hfaithful.settled hlast
      hreadable hk hid hused' (hfaithful.owner k id (hsignal.old id hid hused') hused howner)
    exact ⟨hon, fun k' hon' => (signal_sound hsound').mapping.partition.one k' k id hon' hon⟩
  · have hsignal := signal_faithful hsound' hknown' hmode' hfaithful.settled hlast
    obtain ⟨entry, hentry, hdest, hin⟩ := hguest
    have hused' := hfaithful.used id (hknown.used hentry hin)
    have hguest' := run_guest hsound hknown hmode hsettled hafter hexternal horderly habsent
      (hsignal.old id hid hused') ⟨entry, hentry, hdest, hin⟩
    obtain ⟨entry', hentry', rfl, hin'⟩ := signal_guest hsound' hknown' hmode' hfaithful.settled hlast
      ho hid hguest'
    exact hsignal.settled.home o entry' hentry' id hin' hid

/-! ## Unplugging and replugging -/

/-- An orderly signal, by its entries. -/
theorem orderly_of {w : World} {screens : List Output} {live : List DesktopId}
    (hscreens : w.surface.liveScreens = some screens) (hlive : w.surface.liveOrdered = some live)
    (hsurvivors : ∀ e ∈ (w.pruned live).mapping.displacedByOrigin.entries,
      e.1 ∉ (w.rebuildKeys.pass screens live).currentKeys →
        e.2.destKey ∈ (w.rebuildKeys.pass screens live).currentKeys)
    (hown : ∀ o ∈ (w.rebuildKeys.pass screens live).knownKeys w.adapter.mapping,
      o ∉ (w.rebuildKeys.pass screens live).currentKeys → (w.pruned live).record o = none →
        ∀ id ∈ (w.rebuildKeys.pass screens live).captured o,
          ((w.pruned live).lists (w.rebuildKeys.pass screens live).mode).On o id ∧
            ∀ e ∈ (w.pruned live).mapping.displacedByOrigin.entries, id ∉ e.2.workspaceIds) :
    w.Orderly := by
  intro screens' live' hscreens' hlive' _
  obtain rfl := Option.some.inj (hscreens.symm.trans hscreens')
  obtain rfl := Option.some.inj (hlive.symm.trans hlive')
  refine ⟨fun o entry ho hentry => ?_, fun o ho hnone id hid => ?_⟩
  · exact hsurvivors (o, entry) (OrderedMap.mem_entries_of_get hentry) ho
  · obtain ⟨hon, hentries⟩ := hown o (Pass.captured_known hid) ho hnone id hid
    exact ⟨hon, fun o' entry hentry => hentries (o', entry) (OrderedMap.mem_entries_of_get hentry)⟩

/-- Nothing is displaced. -/
theorem settled_of_empty {w : World} (h : w.adapter.mapping.displacedByOrigin.entries = []) :
    w.Settled := by
  have hnone : ∀ o entry, w.desk.record o ≠ some entry := fun o entry hentry => by
    have hmem := OrderedMap.mem_entries_of_get hentry
    rw [desk, h] at hmem
    cases hmem
  exact ⟨fun o entry hentry => absurd hentry (hnone o entry),
    fun o _ entry _ hentry => absurd hentry (hnone o entry)⟩

/-- The first output goes, its window moves, and it comes back. -/
def replugged : List (World → Event) :=
  [rewired [outputB] [(outputB, "a")] "a" "b", fun _ => .topology,
   rewired [outputA, outputB] [(outputB, "a")] "a" "b"]

/-- The first of two outputs is unplugged and plugged in again, and its
desktop is on its list. -/
theorem workspaces_return_replugged : (((start twoOutputs).run
    [.enable .perOutputLocal .lastRemaining]).run (((start twoOutputs).run
      [.enable .perOutputLocal .lastRemaining]).follow replugged)).handleTopologySignal.Holds 0 "a" := by
  refine ((workspaces_return twoOutputs twoOutputs_shown [.enable .perOutputLocal .lastRemaining]
    (((start twoOutputs).run [.enable .perOutputLocal .lastRemaining]).follow replugged)
    ⟨trivial, trivial⟩ (by decide +kernel) (by decide +kernel) (settled_of_empty (by decide +kernel))
    ?_ ?_ ?_).2 (by decide +kernel) ?_ "a" (by decide +kernel)).1 0 (by decide +kernel)
    (by decide +kernel) ?_ |>.1
  · simp only [follow, replugged, Always]
    refine ⟨rewired_allowed ?_ ?_, trivial, rewired_allowed ?_ ?_, trivial⟩ <;> decide +kernel
  · simp only [follow, replugged, List.mem_cons, List.not_mem_nil, or_false]
    rintro e (rfl | rfl | rfl) <;> trivial
  · simp only [follow, replugged, Always, rewired, reduceCtorEq, false_implies, true_and, and_true,
      forall_const]
    exact @orderly_of _ [outputB] ["a", "b", "dd"] (by decide +kernel)
      (by decide +kernel) (by decide +kernel) (by decide +kernel)
  · exact @orderly_of _ [outputA, outputB] ["a", "b", "dd"] (by decide +kernel)
      (by decide +kernel) (by decide +kernel) (by decide +kernel)
  · refine Or.inr ⟨by unfold Desk.lists; decide +kernel, fun o entry hentry => ?_⟩
    have hmem := OrderedMap.mem_entries_of_get hentry
    have hnone : ((start twoOutputs).run
        [.enable .perOutputLocal .lastRemaining]).adapter.mapping.displacedByOrigin.entries = [] := by
      decide +kernel
    rw [desk, hnone] at hmem
    cases hmem

/-- Signals, and changes of the surface that plug screens in or out and leave
its desktops alone. -/
def OnlyScreens (w : World) : Event → Prop
  | .topology => True
  | .surface s => ∃ screens active, s = { w.surface with screens, activeScreen := active }
  | _ => False

def outputC : Output := ⟨2, some "C"⟩

/-- Three outputs, a desktop shown on each, and no windows. -/
def threeOutputs : Surface where
  desktops := ⟨["a", "b", "c"], ["a", "b", "c"], by decide, fun _ h => h⟩
  capacity := 25
  capacity_le := capacity_ok
  mint := .longest
  screens := some [outputA, outputB, outputC]
  windows := some []
  currents := ((OrderedMap.empty.set 0 "a").set 1 "b").set 2 "c"
  currentDesktop := some "a"
  activeScreen := some outputA

theorem threeOutputs_shown : ∀ o id, threeOutputs.currents.get o = some id →
    id ∈ threeOutputs.desktops.used := by
  intro o id h
  simp only [threeOutputs, OrderedMap.get_set, OrderedMap.get_empty] at h
  split at h
  · rw [← Option.some.inj h]
    decide
  split at h
  · rw [← Option.some.inj h]
    decide
  split at h
  · rw [← Option.some.inj h]
    decide
  · cases h

/-- The first output goes, then the second, that has its desktops; both come
back. -/
def chained : List (World → Event) :=
  [plug [outputB, outputC], fun _ => .topology, plug [outputC], fun _ => .topology,
   plug [outputA, outputB, outputC]]

/-- When all are back, the desktop of the first output is not on its list. -/
theorem not_always_return : ¬ ∀ (s : Surface)
    (_ : ∀ o id, s.currents.get o = some id → id ∈ s.desktops.used) (events after : List Event)
    (_ : Always Allowed (start s) events), ((start s).run events).adapter.enabled = true →
      ((start s).run events).adapter.mode ≠ .shared → Always OnlyScreens ((start s).run events) after →
        (((start s).run events).run after).Readable →
          (∀ k ∈ ((start s).run events).connected,
            k ∈ (((start s).run events).run after).rebuildKeys.connected) →
            ∀ id ∈ (((start s).run events).run after).handleTopologySignal.surface.desktops.ids,
              ∀ k ∈ ((start s).run events).connected, ((start s).run events).Holds k id →
                (((start s).run events).run after).handleTopologySignal.Holds k id := by
  intro h
  have hreturns := h threeOutputs threeOutputs_shown [.enable .perOutputLocal .lastRemaining]
    (((start threeOutputs).run [.enable .perOutputLocal .lastRemaining]).follow chained)
    ⟨trivial, trivial⟩ (by decide +kernel) (by decide +kernel) ?_
    ⟨by decide +kernel, by decide +kernel, by decide +kernel, by decide +kernel⟩ (by decide +kernel)
    "a" (by decide +kernel) 0 (by decide +kernel) (by unfold Holds Desk.lists; decide +kernel)
  · rw [Holds, Desk.lists, signal_adapter.1] at hreturns
    revert hreturns
    decide +kernel
  · simp only [follow, chained, Always, plug, OnlyScreens]
    exact ⟨⟨_, _, rfl⟩, trivial, ⟨_, _, rfl⟩, trivial, ⟨_, _, rfl⟩, trivial⟩

end World

end Native

end PlasmaTiler
