import PlasmaTiler.Chords
import PlasmaTiler.SnapHolds
import Mathlib.Data.List.Pairwise

/-!
# Effective bindings

The settings page lists what every row answers to. The classifier works from
two tables, remaps and suppressed chords, and from the live modifiers; it
never looks at the list. For a document that passes validation the two agree
on every chord (`keyboard_obeys_iff`), unless a row without a default chord
is rebound onto its own canonical key: the remap table has no entry for such
a row, since its key needs no rewriting, and what the key does without an
entry is another row's action, or nothing.

Agreement has two sides. A listed chord must be consumed and announced with
the action of its row; a chord that no row lists must pass. Both go by how
the chord gets to an arm. With a remap entry it is rewritten to the row's
canonical key and takes the row's own arm (`Idle.remapped`); without one it
is a default chord, and routes directly unless it is suppressed
(`routed_direct`, `default_of_direct`).

Validation is what makes rows disjoint: every override is coherent, and no
two rows answer to one chord (`Validated`), for the duplicate check looks at
each active chord. Over the whole catalog no two rows have a default chord in
common, which is checked once by evaluation.

The classifier is taken idle here, between holds; what holds do to it is the
subject of the modules on snap keys.
-/

namespace PlasmaTiler

namespace Snapkey

variable {settings : Settings} {row row' : BindingDef} {c c' : Chord} {vk : Vk} {s : SnapClassify}
  {foreground : Bool}

/-- Of lists put together without a repetition no two share an element. -/
theorem apart_of_nodup {α β : Type} {l : List α} {f : α → List β} (h : (l.flatMap f).Nodup) {a b : α}
    (ha : a ∈ l) (hb : b ∈ l) (hne : a ≠ b) {x : β} (hxa : x ∈ f a) (hxb : x ∈ f b) : False := by
  have hpairs := (List.nodup_flatMap.mp h).2
  have hsymm : ∀ a b, List.Disjoint (f a) (f b) → List.Disjoint (f b) (f a) :=
    fun _ _ hd _ hx hy => hd hy hx
  induction l with
  | nil => cases ha
  | cons y rest ih =>
    obtain ⟨hhead, htail⟩ := List.pairwise_cons.mp hpairs
    rw [List.flatMap_cons] at h
    have hrest := (List.nodup_append'.mp h).2.1
    rcases List.mem_cons.mp ha with rfl | har
    · rcases List.mem_cons.mp hb with rfl | hbr
      · exact hne rfl
      · exact hhead b hbr hxa hxb
    · rcases List.mem_cons.mp hb with rfl | hbr
      · exact hsymm _ _ (hhead a har) hxa hxb
      · exact ih hrest har hbr htail

/-! ## Rows -/

/-- The default chords of a row. -/
def rowChords (row : BindingDef) : List Chord :=
  row.defaults.filterMap fun text => (parseChord text).toOption

theorem mem_rowChords : c ∈ rowChords row ↔ ∃ text ∈ row.defaults, parseChord text = .ok c := by
  simp only [rowChords, List.mem_filterMap, toOption_eq_ok]

/-- What the row announces: arm, direction or index, mode, follow or stay. -/
def BindingFamily.shape : BindingFamily → Shape
  | .directional direction op => .snap (if op = .shifted then .move else .focus) direction
  | .workspace index op => .workspace (if op = .shifted then .send else .select) index true
  | .workspaceStay index => .workspace .send index false
  | .workspaceSendRelative prev follow => .workspaceSend (if prev then -1 else 1) follow
  | .workspaceHistory kind => .workspaceHistory kind
  | .toggle .float => .float
  | .toggle .sticky => .sticky
  | .toggle .maximize => .maximize
  | .toggle .fullscreen => .fullscreen
  | .toggle .orientation => .orientation
  | .resize direction mode => .resize mode direction

/-- What every row of the catalog is: its default chords parse, on the row's
own modifiers, and lead to its canonical key, which every row has. A stay row
has no default chord. -/
structure RowOk (row : BindingDef) : Prop where
  implemented : row.implemented = true
  parses : ∀ text ∈ row.defaults, (parseChord text).toOption.isSome = true
  modifiers : ∀ c ∈ rowChords row, c.shift = bindingWantsShift row ∧ c.ctrl = bindingWantsCtrl row ∧
    c.alt = bindingWantsAlt row
  canonical : ∀ c ∈ (rowChords row).head?, bindingCanonicalVk row = some c.vk
  keyed : (bindingCanonicalVk row).isSome = true
  unbound : row.family.isStay = true → row.defaults = []

theorem rowOk : ∀ row ∈ bindingCatalog, RowOk row := by
  have hrows : ∀ row ∈ bindingCatalog, row.implemented = true ∧
      (∀ text ∈ row.defaults, (parseChord text).toOption.isSome = true) ∧
      (∀ c ∈ rowChords row, c.shift = bindingWantsShift row ∧ c.ctrl = bindingWantsCtrl row ∧
        c.alt = bindingWantsAlt row) ∧
      (∀ c ∈ (rowChords row).head?, bindingCanonicalVk row = some c.vk) ∧
      (bindingCanonicalVk row).isSome = true ∧
      (row.family.isStay = true → row.defaults = []) := by
    decide +kernel
  intro row hrow
  obtain ⟨himplemented, hparses, hmodifiers, hcanonical, hkeyed, hunbound⟩ := hrows row hrow
  exact ⟨himplemented, hparses, hmodifiers, hcanonical, hkeyed, hunbound⟩

theorem bindingCatalog_ids : (bindingCatalog.map BindingDef.id).Nodup := by decide +kernel

theorem findRow_of_mem (h : row ∈ bindingCatalog) : findRow row.id = some row := by
  unfold findRow
  cases hfind : bindingCatalog.find? fun other => other.id == row.id with
  | none =>
    have hnot := List.find?_eq_none.mp hfind row h
    exact absurd (beq_self_eq_true row.id) hnot
  | some other =>
    have hid : (other.id == row.id) = true :=
      List.find?_some (p := fun other : BindingDef => other.id == row.id) hfind
    have hid := beq_iff_eq.mp hid
    rw [List.inj_on_of_nodup_map bindingCatalog_ids (List.mem_of_find?_eq_some hfind) h hid]

theorem findRow_some {id : String} (h : findRow id = some row) :
    row ∈ bindingCatalog ∧ row.id = id := by
  have hid : (row.id == id) = true := List.find?_some (p := fun other : BindingDef => other.id == id) h
  exact ⟨List.mem_of_find?_eq_some h, beq_iff_eq.mp hid⟩

/-- No two rows have a default chord in common. -/
theorem rowChords_apart (hrow : row ∈ bindingCatalog) (hrow' : row' ∈ bindingCatalog)
    (hc : c ∈ rowChords row) (hc' : c' ∈ rowChords row') (hkey : c.key = c'.key) : row = row' := by
  have hnodup : (bindingCatalog.flatMap fun row => (rowChords row).map Chord.key).Nodup := by
    decide +kernel
  by_contra hne
  exact apart_of_nodup hnodup hrow hrow' hne (List.mem_map_of_mem hc) (hkey ▸ List.mem_map_of_mem hc')

/-! ## Live chords -/

/-- The chords a row answers to under the settings. -/
def liveChords (settings : Settings) (row : BindingDef) : List Chord :=
  match settings.bindings[row.id]? with
  | none => rowChords row
  | some ⟨.keep, _⟩ => rowChords row
  | some ⟨.disabled, _⟩ => []
  | some ⟨.rebind, chord⟩ => (chord.bind fun text => (parseChord text).toOption).toList

theorem parsed_of_live (h : c ∈ liveChords settings row) : ∃ text, parseChord text = .ok c := by
  unfold liveChords at h
  split at h
  · obtain ⟨text, -, hparse⟩ := mem_rowChords.mp h
    exact ⟨text, hparse⟩
  · obtain ⟨text, -, hparse⟩ := mem_rowChords.mp h
    exact ⟨text, hparse⟩
  · cases h
  · obtain ⟨text, -, hparse⟩ := Option.bind_eq_some_iff.mp (Option.mem_toList.mp h)
    exact ⟨text, toOption_eq_ok.mp hparse⟩

theorem parsed_of_row (h : c ∈ rowChords row) : ∃ text, parseChord text = .ok c := by
  obtain ⟨text, -, hparse⟩ := mem_rowChords.mp h
  exact ⟨text, hparse⟩

/-- A binding lists a chord: one of the texts on the settings page parses to
it. -/
def Lists (binding : EffectiveBinding) (key : Key) : Prop :=
  ∃ text ∈ binding.chords, ∃ c, parseChord text = .ok c ∧ c.key = key

/-- What the settings page lists for an effective row is what is live for it,
chord by chord, however the row was set. -/
theorem lists_iff (hrow : row ∈ bindingCatalog) {key : Key} :
    ((effectiveBinding settings row).effective = true ∧ Lists (effectiveBinding settings row) key) ↔
      ∃ c ∈ liveChords settings row, c.key = key := by
  have himplemented := (rowOk row hrow).implemented
  have hkept : ∀ binding : EffectiveBinding, binding = (if row.defaults.isEmpty then
        ⟨row.id, true, row.defaults, false, "unbound: bindable"⟩
      else if row.implemented then ⟨row.id, true, row.defaults, true, ""⟩
      else ⟨row.id, true, row.defaults, false, "not intercepted: Alt chords pass through"⟩) →
      ((binding.effective = true ∧ Lists binding key) ↔ ∃ c ∈ rowChords row, c.key = key) := by
    rintro binding rfl
    rw [if_pos himplemented]
    split
    · rename_i hempty
      have hnone : rowChords row = [] := by
        rw [rowChords, List.isEmpty_iff.mp hempty]
        rfl
      rw [hnone]
      constructor
      · rintro ⟨heffective, -⟩
        cases heffective
      · rintro ⟨c, hc, -⟩
        cases hc
    · constructor
      · rintro ⟨-, text, htext, c, hparse, hkey⟩
        exact ⟨c, mem_rowChords.mpr ⟨text, htext, hparse⟩, hkey⟩
      · rintro ⟨c, hc, hkey⟩
        obtain ⟨text, htext, hparse⟩ := mem_rowChords.mp hc
        exact ⟨rfl, text, htext, c, hparse, hkey⟩
  unfold effectiveBinding liveChords
  dsimp only
  cases settings.bindings[row.id]? with
  | none => exact hkept _ rfl
  | some setting =>
    obtain ⟨state, chord⟩ := setting
    cases state with
    | keep => exact hkept _ rfl
    | disabled =>
      constructor
      · rintro ⟨heffective, -⟩
        cases heffective
      · rintro ⟨c, hc, -⟩
        cases hc
    | rebind =>
      dsimp only
      cases hparsed : chord.bind fun text => (parseChord text).toOption with
      | none =>
        constructor
        · rintro ⟨heffective, -⟩
          cases heffective
        · rintro ⟨c, hc, -⟩
          cases hc
      | some parsed =>
        obtain ⟨text, -, hparse⟩ := Option.bind_eq_some_iff.mp hparsed
        have hrendered := parseChord_renderChord (toOption_eq_ok.mp hparse)
        dsimp only
        rw [if_pos himplemented, Option.toList_some]
        constructor
        · rintro ⟨-, text', htext', c, hc, hkey⟩
          obtain rfl := List.mem_singleton.mp htext'
          obtain rfl := Except.ok.inj (hrendered.symm.trans hc)
          exact ⟨_, List.mem_singleton_self _, hkey⟩
        · rintro ⟨c, hc, hkey⟩
          obtain rfl := List.mem_singleton.mp hc
          exact ⟨rfl, _, List.mem_singleton_self _, _, hrendered, hkey⟩

/-! ## Validated settings -/

/-- What validation leaves for the tables: every override is coherent, and no
two rows answer to one chord. -/
structure Validated (settings : Settings) : Prop where
  coherent : ∀ id setting, settings.bindings[id]? = some setting → ∃ row, findRow id = some row ∧
    (setting.state = .rebind → ∃ text c, setting.chord = some text ∧ parseChord text = .ok c ∧
      isLockChord c = false ∧ bindingModifiersOk row c.shift c.ctrl c.alt = true)
  apart : ∀ row ∈ bindingCatalog, ∀ row' ∈ bindingCatalog, ∀ c ∈ liveChords settings row,
    ∀ c' ∈ liveChords settings row', c.key = c'.key → row = row'

theorem mem_of_foldlM {α β ε : Type} {f : β → α → Except ε β} {l : List α} {b b' : β}
    (h : l.foldlM f b = .ok b') {x : α} (hx : x ∈ l) : ∃ before after, f before x = .ok after := by
  induction l generalizing b with
  | nil => cases hx
  | cons y rest ih =>
    rw [List.foldlM_cons] at h
    cases hstep : f b y with
    | error e =>
      rw [hstep] at h
      cases h
    | ok next =>
      rw [hstep] at h
      rcases List.mem_cons.mp hx with rfl | hx
      · exact ⟨b, next, hstep⟩
      · exact ih h hx

theorem mapM_eq_map {α β ε : Type} {f : α → Except ε β} {g : α → β} {l : List α} {r : List β}
    (h : l.mapM f = .ok r) (hg : ∀ x ∈ l, ∀ y, f x = .ok y → y = g x) : r = l.map g := by
  induction l generalizing r with
  | nil =>
    cases h
    rfl
  | cons x rest ih =>
    rw [List.mapM_cons] at h
    cases hstep : f x with
    | error e =>
      rw [hstep] at h
      cases h
    | ok y =>
      rw [hstep] at h
      cases hrest : rest.mapM f with
      | error e =>
        rw [hrest] at h
        cases h
      | ok ys =>
        rw [hrest] at h
        cases h
        rw [List.map_cons, hg x List.mem_cons_self y hstep,
          ih hrest fun z hz => hg z (List.mem_cons_of_mem _ hz)]

/-- A sorted list without equal neighbors has no repetition. -/
theorem nodup_of_adjacent {l : List String} (hsorted : l.Pairwise (· ≤ ·))
    (h : adjacentEqual l = none) : l.Nodup := by
  induction l with
  | nil => exact List.nodup_nil
  | cons a rest ih =>
    obtain ⟨hhead, htail⟩ := List.pairwise_cons.mp hsorted
    cases rest with
    | nil => exact List.nodup_singleton a
    | cons b rest =>
      rw [adjacentEqual] at h
      split at h
      · cases h
      · rename_i hne
        refine List.nodup_cons.mpr ⟨fun hmem => ?_, ih htail h⟩
        rcases List.mem_cons.mp hmem with rfl | hmem
        · exact hne rfl
        · have hle : b ≤ a := (List.pairwise_cons.mp htail).1 a hmem
          exact hne (le_antisymm (hhead b List.mem_cons_self) hle)

theorem mapM_renderDefault {texts chords : List String}
    (hall : ∀ text ∈ texts, (parseChord text).toOption.isSome = true)
    (h : texts.mapM renderDefault = .ok chords) :
    chords = (texts.filterMap fun text => (parseChord text).toOption).map renderChord := by
  induction texts generalizing chords with
  | nil =>
    cases h
    rfl
  | cons text rest ih =>
    obtain ⟨htext, hrest⟩ := List.forall_mem_cons.mp hall
    obtain ⟨c, hc⟩ := Option.isSome_iff_exists.mp htext
    have hrender : renderDefault text = .ok (renderChord c) := by
      rw [renderDefault, toOption_eq_ok.mp hc]
    rw [List.mapM_cons, hrender] at h
    rw [List.filterMap_cons, hc]
    cases htail : rest.mapM renderDefault with
    | error e =>
      rw [htail] at h
      cases h
    | ok others =>
      rw [htail] at h
      cases h
      rw [ih hrest htail]
      rfl

/-- The chords a row contributes to the duplicate check. -/
theorem activeChords_live (hrow : row ∈ bindingCatalog) {chords : List String}
    (h : activeChords settings row = .ok chords) :
    chords = (liveChords settings row).map renderChord := by
  have hparses := (rowOk row hrow).parses
  unfold activeChords at h
  unfold liveChords
  dsimp only at h
  cases hsetting : settings.bindings[row.id]? with
  | none =>
    rw [hsetting] at h
    exact mapM_renderDefault hparses h
  | some setting =>
    obtain ⟨state, chord⟩ := setting
    rw [hsetting] at h
    cases state with
    | keep => exact mapM_renderDefault hparses h
    | disabled =>
      cases h
      rfl
    | rebind =>
      cases chord with
      | none => cases h
      | some text =>
        dsimp only at h ⊢
        cases hparse : parseChord text with
        | error usage =>
          rw [hparse] at h
          cases h
        | ok parsed =>
          rw [hparse] at h
          cases h
          rw [Option.bind_some, toOption_eq_ok.mpr hparse]
          rfl

theorem validateBinding_ok {before after : Claimed} {id : String} {setting : BindingSetting}
    (h : validateBinding before id setting = .ok after) : ∃ row, findRow id = some row ∧
      (setting.state = .rebind → ∃ text c, setting.chord = some text ∧ parseChord text = .ok c ∧
        isLockChord c = false ∧ bindingModifiersOk row c.shift c.ctrl c.alt = true) := by
  obtain ⟨state, chord⟩ := setting
  unfold validateBinding at h
  split at h
  · cases h
  rename_i row hrow
  refine ⟨row, hrow, ?_⟩
  rintro rfl
  cases chord with
  | none => cases h
  | some text =>
    dsimp only at h
    unfold validateRebind at h
    split at h
    · cases h
    rename_i c hparse
    split at h
    · cases h
    rename_i hlock
    split at h
    · cases h
    split at h
    · cases h
    rename_i hmodifiers
    rw [Bool.not_eq_true', Bool.not_eq_false] at hmodifiers
    exact ⟨text, c, rfl, hparse, Bool.eq_false_iff.mpr hlock, hmodifiers⟩

theorem validated {styles : Except SettingsError Unit}
    (h : validateSettings styles settings = .ok ()) : Validated settings := by
  have hbindings : validateBindings settings = .ok () := by
    unfold validateSettings at h
    repeat' split at h
    any_goals (cases h)
    cases styles with
    | error e => cases h
    | ok _ => exact h
  unfold validateBindings at hbindings
  split at hbindings
  · cases hbindings
  obtain ⟨claimed, hfold, hbindings⟩ := bind_eq_ok.mp hbindings
  obtain ⟨seen, hseen, hbindings⟩ := bind_eq_ok.mp hbindings
  have hadjacent : adjacentEqual (seen.flatten.insertionSort (· ≤ ·)) = none := by
    cases hcase : adjacentEqual (seen.flatten.insertionSort (· ≤ ·)) with
    | none => rfl
    | some chord =>
      rw [hcase] at hbindings
      cases hbindings
  have hnodup : seen.flatten.Nodup :=
    (List.perm_insertionSort (· ≤ ·) _).nodup_iff.mp
      (nodup_of_adjacent (List.pairwise_insertionSort (· ≤ ·) _) hadjacent)
  have hlive := mapM_eq_map hseen (g := fun row => (liveChords settings row).map renderChord)
    fun row hrow chords => activeChords_live hrow
  rw [hlive, ← List.flatMap_def] at hnodup
  refine ⟨fun id setting hsetting => ?_, fun row hrow row' hrow' c hc c' hc' hkey => ?_⟩
  · obtain ⟨before, after, hstep⟩ := mem_of_foldlM hfold
      (Std.ExtTreeMap.mem_toList_iff_getElem?_eq_some.mpr hsetting)
    exact validateBinding_ok hstep
  · obtain ⟨text, hparse⟩ := parsed_of_live hc
    obtain ⟨text', hparse'⟩ := parsed_of_live hc'
    obtain rfl := parseChord_unique hparse hparse' hkey
    by_contra hne
    exact apart_of_nodup hnodup hrow hrow' hne (List.mem_map_of_mem hc) (List.mem_map_of_mem hc')

/-! ## The tables -/

theorem mem_buildRemap {entry : ChordRemap} : entry ∈ buildRemap settings ↔
    ∃ id setting, settings.bindings[id]? = some setting ∧ remapEntry id setting = some entry := by
  unfold buildRemap
  rw [List.mem_insertionSort, List.mem_filterMap]
  simp only [Prod.exists, Std.ExtTreeMap.mem_toList_iff_getElem?_eq_some]

theorem remapEntry_eq_some {id : String} {setting : BindingSetting} {entry : ChordRemap} :
    remapEntry id setting = some entry ↔ ∃ row, findRow id = some row ∧ setting.state = .rebind ∧
      row.implemented = true ∧ ∃ text c canon, setting.chord = some text ∧ parseChord text = .ok c ∧
        bindingModifiersOk row c.shift c.ctrl c.alt = true ∧ bindingCanonicalVk row = some canon ∧
        c.vk ≠ canon ∧ entry = ⟨c.vk, c.shift, c.ctrl, c.alt, bindingAction row, canon⟩ := by
  unfold remapEntry
  constructor
  · intro h
    split at h
    · cases h
    rename_i hstate
    obtain ⟨row, hrow, h⟩ := Option.bind_eq_some_iff.mp h
    split at h
    · cases h
    rename_i himplemented
    obtain ⟨text, htext, h⟩ := Option.bind_eq_some_iff.mp h
    obtain ⟨c, hc, h⟩ := Option.bind_eq_some_iff.mp h
    split at h
    · cases h
    rename_i hmodifiers
    obtain ⟨canon, hcanon, h⟩ := Option.bind_eq_some_iff.mp h
    split at h
    · cases h
    rename_i hne
    rw [Bool.not_eq_true', Bool.not_eq_false] at himplemented hmodifiers
    exact ⟨row, hrow, not_not.mp hstate, himplemented, text, c, canon, htext, toOption_eq_ok.mp hc,
      hmodifiers, hcanon, hne, (Option.some.inj h).symm⟩
  · rintro ⟨row, hrow, hstate, himplemented, text, c, canon, htext, hparse, hmodifiers, hcanon, hne, rfl⟩
    rw [if_neg (not_not.mpr hstate), hrow, htext]
    simp [himplemented, toOption_eq_ok.mpr hparse, hmodifiers, hcanon, hne]

/-- A remap entry is a live chord of a rebound row, on the row's own arm. -/
theorem remap_row (hv : Validated settings) {entry : ChordRemap} (h : entry ∈ buildRemap settings) :
    ∃ row ∈ bindingCatalog, ∃ c ∈ liveChords settings row, ∃ canon,
      entry = ⟨c.vk, c.shift, c.ctrl, c.alt, bindingAction row, canon⟩ ∧
        bindingCanonicalVk row = some canon ∧ c.vk ≠ canon ∧ isLockChord c = false ∧
        bindingModifiersOk row c.shift c.ctrl c.alt = true := by
  obtain ⟨id, ⟨state, chord⟩, hsetting, hentry⟩ := mem_buildRemap.mp h
  obtain ⟨row, hfind, hstate, -, text, c, canon, htext, hparse, hmodifiers, hcanon, hne, rfl⟩ :=
    remapEntry_eq_some.mp hentry
  obtain ⟨hrow, rfl⟩ := findRow_some hfind
  dsimp only at hstate htext
  subst hstate htext
  obtain ⟨row', hfind', hcoherent⟩ := hv.coherent _ _ hsetting
  obtain ⟨text', c', htext', hparse', hlock, -⟩ := hcoherent rfl
  obtain rfl := Option.some.inj htext'
  obtain rfl := Except.ok.inj (hparse.symm.trans hparse')
  refine ⟨row, hrow, c, ?_, canon, rfl, hcanon, hne, hlock, hmodifiers⟩
  unfold liveChords
  rw [hsetting]
  show c ∈ ((some text).bind fun text => (parseChord text).toOption).toList
  rw [Option.bind_some, toOption_eq_ok.mpr hparse]
  exact List.mem_singleton_self c

/-- A rebound chord on another key than the canonical one has an entry. -/
theorem remap_of_live (hv : Validated settings) (hrow : row ∈ bindingCatalog) {chord : Option String}
    (hsetting : settings.bindings[row.id]? = some ⟨.rebind, chord⟩) (hc : c ∈ liveChords settings row)
    {canon : Vk} (hcanon : bindingCanonicalVk row = some canon) (hne : c.vk ≠ canon) :
    (⟨c.vk, c.shift, c.ctrl, c.alt, bindingAction row, canon⟩ : ChordRemap) ∈ buildRemap settings := by
  obtain ⟨row', hfind, hcoherent⟩ := hv.coherent _ _ hsetting
  obtain ⟨text, c', htext, hparse, -, hmodifiers⟩ := hcoherent rfl
  obtain rfl := Option.some.inj ((findRow_of_mem hrow).symm.trans hfind)
  dsimp only at htext
  subst htext
  unfold liveChords at hc
  rw [hsetting] at hc
  obtain ⟨other, hother, hc⟩ := Option.bind_eq_some_iff.mp (Option.mem_toList.mp hc)
  obtain rfl := Option.some.inj hother
  obtain rfl := Except.ok.inj (hparse.symm.trans (toOption_eq_ok.mp hc))
  exact mem_buildRemap.mpr ⟨row.id, _, hsetting, remapEntry_eq_some.mpr
    ⟨row, hfind, rfl, (rowOk row hrow).implemented, text, c', canon, rfl, hparse, hmodifiers, hcanon,
      hne, rfl⟩⟩

theorem mem_dedup {entry : ChordDisable} {l : List ChordDisable} : entry ∈ dedup l ↔ entry ∈ l := by
  induction l using dedup.induct with
  | case1 => exact Iff.rfl
  | case2 => exact Iff.rfl
  | case3 a rest ih =>
    rw [dedup, if_pos rfl, ih]
    simp
  | case4 a b rest hne ih =>
    rw [dedup, if_neg hne, List.mem_cons, ih]
    exact List.mem_cons.symm

/-- What an override turns off: the defaults of its row that are not live
under it, so a rebind that restates a default turns off the others alone. -/
theorem mem_disabledEntries (hrow : row ∈ bindingCatalog) {setting : BindingSetting}
    (hsetting : settings.bindings[row.id]? = some setting) {entry : ChordDisable} :
    entry ∈ disabledEntries row.id setting ↔
      ∃ c ∈ rowChords row, c ∉ liveChords settings row ∧ entry = disableOf c := by
  obtain ⟨state, chord⟩ := setting
  unfold disabledEntries liveChords
  rw [findRow_of_mem hrow, hsetting]
  dsimp only
  rw [if_neg (by rw [(rowOk row hrow).implemented]; exact Bool.false_ne_true)]
  cases state with
  | keep =>
    constructor
    · intro h
      cases h
    · rintro ⟨c, hc, hnot, -⟩
      exact absurd hc hnot
  | disabled =>
    constructor
    · intro h
      obtain ⟨text, htext, h⟩ := List.mem_filterMap.mp h
      obtain ⟨c, hc, rfl⟩ := Option.map_eq_some_iff.mp h
      exact ⟨c, mem_rowChords.mpr ⟨text, htext, toOption_eq_ok.mp hc⟩, List.not_mem_nil, rfl⟩
    · rintro ⟨c, hc, -, rfl⟩
      obtain ⟨text, htext, hparse⟩ := mem_rowChords.mp hc
      exact List.mem_filterMap.mpr ⟨text, htext, by rw [toOption_eq_ok.mpr hparse]; rfl⟩
  | rebind =>
    dsimp only
    constructor
    · intro h
      obtain ⟨text, htext, h⟩ := List.mem_filterMap.mp h
      split at h
      · rename_i c hc
        split at h
        · cases h
        · rename_i hcustom
          exact ⟨c, mem_rowChords.mpr ⟨text, htext, toOption_eq_ok.mp hc⟩,
            fun hmem => hcustom (Option.mem_toList.mp hmem), (Option.some.inj h).symm⟩
      · cases h
    · rintro ⟨c, hc, hnot, rfl⟩
      obtain ⟨text, htext, hparse⟩ := mem_rowChords.mp hc
      refine List.mem_filterMap.mpr ⟨text, htext, ?_⟩
      rw [toOption_eq_ok.mpr hparse]
      exact if_neg fun hcustom => hnot (Option.mem_toList.mpr hcustom)

/-- The suppressed chords are the defaults that are not live in their row. -/
theorem mem_buildDisabled {entry : ChordDisable} : entry ∈ buildDisabled settings ↔
    ∃ row ∈ bindingCatalog, ∃ c ∈ rowChords row, c ∉ liveChords settings row ∧ entry = disableOf c := by
  unfold buildDisabled
  rw [mem_dedup, List.mem_insertionSort, List.mem_flatMap]
  simp only [Prod.exists, Std.ExtTreeMap.mem_toList_iff_getElem?_eq_some]
  constructor
  · rintro ⟨id, setting, hsetting, hentry⟩
    cases hfind : findRow id with
    | none =>
      unfold disabledEntries at hentry
      rw [hfind] at hentry
      cases hentry
    | some row =>
      obtain ⟨hrow, rfl⟩ := findRow_some hfind
      obtain ⟨c, hc, hnot, rfl⟩ := (mem_disabledEntries hrow hsetting).mp hentry
      exact ⟨row, hrow, c, hc, hnot, rfl⟩
  · rintro ⟨row, hrow, c, hc, hnot, rfl⟩
    cases hsetting : settings.bindings[row.id]? with
    | none =>
      unfold liveChords at hnot
      rw [hsetting] at hnot
      exact absurd hc hnot
    | some setting =>
      exact ⟨row.id, setting, hsetting, (mem_disabledEntries hrow hsetting).mpr ⟨c, hc, hnot, rfl⟩⟩

/-! ## The idle classifier -/

/-- An idle classifier that takes chords, with Win held, nothing else open,
and the tables of the settings. -/
structure Idle (s : SnapClassify) (settings : Settings) : Prop where
  winHeld : s.winHeld = true
  taking : s.taking = true
  held : ∀ slot, s.held slot = none
  physPin : ∀ vk, s.physPin vk = none
  collide : ∀ vk, s.collide vk = none
  vkRemap : s.vkRemap = buildRemap settings
  vkDisabled : s.vkDisabled = buildDisabled settings

/-- The chord of a key at the live modifiers. -/
def SnapClassify.liveKey (s : SnapClassify) (vk : Vk) : Key := (vk, s.shift, s.ctrl, s.alt)

/-- Unshifted Win+L without the opt-in. -/
def SnapClassify.lockPasses (s : SnapClassify) (vk : Vk) : Bool :=
  vk == vkL && !s.shift && !s.ctrl && !s.alt && !s.allowWinL

/-- The classifier does what the effective bindings say of a chord: it consumes
and announces a listed one with its row's action, and passes every other. -/
structure Obeys (s : SnapClassify) (settings : Settings) (vk : Vk) (foreground : Bool) : Prop where
  listed : s.lockPasses vk = false → ∀ binding ∈ effectiveBindings settings, binding.effective = true →
    Lists binding (s.liveKey vk) → ∀ row ∈ bindingCatalog, row.id = binding.id →
      (s.push vk false foreground false).2 = some ⟨row.family.shape, .down, foreground, true, true⟩
  unlisted : (s.lockPasses vk = true ∨ ∀ binding ∈ effectiveBindings settings,
    binding.effective = true → ¬Lists binding (s.liveKey vk)) → (s.push vk false foreground false).2 = none

/-! ## Routes of the idle classifier -/

/-- The bare classifier at the modifiers. -/
def probe (shift ctrl alt allowWinL : Bool) : SnapClassify :=
  { SnapClassify.new ⟨true, allowWinL⟩ with winL := true, shift, ctrl, alt }

/-- What a fresh down of the route pins. -/
def SnapClassify.freshOf (s : SnapClassify) (physical canon : Vk) (action : ChordAction) :
    Option Shape :=
  (s.armOf physical canon action).bind SnapClassify.Arm.fresh

/-- A fresh chord on an idle classifier depends on the modifiers and on
whether the key is L, so each of these cases can be looked at on a probe. -/
theorem Idle.freshOf (hi : Idle s settings) {physical canon : Vk} {action : ChordAction} :
    s.freshOf physical canon action = (probe s.shift s.ctrl s.alt s.allowWinL).freshOf
      (if physical = vkL then vkL else 0) canon action := by
  have hwin : (probe s.shift s.ctrl s.alt s.allowWinL).winHeld = true := rfl
  have hhalf : s.gHalf = (probe s.shift s.ctrl s.alt s.allowWinL).gHalf := by
    unfold SnapClassify.gHalf
    rw [hi.held, hi.held]
    rfl
  have hphysical : ((if physical = vkL then vkL else 0) = vkL) = (physical = vkL) := by
    split
    · rename_i heq
      simp [heq]
    · rename_i hne
      exact propext ⟨fun h => absurd h (by decide), fun h => absurd h hne⟩
  unfold SnapClassify.freshOf
  cases action with
  | workspacePrevious | workspacePrev | workspaceNext =>
    simp only [SnapClassify.armOf]
    cases historyIndex canon with
    | none => rfl
    | some idx =>
      simp only [SnapClassify.historyOpForAction, Option.bind_some, Option.map_some,
        SnapClassify.historyArm, hi.winHeld, hwin]
      rfl
  | workspaceDigit | workspaceStayDigit =>
    simp only [SnapClassify.armOf]
    split
    · simp only [Option.bind_some, SnapClassify.digitArm, hi.winHeld, hwin]
      rfl
    · rfl
  | workspaceSendPrev | workspaceSendNext | workspaceSendStayPrev | workspaceSendStayNext =>
    simp only [SnapClassify.armOf]
    cases relativeSendIndex canon with
    | none => rfl
    | some idx =>
      cases relativeSendDelta canon with
      | none => rfl
      | some delta =>
        simp only [Option.bind_some]
        split
        · rfl
        · simp only [Option.bind_some, SnapClassify.relativeSendArm, hi.winHeld, hwin]
          rfl
  | maximize | orientation | fullscreen =>
    simp only [SnapClassify.armOf, Option.bind_some, SnapClassify.toggleArm, hi.winHeld, hwin]
    rfl
  | float | sticky =>
    simp only [SnapClassify.armOf, Option.bind_some, SnapClassify.gArm, hi.winHeld, hwin, hhalf]
    rfl
  | resizeOut | resizeIn =>
    simp only [SnapClassify.armOf]
    cases catalogIndex canon with
    | none => rfl
    | some idx =>
      simp only [SnapClassify.resizeModeForAction, Option.bind_some, Option.map_some,
        SnapClassify.resizeArm, hi.winHeld, hwin]
      rfl
  | directional =>
    simp only [SnapClassify.armOf]
    cases catalogIndex canon with
    | none => rfl
    | some idx =>
      simp only [Option.bind_some, Option.map_some, SnapClassify.directionalArm, hi.winHeld, hwin,
        hphysical]
      rfl

theorem Idle.directAction (hi : Idle s settings) :
    s.directAction vk = (probe s.shift s.ctrl s.alt s.allowWinL).directAction vk := by
  have hwin : (probe s.shift s.ctrl s.alt s.allowWinL).winHeld = true := rfl
  unfold SnapClassify.directAction
  rw [hi.winHeld, hwin]
  rfl

/-- The arm of a row takes the row's modifiers, on its canonical key. -/
theorem fresh_canonical : ∀ row ∈ bindingCatalog, ∀ canon ∈ bindingCanonicalVk row,
    ∀ shift ctrl alt allowWinL : Bool, bindingModifiersOk row shift ctrl alt = true →
      ∀ physical ∈ [0, vkL], (probe shift ctrl alt allowWinL).lockPasses physical = false →
        (probe shift ctrl alt allowWinL).freshOf physical canon (bindingAction row) =
          some row.family.shape := by
  decide +kernel

/-- A default chord routes directly to its row's action. -/
theorem direct_default : ∀ row ∈ bindingCatalog, ∀ c ∈ rowChords row, ∀ allowWinL : Bool,
    (probe c.shift c.ctrl c.alt allowWinL).directAction c.vk = some (bindingAction row) ∧
      ((probe c.shift c.ctrl c.alt allowWinL).lockPasses c.vk = false →
        (probe c.shift c.ctrl c.alt allowWinL).freshOf (if c.vk = vkL then vkL else 0) c.vk
          (bindingAction row) = some row.family.shape) := by
  decide +kernel

/-- The keys that route directly. -/
def directKeys : List Vk :=
  [vkTab, vkLeft, vkUp, vkRight, vkDown, vk0, vk0 + 1, vk0 + 2, vk0 + 3, vk0 + 4, vk0 + 5, vk0 + 6,
   vk0 + 7, vk0 + 8, vk9, vkG, vkH, vkJ, vkK, vkL, vkM, vkO, vkF11]

theorem directAction_directKeys {action : ChordAction} (h : s.directAction vk = some action) :
    vk ∈ directKeys := by
  have hkeys : ∀ vk < pinKeys, (relativeSendDelta vk).isSome = true ∨
      (historyOpForVk vk).isSome = true ∨ (catalogIndex vk).isSome = true ∨ isDigitVk vk = true ∨
        vk = vkM ∨ vk = vkF11 ∨ vk = vkO ∨ vk = vkG → vk ∈ directKeys := by
    decide +kernel
  exact hkeys vk (SnapClassify.directAction_catalogued h).2 (SnapClassify.directAction_keys h)

/-- What routes directly is a default chord. -/
theorem default_of_direct {action : ChordAction} (hi : Idle s settings)
    (h : s.directAction vk = some action) :
    ∃ row ∈ bindingCatalog, ∃ c ∈ rowChords row, c.key = s.liveKey vk := by
  have hkeys : ∀ vk ∈ directKeys, ∀ shift ctrl alt : Bool,
      ((probe shift ctrl alt false).directAction vk).isSome = true →
        (bindingCatalog.flatMap fun row => (rowChords row).map Chord.key).contains
          (vk, shift, ctrl, alt) = true := by
    decide +kernel
  have hsome : ((probe s.shift s.ctrl s.alt false).directAction vk).isSome = true := by
    rw [show (probe s.shift s.ctrl s.alt false).directAction vk =
      (probe s.shift s.ctrl s.alt s.allowWinL).directAction vk from rfl, ← hi.directAction, h]
    rfl
  have hmem := List.contains_iff_mem.mp
    (hkeys vk (directAction_directKeys h) s.shift s.ctrl s.alt hsome)
  obtain ⟨row, hrow, hkey⟩ := List.mem_flatMap.mp hmem
  obtain ⟨c, hc, hkey⟩ := List.mem_map.mp hkey
  exact ⟨row, hrow, c, hc, hkey⟩

/-! ## Chords of the idle classifier -/

theorem Idle.push_eq (hi : Idle s settings) (hvk : SnapClassify.isChordKey vk = true) :
    s.push vk false foreground false = s.pushFresh vk foreground := by
  obtain ⟨hwin, hmodifier⟩ := Bool.and_eq_true_iff.mp hvk
  rw [Bool.not_eq_true'] at hwin hmodifier
  have hcollide : (if vk < pinKeys then s.collide vk else none) = none := by
    rw [hi.collide, ite_self]
  have hpin : s.pinGet vk = none := by
    rw [SnapClassify.pinGet, hi.physPin, ite_self]
  unfold SnapClassify.push SnapClassify.pushKey
  rw [hwin, hmodifier, hcollide, hpin]
  rfl

/-- A pin changes nothing of what the arm emits. -/
theorem Idle.pinned_route (hi : Idle s settings) {t : SnapClassify} {action : ChordAction}
    {canon : Vk} {shape : Shape} (ht : ∃ physPin, t = { s with physPin })
    (hfresh : s.freshOf vk canon action = some shape) :
    (match t.armOf vk canon action with
      | some a => t.pushArm a false foreground true
      | none => (t, none)).2 = some ⟨shape, .down, foreground, true, true⟩ := by
  obtain ⟨a, ha, hshape⟩ := Option.bind_eq_some_iff.mp hfresh
  obtain ⟨physPin, rfl⟩ := ht
  rw [SnapClassify.armOf_physPin, ha]
  dsimp only
  unfold SnapClassify.pushArm
  dsimp only
  rw [hi.held, hshape]
  dsimp only
  have htaking : ({ s with physPin } : SnapClassify).taking = s.taking := rfl
  rw [if_neg Bool.false_ne_true, htaking, hi.taking]
  rfl

/-- A route whose arm takes the modifiers is consumed and announced. -/
theorem Idle.push_route (hi : Idle s settings) (hvk : SnapClassify.isChordKey vk = true)
    {action : ChordAction} {canon : Vk} {remapped : Bool} {shape : Shape}
    (hchord : s.chord vk = some (action, canon, remapped)) (hfresh : s.freshOf vk canon action = some shape) :
    (s.push vk false foreground false).2 = some ⟨shape, .down, foreground, true, true⟩ := by
  have hclosed : s.canonIsDown action canon = false := by
    unfold SnapClassify.canonIsDown
    cases SnapClassify.slotOf action canon with
    | none => rfl
    | some slot =>
      rw [Option.bind_some, hi.held]
      rfl
  rw [hi.push_eq hvk, SnapClassify.pushFresh_some hchord, hclosed, if_neg Bool.false_ne_true,
    SnapClassify.pushOwned_eq]
  refine hi.pinned_route ?_ hfresh
  split
  · unfold SnapClassify.pinSet
    split <;> exact ⟨_, rfl⟩
  · exact ⟨_, rfl⟩

theorem Idle.push_none (hi : Idle s settings) (hvk : SnapClassify.isChordKey vk = true)
    (hchord : s.chord vk = none) : (s.push vk false foreground false).2 = none := by
  rw [hi.push_eq hvk, SnapClassify.pushFresh_none hchord]

/-- The remap entry names the chord. -/
def SnapClassify.names (s : SnapClassify) (vk : Vk) (entry : ChordRemap) : Bool :=
  entry.fromVk == vk && entry.fromShift == s.shift && entry.fromCtrl == s.ctrl && entry.fromAlt == s.alt

theorem names_iff {entry : ChordRemap} : s.names vk entry = true ↔
    (entry.fromVk, entry.fromShift, entry.fromCtrl, entry.fromAlt) = s.liveKey vk := by
  simp only [SnapClassify.names, SnapClassify.liveKey, Bool.and_eq_true, beq_iff_eq, Prod.mk.injEq,
    and_assoc]

theorem chord_of_routed {action : ChordAction} {canon : Vk} {remapped : Bool} (hi : Idle s settings)
    (hrouted : s.routed vk = some (action, canon, remapped)) (hfence : s.lockFenced vk action canon = false) :
    s.chord vk = some (action, canon, remapped) := by
  unfold SnapClassify.chord
  rw [hi.winHeld, hrouted]
  simp [hfence]

theorem chord_of_unrouted (hrouted : s.routed vk = none) : s.chord vk = none := by
  unfold SnapClassify.chord
  rw [hrouted]
  simp

theorem lockPasses_probe (h : s.lockPasses vk = false) :
    (probe s.shift s.ctrl s.alt s.allowWinL).lockPasses (if vk = vkL then vkL else 0) = false := by
  split
  · rename_i heq
    rw [heq] at h
    exact h
  · rfl

/-- A directional row takes neither Ctrl nor Alt. -/
theorem directional_modifiers {shift ctrl alt : Bool} (h : bindingAction row = .directional)
    (hmodifiers : bindingModifiersOk row shift ctrl alt = true) : ctrl = false ∧ alt = false := by
  obtain ⟨id, family, defaults, implemented⟩ := row
  cases family with
  | directional direction op =>
    simp only [bindingModifiersOk, bindingWantsCtrl, bindingWantsAlt, BindingFamily.isStay,
      Bool.false_and, Bool.or_false, Bool.and_eq_true, beq_iff_eq] at hmodifiers
    exact ⟨hmodifiers.1.2, hmodifiers.2⟩
  | resize direction mode => cases mode <;> cases h
  | workspace index op => cases h
  | workspaceStay index => cases h
  | workspaceSendRelative prev follow => cases prev <;> cases follow <;> cases h
  | workspaceHistory kind => cases kind <;> cases h
  | toggle kind => cases kind <;> cases h

/-- Only the lock chord is fenced off from a row's arm. -/
theorem unfenced (hmodifiers : bindingModifiersOk row s.shift s.ctrl s.alt = true)
    (hlock : s.lockPasses vk = false) {canon : Vk} :
    s.lockFenced vk (bindingAction row) canon = false := by
  rw [Bool.eq_false_iff]
  intro hfence
  simp only [SnapClassify.lockFenced, Bool.and_eq_true, beq_iff_eq, Bool.not_eq_true'] at hfence
  obtain ⟨⟨⟨⟨haction, hshift⟩, hvk⟩, hallow⟩, -⟩ := hfence
  obtain ⟨hctrl, halt⟩ := directional_modifiers haction hmodifiers
  rw [SnapClassify.lockPasses, hvk, hshift, hctrl, halt, hallow] at hlock
  cases hlock

/-- A chord with a remap entry is a live chord of its row, routed to the row's
action. -/
theorem Idle.remapped (hi : Idle s settings) (hv : Validated settings) {entry : ChordRemap}
    (hfind : s.vkRemap.find? (s.names vk) = some entry) :
    ∃ row ∈ bindingCatalog, ∃ c ∈ liveChords settings row, ∃ canon, c.key = s.liveKey vk ∧
      bindingCanonicalVk row = some canon ∧ c.vk ≠ canon ∧ s.lockPasses vk = false ∧
        s.chord vk = some (bindingAction row, canon, true) ∧
          s.freshOf vk canon (bindingAction row) = some row.family.shape := by
  have hmem := List.mem_of_find?_eq_some hfind
  rw [hi.vkRemap] at hmem
  obtain ⟨row, hrow, c, hc, canon, rfl, hcanon, hne, hlockChord, hmodifiers⟩ := remap_row hv hmem
  have hkey : c.key = s.liveKey vk := names_iff.mp (List.find?_some hfind)
  obtain ⟨hvk, hshift, hctrl, halt⟩ : c.vk = vk ∧ c.shift = s.shift ∧ c.ctrl = s.ctrl ∧ c.alt = s.alt := by
    simpa [Chord.key, SnapClassify.liveKey] using hkey
  have hlock : s.lockPasses vk = false := by
    rw [isLockChord, hvk, hshift, hctrl, halt] at hlockChord
    rw [SnapClassify.lockPasses, Bool.and_eq_false_iff]
    refine .inl ?_
    rw [← hlockChord, Bool.and_right_comm]
  rw [hshift, hctrl, halt] at hmodifiers
  have hrouted : s.routed vk = some (bindingAction row, canon, true) := by
    unfold SnapClassify.routed SnapClassify.freshRoute
    rw [show (s.vkRemap.find? fun entry => entry.fromVk == vk && entry.fromShift == s.shift &&
      entry.fromCtrl == s.ctrl && entry.fromAlt == s.alt) = _ from hfind]
  refine ⟨row, hrow, c, hc, canon, hkey, hcanon, hne, hlock,
    chord_of_routed hi hrouted (unfenced hmodifiers hlock), ?_⟩
  rw [hi.freshOf]
  refine fresh_canonical row hrow canon hcanon _ _ _ _ hmodifiers _ ?_ ?_
  · split <;> simp
  · exact lockPasses_probe hlock

theorem Idle.isSuppressed (hi : Idle s settings) : s.isSuppressed vk = true ↔
    ∃ row ∈ bindingCatalog, ∃ c ∈ rowChords row, c ∉ liveChords settings row ∧ c.key = s.liveKey vk := by
  have hentry : ∀ c : Chord, ((disableOf c).vk == vk && (disableOf c).shift == s.shift &&
      (disableOf c).ctrl == s.ctrl && (disableOf c).alt == s.alt) = true ↔ c.key = s.liveKey vk := by
    intro c
    simp only [disableOf, Chord.key, SnapClassify.liveKey, Bool.and_eq_true, beq_iff_eq,
      Prod.mk.injEq, and_assoc]
  unfold SnapClassify.isSuppressed
  rw [hi.vkDisabled, List.any_eq_true]
  constructor
  · rintro ⟨entry, hmem, hnames⟩
    obtain ⟨row, hrow, c, hc, hnot, rfl⟩ := mem_buildDisabled.mp hmem
    exact ⟨row, hrow, c, hc, hnot, (hentry c).mp hnames⟩
  · rintro ⟨row, hrow, c, hc, hnot, hkey⟩
    exact ⟨disableOf c, mem_buildDisabled.mpr ⟨row, hrow, c, hc, hnot, rfl⟩, (hentry c).mpr hkey⟩

/-- Without an entry, a chord that is not suppressed routes by its modifiers. -/
theorem routed_direct (hfind : s.vkRemap.find? (s.names vk) = none) :
    s.routed vk = if s.isSuppressed vk then none
      else (s.directAction vk).map fun action => (action, vk, false) := by
  have hroute : s.freshRoute vk = if s.isSuppressed vk then .suppressed else .direct := by
    unfold SnapClassify.freshRoute
    rw [show (s.vkRemap.find? fun entry => entry.fromVk == vk && entry.fromShift == s.shift &&
      entry.fromCtrl == s.ctrl && entry.fromAlt == s.alt) = none from hfind]
  unfold SnapClassify.routed
  rw [hroute]
  cases s.isSuppressed vk <;> rfl

/-- A live chord of a row that keeps or restates its default is the default:
the other way to be live is a remap entry, and there is none for it. -/
theorem default_of_live (hv : Validated settings) (hrow : row ∈ bindingCatalog)
    (hc : c ∈ liveChords settings row)
    (hok : ∀ text, settings.bindings[row.id]? = some ⟨.rebind, some text⟩ → parseChord text = .ok c →
      bindingCanonicalVk row = some c.vk → row.defaults ≠ [])
    (hentry : ∀ canon, bindingCanonicalVk row = some canon → c.vk ≠ canon →
      (⟨c.vk, c.shift, c.ctrl, c.alt, bindingAction row, canon⟩ : ChordRemap) ∉ buildRemap settings) :
    c ∈ rowChords row := by
  have hok' := rowOk row hrow
  have hlive := hc
  unfold liveChords at hc
  cases hsetting : settings.bindings[row.id]? with
  | none =>
    rw [hsetting] at hc
    exact hc
  | some setting =>
    obtain ⟨state, chord⟩ := setting
    rw [hsetting] at hc
    cases state with
    | keep => exact hc
    | disabled => cases hc
    | rebind =>
      obtain ⟨row', hfind, hcoherent⟩ := hv.coherent _ _ hsetting
      obtain ⟨text, c', htext, hparse, -, hmodifiers⟩ := hcoherent rfl
      obtain rfl := Option.some.inj ((findRow_of_mem hrow).symm.trans hfind)
      dsimp only at htext
      subst htext
      obtain ⟨other, hother, hc⟩ := Option.bind_eq_some_iff.mp (Option.mem_toList.mp hc)
      obtain rfl := Option.some.inj hother
      obtain rfl := Except.ok.inj (hparse.symm.trans (toOption_eq_ok.mp hc))
      obtain ⟨canon, hcanon⟩ := Option.isSome_iff_exists.mp hok'.keyed
      -- the key is the canonical one, or the chord would have an entry
      have hsame : c'.vk = canon := by
        by_contra hne
        exact hentry canon hcanon hne (remap_of_live hv hrow hsetting hlive hcanon hne)
      have hbound : row.defaults ≠ [] := hok text hsetting hparse (by rw [hcanon, hsame])
      have hstay : row.family.isStay = false := by
        rw [Bool.eq_false_iff]
        exact fun hstay => hbound (hok'.unbound hstay)
      obtain ⟨first, rest, hdefaults⟩ := List.exists_cons_of_ne_nil hbound
      obtain ⟨d, hd⟩ := Option.isSome_iff_exists.mp
        (hok'.parses first (by rw [hdefaults]; exact List.mem_cons_self))
      have hhead : (rowChords row).head? = some d := by
        rw [rowChords, hdefaults, List.filterMap_cons, hd]
        rfl
      have hdrow : d ∈ rowChords row := List.mem_of_mem_head? hhead
      obtain ⟨hshift, hctrl, halt⟩ := hok'.modifiers d hdrow
      have hdvk : d.vk = canon := by
        have hkeyed := hok'.canonical d hhead
        exact Option.some.inj (hkeyed.symm.trans hcanon)
      simp only [bindingModifiersOk, hstay, Bool.false_and, Bool.or_false, Bool.and_eq_true,
        beq_iff_eq] at hmodifiers
      have hkey : c'.key = d.key := by
        rw [Chord.key, Chord.key, hsame, hdvk, hmodifiers.1.1, hmodifiers.1.2, hmodifiers.2, hshift,
          hctrl, halt]
      rw [parseChord_unique hparse (toOption_eq_ok.mp hd) hkey]
      exact hdrow

/-- A listed chord is consumed and announced with its row's action, through
the remap where the row has an entry for it and by its default otherwise. -/
theorem Idle.listed (hi : Idle s settings) (hv : Validated settings)
    (hvk : SnapClassify.isChordKey vk = true) (hrow : row ∈ bindingCatalog)
    (hc : c ∈ liveChords settings row) (hkey : c.key = s.liveKey vk) (hlock : s.lockPasses vk = false)
    (hok : ∀ text, settings.bindings[row.id]? = some ⟨.rebind, some text⟩ → parseChord text = .ok c →
      bindingCanonicalVk row = some c.vk → row.defaults ≠ []) :
    (s.push vk false foreground false).2 = some ⟨row.family.shape, .down, foreground, true, true⟩ := by
  cases hfind : s.vkRemap.find? (s.names vk) with
  | some entry =>
    obtain ⟨row', hrow', c', hc', canon, hkey', -, -, -, hchord, hfresh⟩ := hi.remapped hv hfind
    obtain rfl := hv.apart row hrow row' hrow' c hc c' hc' (hkey.trans hkey'.symm)
    exact hi.push_route hvk hchord hfresh
  | none =>
    have hdefault : c ∈ rowChords row := by
      refine default_of_live hv hrow hc hok fun canon _ _ hmem => ?_
      rw [← hi.vkRemap] at hmem
      exact List.find?_eq_none.mp hfind _ hmem (names_iff.mpr hkey)
    have hsuppressed : s.isSuppressed vk = false := by
      rw [Bool.eq_false_iff]
      intro hsuppressed
      obtain ⟨row', hrow', c', hc', hnot, hkey'⟩ := hi.isSuppressed.mp hsuppressed
      obtain rfl := rowChords_apart hrow hrow' hdefault hc' (hkey.trans hkey'.symm)
      obtain ⟨text, hparse⟩ := parsed_of_row hdefault
      obtain ⟨text', hparse'⟩ := parsed_of_row hc'
      obtain rfl := parseChord_unique hparse hparse' (hkey.trans hkey'.symm)
      exact hnot hc
    obtain ⟨rfl, hshift, hctrl, halt⟩ :
        c.vk = vk ∧ c.shift = s.shift ∧ c.ctrl = s.ctrl ∧ c.alt = s.alt := by
      simpa [Chord.key, SnapClassify.liveKey] using hkey
    obtain ⟨hdirect, hfresh⟩ := direct_default row hrow c hdefault s.allowWinL
    rw [hshift, hctrl, halt] at hdirect hfresh
    have hrouted : s.routed c.vk = some (bindingAction row, c.vk, false) := by
      rw [routed_direct hfind, hsuppressed, hi.directAction, hdirect]
      rfl
    have hmodifiers : bindingModifiersOk row s.shift s.ctrl s.alt = true := by
      obtain ⟨h1, h2, h3⟩ := (rowOk row hrow).modifiers c hdefault
      rw [← hshift, ← hctrl, ← halt, bindingModifiersOk, h1, h2, h3]
      simp
    refine hi.push_route hvk (chord_of_routed hi hrouted (unfenced hmodifiers hlock)) ?_
    rw [hi.freshOf]
    exact hfresh hlock

/-- A chord that no row answers to has no route. -/
theorem Idle.unlisted (hi : Idle s settings) (hv : Validated settings)
    (h : ∀ row ∈ bindingCatalog, ∀ c ∈ liveChords settings row, c.key ≠ s.liveKey vk) :
    s.chord vk = none := by
  cases hfind : s.vkRemap.find? (s.names vk) with
  | some entry =>
    obtain ⟨row, hrow, c, hc, -, hkey, -⟩ := hi.remapped hv hfind
    exact absurd hkey (h row hrow c hc)
  | none =>
    refine chord_of_unrouted ?_
    rw [routed_direct hfind]
    split
    · rfl
    · rename_i hsuppressed
      cases hdirect : s.directAction vk with
      | none => rfl
      | some action =>
        obtain ⟨row, hrow, c, hc, hkey⟩ := default_of_direct hi hdirect
        exact absurd (hi.isSuppressed.mpr ⟨row, hrow, c, hc, fun hlive => h row hrow c hlive hkey, hkey⟩)
          hsuppressed

/-- The lock chord has no route without the opt-in. -/
theorem Idle.locked (hi : Idle s settings) (hv : Validated settings) (hlock : s.lockPasses vk = true) :
    s.chord vk = none := by
  cases hfind : s.vkRemap.find? (s.names vk) with
  | some entry =>
    obtain ⟨row, hrow, c, hc, canon, -, -, -, hunlocked, -⟩ := hi.remapped hv hfind
    exact absurd (hlock.symm.trans hunlocked) (by decide)
  | none =>
    simp only [SnapClassify.lockPasses, Bool.and_eq_true, beq_iff_eq, Bool.not_eq_true'] at hlock
    obtain ⟨⟨⟨⟨rfl, hshift⟩, hctrl⟩, halt⟩, hallow⟩ := hlock
    have hdirect : s.directAction vkL = some .directional := by
      rw [hi.directAction, hshift, hctrl, halt, hallow]
      rfl
    have hrouted : s.routed vkL = none ∨ s.routed vkL = some (.directional, vkL, false) := by
      rw [routed_direct hfind, hdirect]
      cases s.isSuppressed vkL
      · exact .inr rfl
      · exact .inl rfl
    rcases hrouted with hrouted | hrouted
    · exact chord_of_unrouted hrouted
    · have hfence : s.lockFenced vkL .directional vkL = true := by
        rw [SnapClassify.lockFenced, hshift, hallow]
        rfl
      unfold SnapClassify.chord
      rw [hrouted, Option.filter_some, hfence]
      simp

theorem effectiveBinding_id : (effectiveBinding settings row).id = row.id := by
  unfold effectiveBinding
  dsimp only
  repeat' split
  all_goals rfl

theorem isChordKey_keyNames : ∀ key ∈ keyNames, SnapClassify.isChordKey key.1 = true := by
  decide +kernel

/-- The idle classifier of the settings at the modifiers of a chord. -/
def configured (settings : Settings) (c : Chord) : SnapClassify :=
  { probe c.shift c.ctrl c.alt true with
    vkRemap := buildRemap settings, vkDisabled := buildDisabled settings }

theorem configured_idle : Idle (configured settings c) settings :=
  ⟨rfl, rfl, fun _ => rfl, fun _ => rfl, fun _ => rfl, rfl, rfl⟩

/-- A row without a default chord that is rebound onto its canonical key is
listed and never consumed. -/
theorem unbound_disobeys (hv : Validated settings) (hrow : row ∈ bindingCatalog) {text : String}
    (hsetting : settings.bindings[row.id]? = some ⟨.rebind, some text⟩) (hparse : parseChord text = .ok c)
    (hcanon : bindingCanonicalVk row = some c.vk) (hunbound : row.defaults = [])
    (hobeys : ∀ s vk foreground, Idle s settings → SnapClassify.isChordKey vk = true →
      Obeys s settings vk foreground) : False := by
  have hvk : SnapClassify.isChordKey c.vk = true := isChordKey_keyNames _ (parseChord_key hparse)
  have hi : Idle (configured settings c) settings := configured_idle
  have hlive : c ∈ liveChords settings row := by
    unfold liveChords
    rw [hsetting]
    show c ∈ ((some text).bind fun text => (parseChord text).toOption).toList
    rw [Option.bind_some, toOption_eq_ok.mpr hparse]
    exact List.mem_singleton_self c
  have hkey : c.key = (configured settings c).liveKey c.vk := rfl
  have hlock : (configured settings c).lockPasses c.vk = false := Bool.and_false _
  obtain ⟨heffective, hlists⟩ := (lists_iff hrow).mpr ⟨c, hlive, hkey⟩
  have hanswer := (hobeys (configured settings c) c.vk true hi hvk).listed hlock _
    (List.mem_map_of_mem hrow) heffective hlists row hrow effectiveBinding_id.symm
  have hchord : (configured settings c).chord c.vk = none := by
    cases hfind : (configured settings c).vkRemap.find? ((configured settings c).names c.vk) with
    | some entry =>
      -- the entry would be the row's own, which has none
      obtain ⟨row', hrow', c', hc', canon, hkey', hcanon', hne, -⟩ := hi.remapped hv hfind
      obtain rfl := hv.apart row hrow row' hrow' c hlive c' hc' (hkey.trans hkey'.symm)
      have hvk' : c'.vk = c.vk := (Prod.mk.inj hkey').1
      exact absurd (hvk'.trans (Option.some.inj (hcanon.symm.trans hcanon'))) hne
    | none =>
      refine chord_of_unrouted ?_
      rw [routed_direct hfind]
      split
      · rfl
      · rename_i hsuppressed
        cases hdirect : (configured settings c).directAction c.vk with
        | none => rfl
        | some action =>
          -- another row's default, which that row no longer answers to
          obtain ⟨row', hrow', p, hp, hkey'⟩ := default_of_direct hi hdirect
          refine absurd (hi.isSuppressed.mpr ⟨row', hrow', p, hp, fun hplive => ?_, hkey'⟩) hsuppressed
          obtain rfl := hv.apart row hrow row' hrow' c hlive p hplive (hkey.trans hkey'.symm)
          rw [rowChords, hunbound] at hp
          cases hp
  rw [hi.push_none hvk hchord] at hanswer
  cases hanswer

/-- The keyboard does what the effective bindings say exactly when no row
without a default chord is rebound onto its own canonical key. -/
theorem keyboard_obeys_iff {styles : Except SettingsError Unit}
    (h : validateSettings styles settings = .ok ()) :
    (∀ s vk foreground, Idle s settings → SnapClassify.isChordKey vk = true →
      Obeys s settings vk foreground) ↔
      ∀ row ∈ bindingCatalog, ∀ text c, settings.bindings[row.id]? = some ⟨.rebind, some text⟩ →
        parseChord text = .ok c → bindingCanonicalVk row = some c.vk → row.defaults ≠ [] := by
  have hv := validated h
  constructor
  · intro hobeys row hrow text c hsetting hparse hcanon hunbound
    exact unbound_disobeys hv hrow hsetting hparse hcanon hunbound hobeys
  · intro hok s vk foreground hi hvk
    refine ⟨fun hlock binding hbinding heffective hlists row hrow hid => ?_, fun hunlisted => ?_⟩
    · obtain ⟨row', hrow', rfl⟩ := List.mem_map.mp hbinding
      have hid' : (effectiveBinding settings row').id = row'.id := effectiveBinding_id
      obtain rfl := List.inj_on_of_nodup_map bindingCatalog_ids hrow hrow' (hid.trans hid')
      obtain ⟨c, hc, hkey⟩ := (lists_iff hrow).mp ⟨heffective, hlists⟩
      exact hi.listed hv hvk hrow hc hkey hlock fun text => hok row hrow text c
    · refine hi.push_none hvk ?_
      rcases hunlisted with hlock | hunlisted
      · exact hi.locked hv hlock
      · refine hi.unlisted hv fun row hrow c hc hkey => ?_
        obtain ⟨heffective, hlists⟩ := (lists_iff hrow).mpr ⟨c, hc, hkey⟩
        exact hunlisted _ (List.mem_map_of_mem hrow) heffective hlists

/-! ## Sample documents -/

/-- A document of the default settings with one rebound row. -/
def rebound (id text : String) : Settings where
  v := schemaVersion
  revision := 1
  innerGap := 8
  outerGap := 8
  sameAxisMove := "group-with-neighbor"
  keyboard := ⟨true, false⟩
  bindings := (∅ : BTreeMap String BindingSetting).insert id ⟨.rebind, some text⟩

theorem rebound_bindings {id text other : String} :
    (rebound id text).bindings[other]? = if id = other then some ⟨.rebind, some text⟩ else none := by
  rw [rebound, lookup_insert]
  rfl

instance {styles : Except SettingsError Unit} : Decidable (validateSettings styles settings = .ok ()) :=
  match validateSettings styles settings with
  | .ok () => isTrue rfl
  | .error _ => isFalse fun h => by cases h

/-- Focus left on Win+A. -/
theorem keyboard_obeys_focusLeft : Obeys
    (configured (rebound "focus-left" "Win+A") ⟨false, false, false, 0x41, "A"⟩)
    (rebound "focus-left" "Win+A") 0x41 true := by
  have hvalid : validateSettings (.ok ()) (rebound "focus-left" "Win+A") = .ok () := by decide +kernel
  have hbound : ∀ row ∈ bindingCatalog, "focus-left" = row.id → row.defaults ≠ [] := by decide +kernel
  refine (keyboard_obeys_iff hvalid).mpr (fun row hrow text c hsetting _ _ => ?_) _ _ _
    configured_idle (by decide)
  rw [rebound_bindings] at hsetting
  split at hsetting
  · exact hbound row hrow ‹_›
  · cases hsetting

/-- The numbered send without follow on its own digit, on the Ctrl arm the row
is documented to take: listed, and not consumed. -/
theorem stayOnOwnDigit_passes : ¬∀ settings, validateSettings (.ok ()) settings = .ok () →
    ∀ s vk foreground, Idle s settings → SnapClassify.isChordKey vk = true →
      Obeys s settings vk foreground := by
  intro h
  have hvalid : validateSettings (.ok ()) (rebound "stay-workspace-1" "Win+Ctrl+Shift+1") = .ok () := by
    decide +kernel
  have hrow : (⟨"stay-workspace-1", .workspaceStay 1, [], true⟩ : BindingDef) ∈ bindingCatalog := by
    decide +kernel
  have hparse : (parseChord "Win+Ctrl+Shift+1").toOption = some ⟨true, false, true, 0x31, "1"⟩ := by
    decide +kernel
  exact unbound_disobeys (validated hvalid) hrow (rebound_bindings.trans (if_pos rfl))
    (toOption_eq_ok.mp hparse) rfl rfl (h _ hvalid)

end Snapkey

end PlasmaTiler
