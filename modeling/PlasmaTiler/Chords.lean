import PlasmaTiler.Bindings
import Mathlib.Data.List.Nodup
import Mathlib.Order.Defs.LinearOrder

/-!
# Chord texts

A chord is its key and its modifiers: the name of a key is fixed by its code,
so two parsed chords with one key and one set of modifiers are equal, and a
parsed chord survives rendering and parsing (`parseChord_renderChord`). That
is what makes comparing rendered texts, as the validation does, the same as
comparing chords.

The round trip goes token by token: a chord renders to tokens joined by plus
signs, none of which contains one, and the scan reads each of them back. The
catalog is finite, so what its rows say is evaluated once, row by row.
-/

namespace PlasmaTiler

namespace Snapkey

variable {vk : Vk} {c c' : Chord} {text : String}

/-! ## Key names -/

/-- The key names a chord may use. -/
def keyNames : List (Vk × String) :=
  (vkTab, "Tab") :: letterNames.zipIdx.map (fun (text, i) => ('A'.toNat + i, text)) ++
    digitNames.zipIdx.map (fun (text, i) => ('0'.toNat + i, text)) ++
    arrowNames.map (fun (text, vk) => (vk, text)) ++
    functionNames.zipIdx.map fun (text, i) => (0x70 + i, text)

theorem keyNames_unique : (keyNames.map Prod.fst).Nodup := by decide +kernel

/-- Only ASCII characters name a key alone. -/
theorem ascii_of_named {a : Char} (h : a.isAlpha = true ∨ a.isDigit = true) : a.toNat < 128 := by
  change (decide (65 ≤ a.val ∧ a.val ≤ 90) ||
    (decide (97 ≤ a.val) && decide (a.val ≤ 122))) = true ∨ a.isDigit = true at h
  simp only [Char.isDigit, Bool.or_eq_true, Bool.and_eq_true, decide_eq_true_eq,
    UInt32.le_iff_toNat_le] at h
  have hval : a.toNat = a.val.toNat := rfl
  rw [hval]
  rcases h with (h | h) | h
  · exact Nat.lt_of_le_of_lt h.2 (by decide)
  · exact Nat.lt_of_le_of_lt h.2 (by decide)
  · exact Nat.lt_of_le_of_lt h.2 (by decide)

theorem vkForKeyName_char : ∀ n < 128, ∀ key ∈ vkForKeyName [Char.ofNat n], key ∈ keyNames := by
  decide +kernel

theorem vkForKeyName_mem {name : List Char} {key : Vk × String} (h : vkForKeyName name = some key) :
    key ∈ keyNames := by
  have hwhole := h
  unfold vkForKeyName at h
  split at h
  · obtain rfl := Option.some.inj h
    exact List.mem_cons_self
  · split at h
    · rename_i a _
      by_cases hascii : a.toNat < 128
      · refine vkForKeyName_char a.toNat hascii key ?_
        rw [Char.ofNat_toNat]
        exact hwhole
      · rw [if_neg fun halpha => hascii (ascii_of_named (.inl halpha)),
          if_neg fun hdigit => hascii (ascii_of_named (.inr hdigit))] at h
        cases h
    · split at h
      · rename_i harrow
        obtain rfl := Option.some.inj h
        have hmem := List.mem_of_find?_eq_some harrow
        have harrows : ∀ entry ∈ arrowNames, (entry.2, entry.1) ∈ keyNames := by decide +kernel
        exact harrows _ hmem
      · split at h
        · split at h
          · dsimp only at h
            split at h
            · rename_i hrange
              have hfunctions : ∀ n ≤ 24, 1 ≤ n → ∀ text ∈ functionNames[n - 1]?,
                  (0x6F + n, text) ∈ keyNames := by decide +kernel
              obtain ⟨text, htext, rfl⟩ := Option.map_eq_some_iff.mp h
              exact hfunctions _ hrange.2 hrange.1 text htext
            · cases h
          · cases h
        · cases h

/-! ## Parsed chords -/

/-- One token names a known key or none. -/
theorem scanToken_key {scan scan' : ChordScan} {raw : List Char} (h : scanToken scan raw = .ok scan')
    (hkey : ∀ key ∈ scan.key, key ∈ keyNames) : ∀ key ∈ scan'.key, key ∈ keyNames := by
  unfold scanToken at h
  dsimp only at h
  repeat' split at h
  any_goals (cases h; done)
  all_goals try (cases h; exact hkey)
  rename_i key _ hnamed
  cases h
  intro other hother
  obtain rfl := Option.some.inj (Option.mem_def.mp hother)
  exact vkForKeyName_mem hnamed

theorem scan_key {tokens : List (List Char)} {scan scan' : ChordScan}
    (h : tokens.foldlM scanToken scan = .ok scan') (hkey : ∀ key ∈ scan.key, key ∈ keyNames) :
    ∀ key ∈ scan'.key, key ∈ keyNames := by
  induction tokens generalizing scan with
  | nil =>
    cases h
    exact hkey
  | cons token rest ih =>
    rw [List.foldlM_cons] at h
    cases hstep : scanToken scan token with
    | error usage =>
      rw [hstep] at h
      cases h
    | ok next =>
      rw [hstep] at h
      exact ih h (scanToken_key hstep hkey)

theorem parseChord_key (h : parseChord text = .ok c) : (c.vk, c.keyName) ∈ keyNames := by
  unfold parseChord at h
  dsimp only at h
  split at h
  · cases h
  · rename_i scan hscan
    split at h
    · cases h
    · split at h
      · cases h
      · rename_i vk keyName hkey
        cases h
        exact scan_key hscan (fun _ hnone => by cases hnone) _ hkey

/-- Key and modifiers. -/
abbrev Key := Vk × Bool × Bool × Bool

def Chord.key (c : Chord) : Key := (c.vk, c.shift, c.ctrl, c.alt)

/-- A parsed chord is its key and its modifiers. -/
theorem parseChord_unique {text' : String} (h : parseChord text = .ok c)
    (h' : parseChord text' = .ok c') (hkey : c.key = c'.key) : c = c' := by
  obtain ⟨shift, alt, ctrl, vk, keyName⟩ := c
  obtain ⟨shift', alt', ctrl', vk', keyName'⟩ := c'
  simp only [Chord.key, Prod.mk.injEq] at hkey
  obtain ⟨rfl, rfl, rfl, rfl⟩ := hkey
  have hentry := List.inj_on_of_nodup_map keyNames_unique (parseChord_key h) (parseChord_key h') rfl
  have hname : keyName = keyName' := (Prod.mk.inj hentry).2
  rw [hname]

theorem splitPlus_ne_nil {cs : List Char} : splitPlus cs ≠ [] := by
  cases cs with
  | nil => exact List.cons_ne_nil _ _
  | cons a rest =>
    rw [splitPlus]
    split
    · exact List.cons_ne_nil _ _
    · split <;> exact List.cons_ne_nil _ _

theorem splitPlus_append {before after : List Char} :
    splitPlus (before ++ '+' :: after) = splitPlus before ++ splitPlus after := by
  induction before with
  | nil =>
    show splitPlus ('+' :: after) = [] :: splitPlus after
    rw [splitPlus]
    cases hafter : splitPlus after with
    | nil => exact absurd hafter splitPlus_ne_nil
    | cons part parts => exact if_pos rfl
  | cons a rest ih =>
    rw [List.cons_append, splitPlus, splitPlus, ih]
    cases hrest : splitPlus rest with
    | nil => exact absurd hrest splitPlus_ne_nil
    | cons part parts =>
      rw [List.cons_append]
      dsimp only
      split <;> rfl

theorem splitPlus_whole {part : List Char} (h : '+' ∉ part) : splitPlus part = [part] := by
  induction part with
  | nil => rfl
  | cons a rest ih =>
    rw [List.mem_cons, not_or] at h
    rw [splitPlus, ih h.2]
    dsimp only
    rw [if_neg fun heq => h.1 heq.symm]

/-- A chord without its key. -/
def chordHead (shift alt ctrl : Bool) : String :=
  "Win" ++ (if shift then "+Shift" else "") ++ (if alt then "+Alt" else "") ++
    (if ctrl then "+Ctrl" else "")

theorem scan_chordHead : ∀ shift alt ctrl : Bool,
    ((splitPlus (chordHead shift alt ctrl).toList).foldlM scanToken
      ⟨false, false, false, false, none⟩).toOption = some ⟨true, shift, alt, ctrl, none⟩ := by
  decide +kernel

theorem scanToken_keyName : ∀ key ∈ keyNames, '+' ∉ key.2.toList ∧ (trim key.2.toList).isEmpty = false ∧
    eqIgnoreCase (trim key.2.toList) "win" = false ∧ eqIgnoreCase (trim key.2.toList) "shift" = false ∧
    eqIgnoreCase (trim key.2.toList) "alt" = false ∧ eqIgnoreCase (trim key.2.toList) "ctrl" = false ∧
    vkForKeyName (trim key.2.toList) = some key := by
  decide +kernel

/-- A parsed chord survives rendering and parsing: the rendered text splits at
its plus signs into the modifiers and the key's name, which scan to what they
came from. -/
theorem parseChord_renderChord (h : parseChord text = .ok c) : parseChord (renderChord c) = .ok c := by
  obtain ⟨shift, alt, ctrl, vk, keyName⟩ := c
  obtain ⟨hplus, hempty, hwin, hshift, halt, hctrl, hnamed⟩ := scanToken_keyName _ (parseChord_key h)
  dsimp only at hplus hempty hwin hshift halt hctrl hnamed
  have htokens : splitPlus (renderChord ⟨shift, alt, ctrl, vk, keyName⟩).toList =
      splitPlus (chordHead shift alt ctrl).toList ++ [keyName.toList] := by
    have hlist : (renderChord ⟨shift, alt, ctrl, vk, keyName⟩).toList =
        (chordHead shift alt ctrl).toList ++ '+' :: keyName.toList := by
      rw [show renderChord ⟨shift, alt, ctrl, vk, keyName⟩ =
        chordHead shift alt ctrl ++ "+" ++ keyName from rfl, String.toList_append,
        String.toList_append, List.append_assoc]
      rfl
    rw [hlist, splitPlus_append, splitPlus_whole hplus]
  have hhead : (splitPlus (chordHead shift alt ctrl).toList).foldlM scanToken
      ⟨false, false, false, false, none⟩ = .ok ⟨true, shift, alt, ctrl, none⟩ := by
    have hoption := scan_chordHead shift alt ctrl
    revert hoption
    cases (splitPlus (chordHead shift alt ctrl).toList).foldlM scanToken
      ⟨false, false, false, false, none⟩ with
    | error usage => exact fun hnone => by cases hnone
    | ok scan => exact fun hsome => congrArg Except.ok (Option.some.inj hsome)
  have hkey : scanToken ⟨true, shift, alt, ctrl, none⟩ keyName.toList =
      .ok ⟨true, shift, alt, ctrl, some (vk, keyName)⟩ := by
    unfold scanToken
    dsimp only
    rw [hempty, hwin, hshift, halt, hctrl, hnamed]
    rfl
  have hscan : (splitPlus (renderChord ⟨shift, alt, ctrl, vk, keyName⟩).toList).foldlM scanToken
      ⟨false, false, false, false, none⟩ = .ok ⟨true, shift, alt, ctrl, some (vk, keyName)⟩ := by
    rw [htokens, List.foldlM_append, hhead]
    show ([keyName.toList].foldlM scanToken ⟨true, shift, alt, ctrl, none⟩) = _
    rw [List.foldlM_cons, hkey]
    rfl
  have hlength : ¬(splitPlus (renderChord ⟨shift, alt, ctrl, vk, keyName⟩).toList).length < 2 := by
    have hpos : 0 < (splitPlus (chordHead shift alt ctrl).toList).length :=
      List.length_pos_of_ne_nil splitPlus_ne_nil
    rw [htokens, List.length_append, List.length_singleton]
    omega
  unfold parseChord
  dsimp only
  rw [hscan]
  dsimp only
  rw [decide_eq_false hlength]
  rfl

end Snapkey

end PlasmaTiler
