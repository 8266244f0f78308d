import Mathlib.Data.String.Basic

/-!
# Strings in JSON texts

The writer's side of a JSON string, for the places where a *length* is
compared with a bound: a text is refused, dropped or replaced when it has too
many bytes, and how many it has depends on what the writer escapes.

A writer quotes the text and escapes the quotation mark, the backslash and the
control characters: the five with a letter of their own by that letter, the
others by four hexadecimal digits. Everything else, characters outside ASCII
among it, is written as it stands. So the bytes of a written string are those
of the text and two quotes, unless something is escaped; and text over the
letters of an id never is (`Plain`).
-/

namespace PlasmaTiler

namespace JsonText

/-! ## Writing -/

/-- The escapes of a JSON string. -/
def escapeChar (c : Char) : String :=
  if c = '\x22' then "\\\""
  else if c = '\x5c' then "\\\\"
  else if c = '\x08' then "\\b"
  else if c = '\t' then "\\t"
  else if c = '\n' then "\\n"
  else if c = '\x0c' then "\\f"
  else if c = '\r' then "\\r"
  else if c.toNat < 32 then "\\u00" ++ String.ofList [Nat.digitChar (c.toNat / 16), Nat.digitChar (c.toNat % 16)]
  else String.singleton c

def jsonString (value : String) : String :=
  "\"" ++ (value.toList.map escapeChar).foldr (· ++ ·) "" ++ "\""

/-! ## Lengths -/

section
variable {value : String}

/-- Nothing in the text is escaped: no control character, quote or backslash,
and no space or exclamation mark either, which ids do not have. -/
def Plain (value : String) : Prop := ∀ c ∈ value.toList, 35 ≤ c.toNat ∧ c.toNat ≠ 92

theorem escapeChar_plain {c : Char} (h : 35 ≤ c.toNat) (hne : c.toNat ≠ 92) :
    escapeChar c = String.singleton c := by
  have hnot : ∀ d : Char, d.toNat < 35 ∨ d.toNat = 92 → c ≠ d := by
    rintro d hd rfl
    omega
  unfold escapeChar
  rw [if_neg (hnot _ (by decide)), if_neg (hnot _ (by decide)), if_neg (hnot _ (by decide)),
    if_neg (hnot _ (by decide)), if_neg (hnot _ (by decide)), if_neg (hnot _ (by decide)),
    if_neg (hnot _ (by decide)), if_neg (by omega)]

theorem jsonString_plain (h : Plain value) : jsonString value = "\"" ++ value ++ "\"" := by
  have hchars : ∀ chars : List Char, (∀ c ∈ chars, 35 ≤ c.toNat ∧ c.toNat ≠ 92) →
      (chars.map escapeChar).foldr (· ++ ·) "" = String.ofList chars := by
    intro chars hchars
    induction chars with
    | nil => rfl
    | cons c chars ih =>
      obtain ⟨hlow, hne⟩ := hchars c List.mem_cons_self
      rw [List.map_cons, List.foldr_cons, escapeChar_plain hlow hne,
        ih fun c hc => hchars c (List.mem_cons_of_mem _ hc), ← List.singleton_append,
        String.ofList_append]
      rfl
  rw [jsonString, hchars _ h, String.ofList_toList]

/-- A plain string is written with two quotes. -/
theorem size_jsonString (h : Plain value) : (jsonString value).utf8ByteSize = value.utf8ByteSize + 2 := by
  rw [jsonString_plain h, String.utf8ByteSize_append, String.utf8ByteSize_append]
  change 1 + value.utf8ByteSize + 1 = value.utf8ByteSize + 2
  omega

end

end JsonText

end PlasmaTiler
