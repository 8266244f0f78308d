import PlasmaTiler.Collections
import PlasmaTiler.JsonText

/-!
# Opaque identities

Output, workspace, node and window ids are opaque strings: the core only
ever compares them and, for node ids, mints fresh ones by formatting.
One definition covers the four namespaces; the sort parameter keeps a
window id from being used where a node id is meant.

Owner, generation and correlation tokens are different: they are built
only by a fallible parser, so a token carries the proof that its text was
accepted.
-/

namespace PlasmaTiler

/-! ## Opaque ids -/

/-- The id namespaces of the core. -/
inductive IdSort
  | output
  | workspace
  | node
  | window
deriving DecidableEq, Repr

/-- An opaque id of one namespace. -/
structure Id (s : IdSort) where
  raw : String
deriving DecidableEq, Repr

abbrev OutputId := Id .output
abbrev WorkspaceId := Id .workspace
/-- Leaves and groups share one namespace. -/
abbrev NodeId := Id .node
abbrev WindowId := Id .window

namespace Id

variable {s : IdSort}

@[ext] theorem ext {a b : Id s} (h : a.raw = b.raw) : a = b := by
  cases a; cases b; simp_all

instance : Ord (Id s) := ⟨compareOn Id.raw⟩

instance : Std.TransOrd (Id s) := inferInstanceAs (Std.TransCmp (compareOn Id.raw))

instance : Std.LawfulEqOrd (Id s) where
  eq_of_compare {a b} h := Id.ext (Std.LawfulEqOrd.eq_of_compare (a := a.raw) (b := b.raw) h)

instance : Inhabited (Id s) := ⟨⟨""⟩⟩

def isEmpty (a : Id s) : Bool := a.raw.isEmpty

end Id

/-! ## Session tokens -/

/-- Opaque owner token bound. -/
def maxOwnerLen : Nat := 128
/-- Opaque generation bound. -/
def maxGenerationLen : Nat := 64
/-- Opaque correlation bound. -/
def maxCorrelationLen : Nat := 128

/-- Nonempty, bounded in bytes, and over the given alphabet: the shape every
token family shares. -/
def isToken (maxLen : Nat) (allowed : Char → Bool) (value : String) : Bool :=
  !value.isEmpty && decide (value.utf8ByteSize ≤ maxLen) && value.toList.all allowed

/-- `[A-Za-z0-9-_.]`: every byte of the text is one of these exactly when
every character is, since they are all ASCII. -/
def isTokenChar (c : Char) : Bool :=
  c.isAlphanum || c == '-' || c == '_' || c == '.'

def isOwnerId (value : String) : Bool := isToken maxOwnerLen isTokenChar value

def isCorrelationId (value : String) : Bool := isToken maxCorrelationLen isTokenChar value

/-- Lowercase letters, digits and dashes only. -/
def isGenerationId (value : String) : Bool :=
  isToken maxGenerationLen (fun c => c.isLower || c.isDigit || c == '-') value

/-- A token whose text was accepted by `valid`; there is no other way to
build one. -/
structure Token (valid : String → Bool) where
  asStr : String
  valid_asStr : valid asStr = true
deriving DecidableEq, Repr

@[ext] theorem Token.ext {valid : String → Bool} {a b : Token valid} (h : a.asStr = b.asStr) :
    a = b := by
  cases a; cases b; cases h; rfl

/-- Bounded validated construction; `none` on any malformed input. -/
def Token.parse (valid : String → Bool) (value : String) : Option (Token valid) :=
  if h : valid value = true then some ⟨value, h⟩ else none

abbrev OwnerId := Token isOwnerId
abbrev GenerationId := Token isGenerationId
abbrev CorrelationId := Token isCorrelationId

/-! ## Tokens in texts -/

theorem tokenChar_plain {c : Char} (h : isTokenChar c = true) : 35 ≤ c.toNat ∧ c.toNat ≠ 92 := by
  change ((((decide (65 ≤ c.val ∧ c.val ≤ 90) ||
    (decide (97 ≤ c.val) && decide (c.val ≤ 122))) || c.isDigit) || c == '-') || c == '_' ||
    c == '.') = true at h
  simp only [Char.isDigit, Bool.or_eq_true, Bool.and_eq_true, decide_eq_true_eq, beq_iff_eq,
    ge_iff_le, UInt32.le_iff_toNat_le] at h
  change (((((65 ≤ c.toNat ∧ c.toNat ≤ 90) ∨ (97 ≤ c.toNat ∧ c.toNat ≤ 122)) ∨
    (48 ≤ c.toNat ∧ c.toNat ≤ 57)) ∨ c = '-') ∨ c = '_') ∨ c = '.' at h
  rcases h with ((h | rfl) | rfl) | rfl
  · omega
  · decide
  · decide
  · decide

/-- A token is written as it stands. -/
theorem plain_of_isToken {maxLen : Nat} {value : String}
    (h : isToken maxLen isTokenChar value = true) : JsonText.Plain value := by
  intro c hc
  unfold isToken at h
  exact tokenChar_plain (List.all_eq_true.mp (Bool.and_eq_true_iff.mp h).2 c hc)

end PlasmaTiler
