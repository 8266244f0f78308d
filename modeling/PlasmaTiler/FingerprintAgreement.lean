import PlasmaTiler.MintedIds
import PlasmaTiler.PlanPayload

/-!
# Agreement on the fingerprint

The adapter hashes signed numbers, cut to 32 bits at every step, over the
code units of UTF-16; the planner hashes words over the bytes of UTF-8, and
each orders the windows by its own comparison. Over the letters of opaque ids
and decimals the units are the bytes and the orders agree, so the two
fingerprints are one. Beyond them they are not: a unit is cut to its low byte
by the product, and a character outside ASCII has more than one byte.

The relation that carries the proof is `Stands`: a number stands for a word
when their 32 bits are the same. Feeding one unit on the one side and one
byte on the other keeps it, so it goes through texts, separators, windows and
domains by the folds that both sides are written as.
-/

namespace PlasmaTiler

/-! ## Letters -/

theorem isTokenChar_ascii {c : Char} (h : isTokenChar c = true) : c.toNat < 128 := by
  have hupper : c.isUpper = decide ('A'.val ≤ c.val ∧ c.val ≤ 'Z'.val) := rfl
  have hlower : c.isLower = (decide ('a'.val ≤ c.val) && decide (c.val ≤ 'z'.val)) := rfl
  have halpha : c.isAlpha = (c.isUpper || c.isLower) := rfl
  simp only [isTokenChar, Char.isAlphanum, halpha, hupper, hlower, Char.isDigit,
    Bool.or_eq_true, Bool.and_eq_true, decide_eq_true_eq, beq_iff_eq,
    UInt32.le_iff_toNat_le, ge_iff_le] at h
  have hval : c.toNat = c.val.toNat := rfl
  have hZ : 'Z'.val.toNat = 90 := rfl
  have hz : 'z'.val.toNat = 122 := rfl
  have h9 : '9'.val.toNat = 57 := rfl
  rcases h with ((h | rfl) | rfl) | rfl
  · omega
  all_goals decide

theorem lettered_toString_int (n : Int) : Lettered (toString n) := by
  cases n with
  | ofNat n => exact lettered_toString n
  | negSucc n => exact Lettered.append (by decide) (lettered_toString (n + 1))

/-- A strict map keeps and reflects the order of lists. -/
theorem lex_map_iff {α β : Type} [LT α] [LT β] {f : α → β} (hlt : ∀ a b, f a < f b ↔ a < b)
    (hinj : f.Injective) {l m : List α} :
    List.Lex (· < ·) (l.map f) (m.map f) ↔ List.Lex (· < ·) l m := by
  induction l generalizing m with
  | nil =>
    cases m with
    | nil => simp
    | cons b m => simp
  | cons a l ih =>
    cases m with
    | nil => simp
    | cons b m => simp [List.cons_lex_cons_iff, hlt, hinj.eq_iff, ih]

namespace PlanAdapter

open Wire (ObservedDto DirectionalDomainDto)

/-! ## Texts -/

theorem codeUnits_ascii {c : Char} (h : c.toNat < 128) : codeUnits c = [c.toNat] := by
  have hwide : c.toNat < 0x10000 := by omega
  simp [codeUnits, hwide]

theorem utf8EncodeChar_ascii {c : Char} (h : c.toNat < 128) :
    String.utf8EncodeChar c = [UInt8.ofNat c.toNat] := by
  have hsize : c.utf8Size = 1 := by
    simp [Char.utf8Size, UInt32.le_iff_toNat_le]
    omega
  rw [String.utf8EncodeChar_eq_singleton hsize]
  rfl

theorem units_lettered {text : String} (h : Lettered text) :
    units text = text.toList.map Char.toNat := by
  rw [units, List.map_eq_flatMap]
  refine List.flatMap_congr fun c hc => ?_
  exact codeUnits_ascii (isTokenChar_ascii (h c hc))

/-- Over letters the units compare as the texts do. -/
theorem lex_units_iff {a b : String} (ha : Lettered a) (hb : Lettered b) :
    List.Lex (· < ·) (units a) (units b) ↔ a < b := by
  have hinj : Char.toNat.Injective := fun _ _ h => Char.ext (UInt32.toNat_inj.mp h)
  rw [units_lettered ha, units_lettered hb, lex_map_iff (f := Char.toNat) (fun _ _ => Iff.rfl) hinj]
  exact Iff.rfl

theorem sortByUnits_eq {α : Type} {key : α → String} {entries : List α}
    (h : ∀ entry ∈ entries, Lettered (key entry)) : sortByUnits key entries = sortByKey key entries := by
  have hsame := List.map_insertionSort
    (r := fun a b => ¬List.Lex (· < ·) (units (key b)) (units (key a)))
    (s := fun a b => key a ≤ key b) id entries fun a ha b hb => by
      rw [lex_units_iff (h b hb) (h a ha), not_lt]
      exact Iff.rfl
  rwa [List.map_id, List.map_id] at hsame

/-! ## Words -/

/-- The number stands for the word: cut to 32 bits they are the same. -/
def Stands (n : Int) (hash : UInt32) : Prop := BitVec.ofInt 32 n = hash.toBitVec

section
variable {n : Int} {hash : UInt32}

theorem Stands.feedCode (h : Stands n hash) (byte : UInt8) :
    Stands (feedCode n byte.toNat) (Wire.feedByte hash byte) := by
  have hbyte : BitVec.ofInt 32 (byte.toNat : Int) = byte.toUInt32.toBitVec := by
    rw [BitVec.ofInt_natCast, UInt8.toBitVec_toUInt32]
    exact BitVec.eq_of_toNat_eq (by simp)
  rw [Stands, PlanAdapter.feedCode, imul, xor32, BitVec.ofInt_toInt, BitVec.ofInt_toInt, hbyte, h]
  rfl

theorem Stands.codes (h : Stands n hash) {chars : List Char} (hchars : ∀ c ∈ chars, c.toNat < 128) :
    Stands ((chars.map Char.toNat).foldl
      (fun hash code => PlanAdapter.feedCode hash (code &&& 0xff)) n)
      ((chars.flatMap String.utf8EncodeChar).foldl Wire.feedByte hash) := by
  induction chars generalizing n hash with
  | nil => exact h
  | cons c chars ih =>
    have hcode : c.toNat &&& 0xff = (UInt8.ofNat c.toNat).toNat := by
      rw [UInt8.toNat_ofNat', show (0xff : Nat) = 2 ^ 8 - 1 from rfl,
        Nat.and_two_pow_sub_one_eq_mod]
    rw [List.map_cons, List.foldl_cons, List.flatMap_cons,
      utf8EncodeChar_ascii (hchars c List.mem_cons_self), List.singleton_append, List.foldl_cons,
      hcode]
    exact ih (h.feedCode _) fun c hc => hchars c (List.mem_cons_of_mem _ hc)

theorem Stands.feed (h : Stands n hash) {text : String} (htext : Lettered text) :
    Stands (feed n text) (Wire.feed hash (.text text)) := by
  rw [PlanAdapter.feed, units_lettered htext]
  exact h.codes fun c hc => isTokenChar_ascii (htext c hc)

/-- Whatever is fed step by step on both sides. -/
theorem Stands.foldl {α : Type} {entries : List α} {f : Int → α → Int} {g : UInt32 → α → UInt32}
    (h : Stands n hash) (hstep : ∀ entry ∈ entries, ∀ {n : Int} {hash : UInt32},
      Stands n hash → Stands (f n entry) (g hash entry)) :
    Stands (entries.foldl f n) (entries.foldl g hash) := by
  induction entries generalizing n hash with
  | nil => exact h
  | cons entry entries ih =>
    exact ih (hstep entry List.mem_cons_self h)
      fun entry hentry => hstep entry (List.mem_cons_of_mem _ hentry)

theorem Stands.separated (h : Stands n hash) {first : String} {rest : List String}
    (hfirst : Lettered first) (hrest : ∀ text ∈ rest, Lettered text) :
    Stands (feedSeparated n (first :: rest)) ((Wire.separated first rest).foldl Wire.feed hash) := by
  rw [feedSeparated, Wire.separated, List.foldl_cons, List.foldl_flatMap]
  refine (h.feed hfirst).foldl fun text htext n hash h => ?_
  exact (h.feedCode 0x1f).feed (hrest text htext)

end

/-! ## Evidence -/

/-- Whatever the domain names is spelled in letters. -/
structure PlanDomain.Lettered (entry : PlanDomain) : Prop where
  output : PlasmaTiler.Lettered entry.output
  workspace : PlasmaTiler.Lettered entry.workspace
  adjacent : ∀ name target : String, entry.adjacent[name]? = some target → PlasmaTiler.Lettered target

structure LetteredWindow (entry : ObservedDto) : Prop where
  window : Lettered entry.window
  output : Lettered entry.output
  workspace : Lettered entry.workspace

section
variable {n : Int} {hash : UInt32}

theorem PlanDomain.Lettered.side {entry : PlanDomain} (h : entry.Lettered) (name : String) :
    PlasmaTiler.Lettered (entry.adjacent[name]?.getD "") := by
  cases hside : entry.adjacent[name]? with
  | none => exact (by decide : PlasmaTiler.Lettered "")
  | some target => exact h.adjacent name target hside

theorem Stands.domain (h : Stands n hash) {entry : PlanDomain} (hentry : entry.Lettered) :
    Stands (feedDomain n entry) ((Wire.domainEvidence (wireDomain entry)).foldl Wire.feed hash) := by
  refine h.separated hentry.output ?_
  simp only [List.forall_mem_cons, List.not_mem_nil, false_imp_iff, implies_true, and_true]
  exact ⟨hentry.workspace, lettered_toString_int _, lettered_toString_int _,
    lettered_toString_int _, lettered_toString_int _, lettered_toString_int _,
    lettered_toString_int _, by decide, hentry.side _, by decide, hentry.side _, by decide,
    hentry.side _, by decide, hentry.side _⟩

theorem Stands.window (h : Stands n hash) {entry : ObservedDto} (hentry : LetteredWindow entry) :
    Stands (feedWindow n entry) ((Wire.windowEvidence entry).foldl Wire.feed hash) := by
  have hflag : ∀ flag : Bool, Lettered (if flag then "1" else "0") := by decide
  refine (h.feedCode 0x1f).separated hentry.window ?_
  simp only [List.forall_mem_cons, List.not_mem_nil, false_imp_iff, implies_true, and_true]
  exact ⟨hentry.output, hentry.workspace, lettered_toString_int _, lettered_toString_int _,
    lettered_toString_int _, lettered_toString_int _, hflag _, hflag _⟩

/-- Entries set apart by one piece, each but the first after it. -/
theorem flatten_intersperse {α : Type} (a : α) (first : List α) (rest : List (List α)) :
    ((first :: rest).intersperse [a]).flatten = first ++ rest.flatMap fun entry => a :: entry := by
  induction rest generalizing first with
  | nil => simp
  | cons second rest ih =>
    rw [List.intersperse_cons_cons, List.flatten_cons, List.flatten_cons, ih, List.flatMap_cons]
    simp

theorem Stands.domains (h : Stands n hash) {domains : List PlanDomain}
    (hdomains : ∀ entry ∈ domains, entry.Lettered) :
    Stands (feedDomains n domains)
      ((((domains.map wireDomain).map Wire.domainEvidence).intersperse [.sep 0x1e]).flatten.foldl
        Wire.feed hash) := by
  cases domains with
  | nil => exact h
  | cons first rest =>
    rw [List.map_cons, List.map_cons, flatten_intersperse, List.foldl_append, List.foldl_flatMap,
      List.foldl_map, List.foldl_map]
    refine (h.domain (hdomains first List.mem_cons_self)).foldl fun entry hentry n hash h => ?_
    rw [List.foldl_cons]
    have hsep : Stands (PlanAdapter.feedCode n 0x1e) (Wire.feed hash (.sep 0x1e)) := h.feedCode 0x1e
    exact hsep.domain (hdomains entry (List.mem_cons_of_mem _ hentry))

end

/-- Over letters the adapter computes the fingerprint the planner checks. -/
theorem planDirectionalFingerprint_eq {domains : List PlanDomain} {focusedId : String}
    {windows : List ObservedDto} (hdomains : ∀ entry ∈ domains, entry.Lettered)
    (hfocused : Lettered focusedId) (hwindows : ∀ entry ∈ windows, LetteredWindow entry) :
    planDirectionalFingerprint domains focusedId windows =
      Wire.directionalFingerprint (domains.map wireDomain) focusedId windows := by
  have hstart : Stands 2166136261 2166136261 := rfl
  have hsorted : sortByUnits ObservedDto.window windows = sortByKey ObservedDto.window windows :=
    sortByUnits_eq fun entry hentry => (hwindows entry hentry).window
  have heach : ∀ entry ∈ sortByKey ObservedDto.window windows, ∀ {n : Int} {hash : UInt32},
      Stands n hash → Stands (feedWindow n entry) ((Wire.windowEvidence entry).foldl Wire.feed hash) :=
    fun entry hentry _ _ h => h.window (hwindows entry (perm_sortByKey.mem_iff.mp hentry))
  have hstands := (((hstart.domains hdomains).feedCode 0x1f).feed hfocused).foldl heach
  rw [planDirectionalFingerprint, Wire.directionalFingerprint, unsigned, hsorted,
    Wire.directionalEvidence, List.foldl_append, List.foldl_cons, List.foldl_cons,
    List.foldl_flatMap]
  exact congrArg BitVec.toNat hstands

end PlanAdapter

end PlasmaTiler
