import PlasmaTiler.Events

/-!
# The float-intent store

The planner service keeps the settled float intent and the tile overrides in
one private file. A write normalizes both lists and replaces the file; a read
parses it back and answers with both lists, for the bus and the owner it was
written under and for no other.

Three texts are involved, the request, the file and the reply, and each is
refused when it is too long. They have the same bound, but not the same
envelope: the reply carries a correlation and two counts that the file does
not. So a snapshot can be accepted and stored, and the answer that reads it
back be refused for its size. `snapshot_readsBack_iff` gives the exact
condition, in bytes of the ids and digits of the counts; the lengths of the
texts are computed from the characters, none of which needs an escape once
the ids are opaque.

Reading the JSON of the file is a parameter, with the one assumption that it
reads what was written.
-/

namespace PlasmaTiler

open JsonText

namespace FloatIntentStore

/-! ## Ids -/

def maxFloatMembers : Nat := 1024
def maxTileMembers : Nat := 1024
def maxNamespaceFieldLen : Nat := 256
def maxStoreFileBytes : Nat := 262144
def intentMaxReplyBytes : Nat := 262144
def intentStoreVersion : Nat := 1

def validNamespaceField (value : String) : Bool :=
  !value.isEmpty && decide (value.utf8ByteSize ≤ maxNamespaceFieldLen) &&
    value.toList.all fun c => isTokenChar c || c == ':' || c == '\x7b' || c == '\x7d'

/-- The serving bus and the current owner; both fields are bounded tokens. -/
@[ext] structure IntentNamespace where
  busId : String
  kwinOwner : String
  busId_valid : validNamespaceField busId = true
  kwinOwner_valid : validNamespaceField kwinOwner = true
deriving DecidableEq

def isHexDigit (c : Char) : Bool :=
  c.isDigit || decide ('a' ≤ c ∧ c ≤ 'f') || decide ('A' ≤ c ∧ c ≤ 'F')

def isUuidText (text : List Char) : Bool :=
  let parts := text.splitOn '-'
  parts.length == 5 && (parts.zip [8, 4, 4, 4, 12]).all fun (part, len) =>
    part.length == len && part.all isHexDigit

/-- An opaque id as it is, a braced UUID without its braces. -/
def normalizeMemberId (value : String) : Option String :=
  if isOpaqueId value then some value
  else if value.utf8ByteSize = 38 ∧ value.toList.head? = some '\x7b' ∧
      value.toList.getLast? = some '\x7d' then
    let inner := (value.toList.drop 1).dropLast
    if isUuidText inner && isOpaqueId (String.ofList inner) then some (String.ofList inner) else none
  else none

def normalizeAll (members : List String) : Except String (List String) :=
  if maxFloatMembers < members.length then .error "invalid-members"
  else
    match members.mapM normalizeMemberId with
    | none => .error "invalid-members"
    | some out => if out.Nodup then .ok out else .error "invalid-members"

/-! ## Texts -/

def jsonArray (values : List String) : String :=
  "[" ++ ",".intercalate (values.map jsonString) ++ "]"

structure StoreFile where
  v : Nat
  bus : String
  kwin : String
  members : List String
  tile : List String
deriving DecidableEq

def StoreFile.toJson (file : StoreFile) : String :=
  "\x7b\"v\":" ++ toString file.v ++ ",\"bus\":" ++ jsonString file.bus ++ ",\"kwin\":" ++
    jsonString file.kwin ++ ",\"members\":" ++ jsonArray file.members ++ ",\"tile\":" ++
    jsonArray file.tile ++ "\x7d"

def sanitizeCorrelation (value : String) : String := if isCorrelationId value then value else "-"

def readOkReply (correlation : String) (members : List String) (stored : Nat)
    (tileMembers : List String) (tileStored : Nat) : String :=
  "\x7b\"correlation_id\":" ++ jsonString (sanitizeCorrelation correlation) ++ ",\"members\":" ++
    jsonArray members ++ ",\"outcome\":\"ok\",\"returned\":" ++ toString members.length ++
    ",\"stored\":" ++ toString stored ++ ",\"tile\":" ++ jsonArray tileMembers ++
    ",\"tile_returned\":" ++ toString tileMembers.length ++ ",\"tile_stored\":" ++
    toString tileStored ++ ",\"v\":1\x7d"

/-! ## Writing and reading -/

def storeFile (ns : IntentNamespace) (members tile : List String) : StoreFile :=
  ⟨intentStoreVersion, ns.busId, ns.kwinOwner, members, tile⟩

/-- The file written, and the counts; the directory lets itself be written or
not. -/
def writeBoth (writable : Bool) (ns : IntentNamespace) (members tile : List String) :
    Except String (String × Nat × Nat) := do
  let normalized ← normalizeAll members
  let normalizedTile ← normalizeAll tile
  if maxTileMembers < normalizedTile.length then .error "invalid-members"
  else if normalized.any normalizedTile.contains then .error "invalid-members"
  else
    let body := (storeFile ns normalized normalizedTile).toJson
    if maxStoreFileBytes < body.utf8ByteSize then .error "invalid-members"
    else if !writable then .error "store-unavailable"
    else .ok (body, normalized.length, normalizedTile.length)

/-- `fromSlice` is the JSON reader. -/
def parseStoreBytes (fromSlice : String → Option StoreFile) (bytes : String) (ns : IntentNamespace) :
    Except String (List String × List String) :=
  match fromSlice bytes with
  | none => .error "corrupt"
  | some file =>
    if file.v ≠ intentStoreVersion then .error "corrupt"
    else if file.bus ≠ ns.busId ∨ file.kwin ≠ ns.kwinOwner then .error "namespace-mismatch"
    else do
      let members ← (normalizeAll file.members).mapError fun _ => "corrupt"
      let tile ← (normalizeAll file.tile).mapError fun _ => "corrupt"
      if members.any tile.contains then .error "corrupt" else .ok (members, tile)

/-! ## Normalized lists -/

section
variable {value id : String} {members tile out : List String}

theorem normalizeMemberId_opaque (h : normalizeMemberId value = some id) : isOpaqueId id = true := by
  unfold normalizeMemberId at h
  split at h
  · rename_i hopaque
    cases h
    exact hopaque
  · split at h
    · simp only at h
      split at h
      · rename_i hinner
        cases h
        exact (Bool.and_eq_true_iff.mp hinner).2
      · cases h
    · cases h

theorem normalizeMemberId_of_opaque (h : isOpaqueId id = true) : normalizeMemberId id = some id := by
  rw [normalizeMemberId, if_pos h]

/-- What a normalized list is: bounded in length, free of duplicates, and of
opaque ids only. -/
structure Normalized (out : List String) : Prop where
  bounded : out.length ≤ maxFloatMembers
  nodup : out.Nodup
  ids : ∀ id ∈ out, isOpaqueId id = true

theorem mapM_normalize_opaque (h : members.mapM normalizeMemberId = some out) :
    ∀ id ∈ out, isOpaqueId id = true := by
  induction members generalizing out with
  | nil =>
    cases h
    nofun
  | cons value members ih =>
    rw [List.mapM_cons] at h
    obtain ⟨first, hfirst, h⟩ := Option.bind_eq_some_iff.mp h
    obtain ⟨rest, hrest, h⟩ := Option.bind_eq_some_iff.mp h
    cases h
    intro id hid
    rcases List.mem_cons.mp hid with rfl | hid
    · exact normalizeMemberId_opaque hfirst
    · exact ih hrest id hid

theorem mapM_normalize_of_opaque (h : ∀ id ∈ out, isOpaqueId id = true) :
    out.mapM normalizeMemberId = some out := by
  induction out with
  | nil => rfl
  | cons id out ih =>
    rw [List.mapM_cons, normalizeMemberId_of_opaque (h id List.mem_cons_self),
      ih fun id hid => h id (List.mem_cons_of_mem _ hid)]
    rfl

theorem mapM_normalize_length (h : members.mapM normalizeMemberId = some out) :
    out.length = members.length := by
  induction members generalizing out with
  | nil =>
    cases h
    rfl
  | cons value members ih =>
    rw [List.mapM_cons] at h
    obtain ⟨first, -, h⟩ := Option.bind_eq_some_iff.mp h
    obtain ⟨rest, hrest, h⟩ := Option.bind_eq_some_iff.mp h
    cases h
    rw [List.length_cons, List.length_cons, ih hrest]

theorem normalizeAll_normalized (h : normalizeAll members = .ok out) : Normalized out := by
  unfold normalizeAll at h
  split at h
  · cases h
  · rename_i hbounded
    split at h
    · cases h
    · rename_i hmapped
      split at h
      · rename_i hnodup
        cases h
        refine ⟨?_, hnodup, mapM_normalize_opaque hmapped⟩
        rw [mapM_normalize_length hmapped]
        exact Nat.le_of_not_lt hbounded
      · cases h

theorem normalizeAll_of_normalized (h : Normalized out) : normalizeAll out = .ok out := by
  rw [normalizeAll, if_neg (Nat.not_lt.mpr h.bounded), mapM_normalize_of_opaque h.ids]
  exact if_pos h.nodup

end

/-! ## Sizes -/

section
variable {value id correlation : String} {ids members tile : List String} {ns : IntentNamespace}

theorem plain_of_opaque (h : isOpaqueId id = true) : Plain id := plain_of_isToken h

theorem plain_of_namespace (h : validNamespaceField value = true) : Plain value := by
  intro c hc
  have hallowed := List.all_eq_true.mp (Bool.and_eq_true_iff.mp h).2 c hc
  simp only [Bool.or_eq_true, beq_iff_eq] at hallowed
  rcases hallowed with ((htoken | rfl) | rfl) | rfl
  · exact tokenChar_plain htoken
  · decide
  · decide
  · decide

theorem plain_sanitized : Plain (sanitizeCorrelation correlation) := by
  intro c hc
  unfold sanitizeCorrelation at hc
  split at hc
  · rename_i h
    exact plain_of_isToken h c hc
  · obtain rfl : c = '-' := by simpa using hc
    decide

/-- The bytes of the ids with their quotes and commas. -/
def idBytes (ids : List String) : Nat := (ids.map fun id => id.utf8ByteSize + 3).sum - 1

/-- The digits of a count. -/
def digits (n : Nat) : Nat := (toString n).utf8ByteSize

theorem size_jsonArray (h : ∀ id ∈ ids, Plain id) :
    (jsonArray ids).utf8ByteSize = idBytes ids + 2 := by
  have hjoined : (",".intercalate (ids.map jsonString)).utf8ByteSize = idBytes ids := by
    induction ids with
    | nil => rfl
    | cons id ids ih =>
      have hid := size_jsonString (h id List.mem_cons_self)
      have hrest := ih fun id hid => h id (List.mem_cons_of_mem _ hid)
      cases ids with
      | nil =>
        rw [List.map_cons, List.map_nil, String.intercalate_singleton, hid]
        rfl
      | cons other ids =>
        rw [List.map_cons] at hrest
        rw [List.map_cons, List.map_cons]
        rw [String.intercalate_cons_cons, String.utf8ByteSize_append, String.utf8ByteSize_append, hid,
          hrest]
        change id.utf8ByteSize + 2 + 1 + idBytes (other :: ids) = idBytes (id :: other :: ids)
        simp only [idBytes, List.map_cons, List.sum_cons]
        omega
  rw [jsonArray, String.utf8ByteSize_append, String.utf8ByteSize_append, hjoined]
  change 1 + idBytes ids + 1 = idBytes ids + 2
  omega

theorem size_storeFile (hmembers : ∀ id ∈ members, Plain id) (htile : ∀ id ∈ tile, Plain id) :
    (storeFile ns members tile).toJson.utf8ByteSize =
      ns.busId.utf8ByteSize + ns.kwinOwner.utf8ByteSize + idBytes members + idBytes tile + 49 := by
  have hv : ("\x7b\"v\":" : String).utf8ByteSize = 5 := rfl
  have hone : (toString intentStoreVersion).utf8ByteSize = 1 := by decide
  have hbus : (",\"bus\":" : String).utf8ByteSize = 7 := rfl
  have hkwin : (",\"kwin\":" : String).utf8ByteSize = 8 := rfl
  have hlist : (",\"members\":" : String).utf8ByteSize = 11 := rfl
  have htiles : (",\"tile\":" : String).utf8ByteSize = 8 := rfl
  have hend : ("\x7d" : String).utf8ByteSize = 1 := rfl
  unfold StoreFile.toJson storeFile
  dsimp only
  -- numbers are texts here and below, or their digits would be computed
  generalize toString intentStoreVersion = version at hone ⊢
  simp only [String.utf8ByteSize_append, size_jsonString (plain_of_namespace ns.busId_valid),
    size_jsonString (plain_of_namespace ns.kwinOwner_valid), size_jsonArray hmembers,
    size_jsonArray htile, hv, hone, hbus, hkwin, hlist, htiles, hend]
  omega

theorem size_readOkReply (hmembers : ∀ id ∈ members, Plain id) (htile : ∀ id ∈ tile, Plain id) :
    (readOkReply correlation members members.length tile tile.length).utf8ByteSize =
      (sanitizeCorrelation correlation).utf8ByteSize + idBytes members + idBytes tile +
        2 * digits members.length + 2 * digits tile.length + 119 := by
  have hcorrelation : ("\x7b\"correlation_id\":" : String).utf8ByteSize = 18 := by decide
  have hlist : (",\"members\":" : String).utf8ByteSize = 11 := by decide
  have houtcome : (",\"outcome\":\"ok\",\"returned\":" : String).utf8ByteSize = 27 := by decide
  have hstored : (",\"stored\":" : String).utf8ByteSize = 10 := by decide
  have htiles : (",\"tile\":" : String).utf8ByteSize = 8 := by decide
  have hreturned : (",\"tile_returned\":" : String).utf8ByteSize = 17 := by decide
  have htileStored : (",\"tile_stored\":" : String).utf8ByteSize = 15 := by decide
  have hend : (",\"v\":1\x7d" : String).utf8ByteSize = 7 := by decide
  unfold readOkReply digits
  generalize toString members.length = count
  generalize toString tile.length = tileCount
  simp only [String.utf8ByteSize_append, size_jsonString plain_sanitized, size_jsonArray hmembers,
    size_jsonArray htile, hcorrelation, hlist, houtcome, hstored, htiles, hreturned, htileStored, hend]
  omega

end

/-! ## Writing and reading back -/

section
variable {fromSlice : String → Option StoreFile} {ns : IntentNamespace} {members tile ms ts : List String}
  {writable : Bool} {body correlation : String} {counts : Nat × Nat}

theorem any_contains_eq_false : (ms.any ts.contains) = false ↔ ∀ id ∈ ms, id ∉ ts := by
  simp

theorem writeBoth_eq_ok : writeBoth writable ns members tile = .ok (body, counts) ↔
    ∃ ms ts, normalizeAll members = .ok ms ∧ normalizeAll tile = .ok ts ∧ (∀ id ∈ ms, id ∉ ts) ∧
      body = (storeFile ns ms ts).toJson ∧ body.utf8ByteSize ≤ maxStoreFileBytes ∧
      writable = true ∧ counts = (ms.length, ts.length) := by
  rw [writeBoth, bind_eq_ok]
  simp only [bind_eq_ok]
  constructor
  · rintro ⟨ms, hms, ts, hts, h⟩
    split at h
    · cases h
    · split at h
      · cases h
      · rename_i hapart
        split at h
        · cases h
        · rename_i hsize
          split at h
          · cases h
          · rename_i hwritable
            cases h
            refine ⟨ms, ts, hms, hts, ?_, rfl, Nat.le_of_not_lt hsize, by simpa using hwritable, rfl⟩
            exact any_contains_eq_false.mp (Bool.eq_false_of_not_eq_true hapart)
  · rintro ⟨ms, ts, hms, hts, hapart, rfl, hsize, rfl, rfl⟩
    refine ⟨ms, hms, ts, hts, ?_⟩
    have hbounded : ts.length ≤ maxTileMembers := (normalizeAll_normalized hts).bounded
    rw [if_neg (Nat.not_lt.mpr hbounded), if_neg (by rw [any_contains_eq_false.mpr hapart]; nofun),
      if_neg (Nat.not_lt.mpr hsize)]
    rfl

/-- The two lists come back from the text under its namespace and under no
other, make the same text again, and fit a reply. -/
structure ReadsBack (fromSlice : String → Option StoreFile) (writable : Bool) (ns : IntentNamespace)
    (ms ts : List String) (body correlation : String) : Prop where
  parsed : parseStoreBytes fromSlice body ns = .ok (ms, ts)
  nodup : ms.Nodup
  tile_nodup : ts.Nodup
  apart : ∀ id ∈ ms, id ∉ ts
  foreign : ∀ other, other ≠ ns → parseStoreBytes fromSlice body other = .error "namespace-mismatch"
  rewritten : writeBoth writable ns ms ts = .ok (body, ms.length, ts.length)
  fits : (readOkReply correlation ms ms.length ts ts.length).utf8ByteSize ≤ intentMaxReplyBytes

/-- A snapshot is accepted with its ids in normal form. Where the reader takes
back what was written, it reads back exactly when its ids leave room in the
reply for the envelope, whose length grows with the counts. -/
theorem snapshot_readsBack_iff (h : writeBoth writable ns members tile = .ok (body, counts)) :
    ∃ ms ts, normalizeAll members = .ok ms ∧ normalizeAll tile = .ok ts ∧
      counts = (ms.length, ts.length) ∧
      (fromSlice (storeFile ns ms ts).toJson = some (storeFile ns ms ts) → ∀ correlation,
        (ReadsBack fromSlice writable ns ms ts body correlation ↔
          (sanitizeCorrelation correlation).utf8ByteSize + idBytes ms + idBytes ts +
            2 * digits ms.length + 2 * digits ts.length + 119 ≤ intentMaxReplyBytes)) := by
  obtain ⟨ms, ts, hms, hts, hapart, rfl, hsize, hwritable, hcounts⟩ := writeBoth_eq_ok.mp h
  have hmembers := normalizeAll_normalized hms
  have htile := normalizeAll_normalized hts
  have hagain := normalizeAll_of_normalized hmembers
  have htileAgain := normalizeAll_of_normalized htile
  refine ⟨ms, ts, hms, hts, hcounts, fun hlossless correlation => ?_⟩
  rw [← size_readOkReply (fun id hid => plain_of_opaque (hmembers.ids id hid))
    fun id hid => plain_of_opaque (htile.ids id hid)]
  constructor
  · exact fun hreads => hreads.fits
  · intro hfits
    refine { parsed := ?_, nodup := hmembers.nodup, tile_nodup := htile.nodup, apart := hapart,
             foreign := fun other hother => ?_, rewritten := ?_, fits := hfits }
    · rw [parseStoreBytes, hlossless]
      dsimp only [storeFile]
      rw [if_neg (not_not.mpr rfl), if_neg (by simp), hagain, htileAgain]
      change (if ms.any ts.contains = true then _ else _) = _
      rw [any_contains_eq_false.mpr hapart]
      rfl
    · rw [parseStoreBytes, hlossless]
      dsimp only [storeFile]
      rw [if_neg (not_not.mpr rfl), if_pos]
      by_contra hsame
      rw [not_or, not_not, not_not] at hsame
      exact hother (IntentNamespace.ext hsame.1.symm hsame.2.symm)
    · exact writeBoth_eq_ok.mpr ⟨ms, ts, hagain, htileAgain, hapart, rfl, hsize, hwritable, rfl⟩

/-- A bus and its owner. -/
def someNamespace : IntentNamespace := ⟨"a", ":1.1", by decide +kernel, by decide +kernel⟩

/-- A reader that knows one file. -/
def readsOnly (file : StoreFile) (text : String) : Option StoreFile :=
  if text = file.toJson then some file else none

/-- A window, one that was given in braces, and a tile override. -/
theorem snapshot_readsBack_pair :
    ReadsBack (readsOnly (storeFile someNamespace ["window", "01234567-89ab-cdef-0123-456789abcdef"]
        ["dialog"])) true someNamespace ["window", "01234567-89ab-cdef-0123-456789abcdef"] ["dialog"]
      (storeFile someNamespace ["window", "01234567-89ab-cdef-0123-456789abcdef"] ["dialog"]).toJson
      "read-1" := by
  have hwrite : writeBoth true someNamespace
      ["window", "\x7b01234567-89ab-cdef-0123-456789abcdef\x7d"] ["dialog"] =
        .ok ((storeFile someNamespace ["window", "01234567-89ab-cdef-0123-456789abcdef"]
          ["dialog"]).toJson, 2, 1) := by decide +kernel
  have hmembers : normalizeAll ["window", "\x7b01234567-89ab-cdef-0123-456789abcdef\x7d"] =
      .ok ["window", "01234567-89ab-cdef-0123-456789abcdef"] := by decide +kernel
  have htile : normalizeAll ["dialog"] = .ok ["dialog"] := by decide +kernel
  obtain ⟨ms, ts, hms, hts, -, hiff⟩ := snapshot_readsBack_iff hwrite
  rw [hmembers] at hms
  cases hms
  rw [htile] at hts
  cases hts
  exact (hiff (if_pos rfl) "read-1").mpr (by decide +kernel)

/-! ## A snapshot too long for its reply -/

def block (k : Nat) : List Char := List.replicate k 'b' ++ List.replicate (64 - k) 'a'

/-- Ids of the greatest length, one for each number below 4096. -/
def longId (i : Nat) : String := String.ofList (block (i % 64) ++ block (i / 64))

def longIds (start n : Nat) : List String := (List.range' start n).map longId

theorem length_block {k : Nat} (h : k ≤ 64) : (block k).length = 64 := by
  rw [block, List.length_append, List.length_replicate, List.length_replicate]
  omega

theorem mem_block {k : Nat} {c : Char} (h : c ∈ block k) : c = 'b' ∨ c = 'a' := by
  rw [block, List.mem_append, List.mem_replicate, List.mem_replicate] at h
  exact h.imp And.right And.right

theorem count_block {k : Nat} : (block k).count 'b' = k := by
  rw [block, List.count_append, List.count_replicate_self, List.count_replicate, if_neg (by decide)]
  rfl

theorem longId_inj {i j : Nat} (h : longId i = longId j) : i = j := by
  have hchars : block (i % 64) ++ block (i / 64) = block (j % 64) ++ block (j / 64) :=
    String.ofList_injective h
  have hlength : (block (i % 64)).length = (block (j % 64)).length := by
    rw [length_block (by omega), length_block (by omega)]
  obtain ⟨hlow, hhigh⟩ := List.append_inj hchars hlength
  have hmod : i % 64 = j % 64 := by rw [← @count_block (i % 64), hlow, count_block]
  have hdiv : i / 64 = j / 64 := by rw [← @count_block (i / 64), hhigh, count_block]
  omega

theorem size_ofList {chars : List Char} (h : ∀ c ∈ chars, c = 'b' ∨ c = 'a') :
    (String.ofList chars).utf8ByteSize = chars.length := by
  induction chars with
  | nil => rfl
  | cons c chars ih =>
    have hc : (String.ofList [c]).utf8ByteSize = 1 := by
      rcases h c List.mem_cons_self with rfl | rfl <;> rfl
    rw [← List.singleton_append, String.ofList_append, String.utf8ByteSize_append, hc,
      ih fun c hc => h c (List.mem_cons_of_mem _ hc), List.singleton_append, List.length_cons]
    omega

theorem size_longId {i : Nat} (h : i < 4096) : (longId i).utf8ByteSize = 128 := by
  have hchars : ∀ c ∈ block (i % 64) ++ block (i / 64), c = 'b' ∨ c = 'a' := fun c hc =>
    (List.mem_append.mp hc).elim mem_block mem_block
  rw [longId, size_ofList hchars, List.length_append, length_block (by omega), length_block (by omega)]

theorem longId_opaque {i : Nat} (h : i < 4096) : isOpaqueId (longId i) = true := by
  have hsize := size_longId h
  have hne : (longId i).isEmpty = false := by
    rw [Bool.eq_false_iff, ne_eq, String.isEmpty_iff]
    intro hempty
    rw [hempty] at hsize
    cases hsize
  have hall : (longId i).toList.all isTokenChar = true := by
    rw [List.all_eq_true, longId, String.toList_ofList]
    intro c hc
    rcases (List.mem_append.mp hc).elim mem_block mem_block with rfl | rfl <;> decide
  rw [isOpaqueId, isToken, hne, hall, hsize]
  rfl

theorem length_longIds {start n : Nat} : (longIds start n).length = n := by
  rw [longIds, List.length_map, List.length_range']

theorem longIds_normalized {start n : Nat} (hn : n ≤ 1024) (h : start + n ≤ 4096) :
    Normalized (longIds start n) where
  bounded := by
    rw [length_longIds]
    exact hn
  nodup := by
    exact List.Nodup.map_on (fun i _ j _ => longId_inj) List.nodup_range'
  ids id hid := by
    obtain ⟨i, hi, rfl⟩ := List.mem_map.mp hid
    have := List.mem_range'_1.mp hi
    exact longId_opaque (by omega)

theorem idBytes_longIds {start n : Nat} (h : start + n ≤ 4096) :
    idBytes (longIds start n) = n * 131 - 1 := by
  have hsizes : ((List.range' start n).map longId).map (fun id => id.utf8ByteSize + 3) =
      List.replicate n 131 := by
    rw [List.map_map, List.eq_replicate_iff]
    refine ⟨by rw [List.length_map, List.length_range'], fun b hb => ?_⟩
    obtain ⟨i, hi, rfl⟩ := List.mem_map.mp hb
    have := List.mem_range'_1.mp hi
    rw [Function.comp_apply, size_longId (by omega)]
  rw [idBytes, longIds, hsizes, List.sum_replicate_nat]

/-- A file as long as it may be, whose reply is longer. -/
theorem snapshot_not_readsBack :
    ¬∀ (fromSlice : String → Option StoreFile) (ns : IntentNamespace)
        (members tile ms ts : List String) (body correlation : String) (counts : Nat × Nat),
      writeBoth true ns members tile = .ok (body, counts) → normalizeAll members = .ok ms →
        normalizeAll tile = .ok ts →
        fromSlice (storeFile ns ms ts).toJson = some (storeFile ns ms ts) →
          ReadsBack fromSlice true ns ms ts body correlation := by
  intro h
  have hms : Normalized (longIds 0 1024) := longIds_normalized (by omega) (by omega)
  have hts : Normalized (longIds 1024 976) := longIds_normalized (by omega) (by omega)
  have hplain : ∀ {ids}, Normalized ids → ∀ id ∈ ids, Plain id := fun hids id hid =>
    plain_of_opaque (hids.ids id hid)
  have hapart : ∀ id ∈ longIds 0 1024, id ∉ longIds 1024 976 := by
    intro id hleft hright
    obtain ⟨i, hi, rfl⟩ := List.mem_map.mp hleft
    obtain ⟨j, hj, heq⟩ := List.mem_map.mp hright
    have := List.mem_range'_1.mp hi
    have := List.mem_range'_1.mp hj
    have := longId_inj heq
    omega
  have hsize : (storeFile someNamespace (longIds 0 1024) (longIds 1024 976)).toJson.utf8ByteSize ≤
      maxStoreFileBytes := by
    rw [size_storeFile (hplain hms) (hplain hts), idBytes_longIds (by omega), idBytes_longIds (by omega)]
    decide
  have hwrite := writeBoth_eq_ok.mpr ⟨_, _, normalizeAll_of_normalized hms,
    normalizeAll_of_normalized hts, hapart, rfl, hsize, rfl, rfl⟩
  have hfits := (h (fun _ => some (storeFile someNamespace (longIds 0 1024) (longIds 1024 976)))
    someNamespace _ _ _ _ _ (longId 0) _ hwrite (normalizeAll_of_normalized hms)
    (normalizeAll_of_normalized hts) rfl).fits
  have hcorrelation : sanitizeCorrelation (longId 0) = longId 0 := by
    have hopaque := longId_opaque (i := 0) (by omega)
    exact if_pos hopaque
  rw [size_readOkReply (hplain hms) (hplain hts), hcorrelation, size_longId (by omega),
    idBytes_longIds (by omega), idBytes_longIds (by omega)] at hfits
  rw [length_longIds, length_longIds] at hfits
  exact absurd hfits (by decide +kernel)

end

end FloatIntentStore

end PlasmaTiler
