import PlasmaTiler.IntentRuns

/-!
# The float intent stays consistent

Every operation of the bridge is one of two kinds. Either it leaves the sets
alone, or it changes them and schedules a write; scheduling replaces the
pending snapshot by the complete pair, so whatever was pending before, what
is sent is current.

The proof follows that division. `Calls` is the bookkeeping of calls that
every operation keeps: the bridge is busy exactly while its latest call is
out. `Flow` adds what is pending and what the store knows; pumping restores
it from the books alone (`Pumped.flow`), so scheduling does, whatever happened
to the sets (`schedule_flow`). `Content` is what the sets are: during the read
the changes applied to nothing, for every window that did not close, and after
an ok read the changes applied to what was stored.

The end of the read connects the two. With nothing pending it adopts exactly
what is stored, so the store has the pair without a write; with something
pending the merged pair is written at once. Every event of a fair run keeps
all of it (`Session.Good.step`), and `intent_consistent` reads the promise off
the last state.
-/

namespace PlasmaTiler

namespace Intent

/-! ## What pumping can do -/

/-- Nothing is sent, or a write is given up, or the pending snapshot goes
out. -/
inductive Pumped (b : Bridge) : Bridge × List Output → Prop
  | idle (h : b.ready = false ∨ b.busy = true ∨ b.pendingWrite = none) : Pumped b (b, [])
  | refused {seq token : Nat} {pendingWrite : Option Snapshot} {deadline : Option Nat}
      {correlation reason : String} {stored tileStored : Option Nat} (hbusy : b.busy = false)
      (htoken : b.callToken ≤ token) (hpending : pendingWrite = b.pendingWrite ∨ pendingWrite = none) :
      Pumped b ({ b with seq, callToken := token, pendingWrite, deadline },
        [.writeLog correlation "unavailable" stored tileStored reason])
  | sent {seq : Nat} {correlation : String} {snapshot : Snapshot} (hready : b.ready = true)
      (hbusy : b.busy = false) (hpending : b.pendingWrite = some snapshot) :
      Pumped b ({ b with
          seq
          callToken := b.callToken + 1
          pendingWrite := none
          deadline := some (b.callToken + 1)
          busy := true },
        [.callWrite ⟨b.callToken + 1, correlation,
          .write snapshot.members.length snapshot.tile.length⟩ snapshot b.snapshot])

namespace Bridge

section
variable {host : Host} {b : Bridge}

theorem intentCorrelation_snd : ∃ seq, b.intentCorrelation.2 = { b with seq } := by
  rw [intentCorrelation]
  split
  · exact ⟨_, rfl⟩
  · exact ⟨b.seq, rfl⟩

theorem pumpIntent_pumped : Pumped b (pumpIntent host b) := by
  obtain ⟨seq, hseq⟩ := b.intentCorrelation_snd
  rw [pumpIntent]
  split
  · rename_i h
    refine .idle ?_
    rcases Bool.or_eq_true_iff.mp h with h | h
    · exact Or.inl (by simpa using h)
    · exact Or.inr (Or.inl h)
  · rename_i h
    simp only [Bool.or_eq_true, Bool.not_eq_true', not_or, Bool.not_eq_false,
      Bool.not_eq_true] at h
    obtain ⟨hready, hbusy⟩ := h
    cases hpending : b.pendingWrite with
    | none => exact .idle (Or.inr (Or.inr hpending))
    | some snapshot =>
      dsimp only
      split
      · exact .refused (b := b) hbusy (Nat.le_refl _) (Or.inl rfl)
      · cases hcorrelation : b.intentCorrelation with
        | mk correlation b' =>
          obtain rfl : b' = { b with seq } := by rw [← hseq, hcorrelation]
          cases correlation with
          | none => exact .refused (b := b) hbusy (Nat.le_refl _) (Or.inl rfl)
          | some correlation =>
            dsimp only
            split
            · exact .refused (b := b) hbusy (Nat.le_refl _) (Or.inl rfl)
            split
            · exact .refused (b := b) hbusy (Nat.le_succ _) (Or.inl rfl)
            split
            · exact .refused (b := b) hbusy (Nat.le_succ _) (Or.inr rfl)
            · exact .sent hready hbusy hpending

end

end Bridge

/-! ## Bookkeeping -/

/-- The bridge is busy exactly while one call is outstanding: its latest, and
the read until it is ready. -/
structure Calls (b : Bridge) (l : Ledger) : Prop where
  reading : b.ready = false → b.busy = true
  idle : b.busy = false → l.outstanding = []
  out : b.busy = true → ∃ call ∈ l.sent, l.outstanding = [call] ∧ call.token = b.callToken ∧
    (call.kind = .read ↔ b.ready = false)
  bound : ∀ call ∈ l.sent, call.token ≤ b.callToken
  unique : ∀ call ∈ l.sent, ∀ other ∈ l.sent, call.token = other.token → call = other
  payloads : ∀ p ∈ l.payloads, p.1 = p.2 ∧ p.1.Apart

/-- What is pending is the pair; and as long as no call failed, nothing
pending stays unsent, and the store knows the pair unless something is
pending. During the read nothing is written, and nothing pending means that
nothing happened. -/
structure Flow (b : Bridge) (l : Ledger) : Prop extends Calls b l where
  pending : ∀ p, b.pendingWrite = some p → p = b.snapshot
  unwritten : b.ready = false → l.written = none
  unsent : b.ready = false → b.pendingWrite.getD ⟨[], []⟩ = b.snapshot
  unfenced : b.ready = false → b.pendingWrite = none → b.bootstrapClosed = []
  flushed : l.successful = true → b.busy = false → b.pendingWrite = none
  synced : l.successful = true → b.ready = true → b.pendingWrite = none → l.known = some b.snapshot

/-- The sets, the gate and the fence are the same. Calls and deadlines may
differ. -/
structure SameSets (b b' : Bridge) : Prop where
  members : b'.members = b.members
  tile : b'.tile = b.tile
  ready : b'.ready = b.ready
  bootstrapClosed : b'.bootstrapClosed = b.bootstrapClosed

theorem SameSets.refl (b : Bridge) : SameSets b b := ⟨rfl, rfl, rfl, rfl⟩

theorem SameSets.snapshot {b b' : Bridge} (h : SameSets b b') : b'.snapshot = b.snapshot := by
  rw [Bridge.snapshot, Bridge.snapshot, h.members, h.tile]

section
variable {host : Host} {b b' : Bridge} {l : Ledger} {r : Bridge × List Output}

theorem Pumped.sameSets (h : Pumped b r) : SameSets b r.1 := by
  cases h <;> exact ⟨rfl, rfl, rfl, rfl⟩

/-- A write that goes out on an idle bridge is its latest call, and its
payload is the pair. -/
theorem Calls.write {call : Call} {pair : Snapshot} (h : Calls b l) (hidle : b.busy = false)
    (hready : b'.ready = true) (hbusy : b'.busy = true) (htoken : b'.callToken = b.callToken + 1)
    (hcall : call.token = b'.callToken) (hkind : call.kind ≠ .read) (hapart : pair.Apart) :
    Calls b' (l.note (.callWrite call pair pair)) where
  reading hr := by
    rw [hready] at hr
    cases hr
  idle hb := by
    rw [hbusy] at hb
    cases hb
  out _ := by
    refine ⟨call, List.mem_append_right _ (List.mem_singleton_self _), ?_, hcall, ?_⟩
    · simp [Ledger.note, Ledger.send, h.idle hidle]
    · simp [hready, hkind]
  bound c hc := by
    rcases List.mem_append.mp hc with hc | hc
    · have := h.bound c hc
      omega
    · rw [List.mem_singleton.mp hc, hcall]
  unique := by
    have hfresh : ∀ c ∈ l.sent, c.token ≠ call.token := fun c hc heq => by
      have := h.bound c hc
      omega
    intro c hc other hother heq
    rcases List.mem_append.mp hc with hc | hc <;>
      rcases List.mem_append.mp hother with hother | hother
    · exact h.unique c hc other hother heq
    · rw [List.mem_singleton.mp hother] at heq
      exact absurd heq (hfresh c hc)
    · rw [List.mem_singleton.mp hc] at heq
      exact absurd heq.symm (hfresh other hother)
    · rw [List.mem_singleton.mp hc, List.mem_singleton.mp hother]
  payloads p hp := by
    rcases List.mem_append.mp hp with hp | hp
    · exact h.payloads p hp
    · rw [List.mem_singleton.mp hp]
      exact ⟨rfl, hapart⟩

/-- Pumping a current snapshot keeps the books and leaves nothing unsent:
either nothing can be sent, or the write is given up and no longer successful,
or it goes out as the only call. -/
theorem Pumped.flow (h : Pumped b r) (hcalls : Calls b l)
    (hpending : ∀ p, b.pendingWrite = some p → p = b.snapshot)
    (hunwritten : b.ready = false → l.written = none)
    (hunsent : b.ready = false → b.pendingWrite.getD ⟨[], []⟩ = b.snapshot)
    (hunfenced : b.ready = false → b.pendingWrite = none → b.bootstrapClosed = [])
    (hsynced : l.successful = true → b.ready = true → b.pendingWrite = none →
      l.known = some b.snapshot)
    (hapart : b.snapshot.Apart) : Flow r.1 (l.noteAll r.2) := by
  cases h with
  | idle h =>
    refine { hcalls with
      pending := hpending
      unwritten := hunwritten
      unsent := hunsent
      unfenced := hunfenced
      flushed := fun _ hbusy => ?_
      synced := hsynced }
    rcases h with h | h | h
    · rw [hcalls.reading h] at hbusy
      cases hbusy
    · rw [h] at hbusy
      cases hbusy
    · exact h
  | refused hbusy htoken hq =>
    have hidle := hcalls.idle hbusy
    refine {
      reading := hcalls.reading
      idle := fun _ => by simp [Ledger.noteAll, Ledger.note, Ledger.finish, hidle]
      out := fun h => by rw [hbusy] at h; cases h
      bound := fun call hcall => (hcalls.bound call hcall).trans htoken
      unique := hcalls.unique
      payloads := hcalls.payloads
      pending := fun p hp => ?_
      unwritten := hunwritten
      unsent := fun hr => absurd (hcalls.reading hr) (by simp [hbusy])
      unfenced := fun hr => absurd (hcalls.reading hr) (by simp [hbusy])
      flushed := fun hok => by simp [Ledger.noteAll, Ledger.note, Ledger.finish] at hok
      synced := fun hok => by simp [Ledger.noteAll, Ledger.note, Ledger.finish] at hok }
    rcases hq with hq | hq
    · exact hpending p (hq ▸ hp)
    · rw [hq] at hp
      cases hp
  | @sent seq correlation snapshot hready hbusy hp =>
    obtain rfl := hpending _ hp
    have hwritten : Calls { b with
        seq
        callToken := b.callToken + 1
        pendingWrite := none
        deadline := some (b.callToken + 1)
        busy := true } _ :=
      @Calls.write b _ l ⟨b.callToken + 1, correlation,
        .write b.snapshot.members.length b.snapshot.tile.length⟩ _ hcalls hbusy hready rfl rfl rfl
        nofun hapart
    exact { hwritten with
      pending := fun p hp => by cases hp
      unwritten := fun h => by rw [hready] at h; cases h
      unsent := fun h => by rw [hready] at h; cases h
      unfenced := fun h => by rw [hready] at h; cases h
      flushed := fun _ h => by cases h
      synced := fun _ _ _ => rfl }

/-- Scheduling restores the flow, whatever happened to the sets. -/
theorem schedule_flow (hcalls : Calls b l) (hunwritten : b.ready = false → l.written = none)
    (hapart : b.snapshot.Apart) :
    Flow (b.scheduleIntentWrite host).1 (l.noteAll (b.scheduleIntentWrite host).2) :=
  Bridge.pumpIntent_pumped.flow { hcalls with } (fun _ hp => (Option.some.inj hp).symm) hunwritten
    (fun _ => rfl) (fun _ hp => by cases hp) (fun _ _ hp => by cases hp) hapart

theorem schedule_sameSets : SameSets b (b.scheduleIntentWrite host).1 := by
  obtain ⟨hm, ht, hr, hb⟩ := Pumped.sameSets
    (b := { b with pendingWrite := some b.snapshot }) (r := b.scheduleIntentWrite host)
    Bridge.pumpIntent_pumped
  exact ⟨hm, ht, hr, hb⟩

/-- The books do not look at the sets. -/
theorem Calls.congr (h : Calls b l) (hready : b'.ready = b.ready) (hbusy : b'.busy = b.busy)
    (htoken : b'.callToken = b.callToken) : Calls b' l where
  reading := by rw [hready, hbusy]; exact h.reading
  idle := by rw [hbusy]; exact h.idle
  out := by rw [hready, hbusy, htoken]; exact h.out
  bound := by rw [htoken]; exact h.bound
  unique := h.unique
  payloads := h.payloads

end

/-! ## Ends of calls -/

section
variable {host : Host} {b : Bridge} {l : Ledger} {call : Call}

/-- A callback with the current token is the outstanding call's. -/
theorem Calls.current (h : Calls b l) (hcall : call ∈ l.sent) (htoken : call.token = b.callToken)
    (hbusy : b.busy = true) : l.outstanding = [call] ∧ (call.kind = .read ↔ b.ready = false) := by
  obtain ⟨other, hother, hout, hcurrent, hkind⟩ := h.out hbusy
  obtain rfl := h.unique call hcall other hother (htoken.trans hcurrent.symm)
  exact ⟨hout, hkind⟩

@[simp] theorem finish_outstanding {correlation : String} {ok : Bool}
    (h : l.outstanding = [call]) (hcorrelation : call.correlation = correlation) :
    (l.finish correlation ok).outstanding = [] := by
  simp [Ledger.finish, h, hcorrelation]

theorem finish_successful {correlation : String} {ok : Bool}
    (h : (l.finish correlation ok).successful = true) : l.successful = true :=
  (Bool.and_eq_true_iff.mp h).1

/-- The end of a write: the books are closed on it and the next snapshot may
go. -/
theorem writeEnd_flow {b' : Bridge} {correlation outcome reason : String}
    {stored tileStored : Option Nat} (h : Flow b l) (hapart : b.snapshot.Apart)
    (hcall : call ∈ l.sent) (htoken : call.token = b.callToken) (hbusy : b.busy = true)
    (hkind : call.kind ≠ .read) (hcorrelation : call.correlation = correlation)
    (hsets : SameSets b b') (hb' : b'.busy = false) (htoken' : b'.callToken = b.callToken)
    (hpending' : b'.pendingWrite = b.pendingWrite) :
    Flow (b'.pumpIntent host).1
      (l.noteAll (.writeLog correlation outcome stored tileStored reason ::
        (b'.pumpIntent host).2)) := by
  obtain ⟨hout, hread⟩ := h.toCalls.current hcall htoken hbusy
  have hready : b.ready = true := by
    cases hr : b.ready with
    | true => rfl
    | false => exact absurd (hread.mpr hr) hkind
  refine Pumped.flow (l := l.finish correlation (outcome == "stored")) Bridge.pumpIntent_pumped
    { reading := fun hr => ?_
      idle := fun _ => finish_outstanding hout hcorrelation
      out := fun hb => ?_
      bound := fun c hc => (h.bound c hc).trans htoken'.ge
      unique := h.unique
      payloads := h.payloads } ?_ ?_ ?_ ?_ ?_ ?_
  · rw [hsets.ready, hready] at hr
    cases hr
  · rw [hb'] at hb
    cases hb
  · rw [hpending', hsets.snapshot]
    exact h.pending
  · rw [hsets.ready, hready]
    intro hr
    cases hr
  · rw [hsets.ready, hready]
    intro hr
    cases hr
  · rw [hsets.ready, hready]
    intro hr
    cases hr
  · rw [hsets.ready, hpending', hsets.snapshot]
    exact fun hok => h.synced (finish_successful hok)
  · rwa [hsets.snapshot]

/-- The pair and what is pending agree after the read. -/
theorem adoptRead_pending {outcome : String} {members tile : List String} :
    ∀ p, (Bridge.adoptRead outcome members tile b).pendingWrite = some p →
      p = (Bridge.adoptRead outcome members tile b).snapshot := by
  intro p hp
  rw [Bridge.adoptRead] at hp ⊢
  split at hp
  · rename_i h
    rw [if_pos h]
    obtain ⟨_, -, rfl⟩ := Option.map_eq_some_iff.mp hp
    rfl
  · rename_i h
    rw [if_neg h]
    obtain ⟨_, -, rfl⟩ := Option.map_eq_some_iff.mp hp
    rfl

theorem adoptRead_apart {outcome : String} {members tile : List String}
    (h : b.snapshot.Apart) : (Bridge.adoptRead outcome members tile b).snapshot.Apart := by
  rw [Bridge.adoptRead]
  split
  · intro id hid htile
    simp only [Bridge.snapshot, mem_removeAll] at hid htile
    exact htile.2 hid
  · intro id hid htile
    simp only [Bridge.snapshot, mem_removeAll] at hid htile
    exact h id hid.1 htile.1

/-- With nothing pending an ok read adopts exactly what is stored. -/
theorem adoptRead_stored {members tile : List String} (hpending : b.pendingWrite = none)
    (hunfenced : b.bootstrapClosed = []) (hapart : (⟨members, tile⟩ : Snapshot).Apart) :
    (b.adoptRead "ok" members tile).snapshot = ⟨members, tile⟩ := by
  have hall : ∀ xs : List String, removeAll xs [] = xs := fun xs => by simp [removeAll]
  have htile : removeAll tile members = tile := by
    rw [removeAll, List.filter_eq_self]
    intro id hid
    simpa using fun hmem => hapart id hmem hid
  simp only [Bridge.adoptRead, if_true, hpending, hunfenced, Option.getD_none, addAll,
    List.foldl_nil, hall, htile, Bridge.snapshot]

theorem adoptRead_pending_none {outcome : String} {members tile : List String}
    (h : (b.adoptRead outcome members tile).pendingWrite = none) : b.pendingWrite = none := by
  rw [Bridge.adoptRead] at h
  split at h <;> exact Option.map_eq_none_iff.mp h

/-- The end of the read: the gate opens, what was stored is merged with what
settled meanwhile, and what is pending after the merge goes out. -/
theorem settleIntentRead_flow {correlation outcome reason : String} {members tile : List String}
    {stored returned tileStored tileReturned : Nat}
    (hbound : ∀ call ∈ l.sent, call.token ≤ b.callToken)
    (hunique : ∀ call ∈ l.sent, ∀ other ∈ l.sent, call.token = other.token → call = other)
    (hpayloads : ∀ p ∈ l.payloads, p.1 = p.2 ∧ p.1.Apart)
    (hout : (l.finish correlation (outcome == "ok")).outstanding = [])
    (hwritten : l.written = none) (hunfenced : b.pendingWrite = none → b.bootstrapClosed = [])
    (hstored : outcome = "ok" → l.stored = some ⟨members, tile⟩ ∧ (⟨members, tile⟩ : Snapshot).Apart)
    (hapart : b.snapshot.Apart) :
    let r := Bridge.settleIntentRead host b.callToken correlation outcome reason members stored
      returned tile tileStored tileReturned b
    Flow r.1 (l.noteAll r.2) ∧ r.1.snapshot.Apart := by
  have hb : ∀ b : Bridge, b.snapshot.Apart →
      (Bridge.adoptRead outcome members tile b).snapshot.Apart := fun _ h => adoptRead_apart h
  have hapart' := hb { b with callToken := b.callToken + 1, deadline := none, busy := false } hapart
  have hpending' := @adoptRead_pending
    { b with callToken := b.callToken + 1, deadline := none, busy := false } outcome members tile
  have hfields : (Bridge.adoptRead outcome members tile
      { b with callToken := b.callToken + 1, deadline := none, busy := false }).busy = false ∧
      (Bridge.adoptRead outcome members tile
        { b with callToken := b.callToken + 1, deadline := none, busy := false }).callToken =
        b.callToken + 1 := by
    rw [Bridge.adoptRead]
    split <;> exact ⟨rfl, rfl⟩
  have hsynced : (l.finish correlation (outcome == "ok")).successful = true →
      (Bridge.adoptRead outcome members tile
        { b with callToken := b.callToken + 1, deadline := none, busy := false }).pendingWrite =
          none → l.stored = some (Bridge.adoptRead outcome members tile
            { b with callToken := b.callToken + 1, deadline := none, busy := false }).snapshot := by
    intro hok hnone
    obtain ⟨-, houtcome⟩ := Bool.and_eq_true_iff.mp hok
    obtain rfl := beq_iff_eq.mp houtcome
    have hpending := adoptRead_pending_none hnone
    rw [adoptRead_stored hpending (hunfenced hpending) (hstored rfl).2]
    exact (hstored rfl).1
  simp only [Bridge.settleIntentRead, bne_self_eq_false, Bool.false_eq_true, if_false]
  generalize Bridge.adoptRead outcome members tile
    { b with callToken := b.callToken + 1, deadline := none, busy := false } = adopted at *
  have hpumped := @Bridge.pumpIntent_pumped host
    { adopted with bootstrapClosed := [], ready := true }
  refine ⟨hpumped.flow (l := l.finish correlation (outcome == "ok"))
    { reading := fun hr => by cases hr
      idle := fun _ => hout
      out := fun hbusy => ?_
      bound := fun call hcall => ?_
      unique := hunique
      payloads := hpayloads } hpending' (fun hr => by cases hr) (fun hr => by cases hr)
    (fun hr => by cases hr) (fun hok _ hnone => ?_) hapart', ?_⟩
  · exact absurd (hfields.1.symm.trans hbusy) (by decide)
  · exact (hbound call hcall).trans (by rw [hfields.2]; exact Nat.le_succ _)
  · rw [Ledger.known, show (l.finish correlation (outcome == "ok")).written = none from hwritten]
    exact hsynced hok hnone
  · rw [hpumped.sameSets.snapshot]
    exact hapart'

end

/-! ## Changes -/

section
variable {host echoHost : Host} {b : Bridge} {l : Ledger}

theorem apart_applyAll {s : Snapshot} {changes : List Settled} (h : s.Apart) :
    (s.applyAll changes).Apart := by
  rw [apart_iff_status] at h ⊢
  intro id
  rw [status_applyAll]
  exact effects_apart (h id)

theorem remove_of_not_mem {xs : List String} {id : String} (h : id ∉ xs) : remove xs id = xs := by
  rw [remove, List.filter_eq_self]
  intro x hx
  simpa using fun hxid : x = id => h (hxid ▸ hx)

/-- A change of the sets that keeps the flow: the bridge has applied it to
both sides, the ledger has recorded it, and the gate and the fence are as
before. -/
structure Change (b b' : Bridge) (l l' : Ledger) (changes : List Settled) : Prop where
  flow : Flow b' l'
  snapshot : b'.snapshot = b.snapshot.applyAll changes
  ready : b'.ready = b.ready
  fence : b'.bootstrapClosed = b.bootstrapClosed

theorem Change.apart {b' : Bridge} {l' : Ledger} {changes : List Settled}
    (h : Change b b' l l' changes) (hapart : b.snapshot.Apart) : b'.snapshot.Apart := by
  rw [h.snapshot]
  exact apart_applyAll hapart

theorem Flow.unchanged (h : Flow b l) : Change b b l (l.noteAll []) [] := ⟨h, rfl, rfl, rfl⟩

/-- Sets written and scheduled at once. -/
theorem Flow.schedule {b' : Bridge} {changes : List Settled} (h : Flow b l)
    (hapart : b.snapshot.Apart) (hsnapshot : b'.snapshot = b.snapshot.applyAll changes)
    (hready : b'.ready = b.ready) (hbusy : b'.busy = b.busy) (htoken : b'.callToken = b.callToken)
    (hfence : b'.bootstrapClosed = b.bootstrapClosed) :
    Change b (b'.scheduleIntentWrite host).1 l (l.noteAll (b'.scheduleIntentWrite host).2)
      changes := by
  have hsame := @schedule_sameSets host b'
  refine ⟨schedule_flow (h.toCalls.congr hready hbusy htoken) (by rw [hready]; exact h.unwritten) ?_,
    hsame.snapshot.trans hsnapshot, hsame.ready.trans hready, hsame.bootstrapClosed.trans hfence⟩
  rw [hsnapshot]
  exact apart_applyAll hapart

theorem updateSettledIntentFromFlight_change {floatTarget : Option (String × Bool)}
    {windows : List Bridge.FlightWindow} (h : Flow b l) (hapart : b.snapshot.Apart) :
    Change b (b.updateSettledIntentFromFlight host floatTarget windows).1 l
      (l.noteAll (b.updateSettledIntentFromFlight host floatTarget windows).2)
      (Session.settledBy b (.applied floatTarget windows)) := by
  match floatTarget with
  | none => exact h.unchanged
  | some (id, true) => exact h.schedule hapart rfl rfl rfl rfl rfl
  | some (id, false) =>
    have hpersists : b.unfloatPersistsTileOverride id windows =
        (Bridge.fixedIn windows id || b.tile.contains id) := Bool.or_comm _ _
    refine h.schedule hapart ?_ rfl rfl rfl rfl
    simp only [Session.settledBy, Snapshot.applyAll, List.foldl_cons, List.foldl_nil,
      Snapshot.apply, Bridge.snapshot]
    rw [hpersists]

theorem noteNativeRemovedId_change {id : String} (h : Flow b l) (hapart : b.snapshot.Apart)
    (hready : b.ready = true) :
    Change b (b.noteNativeRemovedId host id).1 l (l.noteAll (b.noteNativeRemovedId host id).2)
      [.closed id] := by
  rw [Bridge.noteNativeRemovedId, hready]
  simp only [Bool.not_true, Bool.false_eq_true, if_false]
  split
  · exact h.schedule hapart rfl hready.symm rfl rfl rfl
  · rename_i habsent
    simp only [Bool.or_eq_true, List.contains_iff_mem, not_or] at habsent
    refine ⟨h, ?_, rfl, rfl⟩
    simp only [Snapshot.applyAll, List.foldl_cons, List.foldl_nil, Snapshot.apply, Bridge.snapshot,
      remove_of_not_mem habsent.1, remove_of_not_mem habsent.2]

/-- Who is adopted does not matter to the flow. -/
theorem Flow.adopt {adoptedSticky : List String} (h : Flow b l) :
    Flow { b with adoptedSticky } l where
  toCalls := h.toCalls.congr rfl rfl rfl
  pending := h.pending
  unwritten := h.unwritten
  unsent := h.unsent
  unfenced := h.unfenced
  flushed := h.flushed
  synced := h.synced

theorem onStickyEcho_change {c : Bridge.StickyCommand} (hechoed : c.echoed = true) (h : Flow b l)
    (hapart : b.snapshot.Apart)
    (hfair : Session.echoesAdopted c b = true → c.id ∉ b.tile) :
    Change b (b.onStickyEcho host c).1 l (l.noteAll (b.onStickyEcho host c).2)
      (if Session.echoesAdopted c b then [.adopted c.id] else []) := by
  rw [Session.echoesAdopted, hechoed] at *
  rw [Bridge.onStickyEcho]
  cases hall : c.allDesktops with
  | true => simpa using h.unchanged
  | false =>
    simp only [Bool.false_eq_true, if_false, hall, Bool.not_false, Bool.and_self, Bool.true_and] at *
    cases hadopted : b.adoptedSticky.contains c.id && c.floated with
    | false => exact ⟨h.adopt, rfl, rfl, rfl⟩
    | true =>
      refine h.schedule hapart ?_ rfl rfl rfl rfl
      simp only [if_true, Snapshot.applyAll, List.foldl_cons, List.foldl_nil, Snapshot.apply,
        Bridge.snapshot, remove_of_not_mem (hfair hadopted)]

theorem settleSticky_change {c : Bridge.StickyCommand} {wasAdoptedBefore : Bool} (h : Flow b l)
    (hapart : b.snapshot.Apart) :
    Change b (b.settleSticky host c wasAdoptedBefore).1 l
      (l.noteAll (b.settleSticky host c wasAdoptedBefore).2)
      (if !c.allDesktops then
        if !c.previousFloating && !wasAdoptedBefore then
          [.stickyTiled c.id (c.fixedNow || c.priorAuto)]
        else []
      else [.stickyOn c.id]) := by
  rw [Bridge.settleSticky]
  cases hall : c.allDesktops with
  | true =>
    simp only [Bool.not_true, Bool.false_and, Bool.false_eq_true, if_false, Bool.true_and]
    split
    · exact h.schedule hapart rfl rfl rfl rfl rfl
    · rename_i habsent
      refine ⟨h, ?_, rfl, rfl⟩
      simp only [Snapshot.applyAll, List.foldl_cons, List.foldl_nil, Snapshot.apply,
        Bridge.snapshot, remove_of_not_mem (by simpa using habsent)]
  | false =>
    cases hfloating : c.previousFloating with
    | true => simpa using h.unchanged
    | false =>
      simp only [Bool.not_false, Bool.and_self, if_true, Bool.true_and]
      cases wasAdoptedBefore with
      | true => exact h.unchanged
      | false =>
        simp only [Bool.not_false, Bool.true_and, if_true]
        have happly : ((c.fixedNow || c.priorAuto) || b.tile.contains c.id) =
            (c.fixedNow || b.tile.contains c.id || c.priorAuto) := by
          cases c.fixedNow <;> cases c.priorAuto <;> cases b.tile.contains c.id <;> rfl
        split
        · rename_i hkeep
          refine h.schedule hapart ?_ rfl rfl rfl rfl
          simp only [Snapshot.applyAll, List.foldl_cons, List.foldl_nil, Snapshot.apply,
            Bridge.snapshot, happly, hkeep, if_true]
        · rename_i hkeep
          refine ⟨h, ?_, rfl, rfl⟩
          simp only [Snapshot.applyAll, List.foldl_cons, List.foldl_nil, Snapshot.apply,
            Bridge.snapshot, happly, hkeep, Bool.false_eq_true, if_false]

theorem noteAll_append {first second : List Output} :
    l.noteAll (first ++ second) = (l.noteAll first).noteAll second := List.foldl_append

theorem Change.trans {b' b'' : Bridge} {l' l'' : Ledger} {first second : List Settled}
    (h : Change b b' l l' first) (h' : Change b' b'' l' l'' second) :
    Change b b'' l l'' (first ++ second) where
  flow := h'.flow
  snapshot := by rw [h'.snapshot, h.snapshot, applyAll_append]
  ready := h'.ready.trans h.ready
  fence := h'.fence.trans h.fence

theorem issueSticky_change {c : Bridge.StickyCommand} (h : Flow b l) (hapart : b.snapshot.Apart)
    (hfair : Session.echoesAdopted c b = true → c.id ∉ b.tile) :
    Change b (b.issueSticky echoHost host c).1 l (l.noteAll (b.issueSticky echoHost host c).2)
      (Session.settledBy b (.sticky c)) := by
  rw [Bridge.issueSticky, Session.settledBy]
  cases hrefused : c.allDesktops && !c.keptAbove with
  | true => exact h.unchanged
  | false =>
    simp only [Bool.false_eq_true, if_false]
    have hecho : Change b (if c.echoed then b.onStickyEcho echoHost c else (b, [])).1 l
        (l.noteAll (if c.echoed then b.onStickyEcho echoHost c else (b, [])).2)
        (if Session.echoesAdopted c b then [.adopted c.id] else []) := by
      cases hechoed : c.echoed with
      | true => exact onStickyEcho_change hechoed h hapart hfair
      | false =>
        simp only [Session.echoesAdopted, hechoed, Bool.false_and, Bool.false_eq_true, if_false]
        exact h.unchanged
    generalize (if c.echoed then b.onStickyEcho echoHost c else (b, [])) = echo at *
    obtain ⟨b', outputs⟩ := echo
    cases hinvoked : c.invoked with
    | false =>
      simp only [Bool.not_false, if_true, Bool.false_eq_true, if_false, List.append_nil]
      split
      · exact ⟨hecho.flow.adopt, hecho.snapshot, hecho.ready, hecho.fence⟩
      · exact hecho
    | true =>
      simp only [Bool.not_true, Bool.false_eq_true, if_false, if_true, noteAll_append]
      exact hecho.trans (settleSticky_change hecho.flow (hecho.apart hapart))

end

/-! ## What the sets are -/

/-- During the read the pair is the changes applied to nothing, for every
window that did not close; after an ok read it is the changes applied to what
was stored. -/
structure Content (b : Bridge) (changes : List Settled) (stored : Option Snapshot) : Prop where
  unread : b.ready = false → stored = none
  fenced : b.ready = false → ∀ id ∈ b.bootstrapClosed, .closed id ∈ changes
  unsettled : b.ready = false → ∀ id, .closed id ∉ changes →
    b.snapshot.status id = Settled.effects id changes (false, false)
  settled : b.ready = true → ∀ p, stored = some p → ∀ id,
    b.snapshot.status id = (p.applyAll changes).status id

section
variable {host : Host} {b b' : Bridge} {l l' : Ledger} {changes more : List Settled}
  {stored : Option Snapshot} {s : Session} {call : Call}

theorem effects_append {id : String} {st : Bool × Bool} :
    Settled.effects id (changes ++ more) st =
      Settled.effects id more (Settled.effects id changes st) := List.foldl_append

/-- A change of the sets that leaves the fence alone. -/
theorem Content.change (h : Content b changes stored) (hchange : Change b b' l l' more) :
    Content b' (changes ++ more) stored where
  unread hr := h.unread (hchange.ready ▸ hr)
  fenced hr id hid := by
    rw [hchange.ready] at hr
    rw [hchange.fence] at hid
    exact List.mem_append_left _ (h.fenced hr id hid)
  unsettled hr id hid := by
    rw [hchange.ready] at hr
    rw [hchange.snapshot, status_applyAll, effects_append,
      h.unsettled hr id fun hmem => hid (List.mem_append_left _ hmem)]
  settled hr p hp id := by
    rw [hchange.ready] at hr
    rw [hchange.snapshot, applyAll_append, status_applyAll, h.settled hr p hp id,
      ← status_applyAll]

/-- A close during the read is only fenced, and not even that once the fence
is full. -/
theorem noteNativeRemovedId_fences {id : String} (h : Flow b l) (hapart : b.snapshot.Apart)
    (hready : b.ready = false) :
    let r := b.noteNativeRemovedId host id
    Flow r.1 (l.noteAll r.2) ∧ r.1.snapshot = b.snapshot ∧ r.1.ready = false ∧
      ∀ other ∈ r.1.bootstrapClosed, other ∈ b.bootstrapClosed ∨ other = id := by
  simp only [Bridge.noteNativeRemovedId, hready, Bool.not_false, if_true]
  generalize hfence : (if b.bootstrapClosed.length < maxMembers then add b.bootstrapClosed id
    else b.bootstrapClosed) = fence
  have hsame := @schedule_sameSets host { b with bootstrapClosed := fence }
  rw [hready] at hsame
  refine ⟨schedule_flow (h.toCalls.congr hready.symm rfl rfl) (fun _ => h.unwritten hready) hapart,
    hsame.snapshot, hsame.ready, fun other hother => ?_⟩
  rw [hsame.bootstrapClosed, ← hfence] at hother
  split at hother
  · exact mem_add.mp hother
  · exact .inl hother

theorem Content.fence {id : String} (h : Content b changes stored) (hready : b.ready = false)
    (hsnapshot : b'.snapshot = b.snapshot) (hready' : b'.ready = false)
    (hfence : ∀ other ∈ b'.bootstrapClosed, other ∈ b.bootstrapClosed ∨ other = id) :
    Content b' (changes ++ [.closed id]) stored where
  unread _ := h.unread hready
  fenced _ other hother := by
    rw [List.mem_append]
    rcases hfence other hother with hold | rfl
    · exact .inl (h.fenced hready other hold)
    · exact .inr (List.mem_singleton_self _)
  unsettled _ other hother := by
    rw [List.mem_append, not_or, List.mem_singleton] at hother
    rw [hsnapshot, h.unsettled hready other hother.1, effects_append]
    have hne : ¬ (Settled.closed id).id = other := fun heq => hother.2 (by rw [← heq]; rfl)
    simp [Settled.effects, hne]
  settled hr := by rw [hready'] at hr; cases hr

/-! ## The end of the read -/

/-- Merging what is stored with what settled meanwhile gives, window by
window, the stored sets with the changes applied, where the changes kept what
was stored. -/
theorem adoptRead_settled {members tile : List String} (hflow : Flow b l)
    (h : Content b changes stored) (hready : b.ready = false)
    (hapart : (⟨members, tile⟩ : Snapshot).Apart)
    (hkept : Session.Kept changes b.bootstrapClosed b.snapshot ⟨members, tile⟩) (id : String) :
    (b.adoptRead "ok" members tile).snapshot.status id =
      ((⟨members, tile⟩ : Snapshot).applyAll changes).status id := by
  have hunsent := hflow.unsent hready
  have hstored := apart_iff_status.mp hapart id
  simp only [Bridge.adoptRead, if_true, Bridge.snapshot, status_mk, mem_removeAll, mem_addAll,
    hunsent]
  by_cases hclosed : Settled.closed id ∈ changes
  · obtain ⟨hmembers, htile⟩ := hkept.closes id hclosed
    by_cases hfenced : id ∈ b.bootstrapClosed
    · simp [hfenced, Snapshot.status, hmembers, htile]
    · obtain ⟨hstored', hlocal⟩ := hkept.fenced id hclosed hfenced
      simp only [Snapshot.status, Bridge.snapshot, Prod.mk.injEq, List.contains_eq_mem,
        decide_eq_false_iff_not] at hstored' hlocal
      simp [Snapshot.status, hmembers, htile, hstored', hlocal]
  · have hfenced : id ∉ b.bootstrapClosed := fun hid => hclosed (h.fenced hready id hid)
    have hlocal := h.unsettled hready id hclosed
    have hmerge := merge_status hstored hlocal
      (fun hm => by
        have := hkept.floats id (by simpa [Snapshot.status] using hm) hclosed
        rw [← status_applyAll]
        simpa [Snapshot.status] using this)
      (fun ht => by
        have := hkept.tiles id (by simpa [Snapshot.status] using ht) hclosed
        rw [← status_applyAll]
        simpa [Snapshot.status] using this)
    rw [status_applyAll, ← hmerge]
    simp only [Snapshot.status, Bridge.snapshot, hfenced, not_false_eq_true, and_true,
      List.contains_eq_mem]
    by_cases hm : id ∈ members <;> by_cases hl : id ∈ b.members <;>
      by_cases ht : id ∈ tile <;> by_cases hlt : id ∈ b.tile <;> simp [hm, hl, ht, hlt]

theorem settleIntentRead_sets {correlation outcome reason : String} {members tile : List String}
    {stored returned tileStored tileReturned : Nat} :
    let r := Bridge.settleIntentRead host b.callToken correlation outcome reason members stored
      returned tile tileStored tileReturned b
    r.1.ready = true ∧ r.1.snapshot = (b.adoptRead outcome members tile).snapshot := by
  simp only [Bridge.settleIntentRead, bne_self_eq_false, Bool.false_eq_true, if_false]
  have hsame := (@Bridge.pumpIntent_pumped host
      { Bridge.adoptRead outcome members tile
          { b with callToken := b.callToken + 1, deadline := none, busy := false } with
              bootstrapClosed := [], ready := true }).sameSets
  refine ⟨hsame.ready, hsame.snapshot.trans ?_⟩
  rw [Bridge.adoptRead, Bridge.adoptRead]
  split <;> rfl

/-! ## Steps -/

namespace Session

/-- What every step keeps: calls and ledger agree, no window is on both sides,
and the sets are what was stored with the changes applied. -/
structure Good (s : Session) : Prop where
  flow : Flow s.bridge s.ledger
  apart : s.bridge.snapshot.Apart
  content : Content s.bridge s.ledger.changes s.ledger.stored

end Session

@[simp] theorem noteAll_changes {outputs : List Output} :
    (l.noteAll outputs).changes = l.changes ∧ (l.noteAll outputs).stored = l.stored := by
  induction outputs generalizing l with
  | nil => exact ⟨rfl, rfl⟩
  | cons output outputs ih =>
    obtain ⟨hchanges, hstored⟩ := ih (l := l.note output)
    rw [Ledger.noteAll, List.foldl_cons]
    refine ⟨hchanges.trans ?_, hstored.trans ?_⟩ <;> cases output <;> rfl

/-- The changes recorded beside the calls do not matter to the flow, nor what
is read as long as the read is out. -/
theorem Flow.record (h : Flow b l) (hstored : b.ready = false ∨ stored = l.stored) :
    Flow b { l with changes := changes, stored := stored } where
  toCalls := { h.toCalls with }
  pending := h.pending
  unwritten := h.unwritten
  unsent := h.unsent
  unfenced := h.unfenced
  flushed := h.flushed
  synced hok hready hnone := by
    rcases hstored with hunread | rfl
    · rw [hready] at hunread
      cases hunread
    · exact h.synced hok hready hnone

/-- Only the outstanding read has anything adopted. -/
theorem Session.Good.adopted (hgood : s.Good) {e : Bridge.Event} {p : Snapshot}
    (h : s.adoptedBy e = some p) : s.bridge.ready = false := by
  cases e with
  | reply n r =>
    simp only [Session.adoptedBy, Option.bind_eq_bind, Option.bind_eq_some_iff, require_eq_some,
      Bool.and_eq_true, beq_iff_eq] at h
    obtain ⟨call, hcall, _, ⟨⟨hkind, htoken⟩, hbusy⟩, -⟩ := h
    exact (hgood.flow.toCalls.current (List.mem_of_getElem? hcall) htoken hbusy).2.mp hkind
  | _ => cases h

/-- A step from what it does to the bridge and the books. -/
theorem Session.good_step {i : Bridge.Input}
    (h : ∀ l : Ledger, l.sent = s.ledger.sent →
      l.stored = (s.adoptedBy i.event).or s.ledger.stored → Flow s.bridge l →
      Flow (s.bridge.handle s.ledger.sent i).1 (l.noteAll (s.bridge.handle s.ledger.sent i).2) ∧
        (s.bridge.handle s.ledger.sent i).1.snapshot.Apart ∧
        Content (s.bridge.handle s.ledger.sent i).1
          (s.ledger.changes ++ Session.settledBy s.bridge i.event)
          ((s.adoptedBy i.event).or s.ledger.stored))
    (hgood : s.Good) : (s.step i).Good := by
  have hstored : s.bridge.ready = false ∨
      (s.adoptedBy i.event).or s.ledger.stored = s.ledger.stored := by
    cases hadopted : s.adoptedBy i.event with
    | none => exact .inr rfl
    | some p => exact .inl (hgood.adopted hadopted)
  obtain ⟨hflow, hapart, hcontent⟩ := h { s.ledger with
    changes := s.ledger.changes ++ Session.settledBy s.bridge i.event
    stored := (s.adoptedBy i.event).or s.ledger.stored } rfl rfl (hgood.flow.record hstored)
  refine ⟨hflow, hapart, ?_⟩
  rw [Session.step]
  dsimp only
  rw [noteAll_changes.1, noteAll_changes.2]
  exact hcontent

/-- A step that only changes the sets. -/
theorem Session.good_change {i : Bridge.Input} (hgood : s.Good)
    (hadopted : s.adoptedBy i.event = none)
    (h : ∀ l : Ledger, l.sent = s.ledger.sent → Flow s.bridge l →
      Change s.bridge (s.bridge.handle s.ledger.sent i).1 l
        (l.noteAll (s.bridge.handle s.ledger.sent i).2) (Session.settledBy s.bridge i.event)) :
    (s.step i).Good := by
  refine Session.good_step (fun l hsent _ hflow => ?_) hgood
  have hchange := h l hsent hflow
  refine ⟨hchange.flow, hchange.apart hgood.apart, ?_⟩
  rw [hadopted]
  exact hgood.content.change hchange

/-- A step that ends the read, by whichever reply or deadline: what it adopts
is what the reply showed, and where nothing is adopted the outcome was not ok.
-/
theorem Session.good_settle {i : Bridge.Input} {outcome reason : String}
    {members tile : List String} {stored returned tileStored tileReturned : Nat} (hgood : s.Good)
    (hcall : call ∈ s.ledger.sent) (htoken : call.token = s.bridge.callToken)
    (hbusy : s.bridge.busy = true) (hread : call.kind = .read)
    (hsettled : Session.settledBy s.bridge i.event = [])
    (hhandle : s.bridge.handle s.ledger.sent i = Bridge.settleIntentRead host call.token
      call.correlation outcome reason members stored returned tile tileStored tileReturned s.bridge)
    (hadopted : ∀ p, s.adoptedBy i.event = some p → outcome = "ok" ∧ p = ⟨members, tile⟩)
    (hok : outcome = "ok" → s.adoptedBy i.event = some ⟨members, tile⟩ ∧
      (⟨members, tile⟩ : Snapshot).Apart ∧ Session.Kept s.ledger.changes s.bridge.bootstrapClosed
        s.bridge.snapshot ⟨members, tile⟩) :
    (s.step i).Good := by
  obtain ⟨hout, hkind⟩ := hgood.flow.toCalls.current hcall htoken hbusy
  have hready := hkind.mp hread
  have hunread := hgood.content.unread hready
  refine Session.good_step (fun l hsent hstored hflow => ?_) hgood
  obtain ⟨hout, -⟩ := hflow.toCalls.current (hsent ▸ hcall) htoken hbusy
  rw [hunread, Option.or_none] at hstored
  rw [hhandle, htoken, hsettled, List.append_nil, hunread]
  obtain ⟨hflow', hapart'⟩ := @settleIntentRead_flow host _ _ _ outcome reason members tile stored
      returned tileStored tileReturned hflow.bound
    hflow.unique hflow.payloads (finish_outstanding hout (rfl : call.correlation = _))
    (hflow.unwritten hready) (hflow.unfenced hready)
    (fun h => ⟨hstored.trans (hok h).1, (hok h).2.1⟩) hgood.apart
  obtain ⟨hready', hsnapshot'⟩ := @settleIntentRead_sets host s.bridge call.correlation outcome
      reason members tile stored returned tileStored tileReturned
  refine ⟨hflow', hapart', ⟨?_, ?_, ?_, ?_⟩⟩
  · intro hr
    rw [hready'] at hr
    cases hr
  · intro hr
    rw [hready'] at hr
    cases hr
  · intro hr
    rw [hready'] at hr
    cases hr
  · intro _ p hp id
    rw [Option.or_none] at hp
    obtain ⟨rfl, rfl⟩ := hadopted p hp
    obtain ⟨-, hpapart, hkept⟩ := hok rfl
    rw [hsnapshot']
    exact adoptRead_settled hgood.flow hgood.content hready hpapart hkept id

/-- A step that ends a write, or does nothing. -/
theorem Session.good_books {i : Bridge.Input} (hgood : s.Good)
    (hadopted : s.adoptedBy i.event = none) (hsettled : Session.settledBy s.bridge i.event = [])
    (hsets : SameSets s.bridge (s.bridge.handle s.ledger.sent i).1)
    (h : ∀ l : Ledger, l.sent = s.ledger.sent → Flow s.bridge l →
      Flow (s.bridge.handle s.ledger.sent i).1
        (l.noteAll (s.bridge.handle s.ledger.sent i).2)) : (s.step i).Good :=
  Session.good_change hgood hadopted fun l hsent hflow => by
    rw [hsettled]
    exact ⟨h l hsent hflow, hsets.snapshot, hsets.ready, hsets.bootstrapClosed⟩

/-- A reply or a deadline that finds its call over does nothing. -/
theorem Session.good_idle {i : Bridge.Input} (hgood : s.Good)
    (hadopted : s.adoptedBy i.event = none) (hsettled : Session.settledBy s.bridge i.event = [])
    (hhandle : s.bridge.handle s.ledger.sent i = (s.bridge, [])) : (s.step i).Good :=
  Session.good_books hgood hadopted hsettled (by rw [hhandle]; exact .refl _)
    fun l _ hflow => by rw [hhandle]; exact hflow

theorem current_of_guard (h : (call.token != b.callToken || !b.busy) = false) :
    call.token = b.callToken ∧ b.busy = true := by
  simpa using h

theorem Session.good_writeReply {i : Bridge.Input} {n sentCount sentTile : Nat} {r : Reply}
    (hgood : s.Good) (hevent : i.event = .reply n r) (hcall : s.ledger.sent[n]? = some call)
    (hkind : call.kind = .write sentCount sentTile) : (s.step i).Good := by
  have hmem := List.mem_of_getElem? hcall
  have hsettled : Session.settledBy s.bridge i.event = [] := by rw [hevent]; rfl
  have hadopted : s.adoptedBy i.event = none := by
    simp [hevent, Session.adoptedBy, hcall, hkind, require]
  have hhandle : s.bridge.handle s.ledger.sent i =
      s.bridge.onIntentWriteReply i.host call sentCount sentTile r := by
    simp [Bridge.handle, hevent, hcall, hkind]
  rw [Bridge.onIntentWriteReply] at hhandle
  cases hguard : call.token != s.bridge.callToken || !s.bridge.busy with
  | true => exact Session.good_idle hgood hadopted hsettled (by rw [hhandle, hguard]; rfl)
  | false =>
    obtain ⟨htoken, hbusy⟩ := current_of_guard hguard
    simp only [hguard, Bool.false_eq_true, if_false] at hhandle
    obtain ⟨correlation, outcome, stored, tileStored, reason, hend, hcorrelation⟩ :
        ∃ correlation outcome stored tileStored reason,
          Bridge.writeOutcome call sentCount sentTile r =
            .writeLog correlation outcome stored tileStored reason ∧
            call.correlation = correlation := by
      rw [Bridge.writeOutcome]
      repeat' split
      all_goals exact ⟨_, _, _, _, _, rfl, rfl⟩
    have hpumped := @Bridge.pumpIntent_pumped i.host
      { s.bridge with deadline := none, busy := false }
    refine Session.good_books hgood hadopted hsettled ?_ fun l hsent hflow => ?_
    · rw [hhandle]
      obtain ⟨hm, ht, hr, hb⟩ := hpumped.sameSets
      exact ⟨hm, ht, hr, hb⟩
    · rw [hhandle, hend]
      exact writeEnd_flow hflow hgood.apart (hsent ▸ hmem) htoken hbusy (by rw [hkind]; nofun)
        hcorrelation ⟨rfl, rfl, rfl, rfl⟩ rfl rfl rfl

theorem Session.good_writeTimeout {i : Bridge.Input} {n sentCount sentTile : Nat}
    (hgood : s.Good) (hevent : i.event = .timeout n) (hcall : s.ledger.sent[n]? = some call)
    (hkind : call.kind = .write sentCount sentTile) : (s.step i).Good := by
  have hmem := List.mem_of_getElem? hcall
  have hsettled : Session.settledBy s.bridge i.event = [] := by rw [hevent]; rfl
  have hadopted : s.adoptedBy i.event = none := by rw [hevent]; rfl
  have hhandle : s.bridge.handle s.ledger.sent i =
      s.bridge.onIntentWriteTimeout i.host call := by
    simp [Bridge.handle, hevent, hcall, hkind]
  rw [Bridge.onIntentWriteTimeout] at hhandle
  cases hguard : call.token != s.bridge.callToken || !s.bridge.busy with
  | true => exact Session.good_idle hgood hadopted hsettled (by rw [hhandle, hguard]; rfl)
  | false =>
    obtain ⟨htoken, hbusy⟩ := current_of_guard hguard
    simp only [hguard, Bool.false_eq_true, if_false] at hhandle
    have hpumped := @Bridge.pumpIntent_pumped i.host { s.bridge with busy := false }
    refine Session.good_books hgood hadopted hsettled ?_ fun l hsent hflow => ?_
    · rw [hhandle]
      obtain ⟨hm, ht, hr, hb⟩ := hpumped.sameSets
      exact ⟨hm, ht, hr, hb⟩
    · rw [hhandle]
      exact writeEnd_flow hflow hgood.apart (hsent ▸ hmem) htoken hbusy (by rw [hkind]; nofun)
        rfl ⟨rfl, rfl, rfl, rfl⟩ rfl rfl rfl

theorem Session.good_readTimeout {i : Bridge.Input} {n : Nat} (hgood : s.Good)
    (hevent : i.event = .timeout n) (hcall : s.ledger.sent[n]? = some call)
    (hkind : call.kind = .read) : (s.step i).Good := by
  have hmem := List.mem_of_getElem? hcall
  have hsettled : Session.settledBy s.bridge i.event = [] := by rw [hevent]; rfl
  have hadopted : s.adoptedBy i.event = none := by rw [hevent]; rfl
  have hhandle : s.bridge.handle s.ledger.sent i = s.bridge.onIntentReadTimeout i.host call := by
    simp [Bridge.handle, hevent, hcall, hkind]
  rw [Bridge.onIntentReadTimeout] at hhandle
  cases hguard : call.token != s.bridge.callToken || !s.bridge.busy with
  | true => exact Session.good_idle hgood hadopted hsettled (by rw [hhandle, hguard]; rfl)
  | false =>
    obtain ⟨htoken, hbusy⟩ := current_of_guard hguard
    simp only [hguard, Bool.false_eq_true, if_false] at hhandle
    refine Session.good_settle hgood hmem htoken hbusy hkind hsettled hhandle (fun p hp => ?_)
      fun hok => absurd hok (by decide)
    rw [hadopted] at hp
    cases hp

/-- The reply to the outstanding read is adopted under the guards of the ok
branch. -/
theorem Session.adoptedBy_reply {i : Bridge.Input} {n : Nat} {r : Reply}
    (hevent : i.event = .reply n r) (hcall : s.ledger.sent[n]? = some call)
    (hkind : call.kind = .read) (htoken : call.token = s.bridge.callToken) (hbusy : s.bridge.busy = true)
    (p : Snapshot) : s.adoptedBy i.event = some p ↔ r.length ≤ maxBytes ∧ r.v = some 1 ∧
      r.correlationId = some call.correlation ∧ r.outcome = some "ok" ∧
      ∃ members stored tile tileStored, Bridge.readOk r =
        some (members, stored, tile, tileStored) ∧ p = ⟨members, tile⟩ := by
  simp only [hevent, Session.adoptedBy, hcall, Option.bind_eq_bind, Option.bind_some,
    Option.bind_eq_some_iff, require_eq_some, Bool.and_eq_true, decide_eq_true_eq, beq_iff_eq,
    Option.pure_def, Option.some.injEq, Prod.exists]
  constructor
  · rintro ⟨_, -, _, ⟨⟨⟨hlength, hv⟩, hcorrelation⟩, houtcome⟩, members, stored, tile, tileStored,
      hread, rfl⟩
    exact ⟨hlength, hv, hcorrelation, houtcome, members, stored, tile, tileStored, hread, rfl⟩
  · rintro ⟨hlength, hv, hcorrelation, houtcome, members, stored, tile, tileStored, hread, rfl⟩
    exact ⟨(), ⟨⟨hkind, htoken⟩, hbusy⟩, (), ⟨⟨⟨hlength, hv⟩, hcorrelation⟩, houtcome⟩, members,
      stored, tile, tileStored, hread, rfl⟩

theorem Session.good_readReply {i : Bridge.Input} {n : Nat} {r : Reply} (hgood : s.Good)
    (hfair : s.Fair i) (hevent : i.event = .reply n r) (hcall : s.ledger.sent[n]? = some call)
    (hkind : call.kind = .read) : (s.step i).Good := by
  have hmem := List.mem_of_getElem? hcall
  have hsettled : Session.settledBy s.bridge i.event = [] := by rw [hevent]; rfl
  have hkept : ∀ p, s.adoptedBy i.event = some p →
      Session.Kept s.ledger.changes s.bridge.bootstrapClosed s.bridge.snapshot p := by
    simpa [Session.Fair, hevent] using hfair
  have hhandle : s.bridge.handle s.ledger.sent i = s.bridge.onIntentReadReply i.host call r := by
    simp [Bridge.handle, hevent, hcall, hkind]
  rw [Bridge.onIntentReadReply] at hhandle
  cases hguard : call.token != s.bridge.callToken || !s.bridge.busy with
  | true =>
    refine Session.good_idle hgood ?_ hsettled (by rw [hhandle, hguard]; rfl)
    have : (call.token == s.bridge.callToken && s.bridge.busy) = false := by
      cases htoken : call.token == s.bridge.callToken <;> cases hbusy : s.bridge.busy <;>
        simp_all [bne]
    simp only [hevent, Session.adoptedBy, hcall, Option.bind_eq_bind, Option.bind_some, require,
      Bool.and_assoc, this, Bool.and_false, Bool.false_eq_true, if_false, Option.bind_none]
  | false =>
    obtain ⟨htoken, hbusy⟩ := current_of_guard hguard
    simp only [hguard, Bool.false_eq_true, if_false] at hhandle
    have hadopted := Session.adoptedBy_reply hevent hcall hkind htoken hbusy
    have hfailed : ∀ {outcome reason : String}, outcome ≠ "ok" →
        (∀ p, s.adoptedBy i.event ≠ some p) → s.bridge.handle s.ledger.sent i =
          Bridge.settleIntentRead i.host call.token call.correlation outcome reason [] 0 0 [] 0 0
            s.bridge → (s.step i).Good := fun hne hnever hsettle =>
      Session.good_settle hgood hmem htoken hbusy hkind hsettled hsettle
        (fun p hp => absurd hp (hnever p)) fun hok => absurd hok hne
    split at hhandle
    · rename_i hmalformed
      refine hfailed (by decide) (fun p hp => ?_) hhandle
      obtain ⟨hlength, hv, hcorrelation, -⟩ := (hadopted p).mp hp
      rcases hmalformed with h | h | h
      · omega
      · exact h hv
      · exact h hcorrelation
    rename_i hformed
    rw [not_or, not_or, not_lt, not_not, not_not] at hformed
    split at hhandle
    · rename_i houtcome
      split at hhandle
      · rename_i hread
        refine hfailed (by decide) (fun p hp => ?_) hhandle
        obtain ⟨-, -, -, -, _, _, _, _, hread', -⟩ := (hadopted p).mp hp
        rw [hread] at hread'
        cases hread'
      · rename_i members stored tile tileStored hread
        have hsome : s.adoptedBy i.event = some ⟨members, tile⟩ := (hadopted _).mpr
          ⟨hformed.1, hformed.2.1, hformed.2.2, houtcome, members, stored, tile, tileStored, hread, rfl⟩
        refine Session.good_settle hgood hmem htoken hbusy hkind hsettled hhandle (fun p hp => ?_)
          fun _ => ⟨hsome, readOk_apart hread, hkept _ hsome⟩
        rw [hsome] at hp
        exact ⟨rfl, (Option.some.inj hp).symm⟩
    · rename_i hok
      have hnever : ∀ p, s.adoptedBy i.event ≠ some p := fun p hp =>
        hok ((hadopted p).mp hp).2.2.2.1
      split at hhandle
      · exact hfailed (by decide) hnever hhandle
      split at hhandle
      · exact hfailed (by decide) hnever hhandle
      · exact hfailed (by decide) hnever hhandle

/-- A fair step keeps everything. One case per event; those that settle a
change use `good_change`, the replies and deadlines of the read use
`good_settle`, the others keep the sets. -/
theorem Session.Good.step (hgood : s.Good) {i : Bridge.Input} (hfair : s.Fair i) :
    (s.step i).Good := by
  cases hevent : i.event with
  | applied floatTarget windows =>
    refine Session.good_change hgood (by rw [hevent]; rfl) fun l _ hflow => ?_
    simp only [Bridge.handle, hevent]
    exact updateSettledIntentFromFlight_change hflow hgood.apart
  | sticky c =>
    have hfair : Session.echoesAdopted c s.bridge = true → c.id ∉ s.bridge.tile := by
      simpa [Session.Fair, hevent] using hfair
    refine Session.good_change hgood (by rw [hevent]; rfl) fun l _ hflow => ?_
    simp only [Bridge.handle, hevent]
    exact issueSticky_change hflow hgood.apart hfair
  | adopt id =>
    refine Session.good_books hgood (by rw [hevent]; rfl) (by rw [hevent]; rfl) ?_ fun l _ hflow => ?_
    · simp only [Bridge.handle, hevent]
      exact ⟨rfl, rfl, rfl, rfl⟩
    · simp only [Bridge.handle, hevent]
      exact hflow.adopt
  | forget id =>
    refine Session.good_books hgood (by rw [hevent]; rfl) (by rw [hevent]; rfl) ?_ fun l _ hflow => ?_
    · simp only [Bridge.handle, hevent]
      exact ⟨rfl, rfl, rfl, rfl⟩
    · simp only [Bridge.handle, hevent]
      exact hflow.adopt
  | closed id =>
    cases hready : s.bridge.ready with
    | true =>
      refine Session.good_change hgood (by rw [hevent]; rfl) fun l _ hflow => ?_
      simp only [Bridge.handle, hevent]
      exact noteNativeRemovedId_change hflow hgood.apart hready
    | false =>
      refine Session.good_step (fun l _ _ hflow => ?_) hgood
      simp only [Bridge.handle, hevent]
      obtain ⟨hflow', hsnapshot, hready', hfence⟩ := @noteNativeRemovedId_fences i.host _ _ id
          hflow hgood.apart hready
      refine ⟨hflow', by rw [hsnapshot]; exact hgood.apart, ?_⟩
      exact hgood.content.fence hready hsnapshot hready' hfence
  | reply n r =>
    cases hcall : s.ledger.sent[n]? with
    | none =>
      exact Session.good_idle hgood (by simp [hevent, Session.adoptedBy, hcall])
        (by rw [hevent]; rfl) (by simp [Bridge.handle, hevent, hcall])
    | some call =>
      cases hkind : call.kind with
      | read => exact Session.good_readReply hgood hfair hevent hcall hkind
      | write sentCount sentTile => exact Session.good_writeReply hgood hevent hcall hkind
  | timeout n =>
    cases hcall : s.ledger.sent[n]? with
    | none =>
      exact Session.good_idle hgood (by rw [hevent]; rfl) (by rw [hevent]; rfl)
        (by simp [Bridge.handle, hevent, hcall])
    | some call =>
      cases hkind : call.kind with
      | read => exact Session.good_readTimeout hgood hevent hcall hkind
      | write sentCount sentTile => exact Session.good_writeTimeout hgood hevent hcall hkind

/-! ## Runs -/

theorem Snapshot.empty_apart : (⟨[], []⟩ : Snapshot).Apart := fun _ h => absurd h List.not_mem_nil

/-- A read that is given up at once. -/
theorem settled_start_good {seq : Nat} {generation correlation reason : String} :
    let r := Bridge.settleIntentRead host 1 correlation "degraded" reason [] 0 0 [] 0 0
      ({ generation, busy := true, callToken := 1, seq } : Bridge)
    (⟨r.1, ({} : Ledger).noteAll r.2⟩ : Session).Good := by
  intro r
  obtain ⟨hflow, hapart⟩ := @settleIntentRead_flow host
    { generation, busy := true, callToken := 1, seq } {} correlation "degraded" reason [] [] 0 0 0 0
    (fun _ h => absurd h List.not_mem_nil)
    (fun _ h => absurd h List.not_mem_nil) (fun _ h => absurd h List.not_mem_nil) rfl rfl
    (fun _ => rfl) (fun hok => absurd hok (by decide)) Snapshot.empty_apart
  obtain ⟨hready, -⟩ := @settleIntentRead_sets host
    { generation, busy := true, callToken := 1, seq } correlation "degraded" reason [] [] 0 0 0 0
  refine ⟨hflow, hapart, ?_⟩
  have hunread : ∀ {P : Prop}, r.1.ready = false → P := fun h => by rw [hready] at h; cases h
  rw [noteAll_changes.1, noteAll_changes.2]
  exact ⟨hunread, hunread, hunread, fun _ p hp => by cases hp⟩

/-- The read is given up or sent. -/
theorem startIntentBootstrap_cases {generation : String} {live : Option (List String)} :
    ∃ seq, (∃ correlation reason, Bridge.startIntentBootstrap host generation live =
        Bridge.settleIntentRead host 1 correlation "degraded" reason [] 0 0 [] 0 0
          { generation, busy := true, callToken := 1, seq }) ∨
      ∃ correlation live', Bridge.startIntentBootstrap host generation live =
        ({ generation, busy := true, callToken := 1, seq, deadline := some 1 },
          [.callRead ⟨1, correlation, .read⟩ live']) := by
  obtain ⟨seq, hseq⟩ := ({ generation, busy := true, callToken := 1 } : Bridge).intentCorrelation_snd
  refine ⟨seq, ?_⟩
  rw [Bridge.startIntentBootstrap]
  generalize Bridge.intentCorrelation _ = correlated at *
  obtain ⟨correlation, b'⟩ := correlated
  obtain rfl : b' = _ := hseq
  cases correlation with
  | none => exact Or.inl ⟨"-", "malformed", rfl⟩
  | some correlation =>
    dsimp only
    split
    all_goals
      -- with or without the live windows in the text
      split
      · exact Or.inl ⟨correlation, "oversize", rfl⟩
      split
      · exact Or.inl ⟨correlation, "transport", rfl⟩
      split
      · exact Or.inl ⟨correlation, "transport", rfl⟩
      · exact Or.inr ⟨correlation, _, rfl⟩

theorem Session.start_good {generation : String} {live : Option (List String)} :
    (Session.start host generation live).Good := by
  rw [Session.start]
  obtain ⟨seq, ⟨correlation, reason, hstart⟩ | ⟨correlation, live', hstart⟩⟩ :=
    @startIntentBootstrap_cases host generation live
  · rw [hstart]
    exact @settled_start_good host _ _ _ _
  · rw [hstart]
    refine ⟨{
      reading := fun _ => rfl
      idle := fun h => by cases h
      out := fun _ => ⟨⟨1, correlation, .read⟩, List.mem_singleton_self _, rfl, rfl, by simp⟩
      bound := fun call hcall => by rw [List.mem_singleton.mp hcall]
      unique := fun call hcall other hother _ => by
        rw [List.mem_singleton.mp hcall, List.mem_singleton.mp hother]
      payloads := fun _ h => absurd h List.not_mem_nil
      pending := fun _ h => by cases h
      unwritten := fun _ => rfl
      unsent := fun _ => rfl
      unfenced := fun _ _ => rfl
      flushed := fun _ h => by cases h
      synced := fun _ h => by cases h }, Snapshot.empty_apart, {
      unread := fun _ => rfl
      fenced := fun _ _ h => absurd h List.not_mem_nil
      unsettled := fun _ _ _ => rfl
      settled := fun h => by cases h }⟩

theorem Session.Good.run {inputs : List Bridge.Input} (hgood : s.Good) (hfair : s.FairRun inputs) :
    (s.run inputs).Good := by
  induction inputs generalizing s with
  | nil => exact hgood
  | cons i inputs ih => exact ih (hgood.step hfair.1) hfair.2

theorem Session.Good.consistent (hgood : s.Good) : s.Consistent where
  apart := hgood.apart
  payloads := hgood.flow.payloads
  single := by
    cases hbusy : s.bridge.busy with
    | true =>
      obtain ⟨call, -, hout, -⟩ := hgood.flow.out hbusy
      rw [hout]
      exact Nat.le_refl _
    | false =>
      rw [hgood.flow.idle hbusy]
      exact Nat.zero_le _
  settled p hp id := by
    cases hready : s.bridge.ready with
    | true => exact hgood.content.settled hready p hp id
    | false =>
      rw [hgood.content.unread hready] at hp
      cases hp
  flushed hready hout hok := by
    have hbusy : s.bridge.busy = false := by
      cases hbusy : s.bridge.busy with
      | false => rfl
      | true =>
        obtain ⟨call, -, hout', -⟩ := hgood.flow.out hbusy
        rw [hout] at hout'
        cases hout'
    exact hgood.flow.synced hok hready (hgood.flow.flushed hok hbusy)

end

/-! ## The whole session -/

namespace Session

/-- In a run of fair steps the intent is consistent after every event. Each
event keeps the stronger invariant `Good`, which ties the bridge to the ledger
of what was called, changed and stored. -/
theorem intent_consistent (host : Host) (generation : String) (live : Option (List String))
    (inputs : List Bridge.Input) (hfair : (start host generation live).FairRun inputs) :
    ((start host generation live).run inputs).Consistent :=
  (start_good.run hfair).consistent

/-- An ok reply to the first read of session `g`. -/
def okReply (members tile : List String) : Reply where
  length := 90
  v := some 1
  correlationId := some "g-i0"
  outcome := some "ok"
  members := some (members.map some)
  stored := some members.length
  returned := some members.length
  tile := some (some (tile.map some))
  tileStored := some (some tile.length)
  tileReturned := some tile.length

/-- The acknowledgement of a write. -/
def storedReply (correlation : String) (members tile : Nat) : Reply where
  length := 60
  v := some 1
  correlationId := some correlation
  outcome := some "stored"
  stored := some members
  tileStored := some (some tile)

/-- One window is floated and another one closes while the read is out; the
merged pair is written. Then a stored float is unfloated and written too. -/
def unfloatRun : List Bridge.Input :=
  [{ event := .applied (some ("u", true)) [] }, { event := .closed "x" },
    { event := .reply 0 (okReply ["v", "x"] ["w"]) }, { event := .reply 1 (storedReply "g-i1" 2 1) },
    { event := .applied (some ("v", false)) [] }, { event := .reply 2 (storedReply "g-i2" 1 1) }]

/-- Two payloads are written, the second of them the pair the bridge ends
with. -/
theorem intent_consistent_unfloat :
    ((start {} "g" none).run unfloatRun).Consistent ∧
      ((start {} "g" none).run unfloatRun).bridge.snapshot = ⟨["u"], ["w"]⟩ ∧
      ((start {} "g" none).run unfloatRun).ledger.stored = some ⟨["v", "x"], ["w"]⟩ ∧
      ((start {} "g" none).run unfloatRun).ledger.payloads.map Prod.fst =
        [⟨["v", "u"], ["w"]⟩, ⟨["u"], ["w"]⟩] ∧
      ((start {} "g" none).run unfloatRun).bridge.ready = true ∧
      ((start {} "g" none).run unfloatRun).ledger.outstanding = [] ∧
      ((start {} "g" none).run unfloatRun).ledger.successful = true := by
  refine ⟨intent_consistent {} "g" none _ ⟨trivial, trivial, ?_, ?_, trivial, ?_, trivial⟩,
    by decide +kernel, by decide +kernel, by decide +kernel, by decide +kernel, by decide +kernel,
    by decide +kernel⟩
  · intro p hp
    have hread : ((start {} "g" none).run (unfloatRun.take 2)).adoptedBy
        (.reply 0 (okReply ["v", "x"] ["w"])) = some ⟨["v", "x"], ["w"]⟩ := by decide +kernel
    have hbefore : ((start {} "g" none).run (unfloatRun.take 2)).ledger.changes =
          [.floated "u", .closed "x"] ∧
        ((start {} "g" none).run (unfloatRun.take 2)).bridge.bootstrapClosed = ["x"] := by
      decide +kernel
    obtain rfl := Option.some.inj (hread.symm.trans hp)
    change Kept ((start {} "g" none).run (unfloatRun.take 2)).ledger.changes
      ((start {} "g" none).run (unfloatRun.take 2)).bridge.bootstrapClosed _ _
    rw [hbefore.1, hbefore.2]
    refine ⟨by decide, by decide, fun id hid => ?_, fun id hid hopen => ?_⟩
    · obtain rfl : id = "x" := by simpa using hid
      decide
    · obtain rfl : id = "x" := by simpa using hid
      exact absurd (List.mem_singleton_self _) hopen
  · intro p hp
    have hnone : ((start {} "g" none).run (unfloatRun.take 3)).adoptedBy
        (.reply 1 (storedReply "g-i1" 2 1)) = none := by decide +kernel
    cases hnone.symm.trans hp
  · intro p hp
    have hnone : ((start {} "g" none).run (unfloatRun.take 5)).adoptedBy
        (.reply 2 (storedReply "g-i2" 1 1)) = none := by decide +kernel
    cases hnone.symm.trans hp

/-- A tile override that was adopted on all desktops comes back as a float
and stays a tile override. -/
theorem intent_not_always_consistent : ¬ ∀ (host : Host) (generation : String)
    (live : Option (List String)) (inputs : List Bridge.Input),
    ((start host generation live).run inputs).Consistent := by
  intro h
  let inputs : List Bridge.Input := [{ event := .reply 0 (okReply [] ["w"]) },
    { event := .adopt "w" },
    { event := .sticky { id := "w", allDesktops := false, previousFloating := true } }]
  have hapart := (h {} "g" none inputs).apart
  exact hapart "w" (by decide +kernel) (by decide +kernel)

end Session

end Intent

end PlasmaTiler
