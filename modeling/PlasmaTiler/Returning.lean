import PlasmaTiler.Coherence

/-!
# Outputs that come back

An unplugged output leaves its workspaces on a survivor and a record of them.
When it returns, the workspaces of the record that its recorded holder still
has go back, and the holder's view is kept by position.

The return undoes the displacement exactly where that is enough: the holder
has all of the former workspaces, in their order, and none of them stands
before its view unless nothing stays behind it (`Restorable`). The second
part is about a position in a list from which some entries are taken. It
names the same element afterwards when nothing before it goes, and it is
clamped to the last one when everything behind it does (`filter_clamp_iff`).

In between anything may happen that does not name the unplugged output; such
a run leaves it away (`run_absent`). `reconnect_roundTrip_iff` is the
equivalence over every such run, and `reconnect_changes_view` a holder that
shows another one of its own workspaces after the return.
-/

namespace PlasmaTiler

/-! ## Positions in a filtered list -/

section
variable {α : Type} {l : List α} {p : α → Bool} {x : α} {i k : Nat}

/-- Where an element that stays is found after a filter. -/
theorem filter_getElem?_iff (hnodup : l.Nodup) (hx : l[i]? = some x) (hp : p x = true) :
    (l.filter p)[k]? = some x ↔ k = ((l.take i).filter p).length := by
  have hlt : i < l.length := (List.getElem?_eq_some_iff.mp hx).1
  have hget : l[i] = x := (List.getElem?_eq_some_iff.mp hx).2
  have hsplit : l.filter p = (l.take i).filter p ++ x :: (l.drop (i + 1)).filter p := by
    conv_lhs => rw [← List.take_append_drop i l, List.drop_eq_getElem_cons hlt, hget]
    rw [List.filter_append, List.filter_cons_of_pos hp]
  have hat : (l.filter p)[((l.take i).filter p).length]? = some x := by
    rw [hsplit, List.getElem?_append_right (Nat.le_refl _), Nat.sub_self]
    rfl
  constructor
  · intro hk
    obtain ⟨hklt, hkx⟩ := List.getElem?_eq_some_iff.mp hk
    obtain ⟨hatlt, hatx⟩ := List.getElem?_eq_some_iff.mp hat
    exact (List.Nodup.getElem_inj_iff (hnodup.filter _)).mp (hkx.trans hatx.symm)
  · rintro rfl
    exact hat

/-- A position clamped to the filtered list names the same element when
nothing before it goes, or everything behind it does. -/
theorem filter_clamp_iff (hnodup : l.Nodup) (hx : l[i]? = some x) (hp : p x = true) :
    (l.filter p)[if (l.filter p).length ≤ i then (l.filter p).length - 1 else i]? = some x ↔
      (∀ y ∈ l.take i, p y = true) ∨ ∀ y ∈ l.drop (i + 1), p y = false := by
  have hlt : i < l.length := (List.getElem?_eq_some_iff.mp hx).1
  have hget : l[i] = x := (List.getElem?_eq_some_iff.mp hx).2
  have hlength : (l.filter p).length =
      ((l.take i).filter p).length + (((l.drop (i + 1)).filter p).length + 1) := by
    conv_lhs => rw [← List.take_append_drop i l, List.drop_eq_getElem_cons hlt, hget]
    rw [List.filter_append, List.filter_cons_of_pos hp, List.length_append, List.length_cons]
  have hbefore : ((l.take i).filter p).length = i ↔ ∀ y ∈ l.take i, p y = true := by
    rw [← List.length_filter_eq_length_iff, List.length_take, Nat.min_eq_left (Nat.le_of_lt hlt)]
  have hbehind : ((l.drop (i + 1)).filter p).length = 0 ↔ ∀ y ∈ l.drop (i + 1), p y = false := by
    rw [List.length_eq_zero_iff, List.filter_eq_nil_iff]
    simp
  have hle : ((l.take i).filter p).length ≤ i := by
    refine (List.length_filter_le _ _).trans ?_
    rw [List.length_take]
    exact Nat.min_le_left _ _
  rw [filter_getElem?_iff hnodup hx hp, ← hbefore, ← hbehind, hlength]
  split <;> omega

end

namespace ManagedWorkspaces

/-! ## Operations that leave an output alone -/

/-- The output is an argument of the operation. One that does not name an
output leaves its lists and its history alone. -/
def Op.Names (key : String) : Op → Prop
  | .ensureOutput output | .select output _ | .activate output _ | .selectTrailing output
  | .resolveSendTrailing output | .assign _ output _ _ | .cleanup output _ _ _
  | .reconnectOutput output | .observeWorkspaceChange output _ => output = key
  | .displaceOutputTo origin dest => origin = key ∨ dest = key
  | .setHidden _ _ | .noteForeground _ | .removeWindow _ => False

section
variable {m m' : ManagedWorkspaces} {key output origin dest : String} {state : OutputState}
  {loose : WindowKey → Prop} {short : String → Prop}

theorem setOutput_absent (h : m.outputs[key]? = none) (hne : output ≠ key) :
    (m.setOutput output state).outputs[key]? = none := by
  rw [setOutput_lookup, if_neg hne]
  exact h

theorem modifyEntry_absent {id : String} {f : WorkspaceEntry → WorkspaceEntry}
    (h : m.outputs[key]? = none) : (m.modifyEntry output id f).outputs[key]? = none := by
  unfold modifyEntry
  split
  · exact h
  · refine setOutput_absent h ?_
    rintro rfl
    rename_i state hstate
    rw [h] at hstate
    cases hstate

theorem mapEntries_absent {f : WorkspaceEntry → WorkspaceEntry} (h : m.outputs[key]? = none) :
    (m.mapEntries f).outputs[key]? = none := by
  rw [mapEntries_lookup, h]
  rfl

theorem trailing_absent {created : Bool} {id : String} {active : Nat} (h : m.outputs[key]? = none)
    (htrailing : m.trailing output = some (m', state, id, created)) :
    (m'.setOutput output { state with active }).outputs[key]? = none := by
  obtain ⟨before, n, hbefore, -, -, -, houtputs, -⟩ := trailing_spec htrailing
  refine setOutput_absent (by rw [houtputs]; exact h) ?_
  rintro rfl
  rw [h] at hbefore
  cases hbefore

theorem cleanOrder_absent {removed : List String} {append : Bool} (h : m.outputs[key]? = none) :
    (m.cleanOrder output removed append).outputs[key]? = none := by
  unfold cleanOrder
  split
  · exact h
  · rename_i state hstate
    obtain ⟨-, houtputs, -⟩ := mintEntries_spec (m := m) ((if append = true then 1 else 0) +
      (WorkspacePolicy.minWorkspaces - ((state.order.filter fun entry =>
        !removed.contains entry.id).length + if append = true then 1 else 0)))
    refine setOutput_absent (by rw [houtputs]; exact h) ?_
    rintro rfl
    rw [h] at hstate
    cases hstate

/-- An output that is not there comes up only by name: every operation that
does not name it writes to other outputs alone. -/
theorem Sound.next_absent (h : m.Sound loose short) {op : Op} (hop : ¬op.Names key)
    (habsent : m.outputs[key]? = none) : (m.next op).outputs[key]? = none := by
  cases op with
  | ensureOutput output =>
    change (m.ensureOutput output).outputs[key]? = none
    unfold ManagedWorkspaces.ensureOutput
    split
    · exact habsent
    · obtain ⟨-, houtputs, -⟩ := mintEntries_spec
        (m := { m with nextOutput := m.nextOutput + 1 }) WorkspacePolicy.minWorkspaces
      dsimp only
      split
      · exact setOutput_absent (by rw [houtputs]; exact habsent) hop
      · exact setOutput_absent (by rw [houtputs]; exact habsent) hop
  | select output index =>
    change (m.select output index).1.outputs[key]? = none
    unfold ManagedWorkspaces.select
    split
    · exact habsent
    · split
      · exact habsent
      · exact setOutput_absent habsent hop
  | activate output workspace =>
    change (m.activate output workspace).1.outputs[key]? = none
    unfold ManagedWorkspaces.activate
    split
    · exact habsent
    · split
      · exact habsent
      · exact setOutput_absent habsent hop
  | selectTrailing output =>
    change (m.selectTrailing output).1.outputs[key]? = none
    unfold ManagedWorkspaces.selectTrailing
    split
    · exact habsent
    · exact trailing_absent habsent ‹_›
  | resolveSendTrailing output =>
    change (m.resolveSendTrailing output).1.outputs[key]? = none
    unfold ManagedWorkspaces.resolveSendTrailing
    split
    · exact habsent
    · rename_i state _ _ htrailing
      exact trailing_absent habsent htrailing
  | assign window output workspace hidden =>
    change (m.assign window output workspace hidden).1.outputs[key]? = none
    unfold ManagedWorkspaces.assign
    split
    · exact modifyEntry_absent (mapEntries_absent habsent)
    · exact habsent
  | setHidden window hidden =>
    change (m.setHidden window hidden).outputs[key]? = none
    unfold ManagedWorkspaces.setHidden
    split <;> exact habsent
  | noteForeground window =>
    change (m.noteForeground window).outputs[key]? = none
    unfold ManagedWorkspaces.noteForeground
    split
    · exact modifyEntry_absent habsent
    · exact habsent
  | removeWindow window => exact mapEntries_absent habsent
  | cleanup output visible retained sticky =>
    change (validateHistory _ _).outputs[key]? = none
    rw [validateHistory_outputs]
    exact cleanOrder_absent habsent
  | displaceOutputTo origin dest =>
    rw [Op.Names, not_or] at hop
    change (m.displaceOutputTo origin dest).1.outputs[key]? = none
    unfold ManagedWorkspaces.displaceOutputTo
    split
    · split
      · exact habsent
      · split
        · rw [validateHistory_outputs]
          change (m.outputs.erase origin)[key]? = none
          rw [lookup_erase, if_neg hop.1]
          exact habsent
        · rw [validateHistory_outputs]
          change ((m.outputs.erase origin).insert dest _)[key]? = none
          rw [lookup_insert, if_neg hop.2, lookup_erase, if_neg hop.1]
          exact habsent
    · exact habsent
  | reconnectOutput origin =>
    change (m.reconnectOutput origin).1.outputs[key]? = none
    cases hrecord : m.displaced[origin]? with
    | none =>
      rw [ManagedWorkspaces.reconnectOutput, hrecord]
      exact habsent
    | some record =>
      cases hholder : m.outputs[record.destKey]? with
      | none =>
        rw [ManagedWorkspaces.reconnectOutput, hrecord]
        dsimp only
        rw [hholder]
        exact habsent
      | some holder =>
        obtain ⟨after, -, hlookup, -⟩ := reconnectOutput_spec h hrecord hholder
        have hne : origin ≠ key := hop
        rw [hlookup, if_neg hne, if_neg]
        · exact habsent
        · rintro rfl
          rw [habsent] at hholder
          cases hholder
  | observeWorkspaceChange output current =>
    have houtputs : (m.observeWorkspaceChange output current).1.outputs = m.outputs := by
      unfold ManagedWorkspaces.observeWorkspaceChange
      (repeat' split) <;> simp
    change (m.observeWorkspaceChange output current).1.outputs[key]? = none
    rw [houtputs]
    exact habsent

/-! ## The return -/

/-- The origin returns with exactly its former workspaces that still exist, in
their order and as they are, the other outputs keep the rest and their views. -/
structure RoundTrip (m : ManagedWorkspaces) (origin : String) (former : List String) : Prop where
  succeeds : (m.reconnectOutput origin).2 = true
  returned : ∃ state, (m.reconnectOutput origin).1.outputs[origin]? = some state ∧
    state.ids = former.filter m.live.contains ∧
      ∀ entry ∈ state.order, ∃ (output : String) (before : OutputState),
        m.outputs[output]? = some before ∧ entry ∈ before.order
  others : ∀ {output : String} {before : OutputState}, output ≠ origin →
    m.outputs[output]? = some before →
      ∃ after, (m.reconnectOutput origin).1.outputs[output]? = some after ∧
        after.order = before.order.filter fun entry => !former.contains entry.id
  absent : ∀ {output : String}, output ≠ origin → m.outputs[output]? = none →
    (m.reconnectOutput origin).1.outputs[output]? = none
  view : ∀ {output id : String} {after : OutputState}, output ≠ origin →
    m.activeId output = some id → (m.reconnectOutput origin).1.outputs[output]? = some after →
      id ∈ after.ids → (m.reconnectOutput origin).1.activeId output = some id

/-- The holder has every former workspace that still exists, in order, and no
recorded one stands before its view, unless only recorded ones stand behind. -/
structure Restorable (m : ManagedWorkspaces) (record : DisplacedRecord) (holder : OutputState)
    (former : List String) : Prop where
  together : holder.ids.filter record.workspaceIds.contains = former.filter m.live.contains
  view : ∀ {id}, holder.ids[holder.active]? = some id → id ∉ record.workspaceIds →
    (∀ other ∈ holder.ids.take holder.active, other ∉ record.workspaceIds) ∨
      ∀ other ∈ holder.ids.drop (holder.active + 1), other ∈ record.workspaceIds

theorem activeId_eq : m.activeId output =
    m.outputs[output]?.bind fun state => state.ids[state.active]? := by
  unfold activeId OutputState.ids
  simp only [List.getElem?_map]

theorem mem_live {id : String} :
    id ∈ m.live ↔ ∃ (output : String) (state : OutputState), m.outputs[output]? = some state ∧ id ∈ state.ids := by
  rw [live, List.mem_flatMap]
  constructor
  · rintro ⟨state, hstate, hid⟩
    obtain ⟨output, hstate⟩ := mem_values.mp hstate
    exact ⟨output, state, hstate, hid⟩
  · rintro ⟨output, state, hstate, hid⟩
    exact ⟨state, mem_values_of_lookup hstate, hid⟩

theorem without_ids {ids : List String} :
    (without state ids).ids = state.ids.filter fun id => !ids.contains id := by
  unfold without OutputState.ids
  rw [List.filter_map]
  rfl

theorem without_active {ids : List String} : (without state ids).active =
    if (state.ids.filter fun id => !ids.contains id).length ≤ state.active then
      (state.ids.filter fun id => !ids.contains id).length - 1
    else state.active := by
  rw [← without_ids, OutputState.ids, List.length_map]
  rfl

/-- The view the return leaves on the holder. -/
theorem without_view_iff {ids : List String} {id : String} (hnodup : state.ids.Nodup)
    (hview : state.ids[state.active]? = some id) (hid : id ∉ ids) :
    (without state ids).ids[(without state ids).active]? = some id ↔
      (∀ other ∈ state.ids.take state.active, other ∉ ids) ∨
        ∀ other ∈ state.ids.drop (state.active + 1), other ∈ ids := by
  have hkept : (!ids.contains id) = true := by simpa using hid
  have hclamp := filter_clamp_iff (p := fun id => !ids.contains id) hnodup hview hkept
  rw [without_active, without_ids]
  simpa using hclamp

theorem Sound.roundTrip_iff (h : m.Sound loose short) (habsent : m.outputs[origin]? = none)
    {record : DisplacedRecord} {holder : OutputState} {former : List String}
    (hrecord : m.displaced[origin]? = some record)
    (hholder : m.outputs[record.destKey]? = some holder) :
    m.RoundTrip origin former ↔ m.Restorable record holder former := by
  obtain ⟨after, hok, hlookup, horder, -⟩ := reconnectOutput_spec h hrecord hholder
  have haway : record.destKey ≠ origin := h.away hrecord
  rw [habsent] at horder
  have hids : after.ids = holder.ids.filter record.workspaceIds.contains := by
    rw [OutputState.ids, horder, OutputState.ids, List.filter_map]
    rfl
  have horigin : (m.reconnectOutput origin).1.outputs[origin]? = some after := by
    rw [hlookup, if_pos rfl]
  have hleft : (m.reconnectOutput origin).1.outputs[record.destKey]? =
      some (without holder record.workspaceIds) := by
    rw [hlookup, if_neg (Ne.symm haway), if_pos rfl]
  constructor
  · intro hround
    refine ⟨?_, fun {id} hview hid => ?_⟩
    · obtain ⟨state, hstate, hstateIds, -⟩ := hround.returned
      rw [horigin] at hstate
      cases hstate
      rw [← hids, hstateIds]
    · rw [← without_view_iff (h.ids_nodup hholder) hview hid]
      have hactive : m.activeId record.destKey = some id := by
        rw [activeId_eq, hholder]
        exact hview
      have hstays : id ∈ (without holder record.workspaceIds).ids := by
        rw [without_ids, List.mem_filter]
        exact ⟨List.mem_of_getElem? hview, by simpa using hid⟩
      have hkept := hround.view haway hactive hleft hstays
      rw [activeId_eq, hleft] at hkept
      exact hkept
  · intro hready
    have hlive : ∀ {id}, id ∈ holder.ids → id ∈ m.live := fun hid =>
      mem_live.mpr ⟨record.destKey, holder, hholder, hid⟩
    have hmem : ∀ {id}, id ∈ former → id ∈ m.live → id ∈ holder.ids ∧ id ∈ record.workspaceIds := by
      intro id hformer hid
      have hboth : id ∈ former.filter m.live.contains :=
        List.mem_filter.mpr ⟨hformer, List.contains_iff_mem.mpr hid⟩
      rw [← hready.together, List.mem_filter, List.contains_iff_mem] at hboth
      exact hboth
    have hrecorded : ∀ {id}, id ∈ holder.ids → id ∈ record.workspaceIds → id ∈ former := by
      intro id hid hin
      have hboth : id ∈ holder.ids.filter record.workspaceIds.contains :=
        List.mem_filter.mpr ⟨hid, List.contains_iff_mem.mpr hin⟩
      rw [hready.together] at hboth
      exact List.mem_of_mem_filter hboth
    refine { succeeds := hok, returned := ⟨after, horigin, hids.trans hready.together, ?_⟩,
             others := ?_, absent := ?_, view := ?_ }
    · intro entry hentry
      rw [horder] at hentry
      exact ⟨record.destKey, holder, hholder, List.mem_of_mem_filter hentry⟩
    · intro output before hne hbefore
      by_cases hdest : record.destKey = output
      · subst hdest
        rw [hholder] at hbefore
        cases hbefore
        refine ⟨_, hleft, List.filter_congr fun entry hentry => ?_⟩
        have hid : entry.id ∈ holder.ids := List.mem_map_of_mem hentry
        rw [Bool.eq_iff_iff, Bool.not_eq_true', Bool.not_eq_true', ← Bool.not_eq_true,
          ← Bool.not_eq_true, List.contains_iff_mem, List.contains_iff_mem]
        exact not_congr ⟨hrecorded hid, fun hformer => (hmem hformer (hlive hid)).2⟩
      · refine ⟨before, by rw [hlookup, if_neg (Ne.symm hne), if_neg hdest, hbefore], ?_⟩
        refine (List.filter_eq_self.mpr fun entry hentry => ?_).symm
        have hid : entry.id ∈ before.ids := List.mem_map_of_mem hentry
        rw [Bool.not_eq_true', ← Bool.not_eq_true, List.contains_iff_mem]
        intro hformer
        have hother := (hmem hformer (mem_live.mpr ⟨output, before, hbefore, hid⟩)).1
        exact hdest (h.unique hholder hbefore hother hid)
    · intro output hne hnone
      rw [hlookup, if_neg (Ne.symm hne), if_neg]
      · exact hnone
      · rintro rfl
        rw [hnone] at hholder
        cases hholder
    · intro output id afterState hne hactive hafter hid
      rw [activeId_eq] at hactive ⊢
      by_cases hdest : record.destKey = output
      · subst hdest
        rw [hleft] at hafter ⊢
        cases hafter
        rw [hholder] at hactive
        have hnot : id ∉ record.workspaceIds := by
          rw [without_ids, List.mem_filter] at hid
          simpa using hid.2
        exact (without_view_iff (h.ids_nodup hholder) hactive hnot).mpr (hready.view hactive hnot)
      · rw [hlookup, if_neg (Ne.symm hne), if_neg hdest]
        exact hactive

/-! ## Over a run -/

/-- Sound, whatever outputs and workspaces the run before has left loose or
short. Every operation preserves it. -/
def Settled (m : ManagedWorkspaces) : Prop :=
  ∃ l : Leftovers, m.Sound (· ∈ l.loose) (· ∈ l.short)

theorem settled_preserved : machine.Preserved Settled := fun m op ⟨l, h⟩ => ⟨l.next m op, h.next op⟩

theorem settled_invariant : machine.Invariant Settled where
  initial := by
    rintro _ rfl
    exact ⟨⟨[], []⟩, sound_new.mono (fun _ hw => hw.elim) fun _ ho => ho.elim⟩
  preserved := settled_preserved

theorem displaceOutputTo_absent (h : (m.displaceOutputTo origin dest).2 = true) :
    (m.displaceOutputTo origin dest).1.outputs[origin]? = none := by
  unfold displaceOutputTo at h ⊢
  split
  · split
    · simp_all
    · rename_i hne
      split
      · rw [validateHistory_outputs]
        change (m.outputs.erase origin)[origin]? = none
        rw [lookup_erase, if_pos rfl]
      · rw [validateHistory_outputs]
        change ((m.outputs.erase origin).insert dest _)[origin]? = none
        rw [lookup_insert, if_neg (Ne.symm hne), lookup_erase, if_pos rfl]
  · simp_all

/-- Without being named, an unplugged output stays away. -/
theorem run_absent {ops : List Op} (h : m.Settled) (hops : ∀ op ∈ ops, ¬op.Names key)
    (habsent : m.outputs[key]? = none) : (machine.run m ops).outputs[key]? = none := by
  induction ops generalizing m with
  | nil => exact habsent
  | cons op ops ih =>
    obtain ⟨l, hsound⟩ := h
    exact ih ⟨l.next m op, hsound.next op⟩ (fun op' hop' => hops op' (List.mem_cons_of_mem _ hop'))
      (hsound.next_absent (hops op List.mem_cons_self) habsent)

/-- An output unplugged and brought back by its record: the return undoes the
displacement exactly when its holder can restore it. -/
theorem reconnect_roundTrip_iff (hreached : machine.Reachable m)
    (hdisplaced : (m.displaceOutputTo origin dest).2 = true) {ops : List Op}
    (hops : ∀ op ∈ ops, ¬op.Names origin) {record : DisplacedRecord} {holder : OutputState}
    (hrecord : (machine.run (m.displaceOutputTo origin dest).1 ops).displaced[origin]? = some record)
    (hholder : (machine.run (m.displaceOutputTo origin dest).1 ops).outputs[record.destKey]? =
      some holder) :
    (machine.run (m.displaceOutputTo origin dest).1 ops).RoundTrip origin (m.workspaceIds origin) ↔
      (machine.run (m.displaceOutputTo origin dest).1 ops).Restorable record holder
        (m.workspaceIds origin) := by
  obtain ⟨l, hsound⟩ := settled_invariant.reachable hreached
  have hsettled : (m.displaceOutputTo origin dest).1.Settled := ⟨l, hsound.displaceOutputTo origin dest⟩
  obtain ⟨l', hafter⟩ := settled_preserved.run hsettled ops
  exact hafter.roundTrip_iff (run_absent hsettled hops (displaceOutputTo_absent hdisplaced)) hrecord
    hholder

/-- Two outputs. -/
def twoOutputs : ManagedWorkspaces := machine.run new [.ensureOutput "left", .ensureOutput "right"]

/-- The survivor selects a workspace before the origin comes back. -/
theorem reconnect_roundTrip_two : ∃ record holder,
    (machine.run (twoOutputs.displaceOutputTo "left" "right").1 [.select "right" 2]).RoundTrip "left"
        (twoOutputs.workspaceIds "left") ↔
      (machine.run (twoOutputs.displaceOutputTo "left" "right").1 [.select "right" 2]).Restorable
        record holder (twoOutputs.workspaceIds "left") := by
  have hrecord : (machine.run (twoOutputs.displaceOutputTo "left" "right").1
      [.select "right" 2]).displaced["left"]? = some ⟨["ws-1", "ws-2"], "right"⟩ := by
    decide +kernel
  obtain ⟨holder, hholder⟩ := Option.isSome_iff_exists.mp (by decide +kernel :
    (machine.run (twoOutputs.displaceOutputTo "left" "right").1
      [.select "right" 2]).outputs["right"]?.isSome = true)
  have hops : ∀ op ∈ [Op.select "right" 2], ¬op.Names "left" := by
    simp [Op.Names]
  exact ⟨_, holder, reconnect_roundTrip_iff ((Machine.Reachable.initial rfl).run _)
    (by decide +kernel) hops hrecord hholder⟩

/-- The survivor shows a workspace of its own behind the displaced ones, and
has another one behind that. -/
def behindRun : List Op :=
  [.assign ⟨1, 1, "created"⟩ "right" "ws-2" false, .resolveSendTrailing "right",
    .assign ⟨2, 1, "created"⟩ "right" "ws-5" false, .resolveSendTrailing "right",
    .activate "right" "ws-5"]

/-- A return can change the survivor's view to another of its own workspaces. -/
theorem reconnect_changes_view :
    ¬∀ (m : ManagedWorkspaces) (origin dest : String) (ops : List Op) (record : DisplacedRecord)
        (holder : OutputState), machine.Reachable m → (m.displaceOutputTo origin dest).2 = true →
      (∀ op ∈ ops, ¬op.Names origin) →
      (machine.run (m.displaceOutputTo origin dest).1 ops).displaced[origin]? = some record →
      (machine.run (m.displaceOutputTo origin dest).1 ops).outputs[record.destKey]? = some holder →
      (machine.run (m.displaceOutputTo origin dest).1 ops).RoundTrip origin
        (m.workspaceIds origin) := by
  intro h
  have hops : ∀ op ∈ behindRun, ¬op.Names "left" := by
    simp [behindRun, Op.Names]
  have hrecord : (machine.run (twoOutputs.displaceOutputTo "left" "right").1
      behindRun).displaced["left"]? = some ⟨["ws-1", "ws-2"], "right"⟩ := by
    decide +kernel
  obtain ⟨holder, hholder⟩ := Option.isSome_iff_exists.mp (by decide +kernel :
    (machine.run (twoOutputs.displaceOutputTo "left" "right").1
      behindRun).outputs["right"]?.isSome = true)
  have hround := h twoOutputs "left" "right" behindRun _ holder
    ((Machine.Reachable.initial rfl).run _) (by decide +kernel) hops hrecord hholder
  have hids : ((machine.run (twoOutputs.displaceOutputTo "left" "right").1
      behindRun).reconnectOutput "left").1.outputs["right"]?.map OutputState.ids =
        some ["ws-3", "ws-4", "ws-5", "ws-6"] := by decide +kernel
  obtain ⟨after, hafter, hafterIds⟩ := Option.map_eq_some_iff.mp hids
  have hview := @RoundTrip.view _ _ _ hround "right" "ws-5" _ (by decide) (by decide +kernel) hafter
    (by rw [hafterIds]; decide)
  exact absurd hview (by decide +kernel)

end

end ManagedWorkspaces

end PlasmaTiler
