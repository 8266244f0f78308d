import PlasmaTiler.Returning

/-!
# View history

Every output keeps two entries: the view it was last observed to show, and the
one observed before it, which a toggle goes back to. Workspaces come and go
under them. A cleanup prunes, a hotplug moves a whole list away and a reconnect
brings it back, and each of these revises both entries: a previous view that
is gone is cleared, a last observed view that is gone is replaced by the view
that happens to be active, observed or not.

The history is therefore read against a record kept beside the workspaces,
which knows observations only. A view enters it when it is reported on its
output, and when the output comes up or comes back, with the view it then
shows; nothing enters it because something else was removed. Beside the views,
latest first, the record says whether the latest has stood on its output since
it was observed.

The two agree along every run in which no step takes the last observed view
away and leaves the previous one behind, and in which no other view is
reported while the entry for the last one is only such a replacement. Then
what is resolved is the view observed just before the last observed one,
toggling shows the two in turn, and a workspace that left is not resolved
again until it is observed there.
-/

namespace PlasmaTiler

namespace ManagedWorkspaces

/-! ## Steps -/

/-- The previous view, cleared when it is gone. -/
def resolvePrevious (m : ManagedWorkspaces) (output : String) : ManagedWorkspaces × Option String :=
  match m.previous[output]? with
  | none => (m, none)
  | some id =>
    match m.outputs[output]? with
    | none => (m, none)
    | some state =>
      if state.ids.contains id then (m, some id)
      else ({ m with previous := m.previous.erase output }, none)

inductive ViewOp
  | op (op : Op)
  | resolvePrevious (output : String)
  | discardOutputHistory (output : String)

/-- The previous view resolved, activated and observed. -/
def togglePrevious (output : String) (m : ManagedWorkspaces) : ManagedWorkspaces :=
  match m.resolvePrevious output with
  | (m, none) => m
  | (m, some id) => ((m.activate output id).1.observeWorkspaceChange output id).1

/-! ## What was observed -/

/-- The output comes up with the operation, or comes back, or stays away. -/
def starts (m : ManagedWorkspaces) (output : String) : Op → Bool
  | .reconnectOutput origin =>
    !m.outputs.contains output || (origin == output && (m.reconnectOutput origin).2)
  | _ => !m.outputs.contains output

/-- The view an operation reports on the output. -/
def reported (m : ManagedWorkspaces) (output : String) : Op → Option String
  | .observeWorkspaceChange o current =>
    if o = output ∧ current ∈ m.workspaceIds output then some current else none
  | _ => none

/-- The view an operation has observed on the output: the one reported there,
or the one an output starts with. -/
def sighting (m : ManagedWorkspaces) (output : String) (op : Op) : Option String :=
  if m.starts output op then (m.next op).activeId output else m.reported output op

/-- The views observed on an output, the latest first, and whether that one
has stood there since. -/
structure Sightings where
  views : List String
  standing : Bool
deriving DecidableEq

namespace Sightings

def none : Sightings := ⟨[], false⟩

/-- Another view observed; the same one again is no change. -/
def note (views : List String) (id : String) : List String :=
  if views.head? = some id then views else id :: views

/-- The record after an operation that leaves these workspaces on the output. -/
def after (seen : Sightings) (sighted : Option String) (ids : List String) : Sightings :=
  match sighted with
  | some id => ⟨note seen.views id, true⟩
  | .none => { seen with standing := seen.standing && seen.views.head?.any ids.contains }

end Sightings

/-- The workspaces with the views observed on one output. -/
def watched (output : String) : Machine (ManagedWorkspaces × Sightings) ViewOp where
  initial s := s = (new, .none)
  next s
    | .op op =>
      let seen := if s.1.starts output op then .none else s.2
      (s.1.next op, seen.after (s.1.sighting output op) ((s.1.next op).workspaceIds output))
    | .resolvePrevious o => ((s.1.resolvePrevious o).1, s.2)
    | .discardOutputHistory o => (s.1.discardOutputHistory o, if o = output then .none else s.2)

/-- The workspaces an operation takes off an output that stays. -/
def leaving (m : ManagedWorkspaces) (output : String) : Op → List String
  | .cleanup o visible retained sticky =>
    if o = output then (m.planCleanupExcluding o visible retained sticky).1 else []
  | .reconnectOutput origin =>
    match m.displaced[origin]? with
    | some record => if record.destKey = output then record.workspaceIds else []
    | none => []
  | _ => []

/-- The last observed view is not taken away without the previous one, and
while it is away no view is reported but the one that replaced it. -/
def KeepsView (output : String) (s : ManagedWorkspaces × Sightings) : ViewOp → Prop
  | .op op => ∀ base ∈ s.1.baseline[output]?,
      (∀ previous ∈ s.1.previous[output]?,
        base ∈ s.1.leaving output op → previous ∈ s.1.leaving output op) ∧
      ∀ current ∈ s.1.reported output op, s.2.standing = true ∨ base = current
  | _ => True

instance {output : String} {s : ManagedWorkspaces × Sightings} :
    ∀ op, Decidable (KeepsView output s op)
  | .op op => inferInstanceAs (Decidable (∀ base ∈ s.1.baseline[output]?,
      (∀ previous ∈ s.1.previous[output]?,
        base ∈ s.1.leaving output op → previous ∈ s.1.leaving output op) ∧
      ∀ current ∈ s.1.reported output op, s.2.standing = true ∨ base = current))
  | .resolvePrevious _ => isTrue trivial
  | .discardOutputHistory _ => isTrue trivial

/-- The operation is no observation of this view on this output: another view
is observed there, or none. -/
def Unsighted (output id : String) (s : ManagedWorkspaces × Sightings) : ViewOp → Prop
  | .op op => s.1.sighting output op ≠ some id
  | _ => True

/-! ## What an operation does to a history -/

section
variable {m m' : ManagedWorkspaces} {output key o id current : String} {state : OutputState}
  {seen : Sightings} {views : List String} {loose : WindowKey → Prop} {short : String → Prop}

theorem mem_workspaceIds : id ∈ m.workspaceIds output ↔
    ∃ state, m.outputs[output]? = some state ∧ id ∈ state.ids := by
  unfold workspaceIds
  cases m.outputs[output]? <;> simp

theorem mem_workspaceIds_of_activeId (h : m.activeId output = some id) :
    id ∈ m.workspaceIds output := by
  rw [activeId_eq] at h
  obtain ⟨state, hstate, hid⟩ := Option.bind_eq_some_iff.mp h
  exact mem_workspaceIds.mpr ⟨state, hstate, List.mem_of_getElem? hid⟩

theorem workspaceIds_congr (h : m'.outputs[output]? = m.outputs[output]?) :
    m'.workspaceIds output = m.workspaceIds output := by
  rw [workspaceIds, h, workspaceIds]

theorem activeId_congr (h : m'.outputs[output]? = m.outputs[output]?) :
    m'.activeId output = m.activeId output := by
  rw [activeId, h, activeId]

/-- The previous view while it is there, the last observed view or else the
active one. -/
structure Revised (m m' : ManagedWorkspaces) (output : String) : Prop where
  previous : m'.previous[output]? = m.previous[output]?.filter (m'.workspaceIds output).contains
  baseline : m'.baseline[output]? = m.baseline[output]?.bind fun base =>
    if base ∈ m'.workspaceIds output then some base else m'.activeId output

theorem discardOutputHistory_gone :
    (m.discardOutputHistory o).previous[o]? = none ∧ (m.discardOutputHistory o).baseline[o]? = none := by
  rw [discardOutputHistory]
  dsimp only
  rw [lookup_erase, if_pos rfl, lookup_erase, if_pos rfl]
  exact ⟨rfl, rfl⟩

theorem discardOutputHistory_other (hne : o ≠ output) :
    (m.discardOutputHistory o).previous[output]? = m.previous[output]? ∧
      (m.discardOutputHistory o).baseline[output]? = m.baseline[output]? := by
  rw [discardOutputHistory]
  dsimp only
  rw [lookup_erase, if_neg hne, lookup_erase, if_neg hne]
  exact ⟨rfl, rfl⟩

/-- An output that is away has no history, which is the old one revised. -/
theorem Revised.of_gone (hnone : m'.outputs[output]? = none) (hprevious : m'.previous[output]? = none)
    (hbaseline : m'.baseline[output]? = none) : m.Revised m' output := by
  have hids : m'.workspaceIds output = [] := by
    rw [workspaceIds, hnone]
    rfl
  constructor
  · rw [hids, hprevious]
    cases m.previous[output]? <;> rfl
  · rw [hids, activeId, hnone, hbaseline]
    cases m.baseline[output]? <;> rfl

theorem validateHistory_revised : m.Revised (m.validateHistory output) output := by
  cases hlookup : m.outputs[output]? with
  | none =>
    have hgone : m.validateHistory output = m.discardOutputHistory output := by
      rw [validateHistory, hlookup]
    rw [hgone]
    exact .of_gone hlookup discardOutputHistory_gone.1 discardOutputHistory_gone.2
  | some state =>
    have hids : (m.validateHistory output).workspaceIds output = state.ids := by
      rw [workspaceIds, validateHistory_outputs, hlookup]
      rfl
    have hactive : (m.validateHistory output).activeId output = m.activeId output :=
      activeId_congr (by rw [validateHistory_outputs])
    constructor
    · rw [hids, validateHistory, hlookup]
      dsimp only
      split
      · rename_i prev hprev
        split
        · rename_i hin
          rw [hprev, Option.filter_some_pos hin]
        · rename_i hout
          rw [lookup_erase, if_pos rfl, hprev, Option.filter_some_neg (Bool.eq_false_of_not_eq_true hout)]
      · rename_i hprev
        rw [hprev]
        rfl
    · rw [hids, hactive, validateHistory, hlookup]
      dsimp only
      split
      · rename_i base hbase
        rw [hbase, Option.bind_some]
        split
        · rename_i hin
          rw [hbase, if_pos (List.contains_iff_mem.mp hin)]
        · rename_i hout
          rw [if_neg (mt List.contains_iff_mem.mpr hout)]
          split
          · rename_i active hactive
            rw [lookup_insert, if_pos rfl, hactive]
          · rename_i hnone
            rw [lookup_erase, if_pos rfl, hnone]
      · rename_i hbase
        rw [hbase]
        rfl

theorem validateHistory_other (hne : o ≠ output) :
    (m.validateHistory o).previous[output]? = m.previous[output]? ∧
      (m.validateHistory o).baseline[output]? = m.baseline[output]? := by
  unfold validateHistory
  split
  · exact discardOutputHistory_other hne
  · dsimp only
    refine ⟨?_, ?_⟩
    · split
      · split
        · rfl
        · rw [lookup_erase, if_neg hne]
      · rfl
    · split
      · split
        · rfl
        · split
          · rw [lookup_insert, if_neg hne]
          · rw [lookup_erase, if_neg hne]
      · rfl

/-- The history of the output stays as it was, and none of its workspaces
leaves. -/
structure Quiet (m m' : ManagedWorkspaces) (output : String) : Prop where
  previous : m'.previous[output]? = m.previous[output]?
  baseline : m'.baseline[output]? = m.baseline[output]?
  ids : ∀ {id}, id ∈ m.workspaceIds output → id ∈ m'.workspaceIds output
  absent : m.outputs[output]? = none → m'.outputs[output]? = none

theorem Quiet.of_lookup (hprevious : m'.previous[output]? = m.previous[output]?)
    (hbaseline : m'.baseline[output]? = m.baseline[output]?)
    (hlookup : m'.outputs[output]? = m.outputs[output]?) : m.Quiet m' output where
  previous := hprevious
  baseline := hbaseline
  ids hid := by
    rw [workspaceIds_congr hlookup]
    exact hid
  absent hnone := hlookup.trans hnone

theorem Quiet.refl : m.Quiet m output := Quiet.of_lookup rfl rfl rfl

theorem Quiet.trans {m'' : ManagedWorkspaces} (h : m.Quiet m' output) (h' : m'.Quiet m'' output) :
    m.Quiet m'' output where
  previous := h'.previous.trans h.previous
  baseline := h'.baseline.trans h.baseline
  ids hid := h'.ids (h.ids hid)
  absent hnone := h'.absent (h.absent hnone)

/-- The output changed with at least its workspaces. -/
theorem Quiet.of_map {g : OutputState → OutputState} (hprevious : m'.previous = m.previous)
    (hbaseline : m'.baseline = m.baseline)
    (hlookup : m'.outputs[output]? = m.outputs[output]?.map g)
    (hids : ∀ {state}, m.outputs[output]? = some state → state.ids ⊆ (g state).ids) :
    m.Quiet m' output where
  previous := by rw [hprevious]
  baseline := by rw [hbaseline]
  ids {id} hid := by
    obtain ⟨state, hstate, hid⟩ := mem_workspaceIds.mp hid
    refine mem_workspaceIds.mpr ⟨g state, ?_, hids hstate hid⟩
    rw [hlookup, hstate]
    rfl
  absent hnone := by
    rw [hlookup, hnone]
    rfl

/-- Some output that is there written with at least its workspaces. -/
theorem Quiet.setOutput {base : ManagedWorkspaces} {after : OutputState}
    (hstate : m.outputs[key]? = some state) (hids : state.ids ⊆ after.ids)
    (houtputs : base.outputs = m.outputs) (hprevious : base.previous = m.previous)
    (hbaseline : base.baseline = m.baseline) : m.Quiet (base.setOutput key after) output := by
  by_cases heq : key = output
  · subst heq
    refine Quiet.of_map (g := fun _ => after) hprevious hbaseline ?_ fun {before} hbefore => ?_
    · rw [setOutput_lookup, if_pos rfl, hstate, Option.map_some]
    · rw [hstate] at hbefore
      exact Option.some.inj hbefore ▸ hids
  · refine Quiet.of_lookup (congrArg (·[output]?) hprevious) (congrArg (·[output]?) hbaseline) ?_
    rw [setOutput_lookup, if_neg heq, houtputs]

theorem mintEntries_history (n : Nat) : (m.mintEntries n).1.previous = m.previous ∧
    (m.mintEntries n).1.baseline = m.baseline := by
  induction n generalizing m with
  | zero => exact ⟨rfl, rfl⟩
  | succ n ih => exact ih (m := { m with nextWs := m.nextWs + 1 }.seedMode _)

theorem seedAll_history (ids : List String) : (m.seedAll ids).previous = m.previous ∧
    (m.seedAll ids).baseline = m.baseline := by
  induction ids generalizing m with
  | nil => exact ⟨rfl, rfl⟩
  | cons id ids ih => exact ih (m := m.seedMode id)

theorem select_quiet {index : Nat} : m.Quiet (m.select key index).1 output := by
  unfold ManagedWorkspaces.select
  split
  · exact Quiet.refl
  · rename_i state hstate
    split
    · exact Quiet.refl
    · exact Quiet.setOutput hstate (List.Subset.refl _) rfl rfl rfl

theorem activate_quiet {workspace : String} : m.Quiet (m.activate key workspace).1 output := by
  unfold ManagedWorkspaces.activate
  split
  · exact Quiet.refl
  · rename_i state hstate
    split
    · exact Quiet.refl
    · exact Quiet.setOutput hstate (List.Subset.refl _) rfl rfl rfl

theorem trailing_quiet {created : Bool} {active : Nat} {after : OutputState}
    (h : m.trailing key = some (m', after, id, created)) :
    m.Quiet (m'.setOutput key { after with active }) output := by
  obtain ⟨state, n, hstate, horder, -, -, houtputs, -⟩ := trailing_spec h
  have hids : state.ids ⊆ { after with active }.ids := by
    intro id hid
    rw [OutputState.ids, horder, List.map_append]
    exact List.mem_append_left _ hid
  obtain ⟨_, _, h⟩ := Option.bind_eq_some_iff.mp h
  obtain ⟨_, _, h⟩ := Option.map_eq_some_iff.mp h
  split at h
  · cases h
    exact Quiet.setOutput hstate hids rfl rfl rfl
  · cases h
    exact Quiet.setOutput hstate hids rfl rfl rfl

theorem selectTrailing_quiet : m.Quiet (m.selectTrailing key).1 output := by
  unfold ManagedWorkspaces.selectTrailing
  split
  · exact Quiet.refl
  · exact trailing_quiet ‹_›

theorem resolveSendTrailing_quiet : m.Quiet (m.resolveSendTrailing key).1 output := by
  unfold ManagedWorkspaces.resolveSendTrailing
  split
  · exact Quiet.refl
  · rename_i _ after _ _ htrailing
    exact @trailing_quiet m _ output key _ _ after.active after htrailing

theorem ids_map {f : WorkspaceEntry → WorkspaceEntry} (hid : ∀ entry, (f entry).id = entry.id) :
    { state with order := state.order.map f }.ids = state.ids := by
  rw [OutputState.ids, List.map_map]
  exact List.map_congr_left fun entry _ => hid entry

theorem mapEntries_quiet {f : WorkspaceEntry → WorkspaceEntry}
    (hid : ∀ entry, (f entry).id = entry.id) : m.Quiet (m.mapEntries f) output := by
  refine Quiet.of_map rfl rfl mapEntries_lookup fun {state} _ => ?_
  rw [ids_map hid]
  exact fun _ h => h

theorem modifyFirst_ids {f : WorkspaceEntry → WorkspaceEntry} (hid : ∀ entry, (f entry).id = entry.id)
    {order : List WorkspaceEntry} :
    (modifyFirst id f order).map WorkspaceEntry.id = order.map WorkspaceEntry.id := by
  induction order with
  | nil => rfl
  | cons entry order ih =>
    rw [modifyFirst]
    split
    · rw [List.map_cons, hid, List.map_cons]
    · rw [List.map_cons, ih, List.map_cons]

theorem modifyEntry_quiet {f : WorkspaceEntry → WorkspaceEntry}
    (hid : ∀ entry, (f entry).id = entry.id) : m.Quiet (m.modifyEntry key id f) output := by
  unfold ManagedWorkspaces.modifyEntry
  split
  · exact Quiet.refl
  · rename_i state hstate
    have hids : { state with order := modifyFirst id f state.order }.ids = state.ids :=
      modifyFirst_ids hid
    refine Quiet.setOutput hstate ?_ rfl rfl rfl
    rw [hids]
    exact List.Subset.refl _

theorem assign_quiet {window : WindowKey} {workspace : String} {hidden : Bool} :
    m.Quiet (m.assign window key workspace hidden).1 output := by
  unfold ManagedWorkspaces.assign
  split
  · have hleft : m.Quiet (m.mapEntries fun entry =>
        { entry with members := entry.members.erase window }) output :=
      mapEntries_quiet fun _ => rfl
    have hjoined : m.Quiet ((m.mapEntries fun entry =>
        { entry with members := entry.members.erase window }).modifyEntry key workspace fun entry =>
          { entry with members := entry.members.insert window }) output :=
      hleft.trans (modifyEntry_quiet fun _ => rfl)
    exact hjoined.trans (Quiet.of_lookup rfl rfl rfl)
  · exact Quiet.refl

theorem setHidden_quiet {window : WindowKey} {hidden : Bool} :
    m.Quiet (m.setHidden window hidden) output := by
  unfold ManagedWorkspaces.setHidden
  split
  · exact Quiet.of_lookup rfl rfl rfl
  · exact Quiet.refl

theorem noteForeground_quiet {window : WindowKey} : m.Quiet (m.noteForeground window) output := by
  unfold ManagedWorkspaces.noteForeground
  split
  · exact modifyEntry_quiet fun _ => rfl
  · exact Quiet.refl

theorem removeWindow_quiet {window : WindowKey} : m.Quiet (m.removeWindow window) output := by
  have hmapped : m.Quiet (m.mapEntries fun entry =>
      { entry with
        members := entry.members.erase window
        lastFocus := if entry.lastFocus = some window then none else entry.lastFocus }) output :=
    mapEntries_quiet fun _ => rfl
  exact hmapped.trans (Quiet.of_lookup rfl rfl rfl)

/-- The history agrees with what was observed. A view that only replaced the
last observed one is on the output, and has no previous view. -/
structure Recorded (m : ManagedWorkspaces) (output : String) (seen : Sightings) : Prop where
  previous : ∀ {id}, m.previous[output]? = some id → id ∈ m.workspaceIds output ∧
    seen.standing = true ∧
      ∃ base rest, m.baseline[output]? = some base ∧ seen.views = base :: id :: rest ∧ base ≠ id
  baseline : ∀ {base}, m.baseline[output]? = some base → base ∈ m.workspaceIds output
  standing : seen.standing = true →
    ∃ last rest, seen.views = last :: rest ∧ m.baseline[output]? = some last

/-- Nothing retained, and nothing observed. -/
theorem Recorded.of_none (hprevious : m.previous[output]? = none) (hbaseline : m.baseline[output]? = none) :
    m.Recorded output .none where
  previous hid := by
    rw [hprevious] at hid
    cases hid
  baseline hbase := by
    rw [hbaseline] at hbase
    cases hbase
  standing hstanding := by cases hstanding

/-- What an operation does to the history of an output: starts it, records
an observation, or revises it. -/
inductive Turn (m : ManagedWorkspaces) (output : String) (op : Op) : Prop
  | started (hstarts : m.starts output op = true)
      (hprevious : (m.next op).previous[output]? = none)
      (hbaseline : (m.next op).baseline[output]? = (m.next op).activeId output)
  | observed (current : String) (hop : op = .observeWorkspaceChange output current)
      (hcurrent : current ∈ m.workspaceIds output)
      (hprevious : (m.next op).previous[output]? = match m.baseline[output]? with
        | some base => if base = current then m.previous[output]? else some base
        | none => none)
      (hbaseline : (m.next op).baseline[output]? = some current)
  | revised (hstarts : m.starts output op = false)
      (hop : ∀ current, op = .observeWorkspaceChange output current →
        current ∉ m.workspaceIds output)
      (hrevised : m.Revised (m.next op) output)
      (hleaving : ∀ base previous, base ∈ m.workspaceIds output →
        previous ∈ m.workspaceIds output →
        (base ∈ m.leaving output op → previous ∈ m.leaving output op) →
        base ∉ (m.next op).workspaceIds output → previous ∉ (m.next op).workspaceIds output)

theorem lookup_of_not_contains (h : (!m.outputs.contains output) = true) :
    m.outputs[output]? = none := by
  rw [Bool.not_eq_true', contains_eq_false] at h
  exact Std.ExtTreeMap.getElem?_eq_none h

theorem Recorded.absent (h : m.Recorded output seen) (hnone : m.outputs[output]? = none) :
    m.previous[output]? = none ∧ m.baseline[output]? = none := by
  have hids : ∀ id, id ∉ m.workspaceIds output := by
    intro id hid
    obtain ⟨state, hstate, -⟩ := mem_workspaceIds.mp hid
    rw [hnone] at hstate
    cases hstate
  exact ⟨Option.eq_none_iff_forall_ne_some.mpr fun id hid => hids id (h.previous hid).1,
    Option.eq_none_iff_forall_ne_some.mpr fun id hid => hids id (h.baseline hid)⟩

theorem Quiet.revised (hquiet : m.Quiet m' output) (h : m.Recorded output seen) :
    m.Revised m' output := by
  constructor
  · rw [hquiet.previous]
    cases hprevious : m.previous[output]? with
    | none => rfl
    | some id =>
      have hid := hquiet.ids (h.previous hprevious).1
      rw [Option.filter_some_pos (List.contains_iff_mem.mpr hid)]
  · rw [hquiet.baseline]
    cases hbaseline : m.baseline[output]? with
    | none => rfl
    | some base =>
      rw [Option.bind_some, if_pos (hquiet.ids (h.baseline hbaseline))]

theorem Quiet.turn {op : Op} (hquiet : m.Quiet (m.next op) output) (h : m.Recorded output seen)
    (hstarts : m.starts output op = !m.outputs.contains output)
    (hop : ∀ current, op = .observeWorkspaceChange output current →
      current ∉ m.workspaceIds output) : m.Turn output op := by
  cases hcontains : !m.outputs.contains output with
  | true =>
    have hnone := lookup_of_not_contains hcontains
    obtain ⟨hprevious, hbaseline⟩ := h.absent hnone
    refine .started (hstarts.trans hcontains) ?_ ?_
    · rw [hquiet.previous, hprevious]
    · rw [hquiet.baseline, hbaseline, activeId, hquiet.absent hnone]
      rfl
  | false =>
    exact .revised (hstarts.trans hcontains) hop (hquiet.revised h)
      fun base _ hbase _ _ hgone => absurd (hquiet.ids hbase) hgone

theorem ensureOutput_turn (h : m.Recorded output seen) : m.Turn output (.ensureOutput key) := by
  cases hcontains : m.outputs.contains key with
  | true =>
    have hsame : m.next (.ensureOutput key) = m := by
      rw [next, ensureOutput, if_pos hcontains]
    refine Quiet.turn ?_ h rfl (fun _ heq => by cases heq)
    rw [hsame]
    exact Quiet.refl
  | false =>
    obtain ⟨-, houtputs, -⟩ := mintEntries_spec (m := { m with nextOutput := m.nextOutput + 1 })
      WorkspacePolicy.minWorkspaces
    obtain ⟨hprevious, hbaseline⟩ := mintEntries_history
      (m := { m with nextOutput := m.nextOutput + 1 }) WorkspacePolicy.minWorkspaces
    have hnone : m.outputs[key]? = none :=
      Std.ExtTreeMap.getElem?_eq_none (contains_eq_false.mp hcontains)
    by_cases heq : key = output
    · subst heq
      obtain ⟨hgone, hbase⟩ := h.absent hnone
      refine .started (by simpa [starts] using hcontains) ?_ ?_
      · rw [next, ensureOutput, if_neg (by simp [hcontains])]
        dsimp only
        split
        · exact (congrArg (·[key]?) hprevious).trans hgone
        · exact (congrArg (·[key]?) hprevious).trans hgone
      · rw [next, ensureOutput, if_neg (by simp [hcontains])]
        dsimp only
        split
        · rename_i active hactive
          rw [lookup_insert, if_pos rfl]
          exact hactive.symm
        · rename_i hactive
          rw [hactive]
          exact (congrArg (·[key]?) hbaseline).trans hbase
    · refine Quiet.turn ?_ h rfl (fun _ heq => by cases heq)
      rw [next, ensureOutput, if_neg (by simp [hcontains])]
      dsimp only
      have hlookup : ∀ {state}, (({ m with nextOutput := m.nextOutput + 1 }.mintEntries
          WorkspacePolicy.minWorkspaces).1.setOutput key state).outputs[output]? =
            m.outputs[output]? := by
        intro state
        rw [setOutput_lookup, if_neg heq, houtputs]
      split
      · refine Quiet.of_lookup (congrArg (·[output]?) hprevious) ?_ hlookup
        rw [lookup_insert, if_neg heq]
        exact congrArg (·[output]?) hbaseline
      · exact Quiet.of_lookup (congrArg (·[output]?) hprevious) (congrArg (·[output]?) hbaseline)
          hlookup

theorem validateHistory_quiet (hne : key ≠ output) : m.Quiet (m.validateHistory key) output :=
  Quiet.of_lookup (validateHistory_other hne).1 (validateHistory_other hne).2
    (by rw [validateHistory_outputs])

theorem observeWorkspaceChange_other (hne : key ≠ output) :
    m.Quiet (m.observeWorkspaceChange key current).1 output := by
  have hwritten : ∀ {previous baseline : BTreeMap String String},
      previous[output]? = m.previous[output]? → baseline[output]? = m.baseline[output]? →
        m.Quiet ({ m with previous, baseline }.validateHistory key) output := by
    intro previous baseline hprevious hbaseline
    have hwrite : m.Quiet { m with previous, baseline } output :=
      Quiet.of_lookup hprevious hbaseline rfl
    exact hwrite.trans (validateHistory_quiet hne)
  have hbaseline : (m.baseline.insert key current)[output]? = m.baseline[output]? := by
    rw [lookup_insert, if_neg hne]
  unfold observeWorkspaceChange
  split
  · exact Quiet.refl
  · split
    · exact validateHistory_quiet hne
    · split
      · exact hwritten rfl hbaseline
      · split
        · exact validateHistory_quiet hne
        · refine hwritten ?_ hbaseline
          split
          · rw [lookup_insert, if_neg hne]
          · rw [lookup_erase, if_neg hne]

/-- A history of workspaces that are there is not revised. -/
theorem validateHistory_kept (hprevious : ∀ {id}, m.previous[output]? = some id →
      id ∈ m.workspaceIds output)
    (hbaseline : ∀ {id}, m.baseline[output]? = some id → id ∈ m.workspaceIds output) :
    (m.validateHistory output).previous[output]? = m.previous[output]? ∧
      (m.validateHistory output).baseline[output]? = m.baseline[output]? := by
  have hids : (m.validateHistory output).workspaceIds output = m.workspaceIds output :=
    workspaceIds_congr (by rw [validateHistory_outputs])
  have hrevised := @validateHistory_revised m output
  constructor
  · rw [hrevised.previous, hids]
    cases hcase : m.previous[output]? with
    | none => rfl
    | some id => rw [Option.filter_some_pos (List.contains_iff_mem.mpr (hprevious hcase))]
  · rw [hrevised.baseline, hids]
    cases hcase : m.baseline[output]? with
    | none => rfl
    | some id => rw [Option.bind_some, if_pos (hbaseline hcase)]

/-- An observed view of the output is the new baseline, the old one the
previous view. -/
theorem observed_of_mem (h : m.Recorded key seen) (hstate : m.outputs[key]? = some state)
    (hcurrent : current ∈ state.ids) :
    ((m.observeWorkspaceChange key current).1.previous[key]? = match m.baseline[key]? with
        | some base => if base = current then m.previous[key]? else some base
        | none => none) ∧
      (m.observeWorkspaceChange key current).1.baseline[key]? = some current := by
  have hids : ∀ {id}, id ∈ state.ids ↔ id ∈ m.workspaceIds key := by
    intro id
    rw [mem_workspaceIds, hstate]
    simp
  have hwritten : ∀ {previous baseline : BTreeMap String String},
      (∀ {id}, previous[key]? = some id → id ∈ m.workspaceIds key) →
        baseline[key]? = some current →
        ({ m with previous, baseline }.validateHistory key).previous[key]? = previous[key]? ∧
          ({ m with previous, baseline }.validateHistory key).baseline[key]? = some current := by
    intro previous baseline hprevious hbaseline
    obtain ⟨hprev, hbase⟩ := @validateHistory_kept { m with previous, baseline } key hprevious
      fun {id} hid => by
        rw [hbaseline] at hid
        exact Option.some.inj hid ▸ hids.mp hcurrent
    exact ⟨hprev, hbase.trans hbaseline⟩
  have hinsert : (m.baseline.insert key current)[key]? = some current := by
    rw [lookup_insert, if_pos rfl]
  rw [observeWorkspaceChange, hstate]
  dsimp only
  rw [if_neg (by simpa using hcurrent)]
  cases hbase : m.baseline[key]? with
  | none =>
    obtain ⟨hprev, hwrite⟩ := hwritten (fun hid => (h.previous hid).1) hinsert
    refine ⟨hprev.trans (Option.eq_none_iff_forall_ne_some.mpr fun id hid => ?_), hwrite⟩
    obtain ⟨-, -, base, rest, hsome, -⟩ := h.previous hid
    rw [hbase] at hsome
    cases hsome
  | some base =>
    have hin : base ∈ state.ids := hids.mpr (h.baseline hbase)
    dsimp only
    by_cases heq : base = current
    · rw [if_pos heq, if_pos heq]
      obtain ⟨hprev, hwrite⟩ := @validateHistory_kept m key
        (fun hid => (h.previous hid).1) fun hid => h.baseline hid
      exact ⟨hprev, by rw [hwrite, hbase, heq]⟩
    · rw [if_neg heq, if_neg heq]
      dsimp only
      rw [if_pos (List.contains_iff_mem.mpr hin)]
      have hstored : (m.previous.insert key base)[key]? = some base := by
        rw [lookup_insert, if_pos rfl]
      obtain ⟨hprev, hwrite⟩ := @hwritten (m.previous.insert key base) _ (fun {id} hid => by
        rw [hstored] at hid
        exact Option.some.inj hid ▸ hids.mp hin) hinsert
      exact ⟨hprev.trans hstored, hwrite⟩

theorem observeWorkspaceChange_turn (h : m.Recorded output seen) :
    m.Turn output (.observeWorkspaceChange key current) := by
  by_cases heq : key = output
  swap
  · refine Quiet.turn (observeWorkspaceChange_other heq) h rfl fun _ hop => ?_
    cases hop
    exact absurd rfl heq
  subst heq
  cases hstate : m.outputs[key]? with
  | none =>
    have hsame : m.next (.observeWorkspaceChange key current) = m := by
      rw [next, observeWorkspaceChange, hstate]
    refine Quiet.turn ?_ h rfl fun _ _ hin => ?_
    · rw [hsame]
      exact Quiet.refl
    · obtain ⟨state, hsome, -⟩ := mem_workspaceIds.mp hin
      rw [hstate] at hsome
      cases hsome
  | some state =>
    have hids : ∀ {id}, id ∈ state.ids ↔ id ∈ m.workspaceIds key := by
      intro id
      rw [mem_workspaceIds, hstate]
      simp
    have hpresent : (!m.outputs.contains key) = false := by
      rw [Std.ExtTreeMap.contains_eq_isSome_getElem?, hstate]
      rfl
    by_cases hcurrent : current ∈ m.workspaceIds key
    · obtain ⟨hprevious, hbaseline⟩ := observed_of_mem h hstate (hids.mpr hcurrent)
      exact .observed current rfl hcurrent hprevious hbaseline
    · have hcontains : (!state.ids.contains current) = true := by
        simpa using mt hids.mp hcurrent
      have hvalidated : m.next (.observeWorkspaceChange key current) = m.validateHistory key := by
        rw [next, observeWorkspaceChange, hstate]
        dsimp only
        rw [if_pos hcontains]
      have hsame : (m.validateHistory key).workspaceIds key = m.workspaceIds key :=
        workspaceIds_congr (by rw [validateHistory_outputs])
      refine .revised hpresent (fun _ hop => ?_) ?_ fun base _ hbase _ _ hgone => ?_
      · cases hop
        exact hcurrent
      · rw [hvalidated]
        exact validateHistory_revised
      · rw [hvalidated, hsame] at hgone
        exact absurd hbase hgone

/-- A new workspace is none of those there are. -/
theorem Sound.minted_new (h : m.Sound loose short) {n : Nat} (hid : id ∈ m.workspaceIds output) :
    id ∉ (minted m.nextWs n).map WorkspaceEntry.id := by
  intro hminted
  obtain ⟨state, hstate, hin⟩ := mem_workspaceIds.mp hid
  obtain ⟨entry, hentry, rfl⟩ := List.mem_map.mp hin
  obtain ⟨k, hk, hname⟩ := h.board.used (stands_iff.mpr ⟨state, hstate, entry, hentry, rfl⟩)
  obtain ⟨fresh, hfresh, heq⟩ := List.mem_map.mp hminted
  obtain ⟨i, -, rfl⟩ := List.mem_map.mp hfresh
  have hnames : workspaceName (m.nextWs + 1 + i) = workspaceName k := heq.trans hname
  have := workspaceName_inj.mp hnames
  omega

/-- A cleanup leaves the workspaces it does not remove, and new ones. -/
theorem cleanOrder_spec {removed : List String} {append : Bool}
    (hstate : m.outputs[key]? = some state) :
    ∃ after n, (∀ q : String, (m.cleanOrder key removed append).outputs[q]? =
        if key = q then some after else m.outputs[q]?) ∧
      after.ids = state.ids.filter (fun id => !removed.contains id) ++
        (minted m.nextWs n).map WorkspaceEntry.id ∧
      (m.cleanOrder key removed append).previous = m.previous ∧
      (m.cleanOrder key removed append).baseline = m.baseline := by
  rw [cleanOrder, hstate]
  dsimp only
  generalize (if append = true then 1 else 0) + (WorkspacePolicy.minWorkspaces -
    ((state.order.filter fun entry => !removed.contains entry.id).length +
      if append = true then 1 else 0)) = n
  obtain ⟨hfresh, houtputs, -⟩ := mintEntries_spec (m := m) n
  obtain ⟨hprevious, hbaseline⟩ := mintEntries_history (m := m) n
  generalize (min _ _ : Nat) = active
  let kept := state.order.filter fun entry => !removed.contains entry.id
  refine ⟨{ state with order := kept ++ (m.mintEntries n).2, active }, n, fun q => ?_, ?_,
    hprevious, hbaseline⟩
  · rw [setOutput_lookup, houtputs]
  · rw [OutputState.ids, hfresh, List.map_append, OutputState.ids, List.filter_map]
    rfl

theorem cleanup_turn (hsound : m.Sound loose short) (h : m.Recorded output seen)
    {visible retained : List String} {sticky : BTreeSet WindowKey} :
    m.Turn output (.cleanup key visible retained sticky) := by
  let removed := (m.planCleanupExcluding key visible retained sticky).1
  let append := (m.planCleanupExcluding key visible retained sticky).2
  let cleaned := (m.cleanOrder key removed append).pruneModes.pruneDisplaced
  have hnext : m.next (.cleanup key visible retained sticky) = cleaned.validateHistory key := rfl
  cases hstate : m.outputs[key]? with
  | none =>
    have hclean : m.cleanOrder key removed append = m := by
      rw [cleanOrder, hstate]
    have hquiet : m.Quiet cleaned output := by
      change m.Quiet (m.cleanOrder key removed append).pruneModes.pruneDisplaced output
      rw [hclean]
      exact Quiet.of_lookup rfl rfl rfl
    by_cases heq : key = output
    · subst heq
      obtain ⟨hprevious, hbaseline⟩ := h.absent hstate
      refine .started ?_ ?_ ?_
      · simp [starts, Std.ExtTreeMap.contains_eq_isSome_getElem?, hstate]
      · rw [hnext, validateHistory_revised.previous, hquiet.previous, hprevious]
        rfl
      · rw [hnext, validateHistory_revised.baseline, hquiet.baseline, hbaseline, activeId,
          validateHistory_outputs, hquiet.absent hstate]
        rfl
    · refine Quiet.turn ?_ h rfl (fun _ heq => by cases heq)
      rw [hnext]
      exact hquiet.trans (validateHistory_quiet heq)
  | some state =>
    obtain ⟨after, n, hlookup, hids, hprevious, hbaseline⟩ :=
      @cleanOrder_spec m key state removed append hstate
    by_cases heq : key = output
    · subst heq
      have hafter : (cleaned.validateHistory key).outputs[key]? = some after := by
        rw [validateHistory_outputs]
        exact (hlookup key).trans (if_pos rfl)
      have hmem : ∀ {id}, id ∈ m.workspaceIds key →
          (id ∈ (cleaned.validateHistory key).workspaceIds key ↔ id ∉ removed) := by
        intro id hid
        have hnew := hsound.minted_new (n := n) hid
        obtain ⟨before, hbefore, hin⟩ := mem_workspaceIds.mp hid
        rw [hstate] at hbefore
        cases hbefore
        rw [workspaceIds, hafter, Option.map_some, Option.getD_some, hids, List.mem_append,
          List.mem_filter]
        simp only [hin, hnew]
        simp
      refine .revised ?_ (fun _ heq => by cases heq) ⟨?_, ?_⟩
        fun base previous hbase hprev hleaving hgone => ?_
      · simp [starts, Std.ExtTreeMap.contains_eq_isSome_getElem?, hstate]
      · rw [hnext, validateHistory_revised.previous]
        exact congrArg (Option.filter _) (congrArg (·[key]?) hprevious)
      · rw [hnext, validateHistory_revised.baseline]
        exact congrArg (Option.bind · _) (congrArg (·[key]?) hbaseline)
      · rw [leaving, if_pos rfl] at hleaving
        rw [hnext, hmem hbase, not_not] at hgone
        rw [hnext, hmem hprev, not_not]
        exact hleaving hgone
    · refine Quiet.turn ?_ h rfl (fun _ heq => by cases heq)
      rw [hnext]
      have hquiet : m.Quiet cleaned output :=
        Quiet.of_lookup (congrArg (·[output]?) hprevious) (congrArg (·[output]?) hbaseline)
          ((hlookup output).trans (if_neg heq))
      exact hquiet.trans (validateHistory_quiet heq)

theorem starts_eq_false (hstate : m.outputs[output]? = some state) :
    (!m.outputs.contains output) = false := by
  rw [Std.ExtTreeMap.contains_eq_isSome_getElem?, hstate]
  rfl

/-- A displacement joins the origin's list to the survivor's, where it has
one, and then checks the survivor's history. -/
theorem displaceOutputTo_moved {origin dest : String} {destState : OutputState}
    (hstate : m.outputs[origin]? = some state) (hdest : m.outputs[dest]? = some destState)
    (hne : origin ≠ dest) :
    ∃ moved : ManagedWorkspaces, m.next (.displaceOutputTo origin dest) =
        (moved.discardOutputHistory origin).validateHistory dest ∧
      moved.outputs[origin]? = none ∧
      (∀ {id}, id ∈ m.workspaceIds dest → id ∈ moved.workspaceIds dest) ∧
      (∀ {q : String}, q ≠ origin → q ≠ dest → moved.outputs[q]? = m.outputs[q]?) ∧
      moved.previous = m.previous ∧ moved.baseline = m.baseline := by
  by_cases hempty : state.order.isEmpty
  · refine ⟨{ m with outputs := m.outputs.erase origin }, ?_, ?_, ?_, ?_, rfl, rfl⟩
    · rw [next, displaceOutputTo, hstate, hdest]
      dsimp only
      rw [if_neg hne, if_pos hempty]
    · rw [lookup_erase, if_pos rfl]
    · intro id hid
      rw [workspaceIds_congr]
      · exact hid
      · rw [lookup_erase, if_neg hne]
    · intro q horigin _
      rw [lookup_erase, if_neg (Ne.symm horigin)]
  · let joined := { destState with order := destState.order ++ state.order }
    let outputs := (m.outputs.erase origin).insert dest joined
    refine ⟨{ ({ m with outputs }.rehome origin dest state.ids) with
      displaced := m.displaced.insert origin ⟨state.ids, dest⟩ }, ?_, ?_, ?_, ?_, rfl, rfl⟩
    · rw [next, displaceOutputTo, hstate, hdest]
      dsimp only
      rw [if_neg hne, if_neg hempty]
      rfl
    · change outputs[origin]? = none
      rw [lookup_insert, if_neg (Ne.symm hne), lookup_erase, if_pos rfl]
    · intro id hid
      obtain ⟨before, hbefore, hin⟩ := mem_workspaceIds.mp hid
      rw [hdest] at hbefore
      cases hbefore
      refine mem_workspaceIds.mpr ⟨joined, ?_, ?_⟩
      · change outputs[dest]? = some joined
        rw [lookup_insert, if_pos rfl]
      · change id ∈ (destState.order ++ state.order).map WorkspaceEntry.id
        rw [List.map_append]
        exact List.mem_append_left _ hin
    · intro q horigin hq
      change outputs[q]? = m.outputs[q]?
      rw [lookup_insert, if_neg (Ne.symm hq), lookup_erase, if_neg (Ne.symm horigin)]

theorem displaceOutputTo_turn {origin dest : String} (h : m.Recorded output seen) :
    m.Turn output (.displaceOutputTo origin dest) := by
  have hrefused : m.next (.displaceOutputTo origin dest) = m →
      m.Turn output (.displaceOutputTo origin dest) := by
    intro hsame
    refine Quiet.turn ?_ h rfl (fun _ heq => by cases heq)
    rw [hsame]
    exact Quiet.refl
  cases hstate : m.outputs[origin]? with
  | none => exact hrefused (by rw [next, displaceOutputTo, hstate])
  | some state =>
    cases hdest : m.outputs[dest]? with
    | none => exact hrefused (by rw [next, displaceOutputTo, hstate, hdest])
    | some destState =>
      by_cases hsame : origin = dest
      · refine hrefused ?_
        rw [next, displaceOutputTo, hstate, hdest]
        exact congrArg Prod.fst (if_pos hsame)
      obtain ⟨moved, hnext, hgone, hdestIds, hothers, hprevious, hbaseline⟩ :=
        displaceOutputTo_moved hstate hdest hsame
      by_cases horigin : origin = output
      · subst horigin
        have hafter : (m.next (.displaceOutputTo origin dest)).outputs[origin]? = none := by
          rw [hnext, validateHistory_outputs]
          exact hgone
        obtain ⟨hprev, hbase⟩ := @validateHistory_other (moved.discardOutputHistory origin)
          origin _ (Ne.symm hsame)
        refine .revised (starts_eq_false hstate) (fun _ heq => by cases heq)
          (.of_gone hafter ?_ ?_) fun _ previous _ _ _ _ hin => ?_
        · rw [hnext, hprev, discardOutputHistory_gone.1]
        · rw [hnext, hbase, discardOutputHistory_gone.2]
        · rw [workspaceIds, hafter] at hin
          cases hin
      · obtain ⟨hprev, hbase⟩ := @discardOutputHistory_other moved output _ horigin
        by_cases hq : dest = output
        · subst hq
          have hkept : ∀ {id}, id ∈ m.workspaceIds dest →
              id ∈ (m.next (.displaceOutputTo origin dest)).workspaceIds dest := by
            intro id hid
            rw [hnext, workspaceIds_congr (m := moved) (by rw [validateHistory_outputs]; rfl)]
            exact hdestIds hid
          refine .revised (starts_eq_false hdest) (fun _ heq => by cases heq) ⟨?_, ?_⟩
            fun _ _ hbase _ _ hlost => absurd (hkept hbase) hlost
          · rw [hnext, validateHistory_revised.previous, hprev, hprevious]
          · rw [hnext, validateHistory_revised.baseline, hbase, hbaseline]
        · refine Quiet.turn ?_ h rfl (fun _ heq => by cases heq)
          rw [hnext]
          have hquiet : m.Quiet (moved.discardOutputHistory origin) output :=
            Quiet.of_lookup (hprev.trans (by rw [hprevious])) (hbase.trans (by rw [hbaseline]))
              (hothers (Ne.symm horigin) (Ne.symm hq))
          exact hquiet.trans (validateHistory_quiet hq)

theorem returnTo_history {returning : List WorkspaceEntry} :
    (m.returnTo key returning).previous = m.previous ∧
      (m.returnTo key returning).baseline = m.baseline := by
  unfold returnTo
  split <;> exact ⟨rfl, rfl⟩

/-- A return primes the origin's history, leaves the others, and then checks
the holder's and its own. -/
theorem reconnectOutput_primed {origin : String} {record : DisplacedRecord}
    (hrecord : m.displaced[origin]? = some record)
    (hholder : m.outputs[record.destKey]? = some state) :
    ∃ primed : ManagedWorkspaces, m.next (.reconnectOutput origin) =
        (primed.validateHistory record.destKey).validateHistory origin ∧
      primed.previous[origin]? = none ∧ primed.baseline[origin]? = primed.activeId origin ∧
      ∀ {q : String}, origin ≠ q → primed.previous[q]? = m.previous[q]? ∧
        primed.baseline[q]? = m.baseline[q]? := by
  rw [next, reconnectOutput, hrecord]
  dsimp only
  rw [hholder]
  dsimp only
  generalize hseeded : ManagedWorkspaces.seedAll _ record.workspaceIds = seeded
  have hprevious : seeded.previous = m.previous := by
    rw [← hseeded, (seedAll_history _).1, returnTo_history.1]
    rfl
  have hbaseline : seeded.baseline = m.baseline := by
    rw [← hseeded, (seedAll_history _).2, returnTo_history.2]
    rfl
  refine ⟨_, rfl, ?_, ?_, fun {q} hq => ⟨?_, ?_⟩⟩
  · rw [lookup_erase, if_pos rfl]
  · change (match seeded.activeId origin with
      | some active => seeded.baseline.insert origin active
      | none => seeded.baseline.erase origin)[origin]? = seeded.activeId origin
    cases seeded.activeId origin with
    | none => rw [lookup_erase, if_pos rfl]
    | some active => rw [lookup_insert, if_pos rfl]
  · rw [lookup_erase, if_neg hq, hprevious]
  · change (match seeded.activeId origin with
      | some active => seeded.baseline.insert origin active
      | none => seeded.baseline.erase origin)[q]? = m.baseline[q]?
    rw [← hbaseline]
    cases seeded.activeId origin with
    | none => exact lookup_erase.trans (if_neg hq)
    | some active => exact lookup_insert.trans (if_neg hq)

section
variable {origin : String} {record : DisplacedRecord}

/-- The output that comes back starts with what it shows. -/
theorem reconnectOutput_own (hsound : m.Sound loose short)
    (hrecord : m.displaced[origin]? = some record)
    (hholder : m.outputs[record.destKey]? = some state) :
    m.Turn origin (.reconnectOutput origin) := by
  obtain ⟨after, hok, -, -⟩ := reconnectOutput_spec hsound hrecord hholder
  obtain ⟨primed, hnext, hgone, hprimed, -⟩ := reconnectOutput_primed hrecord hholder
  have haway : record.destKey ≠ origin := hsound.away hrecord
  obtain ⟨hprev, hbase⟩ := @validateHistory_other primed origin _ haway
  obtain ⟨hprev', hbase'⟩ := @validateHistory_kept (primed.validateHistory record.destKey)
    origin (fun {id} hid => by
      rw [hprev, hgone] at hid
      cases hid) fun {id} hid => by
      rw [hbase, hprimed] at hid
      rw [workspaceIds_congr (m := primed) (by rw [validateHistory_outputs])]
      exact mem_workspaceIds_of_activeId hid
  refine .started ?_ ?_ ?_
  · rw [starts, hok, Bool.and_true, beq_self_eq_true, Bool.or_true]
  · rw [hnext, hprev', hprev, hgone]
  · rw [hnext, hbase', hbase, hprimed]
    exact activeId_congr (by rw [validateHistory_outputs, validateHistory_outputs])

theorem starts_reconnect_other (horigin : origin ≠ output) :
    m.starts output (.reconnectOutput origin) = !m.outputs.contains output := by
  rw [starts, beq_eq_false_iff_ne.mpr horigin, Bool.false_and, Bool.or_false]

/-- The holder gives the recorded workspaces back and revises its history:
what leaves it is exactly what the record lists, and nothing joins it. -/
theorem reconnectOutput_holder (hsound : m.Sound loose short)
    (hrecord : m.displaced[origin]? = some record)
    (hholder : m.outputs[record.destKey]? = some state) :
    m.Turn record.destKey (.reconnectOutput origin) := by
  have horigin : origin ≠ record.destKey := Ne.symm (hsound.away hrecord)
  obtain ⟨after, -, hlookup, -⟩ := reconnectOutput_spec hsound hrecord hholder
  obtain ⟨primed, hnext, -, -, hothers⟩ := reconnectOutput_primed hrecord hholder
  obtain ⟨hprevious, hbaseline⟩ := hothers horigin
  have hleft : (m.reconnectOutput origin).1.outputs[record.destKey]? =
      some (without state record.workspaceIds) := by
    rw [hlookup, if_neg horigin, if_pos rfl]
  have hmem : ∀ {id}, id ∈ m.workspaceIds record.destKey →
      (id ∈ (m.next (.reconnectOutput origin)).workspaceIds record.destKey ↔
        id ∉ record.workspaceIds) := by
    intro id hid
    obtain ⟨before, hbefore, hin⟩ := mem_workspaceIds.mp hid
    rw [hholder] at hbefore
    cases hbefore
    rw [next, workspaceIds, hleft, Option.map_some, Option.getD_some, without_ids, List.mem_filter]
    simp [hin]
  obtain ⟨hprev, hbase⟩ := @validateHistory_other (primed.validateHistory record.destKey)
    record.destKey _ horigin
  have houtputs : (m.next (.reconnectOutput origin)).outputs =
      (primed.validateHistory record.destKey).outputs := by
    rw [hnext, validateHistory_outputs]
  have hids : (m.next (.reconnectOutput origin)).workspaceIds record.destKey =
      (primed.validateHistory record.destKey).workspaceIds record.destKey :=
    workspaceIds_congr (by rw [houtputs])
  have hactive : (m.next (.reconnectOutput origin)).activeId record.destKey =
      (primed.validateHistory record.destKey).activeId record.destKey :=
    activeId_congr (by rw [houtputs])
  refine .revised ((starts_reconnect_other horigin).trans (starts_eq_false hholder))
    (fun _ heq => by cases heq) ⟨?_, ?_⟩ fun base previous hin hin' hleaving hgone => ?_
  · rw [hids, hnext, hprev, validateHistory_revised.previous, hprevious]
  · rw [hids, hactive, hnext, hbase, validateHistory_revised.baseline, hbaseline]
  · rw [leaving, hrecord] at hleaving
    dsimp only at hleaving
    rw [if_pos rfl] at hleaving
    rw [hmem hin, not_not] at hgone
    rw [hmem hin', not_not]
    exact hleaving hgone

/-- Neither the holder nor the one that comes back. -/
theorem reconnectOutput_quiet (hsound : m.Sound loose short)
    (hrecord : m.displaced[origin]? = some record)
    (hholder : m.outputs[record.destKey]? = some state) (horigin : origin ≠ output)
    (hdest : record.destKey ≠ output) : m.Quiet (m.next (.reconnectOutput origin)) output := by
  obtain ⟨after, -, hlookup, -⟩ := reconnectOutput_spec hsound hrecord hholder
  obtain ⟨primed, hnext, -, -, hothers⟩ := reconnectOutput_primed hrecord hholder
  obtain ⟨hprevious, hbaseline⟩ := hothers horigin
  obtain ⟨hprev, hbase⟩ := @validateHistory_other primed output _ hdest
  obtain ⟨hprev', hbase'⟩ := @validateHistory_other (primed.validateHistory record.destKey)
    output _ horigin
  refine Quiet.of_lookup ?_ ?_ ?_
  · rw [hnext, hprev', hprev, hprevious]
  · rw [hnext, hbase', hbase, hbaseline]
  · rw [next, hlookup, if_neg horigin, if_neg hdest]

theorem reconnectOutput_turn (hsound : m.Sound loose short) (h : m.Recorded output seen) :
    m.Turn output (.reconnectOutput origin) := by
  have hrefused : m.reconnectOutput origin = (m, false) →
      m.Turn output (.reconnectOutput origin) := by
    intro hsame
    refine Quiet.turn ?_ h ?_ (fun _ heq => by cases heq)
    · rw [next, hsame]
      exact Quiet.refl
    · rw [starts, hsame, Bool.and_false, Bool.or_false]
  cases hrecord : m.displaced[origin]? with
  | none => exact hrefused (by rw [reconnectOutput, hrecord])
  | some record =>
    cases hholder : m.outputs[record.destKey]? with
    | none =>
      refine hrefused ?_
      rw [reconnectOutput, hrecord]
      dsimp only
      rw [hholder]
    | some holder =>
      by_cases horigin : origin = output
      · exact horigin ▸ reconnectOutput_own hsound hrecord hholder
      by_cases hdest : record.destKey = output
      · exact hdest ▸ reconnectOutput_holder hsound hrecord hholder
      exact (reconnectOutput_quiet hsound hrecord hholder horigin hdest).turn h
        (starts_reconnect_other horigin) fun _ heq => by cases heq

end

theorem Recorded.turn (h : m.Recorded output seen) (hsound : m.Sound loose short) (op : Op) :
    m.Turn output op := by
  cases op with
  | ensureOutput key => exact ensureOutput_turn h
  | select key index => exact select_quiet.turn h rfl (fun _ heq => by cases heq)
  | activate key workspace => exact activate_quiet.turn h rfl (fun _ heq => by cases heq)
  | selectTrailing key => exact selectTrailing_quiet.turn h rfl (fun _ heq => by cases heq)
  | resolveSendTrailing key => exact resolveSendTrailing_quiet.turn h rfl (fun _ heq => by cases heq)
  | assign window key workspace hidden => exact assign_quiet.turn h rfl (fun _ heq => by cases heq)
  | setHidden window hidden => exact setHidden_quiet.turn h rfl (fun _ heq => by cases heq)
  | noteForeground window => exact noteForeground_quiet.turn h rfl (fun _ heq => by cases heq)
  | removeWindow window => exact removeWindow_quiet.turn h rfl (fun _ heq => by cases heq)
  | cleanup key visible retained sticky => exact cleanup_turn hsound h
  | displaceOutputTo origin dest => exact displaceOutputTo_turn h
  | reconnectOutput origin => exact reconnectOutput_turn hsound h
  | observeWorkspaceChange key current => exact observeWorkspaceChange_turn h

/-! ## The history along a run -/

theorem observeWorkspaceChange_outputs :
    (m.observeWorkspaceChange key current).1.outputs = m.outputs := by
  unfold ManagedWorkspaces.observeWorkspaceChange
  (repeat' split) <;> simp

theorem sighting_of_starts {op : Op} (hstarts : m.starts output op = true) :
    m.sighting output op = (m.next op).activeId output := if_pos hstarts

theorem reported_eq_none {op : Op} (hop : ∀ current, op = .observeWorkspaceChange output current →
    current ∉ m.workspaceIds output) : m.reported output op = none := by
  cases op with
  | observeWorkspaceChange key current =>
    refine if_neg ?_
    rintro ⟨rfl, hin⟩
    exact hop current rfl hin
  | _ => rfl

namespace Sightings

theorem note_head {last : String} : (note views last).head? = some last := by
  rw [note]
  split
  · assumption
  · rfl

/-- What was observed is the latest view, and stands. -/
theorem after_some {ids : List String} : (seen.after (some id) ids).standing = true ∧
    (seen.after (some id) ids).views = note seen.views id := ⟨rfl, rfl⟩

/-- With nothing observed the latest view stands as long as it is there. -/
theorem after_none {ids : List String} :
    (seen.after .none ids).views = seen.views ∧ ((seen.after .none ids).standing = true ↔
      seen.standing = true ∧ ∃ last ∈ seen.views.head?, last ∈ ids) := by
  refine ⟨rfl, ?_⟩
  change (seen.standing && seen.views.head?.any ids.contains) = true ↔ _
  cases seen.views with
  | nil => simp
  | cons last rest => simp

end Sightings

theorem Recorded.of_started (hprevious : m'.previous[output]? = none)
    (hbaseline : m'.baseline[output]? = m'.activeId output) :
    m'.Recorded output
      (Sightings.none.after (m'.activeId output) (m'.workspaceIds output)) := by
  constructor
  · intro id hid
    rw [hprevious] at hid
    cases hid
  · intro base hbase
    rw [hbaseline] at hbase
    exact mem_workspaceIds_of_activeId hbase
  · intro hstanding
    rw [hbaseline]
    cases hactive : m'.activeId output with
    | none =>
      rw [hactive] at hstanding
      cases hstanding
    | some active => exact ⟨active, [], rfl, rfl⟩

/-- A view is reported: the one that stood before it is now the previous one.
If none did, the report only confirms the view that replaced it. -/
theorem Recorded.of_observed (h : m.Recorded output seen) (hcurrent : current ∈ m.workspaceIds output)
    (hkeeps : ∀ base ∈ m.baseline[output]?, seen.standing = true ∨ base = current)
    (hids : m'.workspaceIds output = m.workspaceIds output)
    (hprevious : m'.previous[output]? = match m.baseline[output]? with
      | some base => if base = current then m.previous[output]? else some base
      | none => none)
    (hbaseline : m'.baseline[output]? = some current) :
    m'.Recorded output (seen.after (some current) (m'.workspaceIds output)) := by
  refine ⟨fun {id} hid => ?_, fun {base} hbase => ?_, fun _ => ?_⟩
  · rw [hids, hbaseline]
    rw [hprevious] at hid
    cases hbase : m.baseline[output]? with
    | none =>
      rw [hbase] at hid
      cases hid
    | some base =>
      rw [hbase] at hid
      dsimp only at hid
      by_cases heq : base = current
      · rw [if_pos heq] at hid
        obtain ⟨hin, -, last, rest, hlast, hseen, hne⟩ := h.previous hid
        rw [hbase] at hlast
        cases hlast
        subst heq
        refine ⟨hin, rfl, base, rest, rfl, ?_, hne⟩
        rw [Sightings.after_some.2, Sightings.note, hseen, if_pos List.head?_cons]
      · rw [if_neg heq] at hid
        obtain rfl := Option.some.inj hid
        obtain ⟨last, rest, hseen, hlast⟩ := h.standing ((hkeeps base hbase).resolve_right heq)
        rw [hbase] at hlast
        cases hlast
        refine ⟨h.baseline hbase, rfl, current, rest, rfl, ?_, Ne.symm heq⟩
        rw [Sightings.after_some.2, Sightings.note, hseen, if_neg]
        exact fun hsame => heq (Option.some.inj hsame)
  · rw [hbaseline] at hbase
    cases hbase
    rw [hids]
    exact hcurrent
  · obtain ⟨rest, hrest⟩ := List.head?_eq_some_iff.mp (@Sightings.note_head seen.views current)
    exact ⟨current, rest, hrest, hbaseline⟩

theorem Recorded.of_revised (h : m.Recorded output seen) (hrevised : m.Revised m' output)
    (hstays : ∀ {id base}, m.previous[output]? = some id → m.baseline[output]? = some base →
      id ∈ m'.workspaceIds output → base ∈ m'.workspaceIds output) :
    m'.Recorded output (seen.after none (m'.workspaceIds output)) := by
  have hbase' : ∀ {base}, m.baseline[output]? = some base → base ∈ m'.workspaceIds output →
      m'.baseline[output]? = some base := by
    intro base hbase hin
    rw [hrevised.baseline, hbase, Option.bind_some, if_pos hin]
  refine ⟨fun {id} hid => ?_, fun {base} hbase => ?_, fun hstanding => ?_⟩
  · rw [hrevised.previous, Option.filter_eq_some_iff] at hid
    obtain ⟨hprevious, hin⟩ := hid
    rw [List.contains_iff_mem] at hin
    obtain ⟨-, hstanding, base, rest, hbase, hseen, hne⟩ := h.previous hprevious
    have hkept := hstays hprevious hbase hin
    refine ⟨hin, ?_, base, rest, hbase' hbase hkept, hseen, hne⟩
    exact Sightings.after_none.2.mpr ⟨hstanding, base, by rw [hseen]; rfl, hkept⟩
  · rw [hrevised.baseline] at hbase
    obtain ⟨last, -, hbase⟩ := Option.bind_eq_some_iff.mp hbase
    split at hbase
    · cases hbase
      assumption
    · exact mem_workspaceIds_of_activeId hbase
  · obtain ⟨hstood, last, hhead, hin⟩ := Sightings.after_none.2.mp hstanding
    obtain ⟨latest, rest, hseen, hbase⟩ := h.standing hstood
    rw [hseen] at hhead
    obtain rfl := Option.some.inj hhead
    exact ⟨latest, rest, hseen, hbase' hbase hin⟩

theorem starts_observed (hcurrent : current ∈ m.workspaceIds output) :
    m.starts output (.observeWorkspaceChange output current) = false := by
  obtain ⟨state, hstate, -⟩ := mem_workspaceIds.mp hcurrent
  exact starts_eq_false hstate

theorem next_observed_ids : (m.next (.observeWorkspaceChange key current)).workspaceIds output =
    m.workspaceIds output := workspaceIds_congr (by rw [next, observeWorkspaceChange_outputs])

/-- One operation keeps the agreement under the condition. -/
theorem Recorded.step (h : m.Recorded output seen) (hsound : m.Sound loose short) {op : Op}
    (hkeeps : KeepsView output (m, seen) (.op op)) :
    (m.next op).Recorded output ((if m.starts output op then .none else seen).after
      (m.sighting output op) ((m.next op).workspaceIds output)) := by
  rcases h.turn hsound op with ⟨hstarts, hprevious, hbaseline⟩ |
    ⟨current, rfl, hcurrent, hprevious, hbaseline⟩ | ⟨hstarts, hop, hrevised, hleaving⟩
  · rw [if_pos hstarts, sighting_of_starts hstarts]
    exact .of_started hprevious hbaseline
  · have hreported : m.reported output (.observeWorkspaceChange output current) = some current :=
      if_pos ⟨rfl, hcurrent⟩
    have hstarts := starts_observed hcurrent
    rw [sighting, hstarts, if_neg Bool.false_ne_true, if_neg Bool.false_ne_true, hreported]
    refine h.of_observed hcurrent (fun base hbase => ?_) next_observed_ids hprevious hbaseline
    exact (hkeeps base hbase).2 current hreported
  · rw [sighting, hstarts, if_neg Bool.false_ne_true, if_neg Bool.false_ne_true,
      reported_eq_none hop]
    refine h.of_revised hrevised fun {id base} hprevious hbase hin => ?_
    by_contra hgone
    exact hleaving base id (h.baseline hbase) (h.previous hprevious).1
      ((hkeeps base hbase).1 id hprevious) hgone hin

theorem Recorded.congr (h : m.Recorded output seen) (houtputs : m'.outputs = m.outputs)
    (hprevious : m'.previous[output]? = m.previous[output]?)
    (hbaseline : m'.baseline[output]? = m.baseline[output]?) : m'.Recorded output seen where
  previous {id} hid := by
    rw [workspaceIds_congr (m := m) (by rw [houtputs]), hbaseline]
    exact h.previous (hprevious ▸ hid)
  baseline {base} hbase := by
    rw [workspaceIds_congr (m := m) (by rw [houtputs])]
    exact h.baseline (hbaseline ▸ hbase)
  standing hstanding := by
    rw [hbaseline]
    exact h.standing hstanding

theorem resolvePrevious_spec (h : m.Recorded output seen) :
    (m.resolvePrevious output).1 = m ∧
      (m.resolvePrevious output).2 = m.previous[output]? := by
  rw [resolvePrevious]
  cases hprevious : m.previous[output]? with
  | none => exact ⟨rfl, rfl⟩
  | some id =>
    obtain ⟨state, hstate, hin⟩ := mem_workspaceIds.mp (h.previous hprevious).1
    rw [hstate]
    dsimp only
    rw [if_pos (List.contains_iff_mem.mpr hin)]
    exact ⟨rfl, rfl⟩

theorem resolvePrevious_other (hne : key ≠ output) :
    (m.resolvePrevious key).1.previous[output]? = m.previous[output]? := by
  unfold resolvePrevious
  split
  · rfl
  · split
    · rfl
    · split
      · rfl
      · exact lookup_erase.trans (if_neg hne)

theorem resolvePrevious_frame : (m.resolvePrevious key).1.outputs = m.outputs ∧
    (m.resolvePrevious key).1.membership = m.membership ∧
      (m.resolvePrevious key).1.nextWs = m.nextWs ∧
        (m.resolvePrevious key).1.displaced = m.displaced ∧
          (m.resolvePrevious key).1.baseline = m.baseline := by
  unfold resolvePrevious
  (repeat' split) <;> exact ⟨rfl, rfl, rfl, rfl, rfl⟩

/-- A settled state with a record of sightings that agrees with its history:
what is returned as previous was observed. -/
structure Witnessed (output : String) (s : ManagedWorkspaces × Sightings) : Prop where
  settled : s.1.Settled
  recorded : s.1.Recorded output s.2

theorem Witnessed.step {s : ManagedWorkspaces × Sightings} (h : Witnessed output s) {op : ViewOp}
    (hkeeps : KeepsView output s op) : Witnessed output ((watched output).next s op) := by
  obtain ⟨m, seen⟩ := s
  obtain ⟨⟨l, hsound⟩, hrecorded⟩ := h
  cases op with
  | op op => exact ⟨⟨l.next m op, hsound.next op⟩, hrecorded.step hsound hkeeps⟩
  | resolvePrevious key =>
    obtain ⟨houtputs, hmembership, hnext, hdisplaced, hbaseline⟩ := @resolvePrevious_frame m key
    refine ⟨⟨l, hsound.congr houtputs hmembership hnext hdisplaced⟩, ?_⟩
    by_cases heq : key = output
    · subst heq
      change (m.resolvePrevious key).1.Recorded key seen
      rw [(resolvePrevious_spec hrecorded).1]
      exact hrecorded
    · exact hrecorded.congr houtputs (resolvePrevious_other heq)
        (congrArg (·[output]?) hbaseline)
  | discardOutputHistory key =>
    refine ⟨⟨l, hsound.congr rfl rfl rfl rfl⟩, ?_⟩
    change (m.discardOutputHistory key).Recorded output (if key = output then .none else seen)
    by_cases heq : key = output
    · subst heq
      rw [if_pos rfl]
      exact .of_none discardOutputHistory_gone.1 discardOutputHistory_gone.2
    · obtain ⟨hprevious, hbaseline⟩ := @discardOutputHistory_other m output key heq
      rw [if_neg heq]
      exact hrecorded.congr rfl hprevious hbaseline

theorem witnessed_new : Witnessed output (new, .none) where
  settled := settled_invariant.initial _ rfl
  recorded := .of_none Std.ExtTreeMap.getElem?_empty Std.ExtTreeMap.getElem?_empty

/-! ## Toggling -/

theorem activate_activeId (hid : id ∈ m.workspaceIds output) :
    (m.activate output id).1.activeId output = some id := by
  obtain ⟨state, hstate, hin⟩ := mem_workspaceIds.mp hid
  rw [activate, hstate]
  dsimp only
  cases hpos : state.ids.findIdx? (· == id) with
  | none =>
    rw [List.findIdx?_eq_none_iff] at hpos
    exact absurd (hpos id hin) (by simp)
  | some pos =>
    obtain ⟨hlt, hat, -⟩ := List.findIdx?_eq_some_iff_getElem.mp hpos
    rw [activeId_eq, setOutput_lookup, if_pos rfl]
    exact List.getElem?_eq_some_iff.mpr ⟨hlt, beq_iff_eq.mp hat⟩

/-- A toggle swaps the two views: the previous one is active and observed, so
it is the baseline, and the old baseline is the previous view. -/
theorem togglePrevious_spec {base : String} (hsettled : m.Settled) (h : m.Recorded output seen)
    (hprevious : m.previous[output]? = some id) (hbase : m.baseline[output]? = some base) :
    (togglePrevious output m).Settled ∧ (∃ seen', (togglePrevious output m).Recorded output seen') ∧
      (togglePrevious output m).previous[output]? = some base ∧
      (togglePrevious output m).baseline[output]? = some id ∧
      (togglePrevious output m).activeId output = some id := by
  obtain ⟨hsame, hresolved⟩ := resolvePrevious_spec h
  have htoggle : togglePrevious output m =
      ((m.activate output id).1.observeWorkspaceChange output id).1 := by
    have hpair : m.resolvePrevious output = (m, some id) :=
      Prod.ext hsame (hresolved.trans hprevious)
    rw [togglePrevious, hpair]
  obtain ⟨hin, hstanding, current, rest, hcurrent, hseen, hne⟩ := h.previous hprevious
  rw [hbase] at hcurrent
  cases hcurrent
  let activated := (m.activate output id).1
  have hquiet : m.Quiet activated output := activate_quiet
  have hstart : Witnessed output (m, seen) := ⟨hsettled, h⟩
  have hactivated := @Witnessed.step output _ hstart (.op (.activate output id))
    fun _ _ => ⟨fun _ _ hleaves => (nomatch hleaves), fun _ hreported => nomatch hreported⟩
  have hstood := (hactivated.recorded.previous (hquiet.previous.trans hprevious)).2.1
  have hobserved := @Witnessed.step output _ hactivated (.op (.observeWorkspaceChange output id))
    fun _ _ => ⟨fun _ _ hleaves => (nomatch hleaves), fun _ _ => .inl hstood⟩
  obtain ⟨state, hstate, hids⟩ := mem_workspaceIds.mp (hquiet.ids hin)
  obtain ⟨hprev, hcur⟩ := observed_of_mem hactivated.recorded hstate hids
  have hbase' : activated.baseline[output]? = some base := hquiet.baseline.trans hbase
  rw [htoggle]
  refine ⟨hobserved.settled, ⟨_, hobserved.recorded⟩, ?_, hcur, ?_⟩
  · refine hprev.trans ?_
    change (match activated.baseline[output]? with
      | some base => if base = id then activated.previous[output]? else some base
      | none => none) = some base
    rw [hbase']
    exact if_neg hne
  · rw [activeId_congr (m := activated) (by rw [observeWorkspaceChange_outputs])]
    exact activate_activeId hin

/-- Toggling again and again shows two views in turn. -/
theorem togglePrevious_alternates {base : String} (hsettled : m.Settled)
    (h : m.Recorded output seen) (hprevious : m.previous[output]? = some id)
    (hbase : m.baseline[output]? = some base) (n : Nat) :
    (((togglePrevious output)^[n] m).resolvePrevious output).2 =
        some (if n % 2 = 0 then id else base) ∧
      ((togglePrevious output)^[n + 1] m).activeId output =
        some (if n % 2 = 0 then id else base) := by
  induction n generalizing m seen id base with
  | zero =>
    obtain ⟨-, -, -, -, hactive⟩ := togglePrevious_spec hsettled h hprevious hbase
    exact ⟨(resolvePrevious_spec h).2.trans hprevious, hactive⟩
  | succ n ih =>
    obtain ⟨hsettled', ⟨seen', h'⟩, hprevious', hbase', -⟩ :=
      togglePrevious_spec hsettled h hprevious hbase
    obtain ⟨hresolved, hactive⟩ := ih hsettled' h' hprevious' hbase'
    have hswap : (if n % 2 = 0 then base else id) = if (n + 1) % 2 = 0 then id else base := by
      by_cases heven : n % 2 = 0
      · rw [if_pos heven, if_neg (by omega)]
      · rw [if_neg heven, if_pos (by omega)]
    rw [hswap] at hresolved hactive
    exact ⟨hresolved, hactive⟩

/-! ## Workspaces that left -/

/-- The workspace is neither the previous view nor the one observed last, so
it can come back only by another observation. -/
structure Forgotten (output id : String) (s : ManagedWorkspaces × Sightings) : Prop where
  previous : s.1.previous[output]? ≠ some id
  standing : s.2.standing = true → s.2.views.head? ≠ some id

theorem Recorded.forgotten (h : m.Recorded output seen) (hid : id ∉ m.workspaceIds output) :
    Forgotten output id (m, seen) := by
  refine ⟨fun hprevious => hid (h.previous hprevious).1, fun hstanding hhead => hid ?_⟩
  obtain ⟨last, rest, hseen, hbase⟩ := h.standing hstanding
  rw [hseen] at hhead
  exact h.baseline (hbase.trans hhead)

/-- A report of another view makes the last observed one the previous view. -/
theorem Forgotten.previous_observed (h : Forgotten output id (m, seen)) (hrecorded : m.Recorded output seen)
    (hkeeps : ∀ base ∈ m.baseline[output]?, seen.standing = true ∨ base = current) :
    (match m.baseline[output]? with
      | some base => if base = current then m.previous[output]? else some base
      | none => none) ≠ some id := by
  cases hbase : m.baseline[output]? with
  | none => nofun
  | some base =>
    dsimp only
    split
    · exact h.previous
    · rename_i hne
      have hstanding := (hkeeps base hbase).resolve_right hne
      obtain ⟨last, rest, hseen, hlast⟩ := hrecorded.standing hstanding
      rw [hbase] at hlast
      have hhead := h.standing hstanding
      rw [hseen] at hhead
      rw [hlast]
      exact hhead

theorem Forgotten.step {s : ManagedWorkspaces × Sightings} (h : Forgotten output id s)
    (hwitnessed : Witnessed output s) {op : ViewOp} (hkeeps : KeepsView output s op)
    (hunsighted : Unsighted output id s op) : Forgotten output id ((watched output).next s op) := by
  obtain ⟨m, seen⟩ := s
  obtain ⟨⟨l, hsound⟩, hrecorded⟩ := hwitnessed
  cases op with
  | op op =>
    change m.sighting output op ≠ some id at hunsighted
    change Forgotten output id (m.next op, (if m.starts output op then .none else seen).after
      (m.sighting output op) ((m.next op).workspaceIds output))
    rcases hrecorded.turn hsound op with ⟨hstarts, hprevious, hbaseline⟩ |
      ⟨current, rfl, hcurrent, hprevious, hbaseline⟩ | ⟨hstarts, hop, hrevised, -⟩
    · refine ⟨by rw [hprevious]; nofun, fun hstanding => ?_⟩
      rw [if_pos hstarts] at hstanding ⊢
      cases hsighted : m.sighting output op with
      | none =>
        rw [hsighted] at hstanding
        cases hstanding
      | some sighted =>
        rw [hsighted] at hunsighted
        exact hunsighted
    · have hreported : m.reported output (.observeWorkspaceChange output current) = some current :=
        if_pos ⟨rfl, hcurrent⟩
      have hsighted : m.sighting output (.observeWorkspaceChange output current) = some current := by
        rw [sighting, starts_observed hcurrent, if_neg Bool.false_ne_true, hreported]
      rw [hsighted] at hunsighted ⊢
      refine ⟨?_, fun _ => ?_⟩
      · rw [hprevious]
        exact h.previous_observed hrecorded fun base hbase => (hkeeps base hbase).2 current hreported
      · change (Sightings.note _ current).head? ≠ some id
        rw [Sightings.note_head]
        exact hunsighted
    · rw [sighting, hstarts, if_neg Bool.false_ne_true, if_neg Bool.false_ne_true,
        reported_eq_none hop]
      refine ⟨fun hprevious => ?_, fun hstanding => ?_⟩
      · rw [hrevised.previous, Option.filter_eq_some_iff] at hprevious
        exact h.previous hprevious.1
      · exact h.standing (Sightings.after_none.2.mp hstanding).1
  | resolvePrevious key =>
    refine ⟨?_, h.standing⟩
    by_cases heq : key = output
    · subst heq
      change (m.resolvePrevious key).1.previous[key]? ≠ some id
      rw [(resolvePrevious_spec hrecorded).1]
      exact h.previous
    · change (m.resolvePrevious key).1.previous[output]? ≠ some id
      rw [resolvePrevious_other heq]
      exact h.previous
  | discardOutputHistory key =>
    constructor
    · change (m.previous.erase key)[output]? ≠ some id
      rw [lookup_erase]
      split
      · nofun
      · exact h.previous
    · change (if key = output then Sightings.none else seen).standing = true →
        (if key = output then Sightings.none else seen).views.head? ≠ some id
      split
      · exact fun hstanding => nomatch hstanding
      · exact h.standing

/-! ## Honest histories -/

/-- The resolved view is on the output and was observed just before the last
observed one; toggling shows the two in turn; a workspace off the output is not
resolved again before it is observed there again. -/
structure Honest (output : String) (s : ManagedWorkspaces × Sightings) : Prop where
  previous : ∀ {id}, (s.1.resolvePrevious output).2 = some id → id ∈ s.1.workspaceIds output ∧
    ∃ current rest, s.2.views = current :: id :: rest ∧ current ∈ s.1.workspaceIds output ∧ current ≠ id
  alternates : ∀ {id current rest}, (s.1.resolvePrevious output).2 = some id →
    s.2.views = current :: rest → ∀ n,
      (((togglePrevious output)^[n] s.1).resolvePrevious output).2 =
          some (if n % 2 = 0 then id else current) ∧
        ((togglePrevious output)^[n + 1] s.1).activeId output =
          some (if n % 2 = 0 then id else current)
  away : ∀ {id t}, id ∉ s.1.workspaceIds output →
    (watched output).Leads (fun s op => KeepsView output s op ∧ Unsighted output id s op) s t →
      (t.1.resolvePrevious output).2 ≠ some id

theorem Witnessed.honest {s : ManagedWorkspaces × Sightings} (h : Witnessed output s) :
    Honest output s where
  previous {id} hid := by
    rw [(resolvePrevious_spec h.recorded).2] at hid
    obtain ⟨hin, -, base, rest, hbase, hseen, hne⟩ := h.recorded.previous hid
    exact ⟨hin, base, rest, hseen, h.recorded.baseline hbase, hne⟩
  alternates {id current rest} hid hseen := by
    rw [(resolvePrevious_spec h.recorded).2] at hid
    obtain ⟨-, -, base, rest', hbase, hseen', -⟩ := h.recorded.previous hid
    rw [hseen] at hseen'
    cases hseen'
    exact togglePrevious_alternates h.settled h.recorded hid hbase
  away {id t} hid hleads := by
    have hkept : Witnessed output t ∧ Forgotten output id t :=
      hleads.preserved (I := fun t => Witnessed output t ∧ Forgotten output id t)
        ⟨h, h.recorded.forgotten hid⟩ fun _ _ ht hop =>
          ⟨ht.1.step hop.1, ht.2.step ht.1 hop.1 hop.2⟩
    rw [(resolvePrevious_spec hkept.1.recorded).2]
    exact hkept.2.previous

/-- Along a run that never takes a last observed view away without the
previous one, nor reports a view over the one that replaced it, the view
history is honest. -/
theorem history_honest {s : ManagedWorkspaces × Sightings}
    (h : (watched output).Leads (KeepsView output) (new, .none) s) : Honest output s := by
  have hwitnessed : Witnessed output s :=
    h.preserved witnessed_new fun _ _ hs hop => hs.step hop
  exact hwitnessed.honest

/-- The third view is observed, and the second one is cleaned up. -/
def keptViewRun : List ViewOp :=
  [.op (.ensureOutput "left"), .op (.assign ⟨1, 1, "created"⟩ "left" "ws-2" false),
    .op (.selectTrailing "left"), .op (.observeWorkspaceChange "left" "ws-3"),
    .op (.removeWindow ⟨1, 1, "created"⟩), .op (.cleanup "left" ["ws-3"] [] ∅),
    .resolvePrevious "left"]

/-- What is cleaned up was never observed, and the view before the third stays
the previous one. -/
theorem history_honest_kept :
    ((watched "left").run (new, .none) keptViewRun).2.views = ["ws-3", "ws-1"] ∧
      (((watched "left").run (new, .none) keptViewRun).1.resolvePrevious "left").2 = some "ws-1" ∧
      Honest "left" ((watched "left").run (new, .none) keptViewRun) :=
  ⟨by decide +kernel, by decide +kernel, history_honest (Machine.Leads.refl.run (by decide +kernel))⟩

/-- The second view is observed, left for a third one without a report, and
cleaned up before the report comes. -/
def lostViewRun : List ViewOp :=
  [.op (.ensureOutput "left"), .op (.assign ⟨1, 1, "created"⟩ "left" "ws-2" false),
    .op (.activate "left" "ws-2"), .op (.observeWorkspaceChange "left" "ws-2"),
    .op (.selectTrailing "left"), .op (.removeWindow ⟨1, 1, "created"⟩),
    .op (.cleanup "left" ["ws-3"] [] ∅), .op (.observeWorkspaceChange "left" "ws-3")]

/-- The view observed before the one that was removed is still resolved. -/
theorem history_not_honest :
    ¬∀ (output : String) (s : ManagedWorkspaces × Sightings), (watched output).Reachable s →
      Honest output s := by
  intro h
  have hhonest := h "left" _ ((Machine.Reachable.initial rfl).run lostViewRun)
  have hresolved : (((watched "left").run (new, .none) lostViewRun).1.resolvePrevious "left").2 =
      some "ws-1" := by decide +kernel
  have hseen : ((watched "left").run (new, .none) lostViewRun).2.views = ["ws-3", "ws-2", "ws-1"] := by
    decide +kernel
  obtain ⟨-, current, rest, hbefore, -⟩ := hhonest.previous hresolved
  rw [hseen] at hbefore
  simp at hbefore

/-- The first view is cleaned up while the second one is active, which was
never reported; then the third one is. -/
def unseenViewRun : List ViewOp :=
  [.op (.ensureOutput "left"), .op (.assign ⟨1, 1, "created"⟩ "left" "ws-2" false),
    .op (.activate "left" "ws-2"), .op (.cleanup "left" ["ws-2"] [] ∅),
    .op (.cleanup "left" ["ws-2"] [] ∅), .op (.activate "left" "ws-3"),
    .op (.observeWorkspaceChange "left" "ws-3")]

example : ((watched "left").run (new, .none) unseenViewRun).2.views = ["ws-3", "ws-1"] ∧
    (((watched "left").run (new, .none) unseenViewRun).1.resolvePrevious "left").2 =
      some "ws-2" := by decide +kernel

end

end ManagedWorkspaces

end PlasmaTiler
