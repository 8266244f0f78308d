import PlasmaTiler.Placement

/-!
# Coherent workspaces

Over a run the workspaces keep their outputs, the windows their workspaces.
Two operations leave something behind by design, and the tests pin it: a
cleanup prunes a workspace under its sticky members and keeps their
locations, and a reconnect brings an output back without topping it up.

Rather than weaken the invariant to what is always true, it is stated up to
what a run has left behind, which is counted along with the run: a sticky
window from when its workspace goes until it is assigned anew, an output from
its return until it is cleaned up (`Leftovers.next`). `run_coherent` has no
other condition; `run_leaves_behind` shows that both lists are needed.
-/

namespace PlasmaTiler

namespace ManagedWorkspaces

/-- Ids are unique, views and locations right, but for the windows and outputs
listed. -/
structure Coherent (m : ManagedWorkspaces) (loose : List WindowKey) (short : List String) :
    Prop where
  nodup : ∀ {output : String} {state : OutputState}, m.outputs[output]? = some state →
    state.ids.Nodup
  unique : ∀ {output output' : String} {state state' : OutputState} {id : String},
    m.outputs[output]? = some state → m.outputs[output']? = some state' →
      id ∈ state.ids → id ∈ state'.ids → output = output'
  filled : ∀ {output : String} {state : OutputState}, m.outputs[output]? = some state →
    output ∉ short → WorkspacePolicy.minWorkspaces ≤ state.order.length
  active : ∀ {output : String} {state : OutputState}, m.outputs[output]? = some state →
    state.order ≠ [] → state.active < state.order.length
  held : ∀ {output : String} {state : OutputState} {entry : WorkspaceEntry} {w : WindowKey},
    m.outputs[output]? = some state → entry ∈ state.order → w ∈ entry.members →
      ∃ hidden, m.membership[w]? = some ⟨output, entry.id, hidden⟩
  located : ∀ {w : WindowKey} {loc : MemberLoc}, m.membership[w]? = some loc → w ∉ loose →
    ∃ state entry, m.outputs[loc.output]? = some state ∧ entry ∈ state.order ∧
      entry.id = loc.workspace ∧ w ∈ entry.members
  only : ∀ {w : WindowKey} {loc : MemberLoc} {output : String} {state : OutputState}
    {entry : WorkspaceEntry}, m.membership[w]? = some loc → m.outputs[output]? = some state →
      entry ∈ state.order → entry.id = loc.workspace → output = loc.output ∧ w ∈ entry.members

/-- Windows whose workspace was pruned under them, and outputs a reconnect
left with too few workspaces. -/
structure Leftovers where
  loose : List WindowKey
  short : List String

/-- A sticky window is left behind until it is assigned anew, a short output
until it is cleaned up. -/
def Leftovers.next (l : Leftovers) (m : ManagedWorkspaces) : Op → Leftovers
  | .assign window output workspace hidden =>
    if (m.assign window output workspace hidden).2 then
      { l with loose := l.loose.filter (· != window) }
    else l
  | .removeWindow window => { l with loose := l.loose.filter (· != window) }
  | .cleanup output visible retained sticky =>
    let removed := (m.planCleanupExcluding output visible retained sticky).1
    { loose := l.loose ++ sticky.toList.filter fun w => (m.membership[w]?).any fun loc =>
        loc.output == output && removed.contains loc.workspace
      short := l.short.filter (· != output) }
  | .reconnectOutput origin =>
    let touched := (m.displaced[origin]?.map fun record => [record.destKey, origin]).getD []
    { l with short := l.short ++ touched.filter fun output =>
        ((m.reconnectOutput origin).1.outputs[output]?).any fun state =>
          decide (state.order.length < WorkspacePolicy.minWorkspaces) }
  | _ => l

/-- The workspaces with what their run has left behind. -/
def counted : Machine (ManagedWorkspaces × Leftovers) Op where
  initial s := s = (new, ⟨[], []⟩)
  next s op := (s.1.next op, s.2.next s.1 op)

section
variable {m : ManagedWorkspaces} {l : Leftovers} {loose : WindowKey → Prop} {short : String → Prop}

theorem Sound.coherent (h : m.Sound (· ∈ l.loose) (· ∈ l.short)) : m.Coherent l.loose l.short where
  nodup := h.ids_nodup
  unique := h.unique
  filled := h.filled
  active hstate hne := (h.shown hstate).resolve_right fun hnil => hne hnil.1
  held {output state entry w} hstate hentry hw := by
    have hplace := h.board.held (stands_iff.mpr ⟨state, hstate, entry, hentry, rfl⟩) hw
    obtain ⟨⟨output', workspace, hidden⟩, hloc, heq⟩ := Option.map_eq_some_iff.mp hplace
    obtain ⟨rfl, rfl⟩ := Prod.mk.inj heq
    exact ⟨hidden, hloc⟩
  located {w loc} hloc hnot := by
    have hplace : m.board.place w = some (loc.output, loc.workspace) := by
      rw [board_place, hloc]
      rfl
    obtain ⟨s, hs, hid⟩ := h.board.found hplace hnot
    obtain ⟨-, hw⟩ := (h.board.placed hplace).2 hs hid
    obtain ⟨state, hstate, entry, hentry, rfl⟩ := stands_iff.mp hs
    exact ⟨state, entry, hstate, hentry, hid, hw⟩
  only {w loc output state entry} hloc hstate hentry hid := by
    have hplace : m.board.place w = some (loc.output, loc.workspace) := by
      rw [board_place, hloc]
      rfl
    exact (h.board.placed hplace).2 (stands_iff.mpr ⟨state, hstate, entry, hentry, rfl⟩) hid

theorem sound_new : new.Sound (fun _ => False) (fun _ => False) := by
  have hnone : ∀ output : String, new.outputs[output]? = none := fun _ =>
    Std.ExtTreeMap.getElem?_empty
  have hstands : ∀ {p s}, ¬new.board.Stands p s := by
    rintro p s ⟨l, hl, -⟩
    rw [board_line, hnone] at hl
    cases hl
  have hplace : ∀ w, new.board.place w = none := by
    intro w
    rw [board_place]
    exact congrArg _ Std.ExtTreeMap.getElem?_empty
  refine { board := ⟨?_, ?_, ?_, ?_, ?_, ?_⟩, shown := ?_, filled := ?_, away := ?_ }
  · intro p l hl
    rw [board_line, hnone] at hl
    cases hl
  · exact fun hs => absurd hs hstands
  · exact fun hs => absurd hs hstands
  · exact fun hs => absurd hs hstands
  · intro p i w hw
    rw [hplace] at hw
    cases hw
  · intro p i w hw
    rw [hplace] at hw
    cases hw
  · intro output state hstate
    rw [hnone] at hstate
    cases hstate
  · intro output state hstate
    rw [hnone] at hstate
    cases hstate
  · intro origin record hrecord
    have hempty : new.displaced[origin]? = none := Std.ExtTreeMap.getElem?_empty
    rw [hempty] at hrecord
    cases hrecord

theorem Sound.next (h : m.Sound (· ∈ l.loose) (· ∈ l.short)) (op : Op) :
    (m.next op).Sound (· ∈ (l.next m op).loose) (· ∈ (l.next m op).short) := by
  cases op with
  | ensureOutput key => exact h.ensureOutput key
  | select output index => exact h.select output index
  | activate output workspace => exact h.activate output workspace
  | selectTrailing output => exact h.selectTrailing output
  | resolveSendTrailing output => exact h.resolveSendTrailing output
  | assign window output workspace hidden =>
    by_cases hknown : m.outputs[output]?.any (·.ids.contains workspace) = true
    · have htrue : (m.assign window output workspace hidden).2 = true := by
        rw [ManagedWorkspaces.assign, if_pos hknown]
      refine (h.assign_of hknown).mono (fun w hw => ?_) fun o ho => ?_
      · rw [Leftovers.next, if_pos htrue]
        simpa using hw
      · rw [Leftovers.next, if_pos htrue]
        exact ho
    · have hsame : m.assign window output workspace hidden = (m, false) := by
        rw [ManagedWorkspaces.assign, if_neg hknown]
      rw [ManagedWorkspaces.next, Leftovers.next, hsame]
      exact h
  | setHidden window hidden => exact h.setHidden window hidden
  | noteForeground window => exact h.noteForeground window
  | removeWindow window =>
    refine (h.removeWindow window).mono (fun w hw => ?_) fun _ hs => hs
    simpa [Leftovers.next] using hw
  | cleanup output visible retained sticky =>
    refine h.cleanup.mono (fun w hw => ?_) (fun o ho => ?_)
    · rw [Leftovers.next, List.mem_append, List.mem_filter]
      rcases hw with hw | ⟨hsticky, loc, hloc, houtput, hremoved⟩
      · exact .inl hw
      · refine .inr ⟨Std.ExtTreeSet.mem_toList.mpr hsticky, ?_⟩
        rw [hloc]
        simp [houtput, hremoved]
    · simpa [Leftovers.next] using ho
  | displaceOutputTo origin dest => exact h.displaceOutputTo origin dest
  | reconnectOutput origin =>
    have hreturned := h.reconnectOutput origin
    refine { hreturned with filled := fun {output state} hstate hnot => ?_ }
    by_contra hfew
    rw [Leftovers.next, List.mem_append, List.mem_filter, not_or] at hnot
    refine hfew (hreturned.filled hstate ?_)
    rintro (hshort | ⟨record, hrecord, htouched⟩)
    · exact hnot.1 hshort
    · refine hnot.2 ⟨?_, ?_⟩
      · rw [hrecord]
        simpa using htouched
      · have hafter : (m.reconnectOutput origin).1.outputs[output]? = some state := hstate
        rw [hafter]
        simpa using hfew
  | observeWorkspaceChange output current => exact h.observeWorkspaceChange output current

theorem counted_coherent {s : ManagedWorkspaces × Leftovers} (h : counted.Reachable s) :
    s.1.Coherent s.2.loose s.2.short := by
  have hinvariant : counted.Invariant fun s => s.1.Sound (· ∈ s.2.loose) (· ∈ s.2.short) := by
    refine { initial := ?_, preserved := fun s op hs => hs.next op }
    rintro _ rfl
    exact sound_new.mono (fun _ hw => hw.elim) fun _ ho => ho.elim
  exact (hinvariant.reachable h).coherent

theorem counted_run {s : ManagedWorkspaces × Leftovers} {ops : List Op} :
    (counted.run s ops).1 = machine.run s.1 ops := by
  induction ops generalizing s with
  | nil => rfl
  | cons op ops ih => exact ih

/-- What a run from the start has left behind. -/
def leftovers (ops : List Op) : Leftovers := (counted.run (new, ⟨[], []⟩) ops).2

/-- Every run keeps the workspaces coherent, but for what it has left behind:
windows whose workspace was pruned under them, and outputs a reconnect left
with too few workspaces. -/
theorem run_coherent (ops : List Op) :
    (machine.run new ops).Coherent (leftovers ops).loose (leftovers ops).short := by
  have hreached : counted.Reachable (counted.run (new, ⟨[], []⟩) ops) :=
    (Machine.Reachable.initial rfl).run ops
  have hcoherent := counted_coherent hreached
  rwa [counted_run] at hcoherent

/-- A workspace is pruned under its only window, a sticky one. -/
def strandingRun : List Op :=
  [.ensureOutput "left", .assign ⟨1, 1, "created"⟩ "left" "ws-1" false,
    .assign ⟨2, 1, "created"⟩ "left" "ws-2" false, .cleanup "left" ["ws-2"] [] ∅,
    .cleanup "left" ["ws-2"] [] ((∅ : BTreeSet WindowKey).insert ⟨1, 1, "created"⟩)]

/-- The survivor's own empty workspace is pruned while it has the displaced
ones. -/
def shorteningRun : List Op :=
  [.ensureOutput "left", .ensureOutput "right", .displaceOutputTo "left" "right",
    .cleanup "right" ["ws-3"] [] ∅, .reconnectOutput "left"]

/-- Some runs leave a window or an output behind. -/
theorem run_leaves_behind : ¬(machine.run new strandingRun).Coherent [] [] ∧
    ¬(machine.run new shorteningRun).Coherent [] [] := by
  constructor
  · intro h
    have hloc : (machine.run new strandingRun).membership[(⟨1, 1, "created"⟩ : WindowKey)]? =
        some ⟨"left", "ws-1", false⟩ := by decide +kernel
    obtain ⟨state, entry, hstate, hentry, hid, -⟩ := h.located hloc List.not_mem_nil
    have hids : (machine.run new strandingRun).outputs["left"]?.map OutputState.ids =
        some ["ws-2", "ws-3"] := by decide +kernel
    rw [hstate] at hids
    have hmem : entry.id ∈ state.ids := List.mem_map_of_mem hentry
    rw [Option.some.inj hids, hid] at hmem
    exact absurd hmem (by decide)
  · intro h
    have hids : (machine.run new shorteningRun).outputs["right"]?.map OutputState.ids =
        some ["ws-3"] := by decide +kernel
    obtain ⟨state, hstate, hone⟩ := Option.map_eq_some_iff.mp hids
    have hfilled := h.filled hstate List.not_mem_nil
    rw [← List.length_map (f := WorkspaceEntry.id)] at hfilled
    change 2 ≤ state.ids.length at hfilled
    rw [hone] at hfilled
    exact absurd hfilled (by decide)

end

end ManagedWorkspaces

end PlasmaTiler
