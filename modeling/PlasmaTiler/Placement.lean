import Mathlib.Data.List.Nodup
import Std.Data.String.ToNat
import PlasmaTiler.Boards
import PlasmaTiler.ManagedWorkspaces

/-!
# Where windows are placed

Every operation of the managed workspaces, read off the outputs and the
locations it leaves, is one of the moves a board in order allows: items at
the end of a line, items taken away, items moved to another place, one member
written. The workspaces of an output are the items of a line, and where a
window is recorded is the second record of the members.

So there is no induction over windows or workspaces in these proofs. Each
part of an operation gets a lemma that says which move it is, and the move
keeps the board in order; most operations are made of two or three parts. To
this `Sound` adds what the board does not speak about: every output shows one
of its workspaces and has enough of them, and a displaced output is not
there.

Two things are carried along that an operation may leave wrong by design,
windows whose workspace was pruned under them and outputs that came back
short. They are parameters of `Sound`, so that a step lemma says what happens
to them as well.
-/

namespace PlasmaTiler

/-! ## Names -/

theorem workspaceName_inj {k n : Nat} :
    ManagedWorkspaces.workspaceName k = ManagedWorkspaces.workspaceName n ↔ k = n := by
  simp only [ManagedWorkspaces.workspaceName, String.append_right_inj]
  exact Nat.repr_inj

/-! ## The board -/

def WorkspaceEntry.slot (entry : WorkspaceEntry) : Slot String WindowKey :=
  (entry.id, {w | w ∈ entry.members})

def OutputState.slots (state : OutputState) : List (Slot String WindowKey) :=
  state.order.map WorkspaceEntry.slot

theorem OutputState.slots_fst (state : OutputState) : state.slots.map Prod.fst = state.ids := by
  rw [OutputState.slots, OutputState.ids, List.map_map]
  rfl

namespace ManagedWorkspaces

/-- The workspaces of each output, where each window is recorded, and the ids
handed out so far. -/
def board (m : ManagedWorkspaces) : Board String String WindowKey where
  line output := m.outputs[output]?.map OutputState.slots
  place w := m.membership[w]?.map fun loc => (loc.output, loc.workspace)
  named id := ∃ k, k ≤ m.nextWs ∧ id = workspaceName k

section
variable {m m' : ManagedWorkspaces} {key output id current A B : String} {q : String}
  {state : OutputState} {w : WindowKey}

theorem board_congr (houtputs : m'.outputs = m.outputs) (hmembership : m'.membership = m.membership)
    (hnext : m'.nextWs = m.nextWs) : m'.board = m.board := by
  rw [board, board, houtputs, hmembership, hnext]

theorem board_line : m.board.line output = m.outputs[output]?.map OutputState.slots := rfl

theorem board_place :
    m.board.place w = m.membership[w]?.map fun loc => (loc.output, loc.workspace) := rfl

theorem board_eq (hline : ∀ q, m'.board.line q = m.board.line q)
    (hplace : ∀ w, m'.board.place w = m.board.place w) (hnext : m'.nextWs = m.nextWs) :
    m'.board = m.board := by
  have hnamed : m'.board.named = m.board.named := by
    rw [board, board, hnext]
  change Board.mk m'.board.line m'.board.place m'.board.named = _
  rw [funext hline, funext hplace, hnamed]

theorem stands_iff {s : Slot String WindowKey} : m.board.Stands output s ↔
    ∃ state, m.outputs[output]? = some state ∧ ∃ entry ∈ state.order, entry.slot = s := by
  constructor
  · rintro ⟨l, hl, hs⟩
    obtain ⟨state, hstate, rfl⟩ := Option.map_eq_some_iff.mp hl
    exact ⟨state, hstate, List.mem_map.mp hs⟩
  · rintro ⟨state, hstate, hentry⟩
    refine ⟨state.slots, ?_, List.mem_map.mpr hentry⟩
    rw [board_line, hstate]
    rfl

/-! ## What the parts of an operation leave alone -/

@[simp] theorem seedMode_outputs : (m.seedMode id).outputs = m.outputs := rfl
@[simp] theorem seedMode_membership : (m.seedMode id).membership = m.membership := rfl
@[simp] theorem seedMode_nextWs : (m.seedMode id).nextWs = m.nextWs := rfl
@[simp] theorem seedMode_displaced : (m.seedMode id).displaced = m.displaced := rfl

@[simp] theorem discardOutputHistory_outputs :
    (m.discardOutputHistory output).outputs = m.outputs := rfl
@[simp] theorem discardOutputHistory_membership :
    (m.discardOutputHistory output).membership = m.membership := rfl
@[simp] theorem discardOutputHistory_nextWs :
    (m.discardOutputHistory output).nextWs = m.nextWs := rfl
@[simp] theorem discardOutputHistory_displaced :
    (m.discardOutputHistory output).displaced = m.displaced := rfl

@[simp] theorem validateHistory_outputs : (m.validateHistory output).outputs = m.outputs := by
  unfold validateHistory
  split <;> rfl
@[simp] theorem validateHistory_membership :
    (m.validateHistory output).membership = m.membership := by
  unfold validateHistory
  split <;> rfl
@[simp] theorem validateHistory_nextWs : (m.validateHistory output).nextWs = m.nextWs := by
  unfold validateHistory
  split <;> rfl
@[simp] theorem validateHistory_displaced :
    (m.validateHistory output).displaced = m.displaced := by
  unfold validateHistory
  split <;> rfl

theorem seedAll_frame (ids : List String) : (m.seedAll ids).outputs = m.outputs ∧
    (m.seedAll ids).membership = m.membership ∧ (m.seedAll ids).nextWs = m.nextWs ∧
      (m.seedAll ids).displaced = m.displaced := by
  induction ids generalizing m with
  | nil => exact ⟨rfl, rfl, rfl, rfl⟩
  | cons id ids ih => exact ih

@[simp] theorem seedAll_outputs {ids : List String} : (m.seedAll ids).outputs = m.outputs :=
  (seedAll_frame ids).1
@[simp] theorem seedAll_membership {ids : List String} :
    (m.seedAll ids).membership = m.membership := (seedAll_frame ids).2.1
@[simp] theorem seedAll_nextWs {ids : List String} : (m.seedAll ids).nextWs = m.nextWs :=
  (seedAll_frame ids).2.2.1
@[simp] theorem seedAll_displaced {ids : List String} : (m.seedAll ids).displaced = m.displaced :=
  (seedAll_frame ids).2.2.2

theorem setOutput_lookup : (m.setOutput key state).outputs[q]? =
    if key = q then some state else m.outputs[q]? := lookup_insert

/-- The ids in minting order, from the next one. -/
def minted (next n : Nat) : List WorkspaceEntry :=
  (List.range n).map fun k => newEntry (next + 1 + k)

theorem mintEntries_spec (n : Nat) : (m.mintEntries n).2 = minted m.nextWs n ∧
    (m.mintEntries n).1.outputs = m.outputs ∧ (m.mintEntries n).1.membership = m.membership ∧
      (m.mintEntries n).1.displaced = m.displaced ∧ (m.mintEntries n).1.nextWs = m.nextWs + n ∧
        (m.mintEntries n).1.nextOutput = m.nextOutput := by
  induction n generalizing m with
  | zero => exact ⟨rfl, rfl, rfl, rfl, rfl, rfl⟩
  | succ n ih =>
    let m₁ := { m with nextWs := m.nextWs + 1 }.seedMode (newEntry (m.nextWs + 1)).id
    have hstep : m.mintEntries (n + 1) =
        ((m₁.mintEntries n).1, newEntry (m.nextWs + 1) :: (m₁.mintEntries n).2) := rfl
    obtain ⟨hentries, houtputs, hmembership, hdisplaced, hnext, hout⟩ := ih (m := m₁)
    rw [hstep]
    refine ⟨?_, houtputs, hmembership, hdisplaced, ?_, hout⟩
    · rw [hentries, minted, minted, List.range_succ_eq_map, List.map_cons, List.map_map]
      refine congrArg₂ List.cons rfl (List.map_congr_left fun k _ => ?_)
      change newEntry (m.nextWs + 1 + 1 + k) = newEntry (m.nextWs + 1 + (k + 1))
      congr 1
      omega
    · rw [hnext]
      change m.nextWs + 1 + n = m.nextWs + (n + 1)
      omega

end

end ManagedWorkspaces

/-! ## Sound states -/

/-- The active index names a workspace, unless there is none. -/
def OutputState.Shown (state : OutputState) : Prop :=
  state.active < state.order.length ∨ (state.order = [] ∧ state.active = 0)

/-- More workspaces behind leave the active one where it is. -/
theorem OutputState.Shown.append {state : OutputState} (h : state.Shown)
    (more : List WorkspaceEntry) : { state with order := state.order ++ more }.Shown := by
  rcases h with hlt | ⟨hnil, hzero⟩
  · refine .inl ?_
    rw [List.length_append]
    exact Nat.lt_add_right _ hlt
  · cases more with
    | nil => exact .inr ⟨by rw [hnil]; rfl, hzero⟩
    | cons entry more =>
      refine .inl ?_
      rw [hzero, List.length_append]
      exact Nat.lt_of_lt_of_le (Nat.succ_pos _) (Nat.le_add_left _ _)

namespace ManagedWorkspaces

/-- The board is in order, every output shows a workspace and has enough of
them unless it is short, and a displaced output is not its own holder. -/
structure Sound (m : ManagedWorkspaces) (loose : WindowKey → Prop) (short : String → Prop) :
    Prop where
  board : m.board.InOrder loose
  shown : ∀ {output : String} {state : OutputState}, m.outputs[output]? = some state → state.Shown
  filled : ∀ {output : String} {state : OutputState}, m.outputs[output]? = some state → ¬short output →
    WorkspacePolicy.minWorkspaces ≤ state.order.length
  away : ∀ {origin : String} {record : DisplacedRecord}, m.displaced[origin]? = some record → record.destKey ≠ origin

section
variable {m m' : ManagedWorkspaces} {key output id : String} {state state' : OutputState}
  {loose loose' : WindowKey → Prop} {short short' : String → Prop} {w : WindowKey} {n : Nat}

theorem Sound.congr (h : m.Sound loose short) (houtputs : m'.outputs = m.outputs)
    (hmembership : m'.membership = m.membership) (hnext : m'.nextWs = m.nextWs)
    (hdisplaced : m'.displaced = m.displaced) : m'.Sound loose short where
  board := by
    rw [board_congr houtputs hmembership hnext]
    exact h.board
  shown := by
    rw [houtputs]
    exact h.shown
  filled := by
    rw [houtputs]
    exact h.filled
  away := by
    rw [hdisplaced]
    exact h.away

/-- One output rewritten: what is left to show is about its own state. -/
theorem Sound.rewrite (h : m.Sound loose short) (hboard : m'.board.InOrder loose')
    (hlookup : ∀ q : String, m'.outputs[q]? = if key = q then some state else m.outputs[q]?)
    (hdisplaced : m'.displaced = m.displaced) (hshown : state.Shown)
    (hfilled : ¬short' key → WorkspacePolicy.minWorkspaces ≤ state.order.length)
    (hshort : ∀ o, o ≠ key → short o → short' o) : m'.Sound loose' short' where
  board := hboard
  shown {output state'} hstate := by
    rw [hlookup] at hstate
    split at hstate
    · cases hstate
      exact hshown
    · exact h.shown hstate
  filled {output state'} hstate hnot := by
    rw [hlookup] at hstate
    split at hstate
    · rename_i heq
      subst heq
      cases hstate
      exact hfilled hnot
    · rename_i hne
      exact h.filled hstate fun hs => hnot (hshort _ (Ne.symm hne) hs)
  away := by
    rw [hdisplaced]
    exact h.away

/-! ## Workspaces created -/

/-- Minted workspaces at the end of an output's list. -/
theorem grown_of_minted
    (hlookup : ∀ q : String, m'.outputs[q]? = if key = q then some state else m.outputs[q]?)
    (horder : state.order = (m.outputs[key]?.map OutputState.order).getD [] ++ minted m.nextWs n)
    (hmembership : m'.membership = m.membership) (hnext : m'.nextWs = m.nextWs + n) :
    Board.Grown m.board m'.board key ((minted m.nextWs n).map WorkspaceEntry.slot) where
  line q := by
    rw [board_line, hlookup]
    by_cases hq : key = q
    · subst hq
      rw [if_pos rfl, if_pos rfl, Option.map_some, OutputState.slots, horder, List.map_append,
        board_line]
      cases m.outputs[key]? <;> rfl
    · rw [if_neg hq, if_neg (Ne.symm hq), board_line]
  place := by
    funext w
    rw [board_place, board_place, hmembership]
  named := by
    rintro i ⟨k, hk, rfl⟩
    exact ⟨k, by omega, rfl⟩
  new := by
    intro s hs
    obtain ⟨entry, hentry, rfl⟩ := List.mem_map.mp hs
    obtain ⟨k, hk, rfl⟩ := List.mem_map.mp hentry
    rw [List.mem_range] at hk
    refine ⟨?_, ⟨m.nextWs + 1 + k, by omega, rfl⟩, ?_⟩
    · rintro ⟨k', hk', hname⟩
      have heq := workspaceName_inj.mp hname
      omega
    · ext w
      change w ∈ (∅ : BTreeSet WindowKey) ↔ False
      simp
  nodup := by
    rw [List.map_map, minted, List.map_map]
    refine List.Nodup.map_on ?_ List.nodup_range
    intro k _ k' _ hname
    have heq := workspaceName_inj.mp hname
    omega

theorem Sound.grow (h : m.Sound loose short) (key : String) (state : OutputState) (n : Nat)
    (hlookup : ∀ q : String, m'.outputs[q]? = if key = q then some state else m.outputs[q]?)
    (horder : state.order = (m.outputs[key]?.map OutputState.order).getD [] ++ minted m.nextWs n)
    (hmembership : m'.membership = m.membership) (hnext : m'.nextWs = m.nextWs + n)
    (hdisplaced : m'.displaced = m.displaced) (hshown : state.Shown)
    (hfilled : ¬short key → WorkspacePolicy.minWorkspaces ≤ state.order.length) :
    m'.Sound loose short :=
  h.rewrite ((grown_of_minted hlookup horder hmembership hnext).inOrder h.board) hlookup hdisplaced
    hshown hfilled fun _ _ hs => hs

theorem Sound.ensureOutput (h : m.Sound loose short) (key : String) :
    (m.ensureOutput key).Sound loose short := by
  unfold ManagedWorkspaces.ensureOutput
  split
  · exact h
  · rename_i hcontains
    have hnone : m.outputs[key]? = none := by
      rw [Bool.not_eq_true, contains_eq_false] at hcontains
      exact Std.ExtTreeMap.getElem?_eq_none hcontains
    obtain ⟨hentries, houtputs, hmembership, hdisplaced, hnext, -⟩ :=
      mintEntries_spec (m := { m with nextOutput := m.nextOutput + 1 }) WorkspacePolicy.minWorkspaces
    generalize { m with nextOutput := m.nextOutput + 1 }.mintEntries WorkspacePolicy.minWorkspaces =
      minting at hentries houtputs hmembership hdisplaced hnext
    obtain ⟨m₁, order⟩ := minting
    dsimp only at hentries houtputs hmembership hdisplaced hnext ⊢
    subst hentries
    let state := newOutput key m₁.nextOutput (minted m.nextWs WorkspacePolicy.minWorkspaces)
    have hgrown : (m₁.setOutput key state).Sound loose short := by
      refine h.grow key state WorkspacePolicy.minWorkspaces (fun q => ?_) ?_ hmembership hnext
        hdisplaced ?_ fun _ => ?_
      · rw [setOutput_lookup, houtputs]
      · rw [hnone]
        rfl
      · exact .inl (by decide : 0 < 2)
      · exact Nat.le_refl 2
    split
    · exact hgrown.congr rfl rfl rfl rfl
    · exact hgrown

/-- The trailing workspace is the last one there is, or a new one. -/
theorem trailing_spec {created : Bool} (h : m.trailing output = some (m', state', id, created)) :
    ∃ state n, m.outputs[output]? = some state ∧ state'.order = state.order ++ minted m.nextWs n ∧
      state'.active = state.active ∧ state.order ≠ [] ∧ m'.outputs = m.outputs ∧
        m'.membership = m.membership ∧ m'.displaced = m.displaced ∧ m'.nextWs = m.nextWs + n := by
  obtain ⟨state, hstate, h⟩ := Option.bind_eq_some_iff.mp h
  obtain ⟨last, hlast, h⟩ := Option.map_eq_some_iff.mp h
  have hne : state.order ≠ [] := by
    rintro hnil
    rw [hnil] at hlast
    cases hlast
  split at h
  · cases h
    exact ⟨_, 0, hstate, (List.append_nil _).symm, rfl, hne, rfl, rfl, rfl, rfl⟩
  · cases h
    exact ⟨_, 1, hstate, rfl, rfl, hne, rfl, rfl, rfl, rfl⟩

theorem Sound.trailing {created : Bool} {active : Nat} (h : m.Sound loose short)
    (htrailing : m.trailing output = some (m', state', id, created))
    (hactive : active = state'.active ∨ active = state'.order.length - 1) :
    (m'.setOutput output { state' with active }).Sound loose short := by
  obtain ⟨state, n, hstate, horder, hsame, hne, houtputs, hmembership, hdisplaced, hnext⟩ :=
    trailing_spec htrailing
  have hlength : state'.order.length = state.order.length + n := by
    rw [horder, List.length_append, minted, List.length_map, List.length_range]
  have hpos : 0 < state.order.length := List.length_pos_of_ne_nil hne
  refine h.grow output { state' with active } n (fun q => ?_) ?_ hmembership hnext hdisplaced
    (.inl ?_) fun hshort => ?_
  · rw [setOutput_lookup, houtputs]
  · rw [hstate]
    exact horder
  · change active < state'.order.length
    rcases hactive with rfl | rfl
    · rcases h.shown hstate with hlt | ⟨hnil, -⟩
      · omega
      · exact absurd hnil hne
    · omega
  · have hfilled := h.filled hstate hshort
    change _ ≤ state'.order.length
    omega

theorem Sound.selectTrailing (h : m.Sound loose short) (output : String) :
    (m.selectTrailing output).1.Sound loose short := by
  unfold ManagedWorkspaces.selectTrailing
  split
  · exact h
  · exact h.trailing ‹_› (.inr rfl)

theorem Sound.resolveSendTrailing (h : m.Sound loose short) (output : String) :
    (m.resolveSendTrailing output).1.Sound loose short := by
  unfold ManagedWorkspaces.resolveSendTrailing
  split
  · exact h
  · exact h.trailing ‹_› (.inl rfl)

/-! ## Views -/

theorem Sound.reactivate (h : m.Sound loose short) (hstate : m.outputs[output]? = some state)
    (hn : n < state.order.length) :
    (m.setOutput output { state with active := n }).Sound loose short := by
  refine h.grow output { state with active := n } 0 (fun q => setOutput_lookup) ?_ rfl rfl rfl
    (.inl hn) fun hshort => @filled _ _ _ h _ state hstate hshort
  rw [hstate]
  exact (List.append_nil _).symm

theorem Sound.select (h : m.Sound loose short) (output : String) (index : Nat) :
    (m.select output index).1.Sound loose short := by
  unfold ManagedWorkspaces.select
  split
  · exact h
  · split
    · exact h
    · rename_i state hstate _ n hn
      refine h.reactivate hstate ?_
      simp only [WorkspacePolicy.selectExisting, Option.ite_none_right_eq_some, Option.some.injEq]
        at hn
      omega

theorem Sound.activate (h : m.Sound loose short) (output workspace : String) :
    (m.activate output workspace).1.Sound loose short := by
  unfold ManagedWorkspaces.activate
  split
  · exact h
  · split
    · exact h
    · rename_i state hstate _ n hn
      refine h.reactivate hstate ?_
      obtain ⟨hlt, -⟩ := List.findIdx?_eq_some_iff_getElem.mp hn
      rwa [OutputState.ids, List.length_map] at hlt

theorem Sound.observeWorkspaceChange (h : m.Sound loose short) (output current : String) :
    (m.observeWorkspaceChange output current).1.Sound loose short := by
  refine h.congr ?_ ?_ ?_ ?_ <;> unfold ManagedWorkspaces.observeWorkspaceChange <;>
    (repeat' split) <;> simp

/-! ## Members -/

theorem Sound.ids_nodup (h : m.Sound loose short) (hstate : m.outputs[output]? = some state) :
    state.ids.Nodup := by
  rw [← OutputState.slots_fst]
  exact h.board.nodup (p := output) (by rw [board_line, hstate]; rfl)

/-- A workspace is in one output. -/
theorem Sound.unique {output' : String} (h : m.Sound loose short)
    (hstate : m.outputs[output]? = some state) (hstate' : m.outputs[output']? = some state')
    (hid : id ∈ state.ids) (hid' : id ∈ state'.ids) : output = output' := by
  obtain ⟨entry, hentry, rfl⟩ := List.mem_map.mp hid
  obtain ⟨entry', hentry', heq⟩ := List.mem_map.mp hid'
  exact h.board.apart (stands_iff.mpr ⟨state, hstate, entry, hentry, rfl⟩)
    (stands_iff.mpr ⟨state', hstate', entry', hentry', rfl⟩) heq.symm

theorem modifyFirst_eq_map {f : WorkspaceEntry → WorkspaceEntry}
    {order : List WorkspaceEntry} (h : (order.map WorkspaceEntry.id).Nodup) :
    modifyFirst id f order = order.map fun entry => if entry.id = id then f entry else entry := by
  induction order with
  | nil => rfl
  | cons entry order ih =>
    rw [List.map_cons, List.nodup_cons] at h
    rw [modifyFirst, List.map_cons]
    split
    · rename_i heq
      congr 1
      conv_lhs => rw [← List.map_id order]
      refine List.map_congr_left fun other hother => ?_
      rw [if_neg]
      · rfl
      · intro heq'
        rw [heq, ← heq'] at h
        exact h.1 (List.mem_map_of_mem hother)
    · rw [ih h.2]

theorem mapEntries_lookup {f : WorkspaceEntry → WorkspaceEntry} {q : String} :
    (m.mapEntries f).outputs[q]? =
      m.outputs[q]?.map fun state => { state with order := state.order.map f } :=
  Std.ExtTreeMap.getElem?_map

/-- Every entry changed by a function of its output that keeps the ids. -/
theorem Sound.relabel {g : String → WorkspaceEntry → WorkspaceEntry} (h : m.Sound loose short)
    (hlookup : ∀ q : String, m'.outputs[q]? =
      m.outputs[q]?.map fun state => { state with order := state.order.map (g q) })
    (hboard : m'.board.InOrder loose') (hdisplaced : m'.displaced = m.displaced) :
    m'.Sound loose' short where
  board := hboard
  shown {output state} hstate := by
    rw [hlookup] at hstate
    obtain ⟨before, hbefore, rfl⟩ := Option.map_eq_some_iff.mp hstate
    rcases h.shown hbefore with hlt | ⟨hnil, hzero⟩
    · exact .inl (by rw [List.length_map]; exact hlt)
    · exact .inr ⟨by rw [hnil]; rfl, hzero⟩
  filled {output state} hstate hshort := by
    rw [hlookup] at hstate
    obtain ⟨before, hbefore, rfl⟩ := Option.map_eq_some_iff.mp hstate
    rw [List.length_map]
    exact h.filled hbefore hshort
  away := by
    rw [hdisplaced]
    exact h.away

theorem modifyEntry_lookup {f : WorkspaceEntry → WorkspaceEntry}
    (h : ∀ {state}, m.outputs[output]? = some state → state.ids.Nodup) {q : String} : (m.modifyEntry output id f).outputs[q]? =
      m.outputs[q]?.map fun state => { state with order := state.order.map fun entry =>
        if q = output ∧ entry.id = id then (f entry) else entry } := by
  unfold modifyEntry
  split
  · rename_i hnone
    cases hq : m.outputs[q]? with
    | none => rfl
    | some state =>
      have hne : q ≠ output := by
        rintro rfl
        rw [hq] at hnone
        cases hnone
      simp [hne]
  · rename_i state hstate
    rw [setOutput_lookup]
    split
    · rename_i heq
      subst heq
      rw [hstate, Option.map_some, modifyFirst_eq_map (h hstate)]
      simp
    · rename_i hne
      cases hq : m.outputs[q]? with
      | none => rfl
      | some state => simp [Ne.symm hne]

/-- A window written into one entry, or into none. -/
theorem written_of_lookup {g : String → WorkspaceEntry → WorkspaceEntry}
    {home : Option (String × String)}
    (hlookup : ∀ q : String, m'.outputs[q]? =
      m.outputs[q]?.map fun state => { state with order := state.order.map (g q) })
    (hslot : ∀ q entry, (g q entry).slot = Board.rewrite w home q entry.slot)
    (hgone : m'.board.place w = home)
    (hothers : ∀ v, v ≠ w → m'.membership[v]? = m.membership[v]?)
    (hnext : m'.nextWs = m.nextWs)
    (hstands : ∀ {p i}, home = some (p, i) → ∃ s, m.board.Stands p s ∧ s.1 = i) :
    Board.Written m.board m'.board w home where
  line q := by
    rw [board_line, board_line, hlookup, Option.map_map, Option.map_map]
    congr 1
    funext state
    change (state.order.map (g q)).map _ = (state.order.map _).map _
    rw [List.map_map, List.map_map]
    exact List.map_congr_left fun entry _ => hslot q entry
  gone := hgone
  others v hv := by rw [board_place, board_place, hothers v hv]
  named := by
    rw [board, board, hnext]
  stands := hstands

theorem Sound.removeWindow (h : m.Sound loose short) (window : WindowKey) :
    (m.removeWindow window).Sound (fun w => loose w ∧ w ≠ window) short := by
  let g : String → WorkspaceEntry → WorkspaceEntry := fun _ entry =>
    { entry with
      members := entry.members.erase window
      lastFocus := if entry.lastFocus = some window then none else entry.lastFocus }
  have hlookup : ∀ q : String, (m.removeWindow window).outputs[q]? =
      m.outputs[q]?.map fun state => { state with order := state.order.map (g q) } := fun q =>
    mapEntries_lookup
  refine h.relabel hlookup (@Board.Written.inOrder _ _ _ _ _ _ window none _
    (written_of_lookup hlookup (fun q entry => ?_) ?_ (fun v hv => ?_) rfl ?_) h.board ?_) rfl
  · refine Prod.ext rfl ?_
    ext v
    change v ∈ entry.members.erase window ↔ _
    rw [mem_set_erase]
    simp [Board.rewrite, WorkspaceEntry.slot, eq_comm]
  · change (m.membership.erase window)[window]?.map _ = none
    rw [lookup_erase, if_pos rfl]
    rfl
  · change (m.membership.erase window)[v]? = _
    rw [lookup_erase, if_neg (Ne.symm hv)]
  · rintro p i ⟨⟩
  · exact fun v hne hv => ⟨hv, hne⟩

theorem Sound.mapEntries_nodup {f : WorkspaceEntry → WorkspaceEntry} (h : m.Sound loose short)
    (hstate : (m.mapEntries f).outputs[output]? = some state) (hid : ∀ entry, (f entry).id = entry.id) :
    state.ids.Nodup := by
  rw [mapEntries_lookup] at hstate
  obtain ⟨before, hbefore, rfl⟩ := Option.map_eq_some_iff.mp hstate
  have hnodup := h.ids_nodup hbefore
  have hids : (before.order.map f).map WorkspaceEntry.id = before.ids := by
    rw [List.map_map]
    exact List.map_congr_left fun entry _ => hid entry
  rw [OutputState.ids, hids]
  exact hnodup

@[simp] theorem modifyEntry_membership {f : WorkspaceEntry → WorkspaceEntry} :
    (m.modifyEntry output id f).membership = m.membership := by
  unfold modifyEntry
  split <;> rfl
@[simp] theorem modifyEntry_nextWs {f : WorkspaceEntry → WorkspaceEntry} :
    (m.modifyEntry output id f).nextWs = m.nextWs := by
  unfold modifyEntry
  split <;> rfl
@[simp] theorem modifyEntry_displaced {f : WorkspaceEntry → WorkspaceEntry} :
    (m.modifyEntry output id f).displaced = m.displaced := by
  unfold modifyEntry
  split <;> rfl

theorem Sound.assign_of (h : m.Sound loose short) {window : WindowKey} {workspace : String}
    {hidden : Bool} (hknown : m.outputs[output]?.any (·.ids.contains workspace) = true) :
    (m.assign window output workspace hidden).1.Sound (fun w => loose w ∧ w ≠ window) short := by
  let g : String → WorkspaceEntry → WorkspaceEntry := fun q entry =>
    if q = output ∧ entry.id = workspace then
      { entry with members := (entry.members.erase window).insert window }
    else { entry with members := entry.members.erase window }
  let left := m.mapEntries fun entry => { entry with members := entry.members.erase window }
  let joined := left.modifyEntry output workspace fun entry =>
    { entry with members := entry.members.insert window }
  let m' : ManagedWorkspaces :=
    { joined with membership := joined.membership.insert window ⟨output, workspace, hidden⟩ }
  have hassign : (m.assign window output workspace hidden).1 = m' := by
    rw [assign, if_pos hknown]
  have hlookup : ∀ q : String, m'.outputs[q]? =
      m.outputs[q]?.map fun state => { state with order := state.order.map (g q) } := by
    intro q
    have hnodup : ∀ {state}, left.outputs[output]? = some state → state.ids.Nodup :=
      fun hstate => h.mapEntries_nodup hstate fun _ => rfl
    have hmodified : joined.outputs[q]? = _ := modifyEntry_lookup hnodup
    have hleft : left.outputs[q]? = _ := mapEntries_lookup
    change joined.outputs[q]? = _
    rw [hmodified, hleft, Option.map_map]
    congr 1
    funext state
    simp only [Function.comp_apply, List.map_map, g]
    congr 1
  have hmembership : ∀ v : WindowKey, m'.membership[v]? =
      if window = v then some ⟨output, workspace, hidden⟩ else m.membership[v]? := by
    intro v
    change (joined.membership.insert window _)[v]? = _
    rw [lookup_insert, modifyEntry_membership]
    rfl
  have hstands : ∃ s, m.board.Stands output s ∧ s.1 = workspace := by
    obtain ⟨state, hstate, hmem⟩ := (Option.any_eq_true _ _).mp hknown
    obtain ⟨entry, hentry, rfl⟩ := List.mem_map.mp (List.contains_iff_mem.mp hmem)
    exact ⟨entry.slot, stands_iff.mpr ⟨state, hstate, entry, hentry, rfl⟩, rfl⟩
  have hwritten : Board.Written m.board m'.board window (some (output, workspace)) := by
    refine written_of_lookup hlookup (fun q entry => Prod.ext ?_ ?_) ?_ (fun v hv => ?_) ?_ ?_
    · change (g q entry).id = entry.id
      simp only [g]
      split <;> rfl
    · ext v
      change v ∈ (g q entry).members ↔
        (v ≠ window ∧ v ∈ entry.members) ∨ (v = window ∧ some (output, workspace) = some (q, entry.id))
      simp only [g]
      split
      · rename_i heq
        rw [mem_set_insert, mem_set_erase, heq.1, heq.2]
        simp only [and_true, eq_comm, ne_eq]
        exact Or.comm
      · rename_i hne
        rw [mem_set_erase]
        have hhome : some (output, workspace) ≠ some (q, entry.id) := by
          rintro heq
          cases heq
          exact hne ⟨rfl, rfl⟩
        simp only [hhome, and_false, or_false, eq_comm, ne_eq]
    · rw [board_place, hmembership, if_pos rfl]
      rfl
    · rw [hmembership, if_neg (Ne.symm hv)]
    · exact modifyEntry_nextWs
    · rintro p i heq
      cases heq
      exact hstands
  rw [hassign]
  refine h.relabel hlookup (hwritten.inOrder h.board fun v hne hv => ⟨hv, hne⟩) ?_
  exact modifyEntry_displaced

theorem Sound.setHidden (h : m.Sound loose short) (window : WindowKey) (hidden : Bool) :
    (m.setHidden window hidden).Sound loose short := by
  unfold ManagedWorkspaces.setHidden
  split
  · rename_i loc hloc
    let m' : ManagedWorkspaces :=
      { m with membership := m.membership.insert window { loc with hidden } }
    have hboard : m'.board = m.board := by
      refine board_eq (fun _ => rfl) (fun w => ?_) rfl
      rw [board_place, board_place, lookup_insert]
      split
      · rename_i heq
        subst heq
        rw [hloc]
        rfl
      · rfl
    refine { board := ?_, shown := h.shown, filled := h.filled, away := h.away }
    rw [hboard]
    exact h.board
  · exact h

theorem Sound.noteForeground (h : m.Sound loose short) (window : WindowKey) :
    (m.noteForeground window).Sound loose short := by
  unfold ManagedWorkspaces.noteForeground
  split
  · rename_i loc hloc
    let g : String → WorkspaceEntry → WorkspaceEntry := fun q entry =>
      if q = loc.output ∧ entry.id = loc.workspace then { entry with lastFocus := some window }
      else entry
    have hlookup : ∀ q : String, (m.modifyEntry loc.output loc.workspace fun entry =>
        { entry with lastFocus := some window }).outputs[q]? =
          m.outputs[q]?.map fun state => { state with order := state.order.map (g q) } := fun q =>
      modifyEntry_lookup h.ids_nodup
    refine h.relabel hlookup ?_ modifyEntry_displaced
    rw [board_eq (m := m) (fun q => ?_) (fun w => ?_) modifyEntry_nextWs]
    · exact h.board
    · rw [board_line, board_line, hlookup, Option.map_map]
      congr 1
      funext state
      change (state.order.map (g q)).map _ = state.order.map _
      rw [List.map_map]
      refine List.map_congr_left fun entry _ => ?_
      simp only [Function.comp_apply, g]
      split <;> rfl
    · rw [board_place, board_place, modifyEntry_membership]
  · exact h

/-! ## Cleanup -/

theorem spare_subset {total i : Nat} {remove : List Nat}
    (h : i ∈ WorkspacePolicy.spare total remove) : i ∈ remove := by
  induction remove with
  | nil => exact h
  | cons j remove ih =>
    rw [WorkspacePolicy.spare] at h
    split at h
    · exact List.mem_cons_of_mem _ (ih h)
    · exact h

/-- What is planned for removal is not occupied. -/
theorem planTrailing_remove {facts : List WorkspacePolicy.WorkspaceFacts} {i : Nat}
    (h : i ∈ (WorkspacePolicy.planTrailing facts).remove) :
    ∃ f, facts[i]? = some f ∧ f.occupied = false := by
  unfold WorkspacePolicy.planTrailing at h
  split at h
  · cases h
  · have hcandidate := (List.mem_filter.mp (spare_subset h)).2
    rw [Bool.and_eq_true] at hcandidate
    obtain ⟨f, hf, hfacts⟩ := (Option.any_eq_true _ _).mp hcandidate.2
    simp only [Bool.and_eq_true, Bool.not_eq_true'] at hfacts
    exact ⟨f, hf, hfacts.1.2⟩

section
variable {visible retained : List String} {sticky : BTreeSet WindowKey}

theorem planCleanup_removed (hstate : m.outputs[output]? = some state)
    (h : id ∈ (m.planCleanupExcluding output visible retained sticky).1) :
    ∃ entry ∈ state.order, entry.id = id ∧
      (m.factsOf output visible retained sticky entry).occupied = false := by
  rw [planCleanupExcluding, hstate] at h
  obtain ⟨i, hi, hid⟩ := List.mem_filterMap.mp h
  obtain ⟨f, hf, hoccupied⟩ := planTrailing_remove hi
  rw [List.getElem?_map] at hf
  obtain ⟨entry, hentry, rfl⟩ := Option.map_eq_some_iff.mp hf
  rw [OutputState.ids, List.getElem?_map, hentry] at hid
  exact ⟨entry, List.mem_of_getElem? hentry, Option.some.inj hid, hoccupied⟩

/-- Windows recorded in a workspace that is not occupied are sticky. -/
theorem sticky_of_unoccupied {entry : WorkspaceEntry}
    (h : (m.factsOf output visible retained sticky entry).occupied = false)
    (hplace : m.board.place w = some (output, entry.id)) : w ∈ sticky := by
  obtain ⟨loc, hloc, heq⟩ := Option.map_eq_some_iff.mp hplace
  obtain ⟨houtput, hworkspace⟩ := Prod.mk.inj heq
  rw [factsOf, Bool.or_eq_false_iff, List.any_eq_false] at h
  have hnot := h.2 (w, loc) (Std.ExtTreeMap.mem_toList_iff_getElem?_eq_some.mpr hloc)
  simpa [houtput, hworkspace] using hnot

theorem Sound.pruneDisplaced (h : m.Sound loose short) : m.pruneDisplaced.Sound loose short where
  board := h.board
  shown := h.shown
  filled := h.filled
  away {origin record} hrecord := by
    rw [ManagedWorkspaces.pruneDisplaced, Std.ExtTreeMap.getElem?_filter',
      Std.ExtTreeMap.getElem?_map, Option.filter_eq_some_iff] at hrecord
    obtain ⟨before, hbefore, rfl⟩ := Option.map_eq_some_iff.mp hrecord.1
    exact (show before.destKey ≠ origin from @away _ _ _ h _ before hbefore)

theorem Sound.mono (h : m.Sound loose short) (hloose : ∀ w, loose w → loose' w)
    (hshort : ∀ o, short o → short' o) : m.Sound loose' short' :=
  { h with
    board := h.board.mono hloose
    filled := fun hstate hnot => h.filled hstate fun hs => hnot (hshort _ hs) }

/-- A sticky window that is recorded in a workspace about to go. Nothing else
keeps it on the output, so its record has to be moved first. -/
def Stranded (m : ManagedWorkspaces) (output : String) (removed : List String)
    (sticky : BTreeSet WindowKey) (w : WindowKey) : Prop :=
  w ∈ sticky ∧ ∃ loc, m.membership[w]? = some loc ∧ loc.output = output ∧ loc.workspace ∈ removed

theorem pruned_of_plan (hstate : m.outputs[output]? = some state) {removed : List String}
    (hremoved : removed = (m.planCleanupExcluding output visible retained sticky).1) :
    Board.Pruned m.board (m.setOutput output { state with
      order := state.order.filter fun entry => !removed.contains entry.id }).board output
        (fun id => !removed.contains id) (m.Stranded output removed sticky) where
  line q := by
    rw [board_line, setOutput_lookup]
    by_cases hq : output = q
    · subst hq
      rw [if_pos rfl, if_pos rfl, board_line, hstate, Option.map_some, Option.map_some,
        Option.map_some, OutputState.slots, OutputState.slots, List.filter_map]
      rfl
    · rw [if_neg hq, if_neg (Ne.symm hq), board_line]
  place := rfl
  named := rfl
  loose {s w} _ hkeep hplace := by
    rw [Bool.not_eq_false', List.contains_iff_mem] at hkeep
    obtain ⟨entry, -, heq, hoccupied⟩ := planCleanup_removed hstate (hremoved ▸ hkeep)
    obtain ⟨loc, hloc, hat⟩ := Option.map_eq_some_iff.mp hplace
    obtain ⟨houtput, hworkspace⟩ := Prod.mk.inj hat
    refine ⟨sticky_of_unoccupied hoccupied (heq ▸ hplace), loc, hloc, houtput, ?_⟩
    rw [hworkspace]
    exact hkeep

theorem Sound.cleanOrder (h : m.Sound loose short) {removed : List String} {append : Bool}
    (hremoved : removed = (m.planCleanupExcluding output visible retained sticky).1) :
    (m.cleanOrder output removed append).Sound (fun w => loose w ∨ m.Stranded output removed sticky w)
      (fun o => short o ∧ o ≠ output) := by
  unfold ManagedWorkspaces.cleanOrder
  split
  · rename_i hnone
    refine { board := h.board.mono fun _ => .inl, shown := h.shown, filled := ?_, away := h.away }
    intro o st hst hnot
    refine h.filled hst fun hshort => hnot ⟨hshort, ?_⟩
    rintro rfl
    rw [hnone] at hst
    cases hst
  · rename_i state hstate
    have hpruned := @pruned_of_plan m output state visible retained sticky
      hstate removed hremoved
    dsimp only
    generalize state.order.filter (fun entry => !removed.contains entry.id) = kept at hpruned ⊢
    generalize hcount : (if append = true then 1 else 0) +
      (WorkspacePolicy.minWorkspaces - (kept.length + if append = true then 1 else 0)) = n
    obtain ⟨hfresh, houtputs, hmembership, hdisplaced, hnext, -⟩ := mintEntries_spec (m := m) n
    generalize m.mintEntries n = minting at hfresh houtputs hmembership hdisplaced hnext ⊢
    obtain ⟨m₁, fresh⟩ := minting
    dsimp only at hfresh houtputs hmembership hdisplaced hnext ⊢
    subst hfresh
    generalize ((m.activeId output).bind fun id => (kept ++ minted m.nextWs n).findIdx? (·.id == id)).getD 0
      = active
    let after : OutputState :=
      { state with
        order := kept ++ minted m.nextWs n
        active := min active ((kept ++ minted m.nextWs n).length - 1) }
    have hlength : WorkspacePolicy.minWorkspaces ≤ after.order.length := by
      change 2 ≤ (kept ++ minted m.nextWs n).length
      rw [List.length_append, minted, List.length_map, List.length_range, ← hcount]
      change 2 ≤ kept.length + (_ + (2 - _))
      omega
    let pruned := m.setOutput output { state with order := kept }
    have hgrown : Board.Grown pruned.board (m₁.setOutput output after).board output
        ((minted m.nextWs n).map WorkspaceEntry.slot) := by
      refine @grown_of_minted pruned _ output after n (fun q => ?_) ?_ hmembership hnext
      · rw [setOutput_lookup, setOutput_lookup, houtputs]
        split <;> rfl
      · rw [setOutput_lookup, if_pos rfl]
        rfl
    have hmono : m.Sound (fun w => loose w ∨ m.Stranded output removed sticky w) short :=
      h.mono (fun _ => .inl) fun _ hs => hs
    have hboard := hgrown.inOrder ((hpruned.mono fun _ => .inr).inOrder hmono.board)
    refine h.rewrite hboard (fun q => ?_) hdisplaced (.inl ?_) (fun _ => hlength) fun o hne hs =>
      ⟨hs, hne⟩
    · rw [setOutput_lookup, houtputs]
    · change min active ((kept ++ minted m.nextWs n).length - 1) <
        (kept ++ minted m.nextWs n).length
      have : 2 ≤ (kept ++ minted m.nextWs n).length := hlength
      omega

theorem Sound.cleanup (h : m.Sound loose short) :
    (m.cleanup output visible retained sticky).Sound
      (fun w => loose w ∨ m.Stranded output
        (m.planCleanupExcluding output visible retained sticky).1 sticky w)
      (fun o => short o ∧ o ≠ output) := by
  have hclean : (m.cleanOrder output (m.planCleanupExcluding output visible retained sticky).1
      (m.planCleanupExcluding output visible retained sticky).2).Sound _ _ :=
    h.cleanOrder (rfl : _ = (m.planCleanupExcluding output visible retained sticky).1)
  have hmodes : (m.cleanOrder output _ _).pruneModes.Sound _ _ := hclean.congr rfl rfl rfl rfl
  exact hmodes.pruneDisplaced.congr validateHistory_outputs validateHistory_membership
    validateHistory_nextWs validateHistory_displaced

end

/-! ## Outputs unplugged -/

section
variable {origin dest : String} {destState : OutputState} {ids : List String}

theorem rehome_lookup : (m.rehome origin dest ids).membership[w]? = m.membership[w]?.map fun loc =>
    if loc.output = origin ∧ ids.contains loc.workspace then { loc with output := dest } else loc :=
  Std.ExtTreeMap.getElem?_map

theorem rehome_place (hmembership : m'.membership = (m.rehome origin dest ids).membership) :
    m'.board.place w = (m.board.place w).map fun at' =>
      if at'.1 = origin ∧ ids.contains at'.2 = true then (dest, at'.2) else at' := by
  rw [board_place, board_place, hmembership, rehome_lookup, Option.map_map, Option.map_map]
  congr 1
  funext loc
  simp only [Function.comp_apply]
  split <;> rfl

/-- All workspaces of one output are moved behind those of another, and the
windows with them: what the displacement writes, seen on the board. -/
theorem moved_of_displaced (hstate : m.outputs[origin]? = some state)
    (hdest : m.outputs[dest]? = some destState) (hne : origin ≠ dest)
    (hlookup : ∀ q : String, m'.outputs[q]? =
      if dest = q then some { destState with order := destState.order ++ state.order }
      else if origin = q then none else m.outputs[q]?)
    (hplace : ∀ w, m'.board.place w = (m.board.place w).map fun at' =>
      if at'.1 = origin ∧ state.ids.contains at'.2 = true then (dest, at'.2) else at')
    (hnext : m'.nextWs = m.nextWs) :
    Board.Moved m.board m'.board origin dest (state.ids.contains ·) := by
  have hmem : ∀ s ∈ state.slots, state.ids.contains s.1 = true := by
    intro s hs
    rw [List.contains_iff_mem, ← OutputState.slots_fst]
    exact List.mem_map_of_mem hs
  have hgone : m'.board.line origin = none := by
    rw [board_line, hlookup, if_neg (Ne.symm hne), if_pos rfl]
    rfl
  refine { source := ?_, rest := ?_, target := ?_, other := ?_, away := hne, place := hplace,
           named := ?_ }
  · intro s
    constructor
    · rintro ⟨l, hl, -⟩
      rw [hgone] at hl
      cases hl
    · rintro ⟨⟨l, hl, hs⟩, hnot⟩
      rw [board_line, hstate] at hl
      cases hl
      rw [hmem s hs] at hnot
      cases hnot
  · intro l hl
    rw [hgone] at hl
    cases hl
  · rw [board_line, board_line, board_line, hlookup, if_pos rfl, hdest, hstate]
    change some ((destState.order ++ state.order).map _) =
      some (destState.slots ++ state.slots.filter _)
    rw [List.map_append, List.filter_eq_self.mpr hmem]
    rfl
  · intro q hsrc hdst
    rw [board_line, board_line, hlookup, if_neg (Ne.symm hdst), if_neg (Ne.symm hsrc)]
  · rw [board, board, hnext]

theorem Sound.displaced_of (h : m.Sound loose short) (hstate : m.outputs[origin]? = some state)
    (hdest : m.outputs[dest]? = some destState) (hne : origin ≠ dest)
    (hlookup : ∀ q : String, m'.outputs[q]? =
      if dest = q then some { destState with order := destState.order ++ state.order }
      else if origin = q then none else m.outputs[q]?)
    (hplace : ∀ w, m'.board.place w = (m.board.place w).map fun at' =>
      if at'.1 = origin ∧ state.ids.contains at'.2 = true then (dest, at'.2) else at')
    (hnext : m'.nextWs = m.nextWs)
    (haway : ∀ {x : String} {record : DisplacedRecord}, m'.displaced[x]? = some record →
      record.destKey ≠ x) : m'.Sound loose short where
  board := (moved_of_displaced hstate hdest hne hlookup hplace hnext).inOrder h.board
  shown {output after} hafter := by
    rw [hlookup] at hafter
    split at hafter
    · cases hafter
      exact (h.shown hdest).append state.order
    · split at hafter
      · cases hafter
      · exact h.shown hafter
  filled {output after} hafter hnot := by
    rw [hlookup] at hafter
    split at hafter
    · rename_i heq
      subst heq
      cases hafter
      rw [List.length_append]
      exact Nat.le_add_right_of_le (h.filled hdest hnot)
    · split at hafter
      · cases hafter
      · exact h.filled hafter hnot
  away := haway

theorem Sound.displaceOutputTo (h : m.Sound loose short) (origin dest : String) :
    (m.displaceOutputTo origin dest).1.Sound loose short := by
  unfold ManagedWorkspaces.displaceOutputTo
  split
  · rename_i state destState hstate hdest
    split
    · exact h
    · rename_i hne
      split
      · rename_i hempty
        rw [List.isEmpty_iff] at hempty
        refine h.displaced_of hstate hdest hne (fun q => ?_) (fun w => ?_) (by simp) ?_
        · simp only [validateHistory_outputs, discardOutputHistory_outputs]
          rw [lookup_erase]
          split
          · rename_i heq
            rw [if_neg (fun heq' => hne (heq.trans heq'.symm))]
          · split
            · rename_i heq
              subst heq
              rw [hempty, List.append_nil]
              exact hdest
            · rfl
        · rw [board_place, validateHistory_membership]
          have hnil : state.ids = [] := by rw [OutputState.ids, hempty]; rfl
          rw [hnil, board_place]
          change m.membership[w]?.map _ = _
          cases m.membership[w]? <;> simp
        · rw [validateHistory_displaced]
          exact h.away
      · refine h.displaced_of hstate hdest hne (fun q => ?_) (fun w => rehome_place ?_) (by simp [rehome]) ?_
        · simp only [validateHistory_outputs, discardOutputHistory_outputs]
          change ((m.outputs.erase origin).insert dest _)[q]? = _
          rw [lookup_insert, lookup_erase]
        · rw [validateHistory_membership]
          rfl
        · rw [validateHistory_displaced]
          intro x record hrecord
          change (m.displaced.insert origin _)[x]? = _ at hrecord
          rw [lookup_insert] at hrecord
          split at hrecord
          · rename_i heq
            subst heq
            cases hrecord
            exact Ne.symm hne
          · exact h.away hrecord
  · exact h

/-! ## Outputs returning -/

/-- New entries all go to the end. -/
theorem pushMissing_eq_append {order returning : List WorkspaceEntry}
    (hnodup : (returning.map WorkspaceEntry.id).Nodup)
    (hnew : ∀ e ∈ returning, ∀ f ∈ order, f.id ≠ e.id) :
    pushMissing order returning = order ++ returning := by
  induction returning generalizing order with
  | nil => exact (List.append_nil _).symm
  | cons entry returning ih =>
    rw [List.map_cons, List.nodup_cons] at hnodup
    have hnone : (order.any (·.id == entry.id)) = false := by
      rw [List.any_eq_false]
      intro f hf
      simpa using hnew entry List.mem_cons_self f hf
    rw [pushMissing, if_neg (by simp [hnone]), ih hnodup.2, List.append_assoc, List.singleton_append]
    intro e he f hf
    rcases List.mem_append.mp hf with hf | hf
    · exact hnew e (List.mem_cons_of_mem _ he) f hf
    · obtain rfl := List.mem_singleton.mp hf
      intro heq
      exact hnodup.1 (heq ▸ List.mem_map_of_mem he)

theorem returnTo_spec {returning : List WorkspaceEntry}
    (hnodup : (returning.map WorkspaceEntry.id).Nodup)
    (hnew : ∀ {before}, m.outputs[origin]? = some before →
      ∀ e ∈ returning, ∀ f ∈ before.order, f.id ≠ e.id) :
    ∃ after, (∀ q : String, (m.returnTo origin returning).outputs[q]? =
        if origin = q then some after else m.outputs[q]?) ∧
      after.order = (m.outputs[origin]?.map OutputState.order).getD [] ++ returning ∧
      after.active = (m.outputs[origin]?.map OutputState.active).getD 0 := by
  unfold returnTo
  split
  · rename_i before hbefore
    refine ⟨_, fun q => setOutput_lookup, ?_, ?_⟩
    · rw [hbefore]
      exact pushMissing_eq_append hnodup (hnew hbefore)
    · rw [hbefore]
      rfl
  · rename_i hnone
    refine ⟨_, fun q => setOutput_lookup, ?_, ?_⟩
    · rw [hnone]
      rfl
    · rw [hnone]
      rfl

@[simp] theorem returnTo_membership {returning : List WorkspaceEntry} :
    (m.returnTo origin returning).membership = m.membership := by
  unfold returnTo
  split <;> rfl
@[simp] theorem returnTo_nextWs {returning : List WorkspaceEntry} :
    (m.returnTo origin returning).nextWs = m.nextWs := by
  unfold returnTo
  split <;> rfl
@[simp] theorem returnTo_displaced {returning : List WorkspaceEntry} :
    (m.returnTo origin returning).displaced = m.displaced := by
  unfold returnTo
  split <;> rfl

/-- The holder's list without the recorded workspaces. -/
def without (state : OutputState) (ids : List String) : OutputState :=
  let order := state.order.filter fun entry => !ids.contains entry.id
  { state with
    order
    active := if order.length ≤ state.active then order.length - 1 else state.active }

/-- What a successful return leaves: the holder without the recorded
workspaces, the origin with them at the end. -/
theorem reconnectOutput_spec (h : m.Sound loose short) {record : DisplacedRecord}
    (hrecord : m.displaced[origin]? = some record)
    (hholder : m.outputs[record.destKey]? = some state) :
    ∃ after, (m.reconnectOutput origin).2 = true ∧
      (∀ q : String, (m.reconnectOutput origin).1.outputs[q]? =
        if origin = q then some after
        else if record.destKey = q then some (without state record.workspaceIds)
        else m.outputs[q]?) ∧
      after.order = (m.outputs[origin]?.map OutputState.order).getD [] ++
        state.order.filter (fun entry => record.workspaceIds.contains entry.id) ∧
      after.active = (m.outputs[origin]?.map OutputState.active).getD 0 ∧
      (m.reconnectOutput origin).1.membership =
        (m.rehome record.destKey origin record.workspaceIds).membership ∧
      (m.reconnectOutput origin).1.nextWs = m.nextWs ∧
      (m.reconnectOutput origin).1.displaced = m.displaced.erase origin := by
  have haway : record.destKey ≠ origin := h.away hrecord
  let left := (m.setOutput record.destKey (without state record.workspaceIds)).rehome record.destKey
    origin record.workspaceIds
  let returning := state.order.filter fun entry => record.workspaceIds.contains entry.id
  have hleft : ∀ q : String, left.outputs[q]? =
      if record.destKey = q then some (without state record.workspaceIds) else m.outputs[q]? :=
    fun q => setOutput_lookup
  have horigin : left.outputs[origin]? = m.outputs[origin]? := by rw [hleft, if_neg haway]
  have hnodup : (returning.map WorkspaceEntry.id).Nodup :=
    (h.ids_nodup hholder).sublist (List.filter_sublist.map _)
  obtain ⟨after, hafter, horder, hactive⟩ := @returnTo_spec left origin _ hnodup (by
    intro before hbefore e he f hf heq
    rw [horigin] at hbefore
    have hstands : m.board.Stands record.destKey e.slot :=
      stands_iff.mpr ⟨state, hholder, e, List.mem_of_mem_filter he, rfl⟩
    have hother : m.board.Stands origin f.slot := stands_iff.mpr ⟨before, hbefore, f, hf, rfl⟩
    exact haway (h.board.apart hstands hother heq.symm))
  rw [horigin] at horder hactive
  rw [reconnectOutput, hrecord]
  dsimp only
  rw [hholder]
  refine ⟨after, rfl, fun q => ?_, horder, hactive, ?_, ?_, ?_⟩
  · simp only [validateHistory_outputs, seedAll_outputs]
    rw [← hleft q]
    exact hafter q
  · simp only [validateHistory_membership, seedAll_membership]
    exact returnTo_membership
  · simp only [validateHistory_nextWs, seedAll_nextWs]
    exact returnTo_nextWs
  · simp only [validateHistory_displaced, seedAll_displaced]
    rw [returnTo_displaced]
    rfl

/-- Some workspaces of the holder behind those of the origin. -/
theorem moved_of_reconnected {after : OutputState} (hne : dest ≠ origin)
    (hholder : m.outputs[dest]? = some state)
    (hlookup : ∀ q : String, m'.outputs[q]? = if origin = q then some after
      else if dest = q then some (without state ids) else m.outputs[q]?)
    (horder : after.order = (m.outputs[origin]?.map OutputState.order).getD [] ++
      state.order.filter fun entry => ids.contains entry.id)
    (hmembership : m'.membership = (m.rehome dest origin ids).membership)
    (hnext : m'.nextWs = m.nextWs) :
    Board.Moved m.board m'.board dest origin (ids.contains ·) := by
  have hsource : m'.board.line dest = some (state.slots.filter fun s => !ids.contains s.1) := by
    rw [board_line, hlookup, if_neg (Ne.symm hne), if_pos rfl, Option.map_some, OutputState.slots,
      OutputState.slots, List.filter_map]
    rfl
  have hbefore : m.board.line dest = some state.slots := by
    rw [board_line, hholder]
    rfl
  refine { source := ?_, rest := ?_, target := ?_, other := ?_, away := hne,
           place := fun w => rehome_place hmembership, named := ?_ }
  · intro s
    unfold Board.Stands
    rw [hsource, hbefore]
    simp [List.mem_filter]
  · intro l hl
    rw [hsource] at hl
    cases hl
    exact ⟨_, hbefore, List.filter_sublist⟩
  · rw [hbefore, board_line, board_line, hlookup, if_pos rfl, Option.map_some, OutputState.slots,
      horder, List.map_append, Option.getD_some, OutputState.slots, List.filter_map]
    cases m.outputs[origin]? <;> rfl
  · intro q hsrc hdst
    rw [board_line, board_line, hlookup, if_neg (Ne.symm hdst), if_neg (Ne.symm hsrc)]
  · rw [board, board, hnext]

theorem without_shown : (without state ids).Shown := by
  unfold OutputState.Shown without
  cases state.order.filter fun entry => !ids.contains entry.id with
  | nil => exact .inr ⟨rfl, rfl⟩
  | cons entry rest =>
    refine .inl ?_
    simp only [List.length_cons]
    split <;> omega

theorem origin_shown {before : Option OutputState} {returning : List WorkspaceEntry}
    (hshown : ∀ {state}, before = some state → state.Shown) :
    (before.map OutputState.active).getD 0 <
        ((before.map OutputState.order).getD [] ++ returning).length ∨
      ((before.map OutputState.order).getD [] ++ returning = [] ∧
        (before.map OutputState.active).getD 0 = 0) := by
  cases before with
  | none =>
    cases returning with
    | nil => exact .inr ⟨rfl, rfl⟩
    | cons entry returning => exact .inl (Nat.succ_pos _)
  | some state =>
    exact (hshown rfl).append returning

theorem Sound.reconnectOutput (h : m.Sound loose short) (origin : String) :
    (m.reconnectOutput origin).1.Sound loose fun o =>
      short o ∨ ∃ record, m.displaced[origin]? = some record ∧ (o = record.destKey ∨ o = origin) := by
  have hsame : m.Sound loose fun o =>
      short o ∨ ∃ record, m.displaced[origin]? = some record ∧ (o = record.destKey ∨ o = origin) :=
    h.mono (fun _ hw => hw) fun _ => .inl
  cases hrecord : m.displaced[origin]? with
  | none =>
    rw [ManagedWorkspaces.reconnectOutput, hrecord]
    rw [hrecord] at hsame
    exact hsame
  | some record =>
    cases hholder : m.outputs[record.destKey]? with
    | none =>
      rw [ManagedWorkspaces.reconnectOutput, hrecord]
      dsimp only
      rw [hholder]
      rw [hrecord] at hsame
      exact hsame
    | some state =>
      obtain ⟨after, -, hlookup, horder, hactive, hmembership, hnext, hdisplaced⟩ :=
        reconnectOutput_spec h hrecord hholder
      have hmoved := moved_of_reconnected (h.away hrecord) hholder hlookup horder hmembership hnext
      refine { board := hmoved.inOrder h.board, shown := ?_, filled := ?_, away := ?_ }
      · intro output st hst
        rw [hlookup] at hst
        split at hst
        · cases hst
          rw [OutputState.Shown, horder, hactive]
          exact origin_shown h.shown
        · split at hst
          · cases hst
            exact without_shown
          · exact h.shown hst
      · intro output st hst hnot
        rw [hlookup, if_neg, if_neg] at hst
        · exact h.filled hst fun hs => hnot (.inl hs)
        · exact fun heq => hnot (.inr ⟨record, rfl, .inl heq.symm⟩)
        · exact fun heq => hnot (.inr ⟨record, rfl, .inr heq.symm⟩)
      · intro x record' hrecord'
        rw [hdisplaced, lookup_erase] at hrecord'
        split at hrecord'
        · cases hrecord'
        · exact h.away hrecord'

end

end

end ManagedWorkspaces

end PlasmaTiler
