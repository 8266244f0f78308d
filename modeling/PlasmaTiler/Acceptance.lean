import PlasmaTiler.Agreement
import PlasmaTiler.Undiverged

/-!
# Every plan is applied

From one operation to a whole plan: the planner reads the levels of the path
to the mover, so a plan it makes at the deepest level names the frames the
mover sits in, and the applier finds the same frames by their ids. A local
plan rearranges its own tree; a crossing takes the mover from the edge of one
tree to the next one.

The planner walks up from the deepest level. At each it looks for a neighbour
along the direction and for the container's edge; past the edge it escapes to
the next level, and past the root's edge to the adjacent output. The
induction follows this walk (`planLocal_applied`), and at each level the edit
it derives is one of those that are known to succeed.

The last section reads the planner the other way round: what kind of
operation comes out says where the mover was. A crossing comes out only where
the mover sits alone or at its root's edge, over a snapshot that has passed
the checks (`planMove_cases`).
-/

namespace PlasmaTiler

/-! ## Local plans -/

/-- The group an operation puts the mover into, and the slot. -/
def MoveOperation.entered : MoveOperation → Option (NodeId × Nat)
  | .insertIntoGroup _ _ targetGroup insertionIndex _ => some (targetGroup, insertionIndex)
  | .escapeParent _ _ parent _ parentInsertionIndex _ =>
      parentInsertionIndex.map fun index => (parent, index)
  | _ => none

/-- An operation that puts the mover into a group fails when the new shares of
that group do not fit in 64 bits. The other operations enter no group and
never overflow. -/
def moveOverflows (tree : Node) (operation : MoveOperation) : Prop :=
  ∃ group index children shares axis, operation.entered = some (group, index) ∧
    findGroupFull tree group = some (children, shares, group, axis) ∧
      insertionOverflows shares index

section
variable {ctx : Context} {f : Frame} {x : NodeId} {intent : MoveIntent} {source : Output}
  {plan : MovePlan} {nodeIds : BTreeSet NodeId} {baseRevision : Nat}

/-- The level the planner sees at a frame. -/
def Frame.level (f : Frame) (n : Node) : PathLevel :=
  ⟨f.id, f.axis, f.before.length, f.before ++ n :: f.after⟩

/-- At the container's edge the mover escapes, unless it is the root's edge. -/
theorem planAtLevel_edge {level : PathLevel} {parent? : Option PathLevel}
    (haxis : level.axis = Axis.forDirection intent.direction)
    (hneighbor : neighborOf level (stepFor intent.direction) = none)
    (hplan : planAtLevel intent source level parent? = .planned plan) :
    ∃ parent, parent? = some parent ∧
      plan = .forOperation intent (.escapeParent .r3 level.groupId parent.groupId parent.childIndex
        (if decide (parent.axis = level.axis) then
          some (parent.childIndex + if stepFor intent.direction = 1 then 1 else 0) else none)
        (if decide (parent.axis = level.axis) then .none else .r1)) := by
  have hstay : ¬level.axis ≠ Axis.forDirection intent.direction := fun h => h haxis
  unfold planAtLevel at hplan
  simp only [if_neg hstay, hneighbor] at hplan
  cases parent? with
  | none =>
    dsimp only at hplan
    split at hplan <;> cases hplan
  | some parent => exact ⟨parent, rfl, (MoveOutcome.planned.inj hplan).symm⟩

/-- The parallel container: a neighbor decides the operation. A leaf is
swapped with or grouped, a group is entered, and each of these rearranges the
tree. -/
theorem planAtLevel_neighbor {ni : Nat} {nb : Node} {parent? : Option PathLevel}
    (hok : TreeOk (ctx.fill (f.fill (.leaf x))))
    (haxis : f.axis = Axis.forDirection intent.direction)
    (hneighbor : neighborOf (f.level (.leaf x)) (stepFor intent.direction) = some (ni, nb))
    (hplan : planAtLevel intent source (f.level (.leaf x)) parent? = .planned plan)
    (hfits : ¬moveOverflows (ctx.fill (f.fill (.leaf x))) plan.operation) :
    Rearranges (ctx.fill (f.fill (.leaf x))) x nodeIds
      (applyInSource (ctx.fill (f.fill (.leaf x))) x intent.direction plan baseRevision nodeIds) := by
  have hnode : f.fill (.leaf x) ∈ (ctx.fill (f.fill (.leaf x))).nodes := Context.mem_nodes_fill
  obtain ⟨-, hat, -⟩ := neighborOf_cut hneighbor
  have hmem : nb ∈ (f.fill (.leaf x)).children := List.mem_of_getElem? hat
  have hbeside : nb ∈ (ctx.fill (f.fill (.leaf x))).nodes := mem_nodes_of_child hnode hmem
  have hwf := hok.wellFormed.of_mem hnode
  have htwo : 2 ≤ (f.before ++ .leaf x :: f.after).length := (Node.wellFormed_group.mp hwf).1.1
  have hdirection : ¬(f.level (.leaf x)).axis ≠ Axis.forDirection intent.direction := fun h => h haxis
  unfold planAtLevel at hplan
  simp only [if_neg hdirection, hneighbor] at hplan
  by_cases hcount : (f.before ++ .leaf x :: f.after).length = 2
  · rw [if_pos (show (f.level (.leaf x)).children.length = 2 from hcount)] at hplan
    cases nb with
    | leaf id =>
      obtain rfl := (MoveOutcome.planned.inj hplan).symm
      exact @applySwap_fill ctx f x intent.direction nodeIds id ni (fun count => count = 2) hok haxis hneighbor (decide_eq_true hcount)
    | group gid gaxis gs gshares =>
      have hfull : findGroupFull (ctx.fill (f.fill (.leaf x))) gid = some (gs, gshares, gid, gaxis) :=
        Node.findGroupFull_eq hok.nodup hbeside
      by_cases hsame : gaxis = f.axis
      · have hlevel : gaxis = (f.level (.leaf x)).axis := hsame
        simp only [if_pos hlevel] at hplan
        obtain rfl := (MoveOutcome.planned.inj hplan).symm
        refine applyInsertIntoGroup_fill hok haxis hneighbor hcount (.inl ⟨hsame, rfl, rfl⟩) ?_
        exact fun h => hfits ⟨_, _, _, _, _, rfl, hfull, h⟩
      · have hlevel : ¬gaxis = (f.level (.leaf x)).axis := hsame
        simp only [if_neg hlevel] at hplan
        by_cases heven : gs.length % 2 = 0
        · rw [if_pos heven] at hplan
          obtain rfl := (MoveOutcome.planned.inj hplan).symm
          refine applyInsertIntoGroup_fill hok haxis hneighbor hcount
            (.inr ⟨hsame, heven, rfl, rfl⟩) ?_
          exact fun h => hfits ⟨_, _, _, _, _, rfl, hfull, h⟩
        · rw [if_neg heven] at hplan
          split at hplan
          · cases hplan
          · rename_i victim hvictim
            obtain rfl := (MoveOutcome.planned.inj hplan).symm
            exact applySplitGroupChild_fill hok haxis hneighbor hcount hsame heven hvictim
  · have hthree : 3 ≤ (f.before ++ .leaf x :: f.after).length := by omega
    rw [if_neg (show ¬(f.level (.leaf x)).children.length = 2 from hcount)] at hplan
    have hself : ((f.level (.leaf x)).children[(f.level (.leaf x)).childIndex]?).any Node.isLeaf =
        true := by
      have hmover : (f.before ++ .leaf x :: f.after)[f.before.length]? = some (.leaf x) :=
        getElem?_middle
      show ((f.before ++ .leaf x :: f.after)[f.before.length]?).any Node.isLeaf = true
      rw [hmover]
      rfl
    by_cases hswap : intent.sameAxisMove = .swapWithNeighbor ∧ nb.isLeaf = true
    · rw [if_pos ⟨hswap.1, hswap.2, hself⟩] at hplan
      obtain rfl := (MoveOutcome.planned.inj hplan).symm
      cases nb with
      | leaf id =>
        have happly : applyInSource (ctx.fill (f.fill (.leaf x))) x intent.direction
            (.forOperation intent (.swapNeighbor .r2c f.id id)) baseRevision nodeIds =
            applySwap (ctx.fill (f.fill (.leaf x))) x intent.direction f.id id
              fun count => 3 ≤ count := by
          rw [applyInSource]
          exact if_pos ⟨rfl, hswap.1⟩
        have hswapped : Rearranges _ x nodeIds _ :=
          @applySwap_fill ctx f x intent.direction nodeIds id ni (fun count => 3 ≤ count) hok haxis hneighbor (decide_eq_true hthree)
        rw [← happly] at hswapped
        exact hswapped
      | group => cases hswap.2
    · rw [if_neg fun h => hswap ⟨h.1, h.2.1⟩] at hplan
      obtain rfl := (MoveOutcome.planned.inj hplan).symm
      refine applyWrapNeighbor_fill hok haxis hneighbor hthree ?_
      rw [← Bool.not_eq_true, Bool.and_eq_true, beq_iff_eq]
      exact hswap

/-- Whatever the planner plans on the path to the mover is applied. -/
theorem planLocal_applied (hok : TreeOk (ctx.fill (.leaf x)))
    (hplan : planLocal intent source (ctx.levels (.leaf x)) = .planned plan)
    (hfits : ¬moveOverflows (ctx.fill (.leaf x)) plan.operation) :
    Rearranges (ctx.fill (.leaf x)) x nodeIds
      (applyInSource (ctx.fill (.leaf x)) x intent.direction plan baseRevision nodeIds) := by
  rcases List.eq_nil_or_concat ctx with rfl | ⟨above, f, rfl⟩
  · cases hplan
  · rw [List.concat_eq_append, Context.levels_concat] at hplan
    rw [List.concat_eq_append, Context.fill_concat] at hok hfits ⊢
    simp only [planLocal, List.reverse_append, List.reverse_singleton, List.singleton_append] at hplan
    by_cases haxis : f.axis = Axis.forDirection intent.direction
    · cases hneighbor : neighborOf (f.level (.leaf x)) (stepFor intent.direction) with
      | some found => exact planAtLevel_neighbor hok haxis hneighbor hplan hfits
      | none =>
        obtain ⟨parent, habove, rfl⟩ := planAtLevel_edge haxis hneighbor hplan
        rcases List.eq_nil_or_concat above with rfl | ⟨outer, p, rfl⟩
        · cases habove
        · rw [List.concat_eq_append, Context.levels_concat, List.reverse_append,
            List.reverse_singleton, List.singleton_append, List.head?_cons] at habove
          obtain rfl := (Option.some.inj habove).symm
          rw [List.concat_eq_append, Context.fill_concat] at hok hfits ⊢
          refine applyEscapeParent_fill hok haxis hneighbor fun hsame h => hfits ?_
          have hfull : findGroupFull (Context.fill outer (p.fill (f.fill (.leaf x)))) p.id =
              some (p.before ++ f.fill (.leaf x) :: p.after, p.shares, p.id, p.axis) :=
            Node.findGroupFull_eq hok.nodup Context.mem_nodes_fill
          refine ⟨_, _, _, _, _, ?_, hfull, h⟩
          show Option.map _ (if decide (p.axis = f.axis) = true then _ else none) = _
          rw [if_pos (decide_eq_true hsame)]
          rfl
    · unfold planAtLevel at hplan
      rw [if_pos haxis] at hplan
      obtain rfl := (MoveOutcome.planned.inj hplan).symm
      exact applyWrapPerpendicular_fill hok haxis

/-- A derived plan binds the operation it was made for. -/
theorem planAtLevel_binds {level : PathLevel} {parent? : Option PathLevel} {key : DomainKey}
    (hkey : intent.sourceOutput = key.output)
    (hplan : planAtLevel intent source level parent? = .planned plan) :
    movePlanBinds plan key intent.focusedLeaf intent.direction = true ∧ plan.intent = intent := by
  have hbinds : ∀ operation : MoveOperation, movePlanBinds (.forOperation intent operation) key
      intent.focusedLeaf intent.direction = true → .planned (.forOperation intent operation) =
      MoveOutcome.planned plan →
      movePlanBinds plan key intent.focusedLeaf intent.direction = true ∧ plan.intent = intent := by
    rintro operation hchecked heq
    obtain rfl := MoveOutcome.planned.inj heq
    exact ⟨hchecked, rfl⟩
  unfold planAtLevel at hplan
  dsimp only at hplan
  repeat' split at hplan
  all_goals first
    | cases hplan; done
    | refine hbinds _ ?_ hplan
      simp [movePlanBinds, MovePlan.forOperation, MoveOperation.rule, MoveOperation.requiredCapability,
        MoveOperation.preconditions, maxPreconditions, hkey]

theorem planLocal_binds {path : List PathLevel} {key : DomainKey}
    (hkey : intent.sourceOutput = key.output)
    (hplan : planLocal intent source path = .planned plan) :
    movePlanBinds plan key intent.focusedLeaf intent.direction = true ∧ plan.intent = intent := by
  unfold planLocal at hplan
  split at hplan
  · cases hplan
  · exact planAtLevel_binds hkey hplan

end

/-! ## Accepted snapshots -/

/-- The ids of an output's tree. -/
def Output.nodeIds (o : Output) : List NodeId := (o.tree.map Node.ids).getD []

/-- What the planner has checked of a snapshot it accepts, as far as a
crossing needs it: outputs and nodes with distinct ids, the source among the
outputs, and no output beside itself. -/
structure SnapshotOk (snapshot : Snapshot) (intent : MoveIntent) (source : Output) : Prop where
  distinct : (snapshot.outputs.map Output.id).Nodup
  found : snapshot.outputs.find? (·.id == intent.sourceOutput) = some source
  away : ∀ o ∈ snapshot.outputs, ∀ (direction : Direction) (target : OutputId),
    o.adjacent[direction]? = some target →
    target ≠ o.id
  nodes : (snapshot.outputs.flatMap Output.nodeIds).Nodup

section
variable {snapshot : Snapshot} {intent : MoveIntent} {source : Output} {plan : MovePlan}
  {capabilities : Capabilities}

theorem checkOutputs_ok {outputs : List Output} {seen : BTreeSet OutputId} {u : Unit}
    (h : checkOutputs outputs seen = .ok u) :
    (outputs.map Output.id).Nodup ∧ ∀ o ∈ outputs, o.id ∉ seen := by
  induction outputs generalizing seen with
  | nil => exact ⟨List.nodup_nil, fun _ ho => absurd ho List.not_mem_nil⟩
  | cons o outputs ih =>
    simp only [checkOutputs, wellFormedOr, bind_eq_ok, ensure_eq_ok, Bool.and_eq_true,
      Bool.not_eq_true'] at h
    obtain ⟨_, ⟨-, hnew⟩, _, -, hrest⟩ := h
    obtain ⟨hnodup, hfresh⟩ := ih hrest
    refine ⟨?_, ?_⟩
    · rw [List.map_cons, List.nodup_cons]
      refine ⟨fun hmem => ?_, hnodup⟩
      obtain ⟨o', ho', hid⟩ := List.mem_map.mp hmem
      exact hfresh o' ho' (mem_set_insert.mpr (.inl hid.symm))
    · intro o' ho'
      rcases List.mem_cons.mp ho' with rfl | htail
      · intro hseen
        rw [Std.ExtTreeSet.contains_iff_mem.mpr hseen] at hnew
        cases hnew
      · exact fun hseen => hfresh o' htail (mem_set_insert.mpr (.inr hseen))

theorem validateTrees_ok {outputs : List (Output × Nat)} {index index' : TreeIndex}
    (h : validateTrees outputs index = .ok index') :
    (outputs.flatMap fun p => p.1.nodeIds).Nodup ∧
      ∀ i ∈ outputs.flatMap (fun p => p.1.nodeIds), i ∉ index.ids := by
  induction outputs generalizing index with
  | nil => exact ⟨List.nodup_nil, fun _ hi => absurd hi List.not_mem_nil⟩
  | cons p outputs ih =>
    obtain ⟨o, i⟩ := p
    unfold validateTrees at h
    rw [List.flatMap_cons]
    cases htree : o.tree with
    | none =>
      simp only [htree] at h
      simpa [Output.nodeIds, htree] using ih h
    | some tree =>
      simp only [htree, validateNode, bind_eq_ok, mapError_eq_ok, pure_eq_ok] at h
      obtain ⟨recorded, ⟨ids, hcheck, hrecorded⟩, hrest⟩ := h
      obtain ⟨-, ⟨-, hnodup, hfresh⟩, hids⟩ := checkNode_eq_ok.mp hcheck
      have hkept : recorded.ids = ids := by
        have hrecord : ∀ (l : List Node) (t : TreeIndex), (l.foldl (TreeIndex.record i) t).ids = t.ids := by
          intro l
          induction l with
          | nil => exact fun _ => rfl
          | cons k l ihl =>
            intro t
            rw [List.foldl_cons, ihl]
            cases k <;> rfl
        rw [← hrecorded, hrecord]
      obtain ⟨hrestNodup, hrestFresh⟩ := ih hrest
      have hown : Output.nodeIds o = tree.ids := by rw [Output.nodeIds, htree]; rfl
      rw [hkept, hids] at hrestFresh
      have hapart : ∀ j ∈ outputs.flatMap (fun p => p.1.nodeIds), j ∉ index.ids ∧ j ∉ tree.ids := by
        intro j hj
        have hnot := hrestFresh j hj
        rw [Std.ExtTreeSet.mem_insertMany_list, not_or, List.contains_eq_mem, decide_eq_true_eq] at hnot
        exact hnot
      rw [hown]
      refine ⟨List.nodup_append.mpr ⟨hnodup, hrestNodup, ?_⟩, ?_⟩
      · rintro a ha b hb rfl
        exact (hapart a hb).2 ha
      · intro j hj
        rcases List.mem_append.mp hj with hj | hj
        · exact hfresh j hj
        · exact (hapart j hj).1

theorem validateSnapshot_ok (h : validateSnapshot snapshot intent = .ok source) :
    SnapshotOk snapshot intent source := by
  simp only [validateSnapshot, wellFormedOr, bind_eq_ok, ensure_eq_ok] at h
  obtain ⟨_, -, _, -, _, houtputs, _, hadjacent, h⟩ := h
  have haway : ∀ o ∈ snapshot.outputs, ∀ (direction : Direction) (target : OutputId),
    o.adjacent[direction]? = some target →
      target ≠ o.id := by
    intro o ho direction target htarget
    have hchecked := List.all_eq_true.mp (List.all_eq_true.mp hadjacent o ho) (direction, target)
      (Std.ExtTreeMap.mem_toList_iff_getElem?_eq_some.mpr htarget)
    simp only [Bool.and_eq_true, bne_iff_ne] at hchecked
    exact hchecked.1.2
  cases hfound : snapshot.outputs.find? (·.id == intent.sourceOutput) with
  | none =>
    rw [hfound] at h
    cases h
  | some o =>
    simp only [hfound, bind_eq_ok, mapError_eq_ok] at h
    obtain ⟨index, htrees, linked, -, _, -, h⟩ := h
    have hsource : o = source := by
      split at h
      · exact Except.ok.inj h
      · split at h <;> cases h
    obtain ⟨hnodes, -⟩ := validateTrees_ok htrees
    have hzip : snapshot.outputs.zipIdx.flatMap (fun p => p.1.nodeIds) =
        snapshot.outputs.flatMap Output.nodeIds := by
      have hmap := List.flatMap_map (f := Prod.fst) (g := Output.nodeIds) (l := snapshot.outputs.zipIdx)
      rw [List.zipIdx_map_fst] at hmap
      exact hmap.symm
    rw [hzip] at hnodes
    exact ⟨(checkOutputs_ok houtputs).1, by rw [hfound, hsource], haway, hnodes⟩

/-! ## What a plan is -/

theorem stepFor_cases (direction : Direction) : stepFor direction = 1 ∨ stepFor direction = -1 := by
  cases direction <;> simp [stepFor]

/-- Planning at the root reports the boundary only without a neighbor: the
middle child of an odd group is always there. -/
theorem planAtLevel_boundary {level : PathLevel} {reason : NoopReason}
    (hplan : planAtLevel intent source level none = .noop reason) :
    neighborOf level (stepFor intent.direction) = none := by
  cases hneighbor : neighborOf level (stepFor intent.direction) with
  | none => rfl
  | some found =>
    exfalso
    unfold planAtLevel at hplan
    simp only [hneighbor] at hplan
    by_cases haxis : level.axis ≠ Axis.forDirection intent.direction
    · rw [if_pos haxis] at hplan
      cases hplan
    · rw [if_neg haxis] at hplan
      by_cases hcount : level.children.length = 2
      · rw [if_pos hcount] at hplan
        cases hnb : found.2 with
        | leaf id =>
          rw [hnb] at hplan
          cases hplan
        | group id axis children shares =>
          simp only [hnb] at hplan
          by_cases hsame : axis = level.axis
          · rw [if_pos hsame] at hplan
            cases hplan
          · rw [if_neg hsame] at hplan
            by_cases heven : children.length % 2 = 0
            · rw [if_pos heven] at hplan
              cases hplan
            · rw [if_neg heven, List.getElem?_eq_getElem (by omega)] at hplan
              cases hplan
      · rw [if_neg hcount] at hplan
        split at hplan <;> cases hplan

/-- The mover sits alone, or at its root's edge in the direction, when the
planner leaves the tree. -/
theorem checkRootEdge_of_boundary {ctx : Context} {x : NodeId} {rootEdge : Bool}
    (hedge : if rootEdge then
        planLocal intent source (ctx.levels (.leaf x)) = .noop .boundary ∧ ctx.length = 1
      else ctx = []) :
    checkRootEdge (ctx.fill (.leaf x)) x intent.direction
      (((ctx.levels (.leaf x)).head?.map PathLevel.childIndex).getD 0) = true := by
  cases rootEdge with
  | false =>
    rw [if_neg Bool.false_ne_true] at hedge
    rw [hedge]
    simp [Context.fill, Context.levels, checkRootEdge]
  | true =>
    rw [if_pos rfl] at hedge
    obtain ⟨hplan, hlength⟩ := hedge
    obtain ⟨f, rfl⟩ := List.length_eq_one_iff.mp hlength
    have hmover : (f.before ++ .leaf x :: f.after)[f.before.length]? = some (.leaf x) :=
      getElem?_middle
    suffices hindex : f.before.length =
        if stepFor intent.direction = -1 then 0 else (f.before ++ .leaf x :: f.after).length - 1 by
      show ((f.before ++ .leaf x :: f.after)[f.before.length]?.any (isNamed x) &&
        f.before.length == (if stepFor intent.direction = -1 then 0
          else (f.before ++ .leaf x :: f.after).length - 1) &&
        (f.before ++ .leaf x :: f.after)[f.before.length]?.any Node.isLeaf) = true
      rw [hmover, ← hindex]
      simp [isNamed, Node.isLeaf]
    have hlevel : planAtLevel intent source (f.level (.leaf x)) none = .noop .boundary := hplan
    have hedge := neighborOf_none (planAtLevel_boundary hlevel)
    rcases stepFor_cases intent.direction with hstep | hstep
    · rw [hstep, stepIndex, if_pos (by omega), Option.any_some, decide_eq_false_iff_not] at hedge
      rw [hstep, if_neg (by omega)]
      simp only [List.length_append, List.length_cons] at hedge ⊢
      omega
    · rw [hstep, if_pos rfl]
      by_cases hfirst : f.before.length = 0
      · exact hfirst
      · rw [hstep, stepIndex, if_pos (by omega), Option.any_some, decide_eq_false_iff_not] at hedge
        simp only [List.length_append, List.length_cons] at hedge
        omega

/-- A crossing to the output adjacent in the direction, which is shown and
names the source back. The plan enters its tree, or the empty output. -/
structure Crosses (snapshot : Snapshot) (intent : MoveIntent) (source target : Output)
    (plan : MovePlan) (index : Nat) : Prop where
  toward : source.adjacent[intent.direction]? = some target.id
  present : target ∈ snapshot.outputs
  back : target.adjacent[oppositeDirection intent.direction]? = some source.id
  plan_eq : plan = .forOperation intent (.crossOutput .r4 target.id target.workspace index
    (if target.tree.isNone then .empty else .occupied))

theorem planCross_planned {index : Nat}
    (h : planCross snapshot intent source index capabilities = .planned plan) :
    ∃ target, Crosses snapshot intent source target plan index := by
  unfold planCross at h
  split at h
  · cases h
  · rename_i targetId htoward
    split at h
    · cases h
    · rename_i target hfound
      have hid : target.id = targetId := by simpa using List.find?_some hfound
      split at h
      · cases h
      · rename_i hback
        refine ⟨target, by rw [htoward, hid], List.mem_of_find?_eq_some hfound, ?_, ?_⟩
        · exact Classical.byContradiction hback
        · exact (MoveOutcome.planned.inj (gate_planned h).1).symm

theorem Context.length_levels {ctx : Context} {n : Node} : (ctx.levels n).length = ctx.length := by
  induction ctx with
  | nil => rfl
  | cons f ctx ih => rw [Context.levels, List.length_cons, ih, List.length_cons]

/-- A planned move is a local one on the path to the mover, or a crossing of a
mover at the edge of its root. -/
theorem planMove_cases (h : planMoveWithCapabilities snapshot intent capabilities = .planned plan) :
    ∃ source ctx, SnapshotOk snapshot intent source ∧
      source.tree = some (Context.fill ctx (.leaf intent.focusedLeaf)) ∧
      (planLocal intent source (ctx.levels (.leaf intent.focusedLeaf)) = .planned plan ∨
        ∃ target index, checkRootEdge (ctx.fill (.leaf intent.focusedLeaf)) intent.focusedLeaf
            intent.direction index = true ∧ Crosses snapshot intent source target plan index) := by
  unfold planMoveWithCapabilities at h
  split at h
  · rename_i outcome herror
    obtain ⟨reason, rfl⟩ := rejects_validateSnapshot outcome herror
    cases h
  · rename_i source hvalid
    have hok := validateSnapshot_ok hvalid
    split at h
    · cases h
    · rename_i tree htree
      split at h
      · cases h
      · rename_i path hpath
        obtain ⟨ctx, rfl, rfl⟩ := pathTo_context hpath
        refine ⟨source, ctx, hok, htree, ?_⟩
        dsimp only at h
        split at h
        · exact .inl (gate_planned h).1
        · rename_i hlocal
          split at h
          · exact absurd (gate_planned h).1 (hlocal _)
          · rename_i hout
            obtain ⟨target, hcrosses⟩ := planCross_planned h
            refine .inr ⟨target, _, ?_, hcrosses⟩
            by_cases hsole : planLocal intent source (ctx.levels (.leaf intent.focusedLeaf)) =
                .noop .singleRootLeaf ∧ (ctx.levels (.leaf intent.focusedLeaf)).isEmpty = true ∧
                (ctx.fill (.leaf intent.focusedLeaf)).isLeaf = true
            · have hctx : ctx = [] := by
                rw [← List.length_eq_zero_iff, ← Context.length_levels (n := .leaf intent.focusedLeaf)]
                exact List.length_eq_zero_iff.mpr (List.isEmpty_iff.mp hsole.2.1)
              have hroot :=
                @checkRootEdge_of_boundary intent source ctx intent.focusedLeaf false hctx
              rw [hctx] at hroot ⊢
              split <;> exact hroot
            · simp only [decide_eq_false hsole, Bool.not_false, Bool.true_and, Bool.not_eq_true',
                decide_eq_false_iff_not, not_not] at hout
              rw [if_neg (by simpa using hsole)]
              rw [Context.length_levels] at hout
              exact @checkRootEdge_of_boundary intent source ctx intent.focusedLeaf true ⟨hout.1, hout.2.1⟩

end

end PlasmaTiler
