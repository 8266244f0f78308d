import PlasmaTiler.Placement

/-!
# Trailing upkeep converges

The trailing policy sees every workspace but the last as a candidate when it
is empty, invisible and not retained. The last one is never a candidate: when
it is reusable it stays as the spare, and otherwise it is not empty, and then
a spare is appended.

How many passes does it take? Removing all candidates may go below the
minimum, and then the floor gives some back. The last one stays anyway, so it
gives back at most one, the first, and only when all others are candidates
(`spare_removableAt`). If the last is not reusable then, the appended spare
makes the one given back a candidate again: the next pass removes it. So one
pass is enough unless the floor gives one back before a workspace that cannot
be the spare (`GivesBack`), and two passes always are
(`applyTrailing_converges`).
-/

namespace PlasmaTiler

namespace WorkspacePolicy

/-- Empty, invisible and not retained. -/
def WorkspaceFacts.removable (f : WorkspaceFacts) : Bool :=
  f.empty && !f.visible && !f.occupied && !f.retained

def trailingReusable (lastEmpty lastOccupied : Bool) : Bool := lastEmpty && !lastOccupied

/-- An appended workspace. -/
def WorkspaceFacts.appended : WorkspaceFacts := ⟨true, false, false, false⟩

/-- The list without the given positions. -/
def dropIndices (remove : List Nat) (facts : List WorkspaceFacts) : List WorkspaceFacts :=
  (facts.zipIdx.filter fun p => !remove.contains p.2).map Prod.fst

/-- The plan carried out, topped up to the minimum. -/
def applyTrailing (facts : List WorkspaceFacts) : List WorkspaceFacts :=
  let plan := planTrailing facts
  let kept := dropIndices plan.remove facts
  let appended := if plan.needAppend then kept ++ [WorkspaceFacts.appended] else kept
  appended ++ List.replicate (minWorkspaces - appended.length) WorkspaceFacts.appended

section
variable {facts init rest : List WorkspaceFacts} {first last : WorkspaceFacts} {remove : List Nat}
  {i : Nat}

theorem reusable_of_removable (h : last.removable = true) :
    trailingReusable last.empty last.occupied = true := by
  simp only [WorkspaceFacts.removable, Bool.and_eq_true] at h
  rw [trailingReusable, h.1.1.1, h.1.2]
  rfl

/-! ## The candidates -/

/-- The candidates are the removable ones before the last. -/
theorem candidates_concat : (List.range (init ++ [last]).length).filter (fun i =>
      !(i == (init ++ [last]).length - 1 && trailingReusable last.empty last.occupied) &&
        ((init ++ [last])[i]?).any fun f => f.removable) =
    (List.range init.length).filter fun i => (init[i]?).any (·.removable) := by
  have hlast : (!(init.length == (init ++ [last]).length - 1 &&
      trailingReusable last.empty last.occupied) &&
        ((init ++ [last])[init.length]?).any fun f => f.removable) = false := by
    rw [List.getElem?_concat_length, Option.any_some, List.length_append, List.length_singleton,
      Nat.add_sub_cancel, beq_self_eq_true, Bool.true_and]
    cases hremovable : last.removable with
    | true => rw [reusable_of_removable hremovable]; rfl
    | false => exact Bool.and_false _
  rw [List.length_append, List.length_singleton, List.range_succ, List.filter_append,
    List.filter_singleton]
  rw [List.length_append, List.length_singleton] at hlast
  rw [hlast]
  rw [cond_false, List.append_nil]
  refine List.filter_congr fun i hi => ?_
  have hlt := List.mem_range.mp hi
  rw [List.getElem?_append_left hlt]
  have hne : (i == init.length + 1 - 1) = false := by
    rw [beq_eq_false_iff_ne]
    omega
  rw [hne]
  rfl

/-- The positions of the removable ones. -/
def removableAt (init : List WorkspaceFacts) : List Nat :=
  (List.range init.length).filter fun i => (init[i]?).any (·.removable)

theorem mem_removableAt : i ∈ removableAt init ↔ ∃ f, init[i]? = some f ∧ f.removable = true := by
  rw [removableAt, List.mem_filter, List.mem_range, Option.any_eq_true]
  refine ⟨fun h => h.2, fun ⟨f, hf, h⟩ => ⟨?_, f, hf, h⟩⟩
  exact (List.getElem?_eq_some_iff.mp hf).1

theorem length_removableAt_le : (removableAt init).length ≤ init.length := by
  have h := List.length_filter_le (fun i => (init[i]?).any (·.removable)) (List.range init.length)
  rwa [List.length_range] at h

theorem removableAt_of_all (h : init.all (·.removable) = true) :
    removableAt init = List.range init.length := by
  refine List.filter_eq_self.mpr fun i hi => ?_
  have hlt := List.mem_range.mp hi
  rw [List.getElem?_eq_getElem hlt]
  exact List.all_eq_true.mp h _ (List.getElem_mem hlt)

theorem length_removableAt_lt (h : init.all (·.removable) = false) :
    (removableAt init).length < init.length := by
  refine Nat.lt_of_le_of_ne length_removableAt_le fun heq => ?_
  have hall := List.length_filter_eq_length_iff.mp (heq.trans List.length_range.symm)
  obtain ⟨f, hf, hkept⟩ := List.all_eq_false.mp h
  obtain ⟨i, hi⟩ := List.getElem?_of_mem hf
  have hin := hall i (List.mem_range.mpr (List.getElem?_eq_some_iff.mp hi).1)
  rw [hi] at hin
  exact hkept hin

/-- The floor gives the first one back when all are candidates. -/
theorem spare_removableAt : spare (init.length + 1) (removableAt init) =
    if init.all (·.removable) then (removableAt init).tail else removableAt init := by
  split
  · rename_i hall
    rw [removableAt_of_all hall]
    cases init with
    | nil => rfl
    | cons first rest =>
      rw [List.length_cons, List.range_succ_eq_map, spare, if_pos, List.tail_cons]
      · cases rest with
        | nil => rfl
        | cons second rest =>
          rw [List.length_cons, List.range_succ_eq_map, List.map_cons, spare, if_neg]
          simp only [List.length_map, List.length_range, minWorkspaces]
          omega
      · simp only [List.length_map, List.length_range, minWorkspaces]
        omega
  · rename_i hall
    have hlt := length_removableAt_lt (Bool.eq_false_iff.mpr hall)
    generalize removableAt init = remove at hlt ⊢
    cases remove with
    | nil => rfl
    | cons i remove =>
      rw [spare, if_neg]
      rw [List.length_cons] at hlt
      simp only [minWorkspaces]
      omega

/-! ## What stays -/

/-- What stays of the workspaces before the last. -/
def keptBefore (init : List WorkspaceFacts) : List WorkspaceFacts :=
  if init.all (·.removable) then init.take 1 else init.filter fun f => !f.removable

theorem dropIndices_concat (h : init.length ∉ remove) :
    dropIndices remove (init ++ [last]) = dropIndices remove init ++ [last] := by
  have hlast : (!remove.contains init.length) = true := by
    rw [Bool.not_eq_true', List.contains_eq_mem, decide_eq_false h]
  rw [dropIndices, List.zipIdx_append, List.filter_append, List.map_append]
  simp only [List.zipIdx_cons, List.zipIdx_nil, Nat.zero_add, List.filter_cons, hlast, if_true,
    List.filter_nil, List.map_cons, List.map_nil]
  rfl

theorem dropIndices_removableAt : dropIndices (removableAt init) init =
    init.filter fun f => !f.removable := by
  have hcongr : (init.zipIdx.filter fun p => !(removableAt init).contains p.2) =
      init.zipIdx.filter ((fun f => !f.removable) ∘ Prod.fst) := by
    refine List.filter_congr fun p hp => ?_
    have hget := List.mem_zipIdx_iff_getElem?.mp hp
    rw [Function.comp_apply, Bool.not_inj_iff, Bool.eq_iff_iff, List.contains_iff_mem, mem_removableAt]
    refine ⟨fun ⟨f, hf, hremovable⟩ => ?_, fun hremovable => ⟨p.1, hget, hremovable⟩⟩
    rwa [Option.some.inj (hget.symm.trans hf)]
  rw [dropIndices, hcongr, ← List.filter_map, List.zipIdx_map_fst]

theorem dropIndices_tail : dropIndices ((List.range init.length).tail) init = init.take 1 := by
  cases init with
  | nil => rfl
  | cons first rest =>
    have hrest : (rest.zipIdx 1).filter (fun p =>
        !((List.range rest.length).map Nat.succ).contains p.2) = [] := by
      refine List.filter_eq_nil_iff.mpr fun p hp hkept => ?_
      obtain ⟨hlo, hhi, -⟩ := List.mem_zipIdx hp
      rw [Bool.not_eq_true', List.contains_eq_mem, decide_eq_false_iff_not] at hkept
      exact hkept (List.mem_map.mpr ⟨p.2 - 1, List.mem_range.mpr (by omega), by omega⟩)
    have hfirst : ((List.range rest.length).map Nat.succ).contains 0 = false := by
      rw [List.contains_eq_mem, decide_eq_false]
      exact fun h => by simp at h
    rw [List.length_cons, List.range_succ_eq_map, List.tail_cons, dropIndices, List.zipIdx_cons,
      List.filter_cons, hfirst]
    rw [Bool.not_false, if_pos rfl, hrest]
    rfl

theorem not_mem_spare : init.length ∉ spare (init.length + 1) (removableAt init) := by
  intro h
  obtain ⟨f, hf, -⟩ := mem_removableAt.mp (ManagedWorkspaces.spare_subset h)
  exact absurd (List.getElem?_eq_some_iff.mp hf).1 (Nat.lt_irrefl _)

theorem dropIndices_spare : dropIndices (spare (init.length + 1) (removableAt init)) (init ++ [last]) =
    keptBefore init ++ [last] := by
  rw [dropIndices_concat not_mem_spare, spare_removableAt, keptBefore]
  split
  · rename_i hall
    rw [removableAt_of_all hall, dropIndices_tail]
  · rw [dropIndices_removableAt]

/-! ## Plans -/

/-- The remaining positions are those of what stays. -/
theorem length_dropIndices : (dropIndices remove facts).length =
    ((List.range facts.length).filter fun i => !remove.contains i).length := by
  rw [List.range_eq_range', ← List.zipIdx_map_snd 0 facts, List.filter_map, List.length_map,
    dropIndices, List.length_map]
  rfl

theorem planTrailing_concat : planTrailing (init ++ [last]) =
    ⟨spare (init.length + 1) (removableAt init), !trailingReusable last.empty last.occupied ||
      decide ((keptBefore init).length + 1 < minWorkspaces)⟩ := by
  have hlength := @length_dropIndices (init ++ [last]) (spare (init.length + 1) (removableAt init))
  rw [dropIndices_spare, List.length_append, List.length_singleton] at hlength
  have hcandidates : (List.range (init ++ [last]).length).filter (fun i =>
      !(i == (init ++ [last]).length - 1 && (last.empty && !last.occupied)) &&
        ((init ++ [last])[i]?).any fun f => f.empty && !f.visible && !f.occupied && !f.retained) =
      removableAt init := candidates_concat
  have hsize : (init ++ [last]).length = init.length + 1 := by simp
  have hremaining : ((List.range (init ++ [last]).length).filter fun i =>
      !(spare (init.length + 1) (removableAt init)).contains i).getLast? = some init.length := by
    have hkept : (!(spare (init.length + 1) (removableAt init)).contains init.length) = true := by
      rw [Bool.not_eq_true', List.contains_eq_mem, decide_eq_false not_mem_spare]
    rw [hsize, List.range_succ, List.filter_append, List.filter_singleton, hkept, cond_true,
      List.getLast?_concat]
  unfold planTrailing
  rw [List.getLast?_concat]
  dsimp only
  rw [hcandidates]
  rw [hsize] at hremaining hlength ⊢
  rw [hremaining, Option.bind_some, List.getElem?_concat_length, Option.any_some, ← hlength]
  rfl

theorem applyTrailing_concat : applyTrailing (init ++ [last]) =
    if trailingReusable last.empty last.occupied && !(keptBefore init).isEmpty then
      keptBefore init ++ [last] else keptBefore init ++ [last, .appended] := by
  rw [applyTrailing, planTrailing_concat]
  dsimp only
  rw [dropIndices_spare]
  cases hkept : keptBefore init with
  | nil => simp [minWorkspaces]
  | cons f kept =>
    have hroom : ¬(f :: kept).length + 1 < minWorkspaces := by
      simp only [List.length_cons, minWorkspaces]
      omega
    rw [decide_eq_false hroom, Bool.or_false]
    cases trailingReusable last.empty last.occupied with
    | true => simp [minWorkspaces]
    | false => simp [minWorkspaces]

/-! ## Convergence -/

theorem eq_nil_of_keptBefore (h : keptBefore init = []) : init = [] := by
  rw [keptBefore] at h
  split at h
  · cases init with
    | nil => rfl
    | cons first rest => cases h
  · rename_i hall
    refine absurd (List.all_eq_true.mpr fun f hf => ?_) hall
    simpa using List.filter_eq_nil_iff.mp h f hf

theorem keptBefore_of_none (h : ∀ f ∈ init, f.removable = false) : keptBefore init = init := by
  rw [keptBefore]
  split
  · rename_i hall
    cases init with
    | nil => rfl
    | cons first rest =>
      have hremovable := List.all_eq_true.mp hall first List.mem_cons_self
      rw [h first List.mem_cons_self] at hremovable
      cases hremovable
  · exact List.filter_eq_self.mpr fun f hf => by rw [h f hf]; rfl

theorem keptBefore_singleton : keptBefore [last] = [last] := by
  cases h : last.removable <;> simp [keptBefore, h]

theorem keptBefore_keptBefore : keptBefore (keptBefore init) = keptBefore init := by
  by_cases hall : init.all (·.removable) = true
  · have hkept : keptBefore init = init.take 1 := if_pos hall
    rw [hkept]
    cases init with
    | nil => rfl
    | cons first rest => exact keptBefore_singleton
  · have hkept : keptBefore init = init.filter fun f => !f.removable := if_neg hall
    rw [hkept]
    refine keptBefore_of_none fun f hf => ?_
    simpa using (List.mem_filter.mp hf).2

/-- A list whose spare is in place and of which nothing is removed. -/
theorem applyTrailing_settled (hlast : trailingReusable last.empty last.occupied = true)
    (hne : init ≠ []) (hkept : keptBefore init = init) :
    applyTrailing (init ++ [last]) = init ++ [last] := by
  rw [applyTrailing_concat, hlast, hkept, Bool.true_and, if_pos]
  rwa [Bool.not_eq_true', List.isEmpty_eq_false_iff]

theorem applyTrailing_pair (hlast : trailingReusable last.empty last.occupied = true) :
    applyTrailing [first, last] = [first, last] :=
  applyTrailing_settled hlast (List.cons_ne_nil first []) keptBefore_singleton

/-- The floor gives back a workspace: all but the last can go, and the last
cannot be the spare, so one pass keeps an empty workspace which the next one
removes. -/
def GivesBack (facts : List WorkspaceFacts) : Prop :=
  ∃ first rest last, facts = first :: rest ++ [last] ∧
    (first :: rest).all (·.removable) = true ∧ trailingReusable last.empty last.occupied = false

/-- The one given back goes with the second pass. -/
theorem GivesBack.passes (h : GivesBack facts) : ∃ first last,
    applyTrailing facts = [first, last, .appended] ∧
      applyTrailing (applyTrailing facts) = [last, .appended] := by
  obtain ⟨first, rest, last, rfl, hall, hlast⟩ := h
  have hkept : keptBefore (first :: rest) = [first] := if_pos hall
  have hfirst : first.removable = true := List.all_eq_true.mp hall first List.mem_cons_self
  have hlastKept : last.removable = false := by
    cases hremovable : last.removable with
    | false => rfl
    | true => rw [reusable_of_removable hremovable] at hlast; cases hlast
  have honce : applyTrailing (first :: rest ++ [last]) = [first, last] ++ [.appended] := by
    rw [applyTrailing_concat, hlast, hkept]
    rfl
  have hagain : keptBefore [first, last] = [last] := by simp [keptBefore, hfirst, hlastKept]
  refine ⟨first, last, honce, ?_⟩
  rw [honce, applyTrailing_concat, hagain]
  rfl

/-- Without a workspace given back, a pass leaves nothing to do: what it keeps
before the last is kept again, and the spare it ends with is the spare of the
next pass. -/
theorem applyTrailing_twice (h : ¬GivesBack facts) :
    applyTrailing (applyTrailing facts) = applyTrailing facts := by
  rcases List.eq_nil_or_concat' facts with rfl | ⟨init, last, rfl⟩
  · exact applyTrailing_pair rfl
  · rw [applyTrailing_concat]
    split
    · rename_i hspare
      rw [Bool.and_eq_true, Bool.not_eq_true', List.isEmpty_eq_false_iff] at hspare
      exact applyTrailing_settled hspare.1 hspare.2 keptBefore_keptBefore
    · rename_i hspare
      have hkept : keptBefore (keptBefore init ++ [last]) = keptBefore init ++ [last] := by
        by_cases hempty : init = []
        · subst hempty
          exact keptBefore_singleton
        · -- the last is not reusable, so one of those before it stays
          have hlast : trailingReusable last.empty last.occupied = false := by
            have hsome : (keptBefore init).isEmpty = false :=
              List.isEmpty_eq_false_iff.mpr fun hnone => hempty (eq_nil_of_keptBefore hnone)
            rw [hsome] at hspare
            simpa using hspare
          have hall : ¬init.all (·.removable) = true := by
            intro hall
            obtain ⟨first, rest, rfl⟩ := List.exists_cons_of_ne_nil hempty
            exact h ⟨first, rest, last, rfl, hall, hlast⟩
          refine keptBefore_of_none fun f hf => ?_
          rw [keptBefore, if_neg hall, List.mem_append, List.mem_filter, List.mem_singleton] at hf
          rcases hf with ⟨-, hf⟩ | rfl
          · simpa using hf
          · cases hremovable : f.removable with
            | false => rfl
            | true => rw [reusable_of_removable hremovable] at hlast; cases hlast
      have hsplit : keptBefore init ++ [last, WorkspaceFacts.appended] =
          (keptBefore init ++ [last]) ++ [.appended] := by simp
      rw [hsplit]
      exact applyTrailing_settled rfl (by simp) hkept

theorem planTrailing_removable (h : i ∈ (planTrailing facts).remove) :
    i + 1 < facts.length ∧ ∃ f, facts[i]? = some f ∧ f.removable = true := by
  rcases List.eq_nil_or_concat' facts with rfl | ⟨init, last, rfl⟩
  · cases h
  · rw [planTrailing_concat] at h
    obtain ⟨f, hf, hremovable⟩ := mem_removableAt.mp (ManagedWorkspaces.spare_subset h)
    have hlt := (List.getElem?_eq_some_iff.mp hf).1
    rw [List.length_append, List.length_singleton, List.getElem?_append_left hlt]
    exact ⟨by omega, f, hf, hremovable⟩

theorem applyTrailing_spare (facts : List WorkspaceFacts) :
    minWorkspaces ≤ (applyTrailing facts).length ∧ ∃ last, (applyTrailing facts).getLast? = some last ∧
      trailingReusable last.empty last.occupied = true := by
  rcases List.eq_nil_or_concat' facts with rfl | ⟨init, last, rfl⟩
  · exact ⟨Nat.le_refl _, _, rfl, rfl⟩
  · rw [applyTrailing_concat]
    split
    · rename_i hspare
      rw [Bool.and_eq_true, Bool.not_eq_true', List.isEmpty_eq_false_iff] at hspare
      have hpos := List.length_pos_iff.mpr hspare.2
      refine ⟨?_, last, List.getLast?_concat .., hspare.1⟩
      rw [List.length_append, List.length_singleton, minWorkspaces]
      omega
    · refine ⟨?_, .appended, by simp, rfl⟩
      simp [minWorkspaces]

/-- Only empty, invisible workspaces before the last are removed, and one
pass leaves the minimum with a spare at its end. It is the last pass with
something to do unless the floor gave one back; then the second removes that
one, and a third does nothing. -/
theorem applyTrailing_converges (facts : List WorkspaceFacts) :
    (∀ i ∈ (planTrailing facts).remove, i + 1 < facts.length ∧
        ∃ f, facts[i]? = some f ∧ f.removable = true) ∧
      minWorkspaces ≤ (applyTrailing facts).length ∧
      (∃ last, (applyTrailing facts).getLast? = some last ∧
        trailingReusable last.empty last.occupied = true) ∧
      (applyTrailing (applyTrailing facts) = applyTrailing facts ↔ ¬GivesBack facts) ∧
      (GivesBack facts → applyTrailing (applyTrailing facts) = (applyTrailing facts).tail) ∧
      applyTrailing (applyTrailing (applyTrailing facts)) = applyTrailing (applyTrailing facts) := by
  obtain ⟨hcount, hspare⟩ := applyTrailing_spare facts
  refine ⟨fun i => planTrailing_removable, hcount, hspare, ⟨fun heq hback => ?_, applyTrailing_twice⟩,
    fun hback => ?_, ?_⟩
  · obtain ⟨first, last, honce, htwice⟩ := hback.passes
    rw [htwice, honce] at heq
    cases heq
  · obtain ⟨first, last, honce, htwice⟩ := hback.passes
    rw [htwice, honce]
    rfl
  · by_cases hback : GivesBack facts
    · obtain ⟨first, last, -, htwice⟩ := hback.passes
      rw [htwice]
      exact applyTrailing_pair rfl
    · rw [applyTrailing_twice hback, applyTrailing_twice hback]

/-- An empty workspace before an occupied one goes with the second pass. -/
theorem applyTrailing_not_twice :
    ¬∀ facts : List WorkspaceFacts, (∀ f ∈ facts, (f.empty && f.occupied) = false) →
      applyTrailing (applyTrailing facts) = applyTrailing facts := fun h =>
  absurd (h [⟨true, false, false, false⟩, ⟨false, true, true, false⟩] (by decide)) (by decide)

end

end WorkspacePolicy

end PlasmaTiler
