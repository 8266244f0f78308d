import Mathlib.Data.List.ReduceOption
import PlasmaTiler.Tiling
import PlasmaTiler.Ranking

/-!
# Output selection

Which output lies beyond an edge of another is decided on full rectangles: an
output whose opposite edge coincides and that shares a part of it. Among
several, a moved window goes to the one its centre points at, or else to the
one it overlaps most; a whole workspace goes along the longest shared edge.
Ties go to the left, then the top, then the smaller id.

The code sorts the candidates by a comparison of several keys and takes the
first. That the choice does not depend on the order in which outputs are
presented needs the comparison to be a total order that tells outputs apart.
For a window it is not plain that it is one, as the overlap is compared only
where not both candidates contain the centre (`windowRank_eq_lt`). The
ranking is then restated in the words of the first paragraph (`Outranks`,
`SharesMore`), and the choice is the `Best` candidate by it.

`selection_best` has all of it for every readable topology: neither selection
is refused, none is found exactly when nothing lies beyond the edge, the
order of the outputs is irrelevant, the winner is the one best, and whoever
lies beyond an edge sees the same edge from the other side.
-/

namespace PlasmaTiler

namespace OutputSelection

structure OutputEntry where
  id : OutputId
  rect : Rect
deriving DecidableEq, Repr

/-- An output with the interval it shares with the source's edge. -/
structure Candidate where
  id : OutputId
  rect : Rect
  edgeStart : Int
  edgeEnd : Int
deriving DecidableEq, Repr

inductive SelectionError
  | unreadableTopology
deriving DecidableEq, Repr

def overlap (aStart aLen bStart bLen : Int) : Int :=
  min (aStart + aLen) (bStart + bLen) - max aStart bStart

/-- The pass over the presented outputs: readable, distinct and true to the
source. Returns whether the source is among them. -/
def scanOutputs (source : OutputEntry) :
    List OutputId → Bool → List OutputEntry → Except SelectionError Bool
  | _, seenSource, [] => .ok seenSource
  | seenIds, seenSource, entry :: all => do
    ensure (validRect entry.rect) .unreadableTopology
    ensure (!seenIds.contains entry.id) .unreadableTopology
    if entry.id = source.id then
      ensure (entry.rect == source.rect) .unreadableTopology
      scanOutputs source (entry.id :: seenIds) true all
    else scanOutputs source (entry.id :: seenIds) seenSource all

/-- The output's opposite edge lies on the source's edge. -/
def touches (source entry : Rect) : Direction → Bool
  | .left => IntRange.i32.checkedAdd entry.x entry.w == some source.x
  | .right => IntRange.i32.checkedAdd source.x source.w == some entry.x
  | .up => IntRange.i32.checkedAdd entry.y entry.h == some source.y
  | .down => IntRange.i32.checkedAdd source.y source.h == some entry.y

/-- The interval two rectangles share along the edge. -/
def sharedInterval (source entry : Rect) : Direction → Int × Int
  | .left | .right => (max source.y entry.y, min (source.y + source.h) (entry.y + entry.h))
  | .up | .down => (max source.x entry.x, min (source.x + source.w) (entry.x + entry.w))

/-- The candidate one output makes, if any. -/
def candidateOf (source : OutputEntry) (direction : Direction) (entry : OutputEntry) :
    Except SelectionError (Option Candidate) :=
  if entry.id = source.id then .ok none
  else if !touches source.rect entry.rect direction then .ok none
  else
    let (start, stop) := sharedInterval source.rect entry.rect direction
    if stop - start ≤ 0 then .ok none
    else do
      let edgeStart ← okOr .unreadableTopology (IntRange.i32.check start)
      let len ← okOr .unreadableTopology (IntRange.i32.check (stop - start))
      let edgeEnd ← okOr .unreadableTopology (IntRange.i32.checkedAdd edgeStart len)
      return some { id := entry.id, rect := entry.rect, edgeStart, edgeEnd }

/-- Left, then top, then id. -/
def leftTop (a b : Candidate) : Ordering :=
  (compare a.rect.x b.rect.x).then ((compare a.rect.y b.rect.y).then (compare a.id b.id))

/-- The outputs beyond an edge of the source, from left to right. -/
def candidatesInDirection (source : OutputEntry) (direction : Direction) (all : List OutputEntry) :
    Except SelectionError (List Candidate) := do
  ensure (validRect source.rect) .unreadableTopology
  let seenSource ← scanOutputs source [] false all
  ensure seenSource .unreadableTopology
  let found ← all.mapM (candidateOf source direction)
  return sortBy leftTop found.reduceOption

/-- The centre of the window, in doubled coordinates so that a half stays
exact, falls on the half-open edge. -/
def centreContained (window : Rect) (edgeStart edgeEnd : Int) (horizontal : Bool) : Bool :=
  let doubled :=
    if horizontal then
      (IntRange.i64.check (window.y * 2)).bind fun v => IntRange.i64.checkedAdd v window.h
    else (IntRange.i64.check (window.x * 2)).bind fun v => IntRange.i64.checkedAdd v window.w
  doubled.any fun doubled => decide (edgeStart * 2 ≤ doubled) && decide (doubled < edgeEnd * 2)

def windowEdgeOverlap (window : Rect) (candidate : Candidate) (horizontal : Bool) : Int :=
  if horizontal then
    max (overlap window.y window.h candidate.edgeStart (candidate.edgeEnd - candidate.edgeStart)) 0
  else max (overlap window.x window.w candidate.edgeStart (candidate.edgeEnd - candidate.edgeStart)) 0

def isHorizontal : Direction → Bool
  | .left | .right => true
  | .up | .down => false

/-- Centre containment, then overlap unless both contain it, then left, top
and id. -/
def windowRank (window : Rect) (horizontal : Bool) (a b : Candidate) : Ordering :=
  let aCentred := centreContained window a.edgeStart a.edgeEnd horizontal
  let bCentred := centreContained window b.edgeStart b.edgeEnd horizontal
  (compare bCentred aCentred).then
    ((if aCentred && bCentred then .eq
      else compare (windowEdgeOverlap window b horizontal) (windowEdgeOverlap window a horizontal)).then
        (leftTop a b))

/-- Selection for a window. -/
def selectForWindow (direction : Direction) (source : OutputEntry) (window : Rect)
    (all : List OutputEntry) : Except SelectionError (Option Candidate) := do
  ensure (validRect window) .unreadableTopology
  let candidates ← candidatesInDirection source direction all
  return (sortBy (windowRank window (isHorizontal direction)) candidates).head?

/-- Longest shared edge, then left, top and id. -/
def migrationRank (a b : Candidate) : Ordering :=
  (compare (b.edgeEnd - b.edgeStart) (a.edgeEnd - a.edgeStart)).then (leftTop a b)

/-- Selection for a whole workspace. -/
def selectForMigration (direction : Direction) (source : OutputEntry) (all : List OutputEntry) :
    Except SelectionError (Option Candidate) := do
  let candidates ← candidatesInDirection source direction all
  return (sortBy migrationRank candidates).head?

/-! ## What the choice is about -/

/-- The rectangle's opposite edge lies on the source's edge, and `[lo, hi)` is
what the two share of it. -/
def SharedEdge (direction : Direction) (source entry : Rect) (lo hi : Int) : Prop :=
  let axis := Axis.forDirection direction
  let cross := Rect.cross axis
  (if 0 < stepFor direction then source.start axis + source.extent axis = entry.start axis
    else entry.start axis + entry.extent axis = source.start axis) ∧
  lo = max (source.start cross) (entry.start cross) ∧
  hi = min (source.start cross + source.extent cross) (entry.start cross + entry.extent cross) ∧
  lo < hi

/-- Seen from the other side the edge is the same. -/
theorem sharedEdge_opposite {direction : Direction} {a b : Rect} {lo hi : Int} :
    SharedEdge direction a b lo hi ↔ SharedEdge (oppositeDirection direction) b a lo hi := by
  cases direction <;>
    simp [SharedEdge, oppositeDirection, Axis.forDirection, stepFor, max_comm, min_comm]

/-- Readable outputs of distinct ids, the source among them. Nothing is said
of their order or of how they lie. -/
structure Presented (source : OutputEntry) (all : List OutputEntry) : Prop where
  readable : ∀ entry ∈ all, validRect entry.rect = true
  distinct : (all.map (·.id)).Nodup
  source : source ∈ all

/-- The candidates: the other outputs that share a part of the edge. The
interval they carry is the part that is shared. -/
def IsCandidate (source : OutputEntry) (direction : Direction) (all : List OutputEntry)
    (c : Candidate) : Prop :=
  ∃ entry ∈ all, entry.id ≠ source.id ∧ c.id = entry.id ∧ c.rect = entry.rect ∧
    SharedEdge direction source.rect entry.rect c.edgeStart c.edgeEnd

section
variable {source entry : OutputEntry} {all all' : List OutputEntry} {direction : Direction}
  {c c' : Candidate} {window : Rect}

theorem Presented.eq_of_id (h : Presented source all) {a b : OutputEntry} (ha : a ∈ all)
    (hb : b ∈ all) (heq : a.id = b.id) : a = b :=
  List.inj_on_of_nodup_map h.distinct ha hb heq

theorem Presented.perm (h : Presented source all) (hperm : all.Perm all') : Presented source all' where
  readable entry hentry := h.readable entry (hperm.mem_iff.mpr hentry)
  distinct := (hperm.map _).nodup_iff.mp h.distinct
  source := hperm.mem_iff.mp h.source

theorem IsCandidate.perm (h : IsCandidate source direction all c) (hperm : all.Perm all') :
    IsCandidate source direction all' c := by
  obtain ⟨entry, hentry, hrest⟩ := h
  exact ⟨entry, hperm.mem_iff.mp hentry, hrest⟩

/-- An output makes one candidate at most. -/
theorem IsCandidate.eq_of_id (h : Presented source all) (hc : IsCandidate source direction all c)
    (hc' : IsCandidate source direction all c') (heq : c.id = c'.id) : c = c' := by
  obtain ⟨entry, hentry, -, hid, hrect, hedge⟩ := hc
  obtain ⟨entry', hentry', -, hid', hrect', hedge'⟩ := hc'
  obtain rfl := h.eq_of_id hentry hentry' (hid.symm.trans (heq.trans hid'))
  obtain ⟨-, hlo, hhi, -⟩ := hedge
  obtain ⟨-, hlo', hhi', -⟩ := hedge'
  cases c
  cases c'
  simp only [Candidate.mk.injEq]
  exact ⟨heq, hrect.trans hrect'.symm, hlo.trans hlo'.symm, hhi.trans hhi'.symm⟩

/-! ## Readable topologies are not refused -/

theorem scanOutputs_ok {seenIds : List OutputId} {seenSource : Bool}
    (hreadable : ∀ entry ∈ all, validRect entry.rect = true)
    (hdistinct : (all.map (·.id)).Nodup) (hfresh : ∀ entry ∈ all, entry.id ∉ seenIds)
    (hsame : ∀ entry ∈ all, entry.id = source.id → entry.rect = source.rect) :
    scanOutputs source seenIds seenSource all =
      .ok (seenSource || all.any fun entry => decide (entry.id = source.id)) := by
  induction all generalizing seenIds seenSource with
  | nil => rw [scanOutputs, List.any_nil, Bool.or_false]
  | cons entry all ih =>
    rw [List.map_cons, List.nodup_cons] at hdistinct
    have hnext : ∀ e ∈ all, e.id ∉ entry.id :: seenIds := by
      intro e he hin
      rcases List.mem_cons.mp hin with heq | hin
      · exact hdistinct.1 (heq ▸ List.mem_map_of_mem he)
      · exact hfresh e (List.mem_cons_of_mem _ he) hin
    have hnew : seenIds.contains entry.id = false := by
      rw [List.contains_eq_mem, decide_eq_false (hfresh entry List.mem_cons_self)]
    have hrest := @ih (entry.id :: seenIds) true (fun e he => hreadable e (List.mem_cons_of_mem _ he))
      hdistinct.2 hnext (fun e he => hsame e (List.mem_cons_of_mem _ he))
    have hrest' := @ih (entry.id :: seenIds) seenSource
      (fun e he => hreadable e (List.mem_cons_of_mem _ he)) hdistinct.2 hnext
      (fun e he => hsame e (List.mem_cons_of_mem _ he))
    rw [scanOutputs, hreadable entry List.mem_cons_self, hnew, List.any_cons]
    simp only [ensure_true, Bool.not_false, bind, Except.bind]
    split
    · rename_i hid
      rw [hsame entry List.mem_cons_self hid, beq_self_eq_true, decide_eq_true hid]
      rw [ensure_true, Bool.true_or, Bool.or_true]
      simpa using hrest
    · rename_i hid
      rw [decide_eq_false hid, Bool.false_or]
      exact hrest'

theorem validRect_bounds {r : Rect} (h : validRect r = true) (axis : Axis) :
    1 ≤ r.extent axis ∧ IntRange.i32.lo ≤ r.start axis ∧ r.start axis ≤ IntRange.i32.hi ∧
      r.extent axis ≤ IntRange.i32.hi ∧ r.start axis + r.extent axis ≤ IntRange.i32.hi := by
  have hfits := fits_of_validRect h axis
  omega

theorem checkedAdd_of_valid {r : Rect} (h : validRect r = true) (axis : Axis) :
    IntRange.i32.checkedAdd (r.start axis) (r.extent axis) = some (r.start axis + r.extent axis) := by
  have hbounds := validRect_bounds h axis
  have hstart : IntRange.i32.check (r.start axis) = some (r.start axis) :=
    IntRange.check_eq_some.mpr ⟨rfl, by omega⟩
  have hextent : IntRange.i32.check (r.extent axis) = some (r.extent axis) :=
    IntRange.check_eq_some.mpr ⟨rfl, by simp only [IntRange.i32] at *; omega⟩
  rw [IntRange.checkedAdd, hstart, hextent]
  refine IntRange.check_eq_some.mpr ⟨rfl, ?_⟩
  simp only [IntRange.i32] at *
  omega

theorem touches_iff {r s : Rect} (hr : validRect r = true) (hs : validRect s = true) :
    touches r s direction = true ↔
      if 0 < stepFor direction then
        r.start (Axis.forDirection direction) + r.extent (Axis.forDirection direction) =
          s.start (Axis.forDirection direction)
      else s.start (Axis.forDirection direction) + s.extent (Axis.forDirection direction) =
        r.start (Axis.forDirection direction) := by
  have hright := checkedAdd_of_valid hr (Axis.forDirection direction)
  have hleft := checkedAdd_of_valid hs (Axis.forDirection direction)
  cases direction
  · exact beq_iff_eq.trans (by rw [show IntRange.i32.checkedAdd s.x s.w = _ from hleft]; exact Option.some_inj)
  · exact beq_iff_eq.trans (by rw [show IntRange.i32.checkedAdd r.x r.w = _ from hright]; exact Option.some_inj)
  · exact beq_iff_eq.trans (by rw [show IntRange.i32.checkedAdd s.y s.h = _ from hleft]; exact Option.some_inj)
  · exact beq_iff_eq.trans (by rw [show IntRange.i32.checkedAdd r.y r.h = _ from hright]; exact Option.some_inj)

theorem sharedInterval_eq {r s : Rect} : sharedInterval r s direction =
    (max (r.start (Rect.cross (Axis.forDirection direction)))
        (s.start (Rect.cross (Axis.forDirection direction))),
      min (r.start (Rect.cross (Axis.forDirection direction)) +
          r.extent (Rect.cross (Axis.forDirection direction)))
        (s.start (Rect.cross (Axis.forDirection direction)) +
          s.extent (Rect.cross (Axis.forDirection direction)))) := by
  cases direction <;> rfl

/-- What one output comes to: no candidate if it is the source itself or does
not touch it on that side, and otherwise one with the edge the two share. -/
theorem candidateOf_ok (hsource : validRect source.rect = true) (hentry : validRect entry.rect = true) :
    ∃ found, candidateOf source direction entry = .ok found ∧
      ∀ c, found = some c ↔ entry.id ≠ source.id ∧ c.id = entry.id ∧ c.rect = entry.rect ∧
        SharedEdge direction source.rect entry.rect c.edgeStart c.edgeEnd := by
  unfold candidateOf
  split
  · rename_i hid
    exact ⟨none, rfl, fun c => ⟨nofun, fun h => absurd hid h.1⟩⟩
  · rename_i hid
    split
    · rename_i haway
      refine ⟨none, rfl, fun c => ⟨nofun, fun ⟨_, _, _, hedge⟩ => ?_⟩⟩
      rw [(touches_iff hsource hentry).mpr hedge.1] at haway
      cases haway
    · rename_i hnear
      have htouches := (touches_iff hsource hentry).mp (by simpa using hnear)
      have hs := validRect_bounds hsource (Rect.cross (Axis.forDirection direction))
      have he := validRect_bounds hentry (Rect.cross (Axis.forDirection direction))
      rw [sharedInterval_eq]
      generalize hlo : max (source.rect.start (Rect.cross (Axis.forDirection direction)))
        (entry.rect.start (Rect.cross (Axis.forDirection direction))) = lo
      generalize hhi : min (source.rect.start (Rect.cross (Axis.forDirection direction)) +
          source.rect.extent (Rect.cross (Axis.forDirection direction)))
        (entry.rect.start (Rect.cross (Axis.forDirection direction)) +
          entry.rect.extent (Rect.cross (Axis.forDirection direction))) = hi
      dsimp only
      split
      · rename_i hempty
        refine ⟨none, rfl, fun c => ⟨nofun, fun ⟨_, _, _, _, hstart, hend, hlt⟩ => ?_⟩⟩
        rw [hstart, hend, hlo, hhi] at hlt
        omega
      · rename_i hsome
        have hstart : IntRange.i32.check lo = some lo :=
          IntRange.check_eq_some.mpr ⟨rfl, by simp only [IntRange.i32] at *; omega⟩
        have hlen : IntRange.i32.check (hi - lo) = some (hi - lo) :=
          IntRange.check_eq_some.mpr ⟨rfl, by simp only [IntRange.i32] at *; omega⟩
        have hend : IntRange.i32.checkedAdd lo (hi - lo) = some hi := by
          rw [IntRange.checkedAdd, hstart, hlen]
          exact IntRange.check_eq_some.mpr ⟨by omega, by simp only [IntRange.i32] at *; omega⟩
        rw [hstart, hlen]
        simp only [okOr_some, bind, Except.bind]
        rw [hend]
        refine ⟨_, rfl, fun c => ⟨fun h => ?_, fun ⟨_, hcid, hcrect, _, hcstart, hcend, _⟩ => ?_⟩⟩
        · cases h
          exact ⟨hid, rfl, rfl, htouches, hlo.symm, hhi.symm, by show lo < hi; omega⟩
        · cases c
          simp only [Option.some.injEq, Candidate.mk.injEq]
          exact ⟨hcid.symm, hcrect.symm, hlo.symm.trans hcstart.symm, hhi.symm.trans hcend.symm⟩

/-- A readable topology gives exactly the candidates: the scan finds every
rectangle valid and every id once, and no output fails. -/
theorem candidatesInDirection_ok (h : Presented source all) :
    ∃ candidates, candidatesInDirection source direction all = .ok candidates ∧
      ∀ c, c ∈ candidates ↔ IsCandidate source direction all c := by
  have hsource := h.readable source h.source
  have hscan := @scanOutputs_ok source all [] false h.readable h.distinct (fun _ _ => nofun)
    fun entry hentry hid => by rw [h.eq_of_id hentry h.source hid]
  have hseen : all.any (fun entry => decide (entry.id = source.id)) = true :=
    List.any_eq_true.mpr ⟨source, h.source, decide_eq_true rfl⟩
  rw [hseen, Bool.or_true] at hscan
  have hfound : ∃ found, all.mapM (candidateOf source direction) = .ok found ∧
      ∀ c, c ∈ found.reduceOption ↔ IsCandidate source direction all c := by
    have hreadable := h.readable
    clear hscan hseen h
    induction all with
    | nil => exact ⟨[], rfl, fun c => ⟨nofun, fun ⟨_, hentry, _⟩ => by cases hentry⟩⟩
    | cons entry all ih =>
      obtain ⟨found, hfound, hmem⟩ := ih fun e he => hreadable e (List.mem_cons_of_mem _ he)
      obtain ⟨first, hfirst, hiff⟩ := @candidateOf_ok source entry direction hsource
        (hreadable entry List.mem_cons_self)
      refine ⟨first :: found, ?_, fun c => ?_⟩
      · rw [List.mapM_cons, hfirst, hfound]
        rfl
      · rw [List.reduceOption_mem_iff, List.mem_cons, ← List.reduceOption_mem_iff, hmem]
        constructor
        · rintro (hhead | ⟨e, he, hrest⟩)
          · exact ⟨entry, List.mem_cons_self, (hiff c).mp hhead.symm⟩
          · exact ⟨e, List.mem_cons_of_mem _ he, hrest⟩
        · rintro ⟨e, he, hrest⟩
          rcases List.mem_cons.mp he with rfl | he
          · exact .inl ((hiff c).mpr hrest).symm
          · exact .inr ⟨e, he, hrest⟩
  obtain ⟨found, hfound, hmem⟩ := hfound
  refine ⟨sortBy leftTop found.reduceOption, ?_, fun c => mem_sortBy.trans (hmem c)⟩
  rw [candidatesInDirection, hsource, hscan, hfound]
  rfl

end

/-! ## The ranking -/

/-- Further left, or as far left and further up, or the smaller id. -/
def LeftOf (c c' : Candidate) : Prop :=
  c.rect.x < c'.rect.x ∨ c.rect.x = c'.rect.x ∧
    (c.rect.y < c'.rect.y ∨ c.rect.y = c'.rect.y ∧ compare c.id c'.id = .lt)

/-- The window's centre falls on the candidate's edge. -/
def Centred (window : Rect) (direction : Direction) (c : Candidate) : Prop :=
  let cross := Rect.cross (Axis.forDirection direction)
  2 * c.edgeStart ≤ 2 * window.start cross + window.extent cross ∧
    2 * window.start cross + window.extent cross < 2 * c.edgeEnd

/-- How much of the candidate's edge the window spans. -/
def spanOf (window : Rect) (direction : Direction) (c : Candidate) : Int :=
  let cross := Rect.cross (Axis.forDirection direction)
  max (min (window.start cross + window.extent cross) c.edgeEnd - max (window.start cross) c.edgeStart) 0

/-- `c` comes before `c'` for a window. An edge that has the window's centre
comes before one that has not; of two without it the one the window spans
more; and last the one further left. -/
def Outranks (window : Rect) (direction : Direction) (c c' : Candidate) : Prop :=
  Centred window direction c ∧ ¬Centred window direction c' ∨
    (Centred window direction c ↔ Centred window direction c') ∧
      (¬Centred window direction c ∧ spanOf window direction c' < spanOf window direction c ∨
        (Centred window direction c ∨ spanOf window direction c = spanOf window direction c') ∧
          LeftOf c c')

/-- `c` comes before `c'` for a whole workspace: the longer shared edge, and
of two equal ones the one further left. -/
def SharesMore (c c' : Candidate) : Prop :=
  c'.edgeEnd - c'.edgeStart < c.edgeEnd - c.edgeStart ∨
    c.edgeEnd - c.edgeStart = c'.edgeEnd - c'.edgeStart ∧ LeftOf c c'

section
variable {source : OutputEntry} {all all' : List OutputEntry} {direction : Direction}
  {c c' : Candidate} {window : Rect} {o : Ordering}

instance : Std.TransCmp leftTop :=
  inferInstanceAs (Std.TransCmp (compareLex (compareOn fun c : Candidate => c.rect.x)
    (compareLex (compareOn fun c : Candidate => c.rect.y) (compareOn fun c : Candidate => c.id))))

theorem compare_then_lt {a b : Int} : (compare a b).then o = .lt ↔ a < b ∨ a = b ∧ o = .lt := by
  rw [Ordering.then_eq_lt, compare_lt_iff_lt, compare_eq_iff_eq]

theorem leftTop_eq_lt : leftTop c c' = .lt ↔ LeftOf c c' := by
  rw [leftTop, compare_then_lt, compare_then_lt, LeftOf]

theorem id_eq_of_leftTop (h : leftTop c c' = .eq) : c.id = c'.id := by
  rw [leftTop, Ordering.then_eq_eq, Ordering.then_eq_eq] at h
  exact Std.LawfulEqOrd.eq_of_compare h.2.2

theorem migrationRank_eq_lt : migrationRank c c' = .lt ↔ SharesMore c c' := by
  rw [migrationRank, compare_then_lt, leftTop_eq_lt, SharesMore, eq_comm]

theorem compare_congr {a b a' b' : Int} (hlt : a < b ↔ a' < b') (heq : a = b ↔ a' = b') :
    compare a b = compare a' b' := by
  rcases lt_trichotomy a b with h | h | h
  · rw [compare_lt_iff_lt.mpr h, compare_lt_iff_lt.mpr (hlt.mp h)]
  · rw [compare_eq_iff_eq.mpr h, compare_eq_iff_eq.mpr (heq.mp h)]
  · rw [compare_gt_iff_gt.mpr h, compare_gt_iff_gt.mpr (by omega)]

/-- The longer edge first: the smaller difference the other way round. -/
theorem migrationRank_eq : migrationRank =
    compareLex (compareOn fun c : Candidate => c.edgeStart - c.edgeEnd) leftTop := by
  funext c c'
  refine congrArg (Ordering.then · (leftTop c c')) (compare_congr ?_ ?_)
  · show _ ↔ c.edgeStart - c.edgeEnd < c'.edgeStart - c'.edgeEnd
    omega
  · show _ ↔ c.edgeStart - c.edgeEnd = c'.edgeStart - c'.edgeEnd
    omega

instance : Std.TransCmp migrationRank := by
  rw [migrationRank_eq]
  infer_instance

theorem centreContained_iff (hwindow : validRect window = true) :
    centreContained window c.edgeStart c.edgeEnd (isHorizontal direction) = true ↔
      Centred window direction c := by
  have hbounds := validRect_bounds hwindow (Rect.cross (Axis.forDirection direction))
  have hdoubled : ((IntRange.i64.check (window.start (Rect.cross (Axis.forDirection direction)) * 2)).bind
      fun v => IntRange.i64.checkedAdd v (window.extent (Rect.cross (Axis.forDirection direction)))) =
        some (window.start (Rect.cross (Axis.forDirection direction)) * 2 +
          window.extent (Rect.cross (Axis.forDirection direction))) := by
    generalize window.start (Rect.cross (Axis.forDirection direction)) = start at hbounds ⊢
    generalize window.extent (Rect.cross (Axis.forDirection direction)) = extent at hbounds ⊢
    simp only [IntRange.i32] at hbounds
    have hstart : IntRange.i64.check (start * 2) = some (start * 2) :=
      IntRange.check_eq_some.mpr ⟨rfl, by simp only [IntRange.i64]; omega⟩
    have hextent : IntRange.i64.check extent = some extent :=
      IntRange.check_eq_some.mpr ⟨rfl, by simp only [IntRange.i64]; omega⟩
    rw [hstart, Option.bind_some, IntRange.checkedAdd, hstart, hextent]
    exact IntRange.check_eq_some.mpr ⟨rfl, by simp only [IntRange.i64]; omega⟩
  have hcontained : centreContained window c.edgeStart c.edgeEnd (isHorizontal direction) =
      ((IntRange.i64.check (window.start (Rect.cross (Axis.forDirection direction)) * 2)).bind fun v =>
        IntRange.i64.checkedAdd v (window.extent (Rect.cross (Axis.forDirection direction)))).any
          fun doubled => decide (c.edgeStart * 2 ≤ doubled) && decide (doubled < c.edgeEnd * 2) := by
    cases direction <;> rfl
  rw [hcontained, hdoubled, Option.any_some, Bool.and_eq_true, decide_eq_true_eq, decide_eq_true_eq,
    Centred]
  omega

theorem windowEdgeOverlap_eq :
    windowEdgeOverlap window c (isHorizontal direction) = spanOf window direction c := by
  have hend : c.edgeStart + (c.edgeEnd - c.edgeStart) = c.edgeEnd := by omega
  cases direction <;> simp [windowEdgeOverlap, spanOf, isHorizontal, overlap, hend, Rect.start,
    Rect.extent, Rect.cross, Axis.forDirection]

/-- The centred first, then the larger overlap among the others. -/
theorem windowRank_eq {horizontal : Bool} : windowRank window horizontal =
    compareLex (compareOn fun c : Candidate =>
        if centreContained window c.edgeStart c.edgeEnd horizontal then (0 : Int) else 1)
      (compareLex (compareOn fun c : Candidate =>
          if centreContained window c.edgeStart c.edgeEnd horizontal then 0
          else -windowEdgeOverlap window c horizontal) leftTop) := by
  funext c c'
  simp only [windowRank, compareLex, compareOn]
  cases centreContained window c.edgeStart c.edgeEnd horizontal <;>
    cases centreContained window c'.edgeStart c'.edgeEnd horizontal
  · refine congrArg (Ordering.then .eq) (congrArg (Ordering.then · (leftTop c c')) ?_)
    exact compare_congr (by simp) (by simp [eq_comm])
  · rfl
  · rfl
  · rfl

instance {horizontal : Bool} : Std.TransCmp (windowRank window horizontal) := by
  rw [windowRank_eq]
  infer_instance

theorem windowRank_eq_lt (hwindow : validRect window = true) :
    windowRank window (isHorizontal direction) c c' = .lt ↔ Outranks window direction c c' := by
  rw [windowRank_eq, compareLex, compareOn, compareLex, compareOn, compare_then_lt, compare_then_lt,
    leftTop_eq_lt, Outranks, ← centreContained_iff hwindow, ← centreContained_iff hwindow,
    windowEdgeOverlap_eq, windowEdgeOverlap_eq]
  cases centreContained window c.edgeStart c.edgeEnd (isHorizontal direction) <;>
    cases centreContained window c'.edgeStart c'.edgeEnd (isHorizontal direction) <;> simp

theorem id_eq_of_windowRank {horizontal : Bool} (h : windowRank window horizontal c c' = .eq) :
    c.id = c'.id := by
  rw [windowRank, Ordering.then_eq_eq, Ordering.then_eq_eq] at h
  exact id_eq_of_leftTop h.2.2

theorem id_eq_of_migrationRank (h : migrationRank c c' = .eq) : c.id = c'.id := by
  rw [migrationRank, Ordering.then_eq_eq] at h
  exact id_eq_of_leftTop h.2

/-! ## The choice -/

/-- The best candidate by a ranking: a candidate that comes before every other
one. No tie is left open. -/
def Best (before : Candidate → Candidate → Prop) (source : OutputEntry) (direction : Direction)
    (all : List OutputEntry) (c : Candidate) : Prop :=
  IsCandidate source direction all c ∧ ∀ c', IsCandidate source direction all c' → c' ≠ c → before c c'

/-- The first by a ranking that tells outputs apart is the best candidate. -/
theorem head?_ranked {rank : Candidate → Candidate → Ordering} [Std.TransCmp rank]
    {before : Candidate → Candidate → Prop} (hbefore : ∀ c c', rank c c' = .lt ↔ before c c')
    (hid : ∀ c c', rank c c' = .eq → c.id = c'.id) (h : Presented source all)
    {candidates : List Candidate} (hmem : ∀ c, c ∈ candidates ↔ IsCandidate source direction all c) :
    (sortBy rank candidates).head? = some c ↔ Best before source direction all c := by
  have hsep : Separates rank candidates := fun a ha b hb heq =>
    IsCandidate.eq_of_id h ((hmem a).mp ha) ((hmem b).mp hb) (hid a b heq)
  rw [head?_sortBy hsep, First, Best, hmem]
  refine and_congr_right fun _ => forall_congr' fun c' => ?_
  rw [hmem, hbefore]

theorem head?_ranked_none {rank : Candidate → Candidate → Ordering} {candidates : List Candidate}
    (hmem : ∀ c, c ∈ candidates ↔ IsCandidate source direction all c) :
    (sortBy rank candidates).head? = none ↔ ∀ entry ∈ all, entry.id ≠ source.id →
      ∀ lo hi, ¬SharedEdge direction source.rect entry.rect lo hi := by
  rw [List.head?_eq_none_iff, List.eq_nil_iff_forall_not_mem]
  constructor
  · intro hnone entry hentry hother lo hi hedge
    exact hnone ⟨entry.id, entry.rect, lo, hi⟩
      (mem_sortBy.mpr ((hmem _).mpr ⟨entry, hentry, hother, rfl, rfl, hedge⟩))
  · intro hnone c hc
    obtain ⟨entry, hentry, hother, -, -, hedge⟩ := (hmem c).mp (mem_sortBy.mp hc)
    exact hnone entry hentry hother _ _ hedge

theorem best_perm {before : Candidate → Candidate → Prop} (hperm : all.Perm all') :
    Best before source direction all c ↔ Best before source direction all' c := by
  have hmem : ∀ c, IsCandidate source direction all c ↔ IsCandidate source direction all' c :=
    fun c => ⟨fun h => h.perm hperm, fun h => h.perm hperm.symm⟩
  rw [Best, Best, hmem]
  exact and_congr_right fun _ => forall_congr' fun c' => by rw [hmem]

/-- What a window's selection returns. -/
theorem selectForWindow_ok (h : Presented source all) (hwindow : validRect window = true) :
    ∃ choice, selectForWindow direction source window all = .ok choice ∧
      (∀ c, choice = some c ↔ Best (Outranks window direction) source direction all c) ∧
      (choice = none ↔ ∀ entry ∈ all, entry.id ≠ source.id →
        ∀ lo hi, ¬SharedEdge direction source.rect entry.rect lo hi) := by
  obtain ⟨candidates, hcandidates, hmem⟩ := @candidatesInDirection_ok source all direction h
  refine ⟨(sortBy (windowRank window (isHorizontal direction)) candidates).head?, ?_, fun c => ?_,
    head?_ranked_none hmem⟩
  · rw [selectForWindow, hwindow, hcandidates]
    rfl
  · exact head?_ranked (fun _ _ => windowRank_eq_lt hwindow) (fun _ _ => id_eq_of_windowRank) h hmem

/-- What a whole workspace's selection returns. -/
theorem selectForMigration_ok (h : Presented source all) :
    ∃ choice, selectForMigration direction source all = .ok choice ∧
      (∀ c, choice = some c ↔ Best SharesMore source direction all c) ∧
      (choice = none ↔ ∀ entry ∈ all, entry.id ≠ source.id →
        ∀ lo hi, ¬SharedEdge direction source.rect entry.rect lo hi) := by
  obtain ⟨candidates, hcandidates, hmem⟩ := @candidatesInDirection_ok source all direction h
  refine ⟨(sortBy migrationRank candidates).head?, ?_, fun c => ?_, head?_ranked_none hmem⟩
  · rw [selectForMigration, hcandidates]
    rfl
  · exact head?_ranked (fun _ _ => migrationRank_eq_lt) (fun _ _ => id_eq_of_migrationRank) h hmem

/-- Whoever lies beyond the edge sees the same edge. -/
theorem candidates_opposite (h : Presented source all) {other : OutputEntry} (hother : other ∈ all) :
    ∃ candidates back, candidatesInDirection source direction all = .ok candidates ∧
      candidatesInDirection other (oppositeDirection direction) all = .ok back ∧
      ∀ lo hi, (∃ c ∈ candidates, c.id = other.id ∧ c.edgeStart = lo ∧ c.edgeEnd = hi) ↔
        ∃ c ∈ back, c.id = source.id ∧ c.edgeStart = lo ∧ c.edgeEnd = hi := by
  have hpresented : Presented other all := ⟨h.readable, h.distinct, hother⟩
  obtain ⟨candidates, hcandidates, hmem⟩ := @candidatesInDirection_ok source all direction h
  obtain ⟨back, hback, hmemBack⟩ :=
    @candidatesInDirection_ok other all (oppositeDirection direction) hpresented
  refine ⟨candidates, back, hcandidates, hback, fun lo hi => ⟨?_, ?_⟩⟩
  · rintro ⟨c, hc, hid, rfl, rfl⟩
    obtain ⟨entry, hentry, hne, hcid, -, hedge⟩ := (hmem c).mp hc
    obtain rfl := h.eq_of_id hentry hother (hcid.symm.trans hid)
    refine ⟨⟨source.id, source.rect, c.edgeStart, c.edgeEnd⟩, (hmemBack _).mpr ?_, rfl, rfl, rfl⟩
    exact ⟨source, h.source, Ne.symm hne, rfl, rfl, sharedEdge_opposite.mp hedge⟩
  · rintro ⟨c, hc, hid, rfl, rfl⟩
    obtain ⟨entry, hentry, hne, hcid, -, hedge⟩ := (hmemBack c).mp hc
    obtain rfl := h.eq_of_id hentry h.source (hcid.symm.trans hid)
    refine ⟨⟨other.id, other.rect, c.edgeStart, c.edgeEnd⟩, (hmem _).mpr ?_, rfl, rfl, rfl⟩
    exact ⟨other, hother, Ne.symm hne, rfl, rfl, sharedEdge_opposite.mpr hedge⟩

/-- Both selections find the one best candidate of a readable topology,
whatever its order, and none exactly when nothing lies beyond the edge. Seen
from the other side the candidates and their edges are the same. -/
theorem selection_best (h : Presented source all) (hwindow : validRect window = true) :
    (∃ choice, selectForWindow direction source window all = .ok choice ∧
        (∀ c, choice = some c ↔ Best (Outranks window direction) source direction all c) ∧
        (choice = none ↔ ∀ entry ∈ all, entry.id ≠ source.id →
          ∀ lo hi, ¬SharedEdge direction source.rect entry.rect lo hi)) ∧
      (∃ choice, selectForMigration direction source all = .ok choice ∧
        (∀ c, choice = some c ↔ Best SharesMore source direction all c) ∧
        (choice = none ↔ ∀ entry ∈ all, entry.id ≠ source.id →
          ∀ lo hi, ¬SharedEdge direction source.rect entry.rect lo hi)) ∧
      (∀ all', all.Perm all' →
        selectForWindow direction source window all' = selectForWindow direction source window all ∧
        selectForMigration direction source all' = selectForMigration direction source all) ∧
      ∀ other ∈ all, ∃ candidates back,
        candidatesInDirection source direction all = .ok candidates ∧
        candidatesInDirection other (oppositeDirection direction) all = .ok back ∧
        ∀ lo hi, (∃ c ∈ candidates, c.id = other.id ∧ c.edgeStart = lo ∧ c.edgeEnd = hi) ↔
          ∃ c ∈ back, c.id = source.id ∧ c.edgeStart = lo ∧ c.edgeEnd = hi := by
  refine ⟨selectForWindow_ok h hwindow, selectForMigration_ok h, fun all' hperm => ⟨?_, ?_⟩,
    fun other hother => candidates_opposite h hother⟩
  · obtain ⟨choice, hchoice, hbest, -⟩ := @selectForWindow_ok source all direction window h hwindow
    obtain ⟨choice', hchoice', hbest', -⟩ :=
      @selectForWindow_ok source all' direction window (h.perm hperm) hwindow
    rw [hchoice, hchoice']
    exact congrArg _ (Option.ext fun c => by rw [hbest, hbest', best_perm hperm])
  · obtain ⟨choice, hchoice, hbest, -⟩ := @selectForMigration_ok source all direction h
    obtain ⟨choice', hchoice', hbest', -⟩ := @selectForMigration_ok source all' direction (h.perm hperm)
    rw [hchoice, hchoice']
    exact congrArg _ (Option.ext fun c => by rw [hbest, hbest', best_perm hperm])

/-- An output with a low and a high one beside it, and another behind them. -/
def cornered : List OutputEntry :=
  [⟨⟨"far"⟩, ⟨200, 0, 100, 100⟩⟩, ⟨⟨"a"⟩, ⟨0, 0, 100, 100⟩⟩, ⟨⟨"low"⟩, ⟨100, 0, 100, 30⟩⟩,
    ⟨⟨"high"⟩, ⟨100, 30, 100, 70⟩⟩]

/-- The window at the top goes to the low output, the workspace to the high
one, which shares more of the edge. -/
theorem selection_best_cornered :
    (∃ c, selectForWindow .right ⟨⟨"a"⟩, ⟨0, 0, 100, 100⟩⟩ ⟨10, 5, 50, 20⟩ cornered = .ok (some c) ∧
        c.id = ⟨"low"⟩ ∧
        Best (Outranks ⟨10, 5, 50, 20⟩ .right) ⟨⟨"a"⟩, ⟨0, 0, 100, 100⟩⟩ .right cornered c) ∧
      ∃ c, selectForMigration .right ⟨⟨"a"⟩, ⟨0, 0, 100, 100⟩⟩ cornered = .ok (some c) ∧
        c.id = ⟨"high"⟩ ∧ Best SharesMore ⟨⟨"a"⟩, ⟨0, 0, 100, 100⟩⟩ .right cornered c := by
  have hpresented : Presented ⟨⟨"a"⟩, ⟨0, 0, 100, 100⟩⟩ cornered := ⟨by decide, by decide, by decide⟩
  obtain ⟨⟨choice, hwindow, hbest, -⟩, ⟨choice', hmigration, hbest', -⟩, -⟩ :=
    @selection_best _ _ .right ⟨10, 5, 50, 20⟩ hpresented (by decide)
  have hlow : ((selectForWindow .right ⟨⟨"a"⟩, ⟨0, 0, 100, 100⟩⟩ ⟨10, 5, 50, 20⟩
      cornered).toOption.join.map Candidate.id) = some ⟨"low"⟩ := by decide +kernel
  have hhigh : ((selectForMigration .right ⟨⟨"a"⟩, ⟨0, 0, 100, 100⟩⟩
      cornered).toOption.join.map Candidate.id) = some ⟨"high"⟩ := by decide +kernel
  rw [hwindow] at hlow
  rw [hmigration] at hhigh
  obtain ⟨c, hc, hid⟩ := Option.map_eq_some_iff.mp hlow
  obtain ⟨c', hc', hid'⟩ := Option.map_eq_some_iff.mp hhigh
  obtain rfl : choice = some c := hc
  obtain rfl : choice' = some c' := hc'
  exact ⟨⟨c, hwindow, hid, (hbest c).mp rfl⟩, c', hmigration, hid', (hbest' c').mp rfl⟩

end

end OutputSelection

end PlasmaTiler
