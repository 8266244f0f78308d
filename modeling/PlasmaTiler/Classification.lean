import PlasmaTiler.Folds
import PlasmaTiler.Planned

/-!
# What convergence decides about one window

A convergence is eight passes over maps, each of which may take a window out
of a tree, put it among the exceptions, mark it or unmark it, or tile it. To
say where a window ends one would have to follow it through all of them, with
the others changing the maps around it.

Every pass reads and writes the entries of one window at a time, so the whole
chain of passes is a function of where the window stands (`Stance`) and of
the signals it is observed with. `Stance.settle` is that function, over
Booleans alone, and what it does is settled by cases: every observed window
ends in exactly one membership (`settle_placed`), and the result is stable
under a second run unless the window settles late (`stable_settle`).

`convergePasses_stance` says the passes over the maps compute it for every
observed window, and that nothing else stays. For each pass there is a lemma
that it acts on the view of its own window and on no other; the rule for
folds of such steps does the rest.
-/

namespace PlasmaTiler

/-! ## One window -/

/-- What decides about an observed window: the opt-in, its flags and origin
signals, and whether its hints are fixed-size. -/
structure Signals where
  fixedAdmission : Bool
  floating : Bool
  fullscreen : Bool
  sticky : Bool
  fixedAuto : Bool
  fixedSuppress : Bool
  fixedNow : Bool

/-- Where a window stands: its memberships and its marks. -/
@[ext] structure Stance where
  tiled : Bool
  excepted : Bool
  automatic : Bool
  override : Bool
deriving DecidableEq

namespace Stance

/-- In at most one membership. -/
def disjoint (v : Stance) : Bool := !(v.tiled && v.excepted)

def known (v : Stance) : Bool := v.tiled || v.excepted

section
variable (g : Signals) (v start : Stance)

def float : Stance :=
  if g.floating && v.tiled then { v with tiled := false, excepted := true } else v

/-- Whether the retile pass visits the window. -/
def retiles : Bool :=
  start.excepted && !g.floating && (!g.fixedAdmission || !g.fullscreen) && v.excepted

/-- Whether the retile pass keeps an automatic float. -/
def staysAutomatic : Bool := g.fixedAdmission && v.automatic && !g.fixedSuppress && g.fixedNow

def retile : Stance :=
  if v.staysAutomatic g then v
  else if g.fixedAdmission && !v.automatic && !g.fixedSuppress && !start.override && !g.sticky &&
      g.fixedNow then { v with automatic := true }
  else
    { v with
      excepted := false
      automatic := false
      override := v.override || (g.fixedAdmission && g.fixedSuppress) }

def adoptSticky : Stance := if g.sticky && v.automatic then { v with automatic := false } else v

/-- Whether the origin pass marks the window. -/
def adoptsOrigin : Bool :=
  g.floating && g.fixedAuto && !g.fixedSuppress && !g.sticky && v.excepted && !v.automatic &&
    !(start.override || v.override) && g.fixedAdmission

def adoptOrigin : Stance := if v.adoptsOrigin g start then { v with automatic := true } else v

def floatNew : Stance :=
  if g.floating && !start.tiled && !start.excepted then
    { v with
      excepted := true
      automatic := v.automatic || (g.fixedAdmission && g.fixedAuto && !g.fullscreen &&
        !g.sticky && !g.fixedSuppress && !start.override) }
  else v

def brandNew : Bool := !start.tiled && !start.excepted && !v.excepted

def hold : Stance :=
  if g.fixedAdmission && !g.sticky && v.brandNew start && g.fullscreen && !g.floating then
    { v with excepted := true }
  else v

def floatFixed : Stance :=
  if v.brandNew start && (g.fixedAdmission && !g.floating && !g.fullscreen && !g.sticky &&
      !g.fixedSuppress && !start.override && g.fixedNow) then
    { v with excepted := true, automatic := true }
  else v

def tile : Stance :=
  if g.floating || v.tiled || v.excepted then v
  else
    { v with
      tiled := true
      automatic := v.automatic && !(g.fixedAdmission && g.fixedSuppress)
      override := v.override || (g.fixedAdmission && g.fixedSuppress) }

/-- The passes before admission, after the float pass. -/
def classified : Stance :=
  ((((((if v.retiles g start then v.retile g start else v).adoptSticky g).adoptOrigin g start
    ).floatNew g start).hold g start).floatFixed g start)

/-- All passes over one observed window. -/
def settle : Stance := ((start.float g).classified g start).tile g

/-- No pass changes anything about a window that stands here. -/
def stable : Bool :=
  v.known && !(g.floating && v.tiled) && (!v.retiles g v || v.staysAutomatic g) &&
    !(g.sticky && v.automatic) && !v.adoptsOrigin g v

/-- A new window floated in fullscreen takes its origin mark one pass late. -/
def marksLate : Bool :=
  g.fixedAdmission && g.floating && g.fullscreen && g.fixedAuto && !g.fixedSuppress &&
    !g.sticky && !v.known && !v.automatic && !v.override

/-- A sticky automatic float loses its mark after it kept its place for it. -/
def retilesLate : Bool :=
  g.fixedAdmission && !g.floating && !g.fullscreen && g.sticky && !g.fixedSuppress &&
    g.fixedNow && v.excepted && v.automatic

def settlesLate : Bool := v.marksLate g || v.retilesLate g

end

/-- Every observed window ends in exactly one membership. -/
theorem settle_placed {g : Signals} {v : Stance} (h : v.disjoint = true) :
    ((v.settle g).disjoint && (v.settle g).known) = true := by
  obtain ⟨tiled, excepted, automatic, override⟩ := v
  obtain ⟨fixedAdmission, floating, fullscreen, sticky, fixedAuto, fixedSuppress, fixedNow⟩ := g
  revert tiled excepted automatic override fixedAdmission floating fullscreen sticky fixedAuto
    fixedSuppress fixedNow
  decide +kernel

/-- The passes leave a window stable unless it settles late. -/
theorem stable_settle {g : Signals} {v : Stance} (h : v.disjoint = true) :
    (v.settle g).stable g = !v.settlesLate g := by
  obtain ⟨tiled, excepted, automatic, override⟩ := v
  obtain ⟨fixedAdmission, floating, fullscreen, sticky, fixedAuto, fixedSuppress, fixedNow⟩ := g
  revert tiled excepted automatic override fixedAdmission floating fullscreen sticky fixedAuto
    fixedSuppress fixedNow
  decide +kernel

/-- A window that settles late ends elsewhere when the passes run again. -/
theorem settle_settle_ne {g : Signals} {v : Stance} (h : v.disjoint = true)
    (hlate : v.settlesLate g = true) : (v.settle g).settle g ≠ v.settle g := by
  obtain ⟨tiled, excepted, automatic, override⟩ := v
  obtain ⟨fixedAdmission, floating, fullscreen, sticky, fixedAuto, fixedSuppress, fixedNow⟩ := g
  revert tiled excepted automatic override fixedAdmission floating fullscreen sticky fixedAuto
    fixedSuppress fixedNow
  decide +kernel

end Stance

namespace Converging

/-- Where a window stands in the world in the making. -/
def stance (c : Converging) (w : WindowId) : Stance :=
  ⟨c.windows.contains w, c.exceptions.contains w, c.automatic.contains w,
    c.tileOverride.contains w⟩

section
variable {c : Converging} {w k : WindowId} {link : WindowLink} {entry : ObservedWindow}
  {geometry : Option Rect}

theorem stance_tiled : (c.stance k).tiled = c.windows[k]?.isSome :=
  Std.ExtTreeMap.contains_eq_isSome_getElem?

@[simp] theorem stance_counted : c.counted.stance k = c.stance k := rfl

@[simp] theorem stance_untile : (c.untile w link).stance k =
    if w = k then { c.stance k with tiled := false } else c.stance k := by
  by_cases h : w = k <;> simp [stance, untile, h]

@[simp] theorem stance_float : (c.float w entry geometry).stance k =
    if w = k then { c.stance k with excepted := true } else c.stance k := by
  by_cases h : w = k <;> simp [stance, float, h]

@[simp] theorem stance_mark : (c.mark w).stance k =
    if w = k then { c.stance k with automatic := true } else c.stance k := by
  by_cases h : w = k <;> simp [stance, mark, h]

@[simp] theorem stance_unmark : (c.unmark w).stance k =
    if w = k then { c.stance k with automatic := false } else c.stance k := by
  by_cases h : w = k <;> simp [stance, unmark, h]

end

end Converging

/-! ## The passes act window by window -/

namespace Session

variable {s : Session} {observed : BTreeMap WindowId ObservedWindow} {baseRevision : Nat}
  {c : Converging}

/-- The signals a window is observed with. -/
def signals (s : Session) (e : ObservedWindow) : Signals where
  fixedAdmission := s.fixedAdmission
  floating := e.floating
  fullscreen := e.fullscreen
  sticky := e.sticky
  fixedAuto := e.fixedAuto
  fixedSuppress := e.fixedSuppress
  fixedNow := isFixedSizeWith e.hints s.fixedPredicate

/-- The stance in the accepted world. -/
abbrev stance (s : Session) (w : WindowId) : Stance := s.converging.stance w

/-- What removal does to a window that is not observed. -/
def removedStance (observed : BTreeMap WindowId ObservedWindow) (w : WindowId) (v : Stance) :
    Stance :=
  if observed.contains w then v
  else if v.tiled then { v with tiled := false }
  else { v with excepted := false }

theorem removeStep_local {l : List WindowId} :
    Local (fun c w c' => removeStep observed c w = some c') l Converging.stance id
      (removedStance observed) := by
  intro w _ c c' h
  unfold removeStep at h
  unfold removedStance
  split at h
  · cases h
    simp [*]
  · rename_i hobserved
    split at h
    · rename_i link hlink
      cases h
      have htiled : (c.stance w).tiled = true := by rw [Converging.stance_tiled, hlink]; rfl
      rw [id, if_neg hobserved, if_pos htiled]
      exact ⟨by simp [Converging.stance, Converging.untile],
        fun k hk => by simp [Converging.stance, Converging.untile, hk]⟩
    · rename_i hlink
      have htiled : (c.stance w).tiled = false := by rw [Converging.stance_tiled, hlink]; rfl
      split at h
      · cases h
        rw [id, if_neg hobserved, if_neg (by simp [htiled])]
        exact ⟨by simp [Converging.stance], fun k hk => by simp [Converging.stance, hk]⟩
      · cases h

theorem floatStep_local {l : List (WindowId × ObservedWindow)} :
    Local (fun c p c' => s.floatStep c p = c') l Converging.stance Prod.fst
      (fun p v => v.float (s.signals p.2)) := by
  rintro ⟨w, e⟩ _ c c' rfl
  unfold floatStep Stance.float
  cases hfloating : e.floating with
  | false => simp [signals, hfloating]
  | true =>
    cases hlink : c.windows[w]? with
    | none =>
      have htiled : (c.stance w).tiled = false := by rw [Converging.stance_tiled, hlink]; rfl
      simp [htiled]
    | some link =>
      have htiled : (c.stance w).tiled = true := by rw [Converging.stance_tiled, hlink]; rfl
      refine ⟨?_, fun k hk => ?_⟩
      · simp [htiled, hfloating, signals]
      · simp only at hk
        simp [hk]

/-- The retile pass visits the windows `toTile` lists, with their entries. -/
theorem mem_toTile {w : WindowId} : w ∈ s.toTile observed c ↔
    ∃ e, observed[w]? = some e ∧ (c.stance w).retiles (s.signals e) (s.stance w) = true := by
  simp only [toTile, List.mem_filter, Std.ExtTreeMap.mem_keys, Bool.and_eq_true, Option.any_eq_true,
    Stance.retiles, signals, stance, Converging.stance, converging, ← Std.ExtTreeMap.contains_iff_mem]
  grind

/-- What the retile pass does to a window it visits. -/
def retileEffect (s : Session) (observed : BTreeMap WindowId ObservedWindow) (w : WindowId)
    (v : Stance) : Stance :=
  match observed[w]? with
  | none => v
  | some e => v.retile (s.signals e) (s.stance w)

theorem retileStep_local {l : List WindowId} :
    Local (fun c w c' => s.retileStep observed c w = c') l Converging.stance id
      (s.retileEffect observed) := by
  rintro w _ c c' rfl
  unfold retileEffect
  cases he : observed[w]? with
  | none => simp [retileStep, he]
  | some e =>
    have hstays : (c.stance w).staysAutomatic (s.signals e) =
      (s.fixedAdmission && c.automatic.contains w && !e.fixedSuppress &&
        isFixedSizeWith e.hints s.fixedPredicate) := rfl
    have hautomatic : (c.stance w).automatic = c.automatic.contains w := rfl
    rw [id]
    simp only [retileStep, he, Stance.retile, hstays, hautomatic]
    split
    · simp
    · have hmarks : (s.fixedAdmission && !c.automatic.contains w && !e.fixedSuppress &&
          !s.fixedTileOverride.contains w && !e.sticky && isFixedSizeWith e.hints s.fixedPredicate) =
        ((s.signals e).fixedAdmission && !c.automatic.contains w && !(s.signals e).fixedSuppress &&
          !(s.stance w).override && !(s.signals e).sticky && (s.signals e).fixedNow) := rfl
      rw [hmarks]
      split
      · simp +contextual
      · refine ⟨?_, fun k hk => ?_⟩
        · have hfixed : (s.signals e).fixedAdmission = s.fixedAdmission := rfl
          have hsuppress : (s.signals e).fixedSuppress = e.fixedSuppress := rfl
          simp only [Converging.stance, Converging.unmark, hfixed, hsuppress]
          split <;> simp_all
        · simp only [Converging.stance, Converging.unmark]
          split <;> simp [hk]

theorem stickyStep_local {l : List (WindowId × ObservedWindow)} :
    Local (fun c p c' => stickyStep c p = c') l Converging.stance Prod.fst
      (fun p v => v.adoptSticky (s.signals p.2)) := by
  rintro ⟨w, e⟩ _ c c' rfl
  unfold stickyStep Stance.adoptSticky
  have hsticky : (s.signals e).sticky = e.sticky := rfl
  have hautomatic : (c.stance w).automatic = c.automatic.contains w := rfl
  simp only [hsticky, hautomatic]
  split <;> simp +contextual

theorem originStep_local {l : List (WindowId × ObservedWindow)} :
    Local (fun c p c' => s.originStep c p = c') l Converging.stance Prod.fst
      (fun p v => v.adoptOrigin (s.signals p.2) (s.stance p.1)) := by
  rintro ⟨w, e⟩ _ c c' rfl
  have hcondition : (c.stance w).adoptsOrigin (s.signals e) (s.stance w) =
    (e.floating && e.fixedAuto && !e.fixedSuppress && !e.sticky && c.exceptions.contains w &&
      !c.automatic.contains w && !(s.fixedTileOverride.contains w || c.tileOverride.contains w) &&
      s.fixedAdmission) := rfl
  unfold originStep Stance.adoptOrigin
  simp only [hcondition]
  split <;> simp +contextual

theorem newFloatStep_local {l : List (WindowId × ObservedWindow)} :
    Local (fun c p c' => s.newFloatStep c p = c') l Converging.stance Prod.fst
      (fun p v => v.floatNew (s.signals p.2) (s.stance p.1)) := by
  rintro ⟨w, e⟩ _ c c' rfl
  have hnew : (e.floating && !s.windows.contains w && !s.exceptions.contains w) =
    ((s.signals e).floating && !(s.stance w).tiled && !(s.stance w).excepted) := rfl
  have hmarks : (s.fixedAdmission && e.fixedAuto && !e.fullscreen && !e.sticky &&
      !e.fixedSuppress && !s.fixedTileOverride.contains w) =
    ((s.signals e).fixedAdmission && (s.signals e).fixedAuto && !(s.signals e).fullscreen &&
      !(s.signals e).sticky && !(s.signals e).fixedSuppress && !(s.stance w).override) := rfl
  simp only [newFloatStep, Stance.floatNew, hnew, hmarks]
  split
  · split
    · rename_i hmark
      simp +contextual [hmark]
    · rename_i hmark
      rw [Bool.not_eq_true] at hmark
      simp +contextual [hmark]
  · simp

theorem brandNew_eq {w : WindowId} :
    c.isBrandNew s w = (c.stance w).brandNew (s.stance w) := rfl

theorem fullscreenStep_local {l : List (WindowId × ObservedWindow)} :
    Local (fun c p c' => s.fullscreenStep c p = c') l Converging.stance Prod.fst
      (fun p v => v.hold (s.signals p.2) (s.stance p.1)) := by
  rintro ⟨w, e⟩ _ c c' rfl
  have hheld : (s.fixedAdmission && !e.sticky && c.isBrandNew s w && e.fullscreen &&
      !e.floating) = ((s.signals e).fixedAdmission && !(s.signals e).sticky &&
    (c.stance w).brandNew (s.stance w) && (s.signals e).fullscreen && !(s.signals e).floating) := rfl
  simp only [fullscreenStep, Stance.hold, hheld]
  split <;> simp +contextual

theorem fixedStep_local {l : List (WindowId × ObservedWindow)}
    (hnamed : ∀ p ∈ l, p.2.window = p.1) :
    Local (fun c p c' => s.fixedStep c p = c') l Converging.stance Prod.fst
      (fun p v => v.floatFixed (s.signals p.2) (s.stance p.1)) := by
  rintro ⟨w, e⟩ hp c c' rfl
  have hname : e.window = w := hnamed _ hp
  have hfloats : s.fixedFloatsAtAdmit e = ((s.signals e).fixedAdmission &&
      !(s.signals e).floating && !(s.signals e).fullscreen && !(s.signals e).sticky &&
      !(s.signals e).fixedSuppress && !(s.stance w).override && (s.signals e).fixedNow) := by
    rw [fixedFloatsAtAdmit, hname]
    rfl
  simp only [fixedStep, Stance.floatFixed, brandNew_eq, hfloats]
  split <;> simp +contextual

/-- The world after a window was tiled at a minted leaf. -/
def Converging.tiled (c : Converging) (s : Session) (p : WindowId × ObservedWindow) (tree : Node)
    (leaf : NodeId) (toTile : List WindowId) : Converging :=
  { c with
    trees := c.trees.insert p.2.key (some tree)
    windows := c.windows.insert p.1 ⟨p.1, leaf, p.2.output, p.2.workspace⟩
    automatic := if s.fixedAdmission && p.2.fixedSuppress then c.automatic.erase p.1
      else c.automatic
    tileOverride := if s.fixedAdmission && p.2.fixedSuppress then c.tileOverride.insert p.1
      else c.tileOverride
    admitted := if toTile.contains p.1 then c.admitted else c.admitted + 1 }

/-- An admission step leaves a window that is placed or observed floating, and
tiles any other beside the admission focus. -/
theorem admitStep_cases {toTile : List WindowId} {a a' : Admitting}
    {p : WindowId × ObservedWindow} (h : s.admitStep baseRevision toTile a p = .ok a') :
    (p.2.floating || a.world.windows.contains p.1 || a.world.exceptions.contains p.1) = true ∧
        a' = a ∨
      ∃ eligible axis next ids,
        (p.2.floating = false ∧ p.1 ∉ a.world.windows ∧ p.1 ∉ a.world.exceptions) ∧
        insertTiled (treeAt a.world.trees p.2.key) eligible (generateLeafId p.1 a.ids) axis
          (a.ids.insert (generateLeafId p.1 a.ids)) p.1 baseRevision = some (next, ids) ∧
        a'.world = Converging.tiled a.world s p next (generateLeafId p.1 a.ids) toTile ∧
        a'.ids = ids := by
  unfold admitStep at h
  by_cases hplaced : (p.2.floating || a.world.windows.contains p.1 ||
      a.world.exceptions.contains p.1) = true
  · rw [if_pos hplaced] at h
    cases h
    exact .inl ⟨hplaced, rfl⟩
  · rw [if_neg hplaced] at h
    simp only [bind_eq_ok, okOr_eq_ok, pure_eq_ok] at h
    obtain ⟨domain, -, ⟨next, ids⟩, hinsert, rfl⟩ := h
    simp only [Bool.or_eq_true, not_or, Bool.not_eq_true, contains_eq_false] at hplaced
    exact .inr ⟨_, _, next, ids, ⟨hplaced.1.1, hplaced.1.2, hplaced.2⟩, hinsert, rfl, rfl⟩

theorem admitStep_local {toTile : List WindowId} {l : List (WindowId × ObservedWindow)} :
    Local (fun a p a' => s.admitStep baseRevision toTile a p = .ok a') l
      (fun a => a.world.stance) Prod.fst (fun p v => v.tile (s.signals p.2)) := by
  rintro ⟨w, e⟩ _ a a' h
  have hplaced : ((s.signals e).floating || (a.world.stance w).tiled ||
      (a.world.stance w).excepted) =
    (e.floating || a.world.windows.contains w || a.world.exceptions.contains w) := rfl
  have hfixed : (s.signals e).fixedAdmission = s.fixedAdmission := rfl
  have hsuppress : (s.signals e).fixedSuppress = e.fixedSuppress := rfl
  rcases admitStep_cases h with ⟨hskip, rfl⟩ | ⟨_, _, next, ids, ⟨hfloating, htiled, hexcepted⟩, -,
    hworld, -⟩
  · simp only [Stance.tile, hplaced, hskip, if_true]
    exact ⟨trivial, fun _ _ => trivial⟩
  · have hskip : (e.floating || a.world.windows.contains w || a.world.exceptions.contains w) =
        false := by
      rw [contains_eq_false.mpr htiled, contains_eq_false.mpr hexcepted, hfloating]
      rfl
    simp only [Stance.tile, hplaced, hskip, hworld, hfixed, hsuppress]
    cases hwins : s.fixedAdmission && e.fixedSuppress with
    | true =>
      refine ⟨?_, fun k hk => ?_⟩
      · simp [Converging.stance, Converging.tiled, hwins]
      · simp [Converging.stance, Converging.tiled, hwins, hk]
    | false =>
      refine ⟨?_, fun k hk => ?_⟩
      · simp [Converging.stance, Converging.tiled, hwins]
      · simp [Converging.stance, Converging.tiled, hwins, hk]

/-! ## The whole chain -/

/-- The parts of a successful chain of passes. -/
theorem convergePasses_ok (h : s.convergePasses observed baseRevision = .ok c) :
    ∃ present a, (s.windows.keys ++ s.exceptions.keys).foldlM (removeStep observed) s.converging =
        some present ∧
      observed.toList.foldlM
        (s.admitStep baseRevision (s.toTile observed (observed.toList.foldl s.floatStep present)))
        ⟨s.classify observed (observed.toList.foldl s.floatStep present),
          nodeIdsOf (s.classify observed (observed.toList.foldl s.floatStep present)).trees,
          s.focusedDomain, s.focusedLeaf⟩ = .ok a ∧ c = a.world := by
  simp only [convergePasses, bind_eq_ok, okOr_eq_ok] at h
  obtain ⟨present, hpresent, a, hadmit, h⟩ := h
  cases h
  exact ⟨present, a, hpresent, hadmit, rfl⟩

section
variable {w : WindowId} {e : ObservedWindow}

theorem nodup_entries (observed : BTreeMap WindowId ObservedWindow) :
    (observed.toList.map Prod.fst).Nodup := by
  rw [Std.ExtTreeMap.map_fst_toList_eq_keys]
  exact Std.ExtTreeMap.nodup_keys

theorem mem_entries (he : observed[w]? = some e) : (w, e) ∈ observed.toList :=
  Std.ExtTreeMap.mem_toList_iff_getElem?_eq_some.mpr he

theorem not_mem_entries (he : observed[w]? = none) : ∀ p ∈ observed.toList, p.1 ≠ w := by
  rintro ⟨k, e⟩ hp rfl
  rw [Std.ExtTreeMap.mem_toList_iff_getElem?_eq_some, he] at hp
  cases hp

/-- A pass over the observed windows acts on an observed one, once. -/
theorem foldl_stance {step : Converging → WindowId × ObservedWindow → Converging}
    {effect : WindowId × ObservedWindow → Stance → Stance}
    (hlocal : Local (fun c p c' => step c p = c') observed.toList Converging.stance Prod.fst effect)
    (he : observed[w]? = some e) :
    (observed.toList.foldl step c).stance w = effect (w, e) (c.stance w) :=
  folded_foldl.view_of_mem hlocal (nodup_entries observed) (mem_entries he)

theorem foldl_stance_unobserved {step : Converging → WindowId × ObservedWindow → Converging}
    {effect : WindowId × ObservedWindow → Stance → Stance}
    (hlocal : Local (fun c p c' => step c p = c') observed.toList Converging.stance Prod.fst effect)
    (he : observed[w]? = none) : (observed.toList.foldl step c).stance w = c.stance w :=
  folded_foldl.view_of_not_mem hlocal (not_mem_entries he)

/-- The retile pass acts on the windows it lists. -/
theorem retiled_stance (he : observed[w]? = some e) :
    ((s.toTile observed c).foldl (s.retileStep observed) c).stance w =
      if (c.stance w).retiles (s.signals e) (s.stance w) then
        (c.stance w).retile (s.signals e) (s.stance w)
      else c.stance w := by
  have hpass := @folded_foldl Converging WindowId c (s.toTile observed c) (s.retileStep observed)
  by_cases hretiles : (c.stance w).retiles (s.signals e) (s.stance w) = true
  · have hmem : w ∈ s.toTile observed c := mem_toTile.mpr ⟨e, he, hretiles⟩
    have hnodup : ((s.toTile observed c).map id).Nodup := by
      rw [List.map_id]
      exact Std.ExtTreeMap.nodup_keys.filter _
    have hview := hpass.view_of_mem retileStep_local hnodup hmem
    rw [if_pos hretiles]
    simpa [he, retileEffect] using hview
  · rw [if_neg hretiles]
    refine hpass.view_of_not_mem retileStep_local fun i hi heq => ?_
    obtain ⟨e', he', hi⟩ := mem_toTile.mp hi
    obtain rfl : i = w := heq
    obtain rfl : e = e' := Option.some.inj (he.symm.trans he')
    exact hretiles hi

theorem retiled_stance_unobserved (he : observed[w]? = none) :
    ((s.toTile observed c).foldl (s.retileStep observed) c).stance w = c.stance w := by
  refine folded_foldl.view_of_not_mem retileStep_local fun i hi heq => ?_
  obtain ⟨e', he', -⟩ := mem_toTile.mp hi
  obtain rfl : i = w := heq
  rw [he] at he'
  cases he'

theorem named_entries (hnamed : ∀ (w : WindowId) (e : ObservedWindow), observed[w]? = some e →
    e.window = w) : ∀ p ∈ observed.toList, p.2.window = p.1 := fun _ hp =>
  hnamed _ _ (Std.ExtTreeMap.mem_toList_iff_getElem?_eq_some.mp hp)

theorem classify_stance (hnamed : ∀ (w : WindowId) (e : ObservedWindow), observed[w]? = some e →
    e.window = w) (he : observed[w]? = some e) :
    (s.classify observed c).stance w = (c.stance w).classified (s.signals e) (s.stance w) := by
  unfold classify Stance.classified
  rw [foldl_stance (fixedStep_local (named_entries hnamed)) he, foldl_stance fullscreenStep_local he,
    foldl_stance newFloatStep_local he, foldl_stance originStep_local he,
    foldl_stance stickyStep_local he, retiled_stance he]

theorem classify_stance_unobserved (hnamed : ∀ (w : WindowId) (e : ObservedWindow),
    observed[w]? = some e → e.window = w) (he : observed[w]? = none) :
    (s.classify observed c).stance w = c.stance w := by
  unfold classify
  rw [foldl_stance_unobserved (fixedStep_local (named_entries hnamed)) he,
    foldl_stance_unobserved fullscreenStep_local he, foldl_stance_unobserved newFloatStep_local he,
    foldl_stance_unobserved originStep_local he, foldl_stance_unobserved (@stickyStep_local s _) he,
    retiled_stance_unobserved he]

theorem stance_disjoint (hdisjoint : ∀ {w : WindowId}, w ∈ s.windows → w ∉ s.exceptions) :
    (s.stance w).disjoint = true := by
  have htiled : (s.stance w).tiled = s.windows.contains w := rfl
  have hexcepted : (s.stance w).excepted = s.exceptions.contains w := rfl
  rw [Stance.disjoint, Bool.not_eq_true', Bool.and_eq_false_imp, htiled, hexcepted]
  intro hw
  exact contains_eq_false.mpr (hdisjoint (Std.ExtTreeMap.contains_iff_mem.mp hw))

/-- The removal pass visits the known windows, each once. -/
theorem present_stance {present : Converging}
    (hdisjoint : ∀ {w : WindowId}, w ∈ s.windows → w ∉ s.exceptions)
    (h : (s.windows.keys ++ s.exceptions.keys).foldlM (removeStep observed) s.converging =
      some present) : present.stance w = removedStance observed w (s.stance w) := by
  have hpass := folded_of_foldlM_some h
  by_cases hknown : w ∈ s.windows.keys ++ s.exceptions.keys
  · have hnodup : ((s.windows.keys ++ s.exceptions.keys).map id).Nodup := by
      rw [List.map_id, List.nodup_append]
      refine ⟨Std.ExtTreeMap.nodup_keys, Std.ExtTreeMap.nodup_keys, ?_⟩
      rintro a ha b hb rfl
      exact hdisjoint (Std.ExtTreeMap.mem_keys.mp ha) (Std.ExtTreeMap.mem_keys.mp hb)
    exact hpass.view_of_mem removeStep_local hnodup hknown
  · have hsame : present.stance w = s.stance w :=
      hpass.view_of_not_mem removeStep_local fun i hi heq => by
        obtain rfl : i = w := heq
        exact hknown hi
    rw [hsame]
    simp only [List.mem_append, Std.ExtTreeMap.mem_keys, not_or, ← contains_eq_false] at hknown
    have htiled : (s.stance w).tiled = false := hknown.1
    have hexcepted : (s.stance w).excepted = false := hknown.2
    unfold removedStance
    split
    · rfl
    · rw [if_neg (by simp [htiled])]
      exact Stance.ext rfl hexcepted rfl rfl

/-- Every observed window ends where `settle` puts it. -/
theorem convergePasses_stance (hdisjoint : ∀ {w : WindowId}, w ∈ s.windows → w ∉ s.exceptions)
    (hnamed : ∀ (w : WindowId) (e : ObservedWindow), observed[w]? = some e → e.window = w)
    (h : s.convergePasses observed baseRevision = .ok c) (he : observed[w]? = some e) :
    c.stance w = (s.stance w).settle (s.signals e) := by
  obtain ⟨present, a, hpresent, hadmit, rfl⟩ := convergePasses_ok h
  have hobserved : observed.contains w = true :=
    Std.ExtTreeMap.contains_iff_mem.mpr (mem_iff_lookup.mpr ⟨e, he⟩)
  have htiled := (folded_of_foldlM_ok hadmit).view_of_mem admitStep_local (nodup_entries observed)
    (mem_entries he)
  simp only at htiled
  rw [htiled, classify_stance hnamed he, foldl_stance floatStep_local he,
    present_stance hdisjoint hpresent, removedStance, if_pos hobserved]
  rfl

/-- Nothing else stays. -/
theorem convergePasses_stance_unobserved
    (hdisjoint : ∀ {w : WindowId}, w ∈ s.windows → w ∉ s.exceptions)
    (hnamed : ∀ (w : WindowId) (e : ObservedWindow), observed[w]? = some e → e.window = w)
    (h : s.convergePasses observed baseRevision = .ok c) (he : observed[w]? = none) :
    (c.stance w).known = false := by
  obtain ⟨present, a, hpresent, hadmit, rfl⟩ := convergePasses_ok h
  have hobserved : observed.contains w = false := by
    rw [Std.ExtTreeMap.contains_eq_isSome_getElem?, he]
    rfl
  have htiled := (folded_of_foldlM_ok hadmit).view_of_not_mem admitStep_local (not_mem_entries he)
  simp only at htiled
  rw [htiled, classify_stance_unobserved hnamed he, foldl_stance_unobserved floatStep_local he,
    present_stance hdisjoint hpresent, removedStance, if_neg (by simp [hobserved])]
  have hone := @stance_disjoint s w hdisjoint
  cases hstart : s.stance w with
  | mk tiled excepted automatic override =>
    rw [hstart] at hone
    cases tiled <;> cases excepted <;> first | rfl | cases hone

end

end Session

end PlasmaTiler
