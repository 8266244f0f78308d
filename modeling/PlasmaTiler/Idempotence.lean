import PlasmaTiler.Membership

/-!
# Converging again on the same windows

An adapter may observe the same windows twice, and the second convergence
should find nothing to do. It finds every window where `Stance.settle` put
it. Where that is a stable stance for all of them, no pass changes anything
(`convergePasses_steady`), so the plan succeeds on the accepted world and
commits no revision.

Two kinds of window settle late. One that is new, floating and fullscreen is
floated by a pass that does not mark it, and its origin mark comes with the
next convergence; a sticky automatic float keeps its place for a mark that a
later pass takes away. `settlesLate` is the condition, on the observation and
the session before the first convergence, and over it the second convergence
does change the world.

Success needs an argument of its own: the second plan runs the same checks on
another session. Every retained window must be observed at home (`AtHome`, an
invariant of the passes), the world must validate, and the focus must still
resolve. `convergesAgain_iff` has both directions.
-/

namespace PlasmaTiler

/-- The same windows, bound to another accepted revision. -/
def SessionObservation.rebound (o : SessionObservation) (revision : Nat) : SessionObservation :=
  { o with observation := { o.observation with revision } }

namespace Session

variable {s s' : Session} {observed : BTreeMap WindowId ObservedWindow} {baseRevision : Nat}
  {c c' : Converging} {w : WindowId} {e : ObservedWindow} {observation : SessionObservation}
  {observedFocus : Option WindowId}

/-! ## Passes that find nothing to do -/

/-- The world in the making is still the accepted one: trees, memberships and
marks. Counters may differ, as they say how the passes got there. -/
structure Agrees (s : Session) (c : Converging) : Prop where
  trees : c.trees = s.trees
  windows : c.windows = s.windows
  exceptions : c.exceptions = s.exceptions
  automatic : c.automatic = s.automaticFixed
  tileOverride : c.tileOverride = s.fixedTileOverride

theorem Agrees.stance (h : Agrees s c) (w : WindowId) : c.stance w = s.stance w := by
  simp only [Converging.stance, Session.stance, converging, h.windows, h.exceptions, h.automatic,
    h.tileOverride]

/-- The observed windows are the known ones, each where no pass moves it. This
is the pre-state of a convergence that finds nothing to do. -/
structure Steady (s : Session) (observed : BTreeMap WindowId ObservedWindow) : Prop where
  stable : ∀ {w : WindowId} {e : ObservedWindow}, observed[w]? = some e →
    (s.stance w).stable (s.signals e) = true
  complete : ∀ {w : WindowId}, (s.stance w).known = true → observed.contains w = true

theorem removeStep_steady (hsteady : Steady s observed)
    (hw : w ∈ s.windows.keys ++ s.exceptions.keys) : removeStep observed c w = some c := by
  have hknown : (s.stance w).known = true := by
    simp only [List.mem_append, Std.ExtTreeMap.mem_keys, ← Std.ExtTreeMap.contains_iff_mem] at hw
    exact Bool.or_eq_true_iff.mpr hw
  rw [removeStep, if_pos (hsteady.complete hknown)]

/-- What a stable stance says. -/
theorem stable_iff {g : Signals} {v : Stance} : v.stable g = true ↔
    v.known = true ∧ (g.floating && v.tiled) = false ∧
      (v.retiles g v = true → v.staysAutomatic g = true) ∧ (g.sticky && v.automatic) = false ∧
      v.adoptsOrigin g v = false := by
  simp only [Stance.stable, Bool.and_eq_true, Bool.not_eq_true', Bool.or_eq_true, and_assoc]
  cases v.retiles g v <;> simp

theorem floatStep_steady (hsteady : Steady s observed) (h : Agrees s c)
    (he : observed[w]? = some e) : s.floatStep c (w, e) = c := by
  obtain ⟨-, hfloat, -⟩ := stable_iff.mp (hsteady.stable he)
  unfold floatStep
  split
  · rfl
  · rename_i hfloating
    have htiled : (s.stance w).tiled = false := by
      have hf : (s.signals e).floating = true := by simpa [signals] using hfloating
      rwa [hf, Bool.true_and] at hfloat
    have hlink : c.windows[w]? = none := by
      rw [← h.stance w, Converging.stance_tiled, Option.isSome_eq_false_iff,
        Option.isNone_iff_eq_none] at htiled
      exact htiled
    simp only [hlink]

theorem retileStep_steady (hsteady : Steady s observed) {c₀ : Converging} (h₀ : Agrees s c₀)
    (h : Agrees s c) (hw : w ∈ s.toTile observed c₀) : Agrees s (s.retileStep observed c w) := by
  obtain ⟨e, he, hretiles⟩ := mem_toTile.mp hw
  rw [h₀.stance w] at hretiles
  obtain ⟨-, -, hstays, -⟩ := stable_iff.mp (hsteady.stable he)
  have hstays := hstays hretiles
  rw [← h.stance w] at hstays
  have hcondition : (s.fixedAdmission && c.automatic.contains w && !e.fixedSuppress &&
      isFixedSizeWith e.hints s.fixedPredicate) = true := hstays
  simp only [retileStep, he, hcondition, if_true]
  exact ⟨h.trees, h.windows, h.exceptions, h.automatic, h.tileOverride⟩

theorem stickyStep_steady (hsteady : Steady s observed) (h : Agrees s c)
    (he : observed[w]? = some e) : stickyStep c (w, e) = c := by
  obtain ⟨-, -, -, hsticky, -⟩ := stable_iff.mp (hsteady.stable he)
  rw [← h.stance w] at hsticky
  have hcondition : (e.sticky && c.automatic.contains w) = false := hsticky
  rw [stickyStep, if_neg (by rw [hcondition]; decide)]

theorem originStep_steady (hsteady : Steady s observed) (h : Agrees s c)
    (he : observed[w]? = some e) : s.originStep c (w, e) = c := by
  obtain ⟨-, -, -, -, horigin⟩ := stable_iff.mp (hsteady.stable he)
  have hagree := h.stance w
  have hcondition : (e.floating && e.fixedAuto && !e.fixedSuppress && !e.sticky &&
      c.exceptions.contains w && !c.automatic.contains w &&
      !(s.fixedTileOverride.contains w || c.tileOverride.contains w) && s.fixedAdmission) =
      (c.stance w).adoptsOrigin (s.signals e) (s.stance w) := rfl
  rw [originStep, if_neg]
  rw [hcondition, hagree, horigin]
  decide

/-- Known windows are not new to any pass. -/
theorem not_new (hsteady : Steady s observed) (he : observed[w]? = some e) :
    (!s.windows.contains w && !s.exceptions.contains w) = false := by
  obtain ⟨hknown, -⟩ := stable_iff.mp (hsteady.stable he)
  have hor : (s.windows.contains w || s.exceptions.contains w) = true := hknown
  rw [← Bool.not_or, hor]
  rfl

theorem newFloatStep_steady (hsteady : Steady s observed) (he : observed[w]? = some e) :
    s.newFloatStep c (w, e) = c := by
  rw [newFloatStep, if_neg]
  rw [Bool.and_assoc, not_new hsteady he, Bool.and_false]
  decide

theorem isBrandNew_steady (hsteady : Steady s observed) (he : observed[w]? = some e) :
    c.isBrandNew s w = false := by
  rw [Converging.isBrandNew, not_new hsteady he, Bool.false_and]

theorem fullscreenStep_steady (hsteady : Steady s observed) (he : observed[w]? = some e) :
    s.fullscreenStep c (w, e) = c := by
  rw [fullscreenStep, if_neg]
  rw [isBrandNew_steady hsteady he]
  simp

theorem fixedStep_steady (hsteady : Steady s observed) (he : observed[w]? = some e) :
    s.fixedStep c (w, e) = c := by
  rw [fixedStep, if_neg]
  rw [isBrandNew_steady hsteady he]
  simp

theorem admitStep_steady (hsteady : Steady s observed) {a : Admitting} (h : Agrees s a.world)
    {toTile : List WindowId} (he : observed[w]? = some e) :
    s.admitStep baseRevision toTile a (w, e) = .ok a := by
  obtain ⟨hknown, -⟩ := stable_iff.mp (hsteady.stable he)
  rw [← h.stance w] at hknown
  have hplaced : (a.world.windows.contains w || a.world.exceptions.contains w) = true := hknown
  rw [admitStep, if_pos]
  simp only [Bool.or_assoc, hplaced, Bool.or_true]

/-- All passes keep a steady world: each step of each pass finds its window
where it would put it, and the fold over such steps changes nothing. -/
theorem convergePasses_steady (baseRevision : Nat) (hsteady : Steady s observed) :
    ∃ c, s.convergePasses observed baseRevision = .ok c ∧ Agrees s c := by
  have hentry : ∀ {p : WindowId × ObservedWindow}, p ∈ observed.toList →
      observed[p.1]? = some p.2 := Std.ExtTreeMap.mem_toList_iff_getElem?_eq_some.mp
  have hstart : Agrees s s.converging := ⟨rfl, rfl, rfl, rfl, rfl⟩
  -- a pass whose steps change nothing keeps the agreement
  have hpass : ∀ {f : Converging → WindowId × ObservedWindow → Converging} {c₀ : Converging},
      (∀ c w e, Agrees s c → observed[w]? = some e → f c (w, e) = c) → Agrees s c₀ →
      Agrees s (observed.toList.foldl f c₀) := by
    intro f c₀ hf hc₀
    refine foldl_keeps (fun c p hp hc => ?_) hc₀
    rw [hf c p.1 p.2 hc (hentry hp)]
    exact hc
  obtain ⟨present, hpresent, hagreesPresent⟩ :=
    foldlM_keeps (m := Option) (f := removeStep observed) (P := Agrees s)
      (fun c w hw hc => ⟨c, removeStep_steady hsteady hw, hc⟩) hstart
  have hfloated := hpass (f := s.floatStep)
    (fun _ _ _ hc he => floatStep_steady hsteady hc he) hagreesPresent
  have hretiled : Agrees s ((s.toTile observed (observed.toList.foldl s.floatStep present)).foldl
      (s.retileStep observed) (observed.toList.foldl s.floatStep present)) :=
    foldl_keeps (fun _ _ hw hc => retileStep_steady hsteady hfloated hc hw) hfloated
  have hclassified : Agrees s
      (s.classify observed (observed.toList.foldl s.floatStep present)) :=
    hpass (fun _ _ _ _ he => fixedStep_steady hsteady he)
      (hpass (fun _ _ _ _ he => fullscreenStep_steady hsteady he)
        (hpass (fun _ _ _ _ he => newFloatStep_steady hsteady he)
          (hpass (fun _ _ _ hc he => originStep_steady hsteady hc he)
            (hpass (fun _ _ _ hc he => stickyStep_steady hsteady hc he) hretiled))))
  obtain ⟨a, hadmit, hagrees⟩ := foldlM_keeps (m := Except ProposeError)
    (f := s.admitStep baseRevision
      (s.toTile observed (observed.toList.foldl s.floatStep present)))
    (P := fun a => Agrees s a.world)
    (fun a p hp ha => ⟨a, admitStep_steady hsteady ha (hentry hp), ha⟩)
    (c := ⟨s.classify observed (observed.toList.foldl s.floatStep present),
      nodeIdsOf (s.classify observed (observed.toList.foldl s.floatStep present)).trees,
      s.focusedDomain, s.focusedLeaf⟩) hclassified
  refine ⟨a.world, ?_, hagrees⟩
  have hpresentOk : (s.windows.keys ++ s.exceptions.keys).foldlM (removeStep observed)
      s.converging = some present := hpresent
  simp only [convergePasses, hpresentOk, okOr_some, bind_eq_ok, pure_eq_ok]
  exact ⟨present, rfl, a, hadmit, rfl⟩

/-! ## Converged windows are at home -/

/-- Every link and record of an observed window is homed where it is
observed. -/
structure AtHome (observed : BTreeMap WindowId ObservedWindow) (c : Converging) : Prop where
  link : ∀ {w : WindowId} {e : ObservedWindow} {l : WindowLink}, observed[w]? = some e →
    c.windows[w]? = some l → e.output = l.output ∧ e.workspace = l.workspace
  record : ∀ {w : WindowId} {e : ObservedWindow} {r : ExceptionRecord}, observed[w]? = some e →
    c.exceptions[w]? = some r → e.output = r.output ∧ e.workspace = r.workspace

theorem AtHome.congr (h : AtHome observed c) (hwindows : c'.windows = c.windows)
    (hexceptions : c'.exceptions = c.exceptions) : AtHome observed c' where
  link he hl := h.link he (hwindows ▸ hl)
  record he hr := h.record he (hexceptions ▸ hr)

theorem AtHome.untile (h : AtHome observed c) {link : WindowLink} :
    AtHome observed (c.untile w link) where
  link he hl := by
    simp only [Converging.untile, lookup_erase] at hl
    split at hl
    · cases hl
    · exact h.link he hl
  record he hr := h.record he hr

theorem AtHome.eraseException (h : AtHome observed c)
    (hwindows : c'.windows = c.windows) (hexceptions : c'.exceptions = c.exceptions.erase w) :
    AtHome observed c' where
  link he hl := h.link he (hwindows ▸ hl)
  record he hr := by
    rw [hexceptions, lookup_erase] at hr
    split at hr
    · cases hr
    · exact h.record he hr

theorem AtHome.float (h : AtHome observed c) (he : observed[w]? = some e)
    {geometry : Option Rect} : AtHome observed (c.float w e geometry) where
  link he hl := h.link he hl
  record {v e' r} he' hr := by
    simp only [Converging.float, lookup_insert] at hr
    split at hr
    · rename_i heq
      subst heq
      obtain rfl := Option.some.inj (he.symm.trans he')
      obtain rfl := Option.some.inj hr
      exact ⟨rfl, rfl⟩
    · exact h.record he' hr

theorem AtHome.removeStep (h : AtHome observed c) (hstep : removeStep observed c w = some c') :
    AtHome observed c' := by
  unfold Session.removeStep at hstep
  split at hstep
  · cases hstep
    exact h
  · split at hstep
    · rename_i link hlink
      cases hstep
      have huntiled : AtHome observed (c.untile w link) := h.untile
      exact huntiled.congr rfl rfl
    · split at hstep
      · cases hstep
        exact h.eraseException (w := w) rfl rfl
      · cases hstep

theorem AtHome.floatStep (h : AtHome observed c) (he : observed[w]? = some e) :
    AtHome observed (s.floatStep c (w, e)) := by
  unfold Session.floatStep
  split
  · exact h
  · split
    · exact h
    · exact (h.untile.float he).congr rfl rfl

theorem AtHome.retileStep (h : AtHome observed c) : AtHome observed (s.retileStep observed c w) := by
  unfold Session.retileStep
  cases observed[w]? with
  | none => exact h
  | some e =>
    dsimp only
    generalize (s.fixedAdmission && c.automatic.contains w && !e.fixedSuppress &&
      isFixedSizeWith e.hints s.fixedPredicate) = stays
    generalize (s.fixedAdmission && !c.automatic.contains w && !e.fixedSuppress &&
      !s.fixedTileOverride.contains w && !e.sticky &&
      isFixedSizeWith e.hints s.fixedPredicate) = marks
    cases stays with
    | true => exact h.congr rfl rfl
    | false =>
      cases marks with
      | true => exact h.congr rfl rfl
      | false => exact h.eraseException (w := w) rfl rfl

theorem AtHome.stickyStep (h : AtHome observed c) (p : WindowId × ObservedWindow) :
    AtHome observed (stickyStep c p) := by
  unfold Session.stickyStep
  split
  · exact h.congr rfl rfl
  · exact h

theorem AtHome.originStep (h : AtHome observed c) (p : WindowId × ObservedWindow) :
    AtHome observed (s.originStep c p) := by
  unfold Session.originStep
  split
  · exact h.congr rfl rfl
  · exact h

theorem AtHome.newFloatStep (h : AtHome observed c) (he : observed[w]? = some e) :
    AtHome observed (s.newFloatStep c (w, e)) := by
  unfold Session.newFloatStep
  split
  · have hfloated := @AtHome.float observed c w e h he none
    split
    · exact hfloated.congr rfl rfl
    · exact hfloated.congr rfl rfl
  · exact h

theorem AtHome.fullscreenStep (h : AtHome observed c) (he : observed[w]? = some e) :
    AtHome observed (s.fullscreenStep c (w, e)) := by
  unfold Session.fullscreenStep
  split
  · exact (@AtHome.float observed c w e h he none).congr rfl rfl
  · exact h

theorem AtHome.fixedStep (h : AtHome observed c) (he : observed[w]? = some e) :
    AtHome observed (s.fixedStep c (w, e)) := by
  unfold Session.fixedStep
  split
  · exact (@AtHome.float observed c w e h he none).congr rfl rfl
  · exact h

theorem AtHome.admitStep {toTile : List WindowId} {a a' : Admitting} (h : AtHome observed a.world)
    (he : observed[w]? = some e)
    (hstep : s.admitStep baseRevision toTile a (w, e) = .ok a') : AtHome observed a'.world := by
  rcases admitStep_cases hstep with ⟨-, rfl⟩ | ⟨_, _, next, ids, -, -, hworld, -⟩
  · exact h
  · rw [hworld]
    refine ⟨fun {v e' l} he' hl => ?_, fun he' hr => h.record he' hr⟩
    simp only [Converging.tiled, lookup_insert] at hl
    split at hl
    · rename_i heq
      subst heq
      obtain rfl := Option.some.inj (he.symm.trans he')
      obtain rfl := Option.some.inj hl
      exact ⟨rfl, rfl⟩
    · exact h.link he' hl

/-- The passes keep every observed window at home. -/
theorem convergePasses_atHome (hstart : AtHome observed s.converging)
    (h : s.convergePasses observed baseRevision = .ok c) : AtHome observed c := by
  obtain ⟨present, a, hpresent, hadmit, rfl⟩ := convergePasses_ok h
  have hentry : ∀ {p : WindowId × ObservedWindow}, p ∈ observed.toList →
      observed[p.1]? = some p.2 := Std.ExtTreeMap.mem_toList_iff_getElem?_eq_some.mp
  have hremoved : AtHome observed present :=
    (folded_of_foldlM_some hpresent).preserves (fun _ _ _ _ hstep hc => hc.removeStep hstep) hstart
  have hfloated : AtHome observed (observed.toList.foldl s.floatStep present) :=
    foldl_keeps (fun _ _ hp hc => hc.floatStep (hentry hp)) hremoved
  have hretiled : AtHome observed ((s.toTile observed
      (observed.toList.foldl s.floatStep present)).foldl (s.retileStep observed)
      (observed.toList.foldl s.floatStep present)) :=
    foldl_keeps (fun _ _ _ hc => hc.retileStep) hfloated
  have hclassified : AtHome observed
      (s.classify observed (observed.toList.foldl s.floatStep present)) :=
    foldl_keeps (fun _ _ hp hc => hc.fixedStep (hentry hp))
      (foldl_keeps (fun _ _ hp hc => hc.fullscreenStep (hentry hp))
        (foldl_keeps (fun _ _ hp hc => hc.newFloatStep (hentry hp))
          (foldl_keeps (fun _ p _ hc => hc.originStep p)
            (foldl_keeps (fun _ p _ hc => hc.stickyStep p) hretiled))))
  exact (folded_of_foldlM_ok hadmit).preserves (P := fun a => AtHome observed a.world)
    (fun _ p _ hp hstep hc => hc.admitStep (hentry hp) hstep) hclassified

/-- The check that retained windows are observed at home. -/
theorem convergesInPlace_iff {windows : List ObservedWindow}
    (hdisjoint : ∀ {w : WindowId}, w ∈ s.windows → w ∉ s.exceptions)
    (hnodup : (windows.map ObservedWindow.window).Nodup) :
    s.convergesInPlace windows = true ↔ AtHome (observedById windows) s.converging := by
  simp only [convergesInPlace, List.all_eq_true]
  constructor
  · intro hall
    refine ⟨fun {w e l} he hl => ?_, fun {w e r} he hr => ?_⟩
    · obtain ⟨hmem, rfl⟩ := (lookup_observedById hnodup).mp he
      have hl' : s.windows[e.window]? = some l := hl
      have hentry := hall e hmem
      simpa [hl'] using hentry
    · obtain ⟨hmem, rfl⟩ := (lookup_observedById hnodup).mp he
      have hr' : s.exceptions[e.window]? = some r := hr
      have hnone : s.windows[e.window]? = none := Std.ExtTreeMap.getElem?_eq_none fun hw =>
        hdisjoint hw (mem_iff_lookup.mpr ⟨r, hr'⟩)
      have hentry := hall e hmem
      simpa [hr', hnone] using hentry
  · intro hhome e hmem
    have he := (lookup_observedById hnodup).mpr ⟨hmem, rfl⟩
    cases hl : s.windows[e.window]? with
    | some l => simpa using hhome.link he hl
    | none =>
      cases hr : s.exceptions[e.window]? with
      | none => rfl
      | some r => simpa using hhome.record he hr

/-! ## The second convergence -/

/-- The focus a convergence chooses resolves. -/
theorem validFocus_convergedFocus (hs : s.Valid) : validFocus s.trees s.windows
    (s.convergedFocus observedFocus s.trees s.windows).1
    (s.convergedFocus observedFocus s.trees s.windows).2 = true := by
  unfold convergedFocus
  split
  · rename_i link hlink
    obtain ⟨w, -, hw⟩ := Option.bind_eq_some_iff.mp hlink
    exact validFocus_of_link hs hw
  · split
    · rename_i hfocus
      exact hfocus
    · split
      · rename_i domain leaf hfallback
        obtain ⟨key, -, hkey⟩ := Option.bind_eq_some_iff.mp hfallback
        obtain ⟨leaf', hleaf, heq⟩ := Option.map_eq_some_iff.mp hkey
        cases heq
        obtain ⟨leaves, -, hfind⟩ := Option.bind_eq_some_iff.mp hleaf
        exact List.find?_some
          (p := fun leaf => validFocus s.trees s.windows (some domain) (some leaf)) hfind
      · rfl

/-- A convergence that plans the accepted world only follows the focus. -/
theorem convergeObservation_refocuses {c : Converged} (hsettled : s.settledWorld = true)
    (hs : s.Valid) (hbound : s.convergenceFault observation.observation = none)
    (hplan : s.planConvergence observation observedFocus = .ok c)
    (hsame : s.convergenceChanged c.world = false) :
    s.convergeObservation observation observedFocus = (s.focusConverged c.focus, .ok ⟨0, 0, 0⟩) := by
  obtain ⟨hdiverged, hpending, hdesired, hdrag⟩ := settledWorld_iff.mp hsettled
  have hidle : (s.hasPending || s.hasPendingDesired || s.hasDrag) = false := by
    simp [hpending, hasPendingDesired, hdesired, hasDrag, hdrag]
  have hvalid : s.validateCurrentTopology = true := validateCurrentTopology_iff.mpr hs
  simp [convergeObservation, hdiverged, hidle, hvalid, hbound, hplan, attempt, hsame]

/-- Marks of known windows survive the pruning. -/
theorem retain_eq_self {marks : BTreeSet WindowId} {p : WindowId → Bool}
    (h : ∀ w ∈ marks, p w = true) : retain marks p = marks := by
  ext w
  rw [mem_retain]
  exact and_iff_left_of_imp (h w)

/-- A steady world is planned as it is. -/
theorem planConvergence_steady (observation : SessionObservation) (observedFocus : Option WindowId)
    (hs : s.Valid)
    (hshapes : validObservedShapes observation.windows = true)
    (hhomed : s.observedHomed observation.windows = true)
    (hinPlace : s.convergesInPlace observation.windows = true)
    (hsteady : Steady s (observedById observation.windows))
    (hautomatic : ∀ w ∈ s.automaticFixed, s.isKnown w = true)
    (hoverride : ∀ w ∈ s.fixedTileOverride, s.isKnown w = true) :
    ∃ c, s.planConvergence observation observedFocus = .ok c ∧
      s.convergenceChanged c.world = false := by
  obtain ⟨world, hpasses, hagrees⟩ :=
    convergePasses_steady observation.observation.revision hsteady
  obtain ⟨htrees, hwindows, hexceptions, hmarks, hwins⟩ := hagrees
  have hpasses' : s.convergePasses
      (observation.windows.foldl (fun byId entry => byId.insert entry.window entry) ∅)
      observation.observation.revision = .ok world := hpasses
  have hvalid : validateTopology s.domains world.trees world.windows world.exceptions
      (s.convergedFocus observedFocus world.trees world.windows).1
      (s.convergedFocus observedFocus world.trees world.windows).2 = true := by
    rw [htrees, hwindows, hexceptions]
    exact validateTopology_iff.mpr (hs.withFocus (validFocus_convergedFocus hs))
  refine ⟨_, by
    simp only [planConvergence, refuseUnless, bind_eq_ok, ensure_eq_ok, pure_eq_ok]
    exact ⟨(), hshapes, (), hhomed, (), hinPlace, world, hpasses', (), hvalid, rfl⟩, ?_⟩
  refine convergenceChanged_eq_false.mpr ⟨htrees, hwindows, hexceptions, ?_, ?_⟩
  · rw [hwindows, hexceptions, hmarks]
    exact retain_eq_self hautomatic
  · rw [hwindows, hexceptions, hwins]
    exact retain_eq_self hoverride

/-- Where an adopted convergence leaves an observed window. -/
theorem ConvergedWorld.stance {c : Converged} (hs : s.Valid)
    (hplan : s.ConvergedWorld observation observedFocus c) (h : Adopts s s' c)
    (he : (observedById observation.windows)[w]? = some e) :
    s'.stance w = (s.stance w).settle (s.signals e) := by
  obtain ⟨world, hpasses, hworld⟩ := hplan.passes
  have hnamed : ∀ (w : WindowId) (e : ObservedWindow),
      (observedById observation.windows)[w]? = some e → e.window = w :=
    fun w e he => ((lookup_observedById (nodup_of_shapes hplan.shapes)).mp he).2
  have hstance := convergePasses_stance hs.disjoint hnamed hpasses he
  have hplaced := Stance.settle_placed (g := s.signals e) (@stance_disjoint s w hs.disjoint)
  rw [← hstance] at hplaced ⊢
  have hknown : (world.windows.contains w || world.exceptions.contains w) = true :=
    (Bool.and_eq_true_iff.mp hplaced).2
  have hpruned : ∀ marks : BTreeSet WindowId, (retain marks fun id =>
      world.windows.contains id || world.exceptions.contains id).contains w = marks.contains w := by
    intro marks
    rw [Bool.eq_iff_iff, Std.ExtTreeSet.contains_iff_mem, Std.ExtTreeSet.contains_iff_mem, mem_retain]
    exact and_iff_left hknown
  simp only [Session.stance, Converging.stance, converging, h.windows, h.exceptions,
    h.automaticFixed, h.fixedTileOverride, hworld, hpruned]

theorem Adopts.signals {c : Converged} (h : Adopts s s' c) (e : ObservedWindow) :
    s'.signals e = s.signals e := by
  simp only [Session.signals, h.fixedAdmission, h.fixedPredicate]

theorem SameWorld.stance (h : SameWorld s s') (w : WindowId) : s'.stance w = s.stance w := by
  simp only [Session.stance, Converging.stance, converging, h.windows, h.exceptions,
    h.automaticFixed, h.fixedTileOverride]

theorem Adopts.valid {c : Converged} (hplan : s.ConvergedWorld observation observedFocus c)
    (h : Adopts s s' c) : s'.Valid := by
  have hvalid := hplan.valid
  have hfocus := h.focus
  rw [Prod.mk.injEq] at hfocus
  rwa [← h.trees, ← h.windows, ← h.exceptions, ← h.domains, ← hfocus.1, ← hfocus.2] at hvalid

/-- The rebound observation is bound to the session that adopted it. -/
theorem Adopts.bound {c : Converged} (h : Adopts s s' c)
    (hbound : s.convergenceFault observation.observation = none) :
    s'.convergenceFault (observation.rebound s'.acceptedRevision).observation = none := by
  unfold convergenceFault at hbound ⊢
  split at hbound
  · cases hbound
  · rename_i hvalid
    split at hbound
    · cases hbound
    · rename_i hgeneration
      split at hbound
      · cases hbound
      · rename_i hrevision
        simp only [Bool.or_eq_true, Bool.not_eq_true', decide_eq_true_eq, not_or, not_not,
          Bool.not_eq_false, Observation.validate, Bool.and_eq_true, isRevision] at hvalid hrevision
        obtain ⟨⟨⟨howner, hgen⟩, hrev⟩, hsame⟩ := hvalid
        have hmax : s'.acceptedRevision ≤ maxRevision := by
          rcases h.revision with ⟨hnext, hlt, -⟩ | ⟨heq, -⟩ <;> omega
        have hgeneration' : observation.observation.generation = s.generation := not_not.mp hgeneration
        rw [hsame] at howner
        rw [hgeneration'] at hgen
        simp [SessionObservation.rebound, Observation.validate, isRevision, howner, hgen, hmax, hsame,
          hgeneration', h.owner, h.generation]

/-- Converging again on the same windows and focus succeeds and changes no
tree, link, record, rectangle, mark or revision. -/
def ConvergesAgain (s : Session) (observation : SessionObservation)
    (observedFocus : Option WindowId) : Prop :=
  ∃ counts s', s.convergeObservation (observation.rebound s.acceptedRevision) observedFocus =
      (s', .ok counts) ∧
    SameWorld s s' ∧ s'.retainedFloatGeometry = s.retainedFloatGeometry ∧
    s'.acceptedRevision = s.acceptedRevision

/-- Whether the passes leave an observed window where another run of them
would move it on. -/
def settlesLate (s : Session) (e : ObservedWindow) : Bool :=
  (s.stance e.window).settlesLate (s.signals e)

/-- Converging once more on the same observation changes nothing and counts
nothing exactly when no observed window settles late: when none is left for a
second pass to mark or to tile again. -/
theorem convergesAgain_iff {counts : ObservationConvergence}
    (h : s.convergeObservation observation observedFocus = (s', .ok counts)) :
    ConvergesAgain s' observation observedFocus ↔
      ∀ e ∈ observation.windows, s.settlesLate e = false := by
  have hok : (s.convergeObservation observation observedFocus).2 = .ok counts := by rw [h]
  obtain ⟨c, hsettled, hs, hbound, hplan, hadopts⟩ := convergeObservation_adopts hok
  have hfirst : (s.convergeObservation observation observedFocus).1 = s' := by rw [h]
  rw [hfirst] at hadopts
  have hnodup := nodup_of_shapes hplan.shapes
  have hreaches := hplan.reaches hs hadopts
  have hs' : s'.Valid := hadopts.valid hplan
  constructor
  · rintro ⟨counts', s'', hagain, hsame, -, -⟩ e hmem
    refine Bool.eq_false_iff.mpr fun hlate => ?_
    have he := (lookup_observedById hnodup).mpr ⟨hmem, rfl⟩
    have hok' : (s'.convergeObservation (observation.rebound s'.acceptedRevision)
        observedFocus).2 = .ok counts' := by rw [hagain]
    obtain ⟨c', -, -, -, hplan', hadopts'⟩ := convergeObservation_adopts hok'
    have hsecond : (s'.convergeObservation (observation.rebound s'.acceptedRevision)
        observedFocus).1 = s'' := by rw [hagain]
    rw [hsecond] at hadopts'
    have hmoved := hplan'.stance hs' hadopts' he
    rw [hsame.stance, hadopts.signals, hplan.stance hs hadopts he] at hmoved
    exact Stance.settle_settle_ne (stance_disjoint hs.disjoint) hlate hmoved.symm
  · intro hall
    have hsteady : Steady s' (observedById observation.windows) := by
      refine ⟨fun {w e} he => ?_, fun {w} hknown => ?_⟩
      · obtain ⟨hmem, rfl⟩ := (lookup_observedById hnodup).mp he
        rw [hadopts.signals, hplan.stance hs hadopts he,
          Stance.stable_settle (stance_disjoint hs.disjoint), Bool.not_eq_true']
        exact hall e hmem
      · have hmember : w ∈ s'.windows ∨ w ∈ s'.exceptions := by
          have hor : (s'.windows.contains w || s'.exceptions.contains w) = true := hknown
          simpa [Std.ExtTreeMap.contains_iff_mem] using hor
        rw [Std.ExtTreeMap.contains_iff_mem, mem_iff_lookup, observedById_isSome hnodup]
        exact hreaches.membership.mp hmember
    obtain ⟨world, hpasses, hworld⟩ := hplan.passes
    have hinPlace : s'.convergesInPlace observation.windows = true := by
      rw [convergesInPlace_iff hs'.disjoint hnodup]
      refine (convergePasses_atHome ?_ hpasses).congr ?_ ?_
      · exact (convergesInPlace_iff hs.disjoint hnodup).mp hplan.inPlace
      · simp only [converging, hadopts.windows, hworld]
      · simp only [converging, hadopts.exceptions, hworld]
    have hhomed : s'.observedHomed observation.windows = true := by
      have hhomed := hplan.homed
      simp only [observedHomed, domainFor, hadopts.domains] at hhomed ⊢
      exact hhomed
    have hknown : ∀ w, (world.windows.contains w || world.exceptions.contains w) = s'.isKnown w := by
      intro w
      simp only [isKnown, hadopts.windows, hadopts.exceptions, hworld]
    obtain ⟨c', hplan', hsame⟩ := planConvergence_steady
      (observation.rebound s'.acceptedRevision) observedFocus hs' hplan.shapes hhomed hinPlace hsteady
      (fun w hw => by
        rw [hadopts.automaticFixed, hworld] at hw
        exact (hknown w).symm.trans (mem_retain.mp hw).2)
      (fun w hw => by
        rw [hadopts.fixedTileOverride, hworld] at hw
        exact (hknown w).symm.trans (mem_retain.mp hw).2)
    refine ⟨⟨0, 0, 0⟩, _, convergeObservation_refocuses hadopts.settled hs' (hadopts.bound hbound)
      hplan' hsame, ⟨rfl, rfl, rfl, rfl, rfl⟩, rfl, rfl⟩

/-- None of these windows settles late. -/
theorem convergesAgain_restocked :
    ConvergesAgain (Sample.stocked.convergeObservation Sample.restocked none).1 Sample.restocked
      none := by
  have hcall : Sample.stocked.convergeObservation Sample.restocked none =
      ((Sample.stocked.convergeObservation Sample.restocked none).1, .ok ⟨1, 1, 1⟩) :=
    Prod.ext rfl (by decide +kernel)
  have hsettled : ∀ e ∈ Sample.restocked.windows, Sample.stocked.settlesLate e = false := by
    decide +kernel
  exact (convergesAgain_iff hcall).mpr hsettled

end Session

namespace Sample

/-- A window born floating in fullscreen that the adapter floated itself. -/
def bornFullscreen : SessionObservation :=
  observation 0 [{ window "w" with floating := true, fullscreen := true, fixedAuto := true }]

/-- An empty session with the opt-in on. -/
def optedIn : Session := Session.machine.run empty [.setFixedSizeAdmission true]

/-- The session that adopted that window. -/
def adopted : Session := (optedIn.convergeObservation bornFullscreen none).1

end Sample

namespace Session

/-- The second convergence marks the window the first one only floated. -/
theorem bornFullscreen_not_convergesAgain :
    ∃ s observation s' counts, Reachable s ∧
      s.convergeObservation observation none = (s', .ok counts) ∧
      ¬ConvergesAgain s' observation none := by
  refine ⟨Sample.optedIn, Sample.bornFullscreen, Sample.adopted, ⟨0, 0, 1⟩,
    Sample.session_reachable _ _, Prod.ext rfl (by decide +kernel), ?_⟩
  rintro ⟨counts, s'', hagain, hsame, -, -⟩
  have hsecond : (Sample.adopted.convergeObservation
      (Sample.bornFullscreen.rebound Sample.adopted.acceptedRevision) none).1 = s'' := by
    rw [hagain]
  have hmarks := congrArg (fun marks => marks.contains (⟨"w"⟩ : WindowId)) hsame.automaticFixed
  rw [← hsecond] at hmarks
  exact absurd hmarks (by decide +kernel)

end Session

end PlasmaTiler
