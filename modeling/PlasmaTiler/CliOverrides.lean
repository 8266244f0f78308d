import PlasmaTiler.TileArgs

/-!
# Switches over later settings

Settings are read again while the command runs, and the switches of the
command line should win over whatever is read. So the switches are not
scanned again over the new base: the overrides recorded during the first scan
are applied to it. That this comes to the same has to be said of every
switch, since each writes its option and its lane in two places.

The scan over one base and the scan over another run in step: they take the
same branches, record the same overrides, and each keeps its options equal,
on what a settings file controls, to its base under the overrides so far
(`Twin`). A switch is `Even` when it keeps two scans in step whatever its
value; every switch is, and so by induction on the arguments is the scan.

`parse_overrides` is the result for any two bases: acceptance does not depend
on the base, nor do the overrides, and these applied to a base give what the
scan over it gives.
-/

namespace PlasmaTiler

namespace TileArgs

/-- What a settings file controls. -/
structure Lanes (F : Type) where
  innerGap : Int
  outerGap : Int
  noKeyboardSnapTakeover : Bool
  allowWinL : Bool
  noMouseSnapPrevention : Bool
  border : ActiveBorderOptions F
  underlay : GroupUnderlayOptions F

def TileOptions.lanes {F : Type} (options : TileOptions F) : Lanes F where
  innerGap := options.innerGap
  outerGap := options.outerGap
  noKeyboardSnapTakeover := options.noKeyboardSnapTakeover
  allowWinL := options.allowWinL
  noMouseSnapPrevention := options.noMouseSnapPrevention
  border := options.border
  underlay := options.underlay

section
variable {F : Type} {fl : Floats F} {base : TileOptions F} {cli : CliOverrides F}

/-! ## Applying overrides -/

theorem getD_getD {α : Type} (lane : Option α) (a : α) : lane.getD (lane.getD a) = lane.getD a := by
  cases lane <;> rfl

theorem applyCliOverrides_idempotent :
    applyCliOverrides (applyCliOverrides base cli) cli = applyCliOverrides base cli := by
  simp only [applyCliOverrides, getD_getD]

/-! ## Two scans -/

/-- Two scans that have seen the same switches, the second one's lanes being
those of its base under the overrides so far. -/
structure Twin (base : TileOptions F) (s t : Scan F) : Prop where
  cli : t.cli = s.cli
  themeFlags : t.themeFlags = s.themeFlags
  userStart : t.options.userStart = s.options.userStart
  lanes : t.options.lanes = (applyCliOverrides base s.cli).lanes

/-- Both refuse with the same text, or both go on in step. -/
inductive InStep (base : TileOptions F) : Except String (Scan F) → Except String (Scan F) → Prop
  | error (e : String) : InStep base (.error e) (.error e)
  | ok {s t : Scan F} (h : Twin base s t) : InStep base (.ok s) (.ok t)

theorem InStep.bind {x y : Except String (Scan F)} {f : Scan F → Except String (Scan F)}
    (h : InStep base x y) (hf : ∀ {s t}, Twin base s t → InStep base (f s) (f t)) :
    InStep base (x >>= f) (y >>= f) := by
  cases h with
  | error e => exact .error e
  | ok h => exact hf h

/-- A value both scans parse, and what they do with it. -/
theorem InStep.parsed {α : Type} {x : Except String α} {f g : α → Except String (Scan F)}
    (h : ∀ a, InStep base (f a) (g a)) : InStep base (x >>= f) (x >>= g) := by
  cases x with
  | error e => exact .error e
  | ok a => exact h a

variable {s t : Scan F}

/-- One lane written, in the options and in the overrides. -/
theorem Twin.write (h : Twin base s t) (o : TileOptions F → TileOptions F)
    (c : CliOverrides F → CliOverrides F) (l : Lanes F → Lanes F) {flags flags' : UInt8}
    (hflags : flags' = flags) (hoptions : ∀ options, (o options).lanes = l options.lanes)
    (huser : ∀ options, (o options).userStart = options.userStart)
    (hcli : ∀ cli, (applyCliOverrides base (c cli)).lanes = l (applyCliOverrides base cli).lanes) :
    InStep base (.ok ⟨o s.options, flags, c s.cli⟩) (.ok ⟨o t.options, flags', c t.cli⟩) := by
  refine .ok ⟨congrArg c h.cli, hflags, ?_, ?_⟩
  · rw [huser, huser, h.userStart]
  · rw [hoptions, hcli, h.lanes]

/-- A switch keeps two scans in step, whatever its value. -/
def Switch.Even (base : TileOptions F) : Switch F → Prop
  | .flag apply => ∀ {s t}, Twin base s t → InStep base (apply s) (apply t)
  | .valued apply => ∀ value {s t}, Twin base s t → InStep base (apply value s) (apply value t)

theorem applyUnderlayArgTracked_even {arg : String} {switch : Switch F}
    (h : applyUnderlayArgTracked fl arg = some switch) : switch.Even base := by
  unfold applyUnderlayArgTracked at h
  split at h
  · cases h
    intro s t h
    exact h.write (fun o => { o with underlay.enabled := false }) (fun c => { c with underlayEnabled := some false })
      (fun l => { l with underlay.enabled := false }) h.themeFlags (fun _ => rfl) (fun _ => rfl) fun _ => rfl
  · cases h
    intro value s t h
    refine InStep.parsed fun (color, alpha) => ?_
    exact h.write
      (fun o => { o with underlay.style.color := color, underlay.style.alpha := alpha })
      (fun c => { c with underlayColor := some (color, alpha) })
      (fun l => { l with underlay.style.color := color, underlay.style.alpha := alpha })
      h.themeFlags (fun _ => rfl) (fun _ => rfl) fun _ => rfl
  · cases h
    intro value s t h
    refine InStep.parsed fun extension => ?_
    exact h.write (fun o => { o with underlay.style.extension := extension }) (fun c => { c with underlayExtension := some extension })
      (fun l => { l with underlay.style.extension := extension }) h.themeFlags (fun _ => rfl) (fun _ => rfl) fun _ => rfl
  · cases h

theorem tileSwitch_even {arg : String} {switch : Switch F}
    (h : tileSwitch fl arg = some switch) : switch.Even base := by
  unfold tileSwitch at h
  split at h
  · cases h
    intro s t h
    exact .ok ⟨h.cli, h.themeFlags, h.userStart, h.lanes⟩
  · cases h
    intro s t h
    exact .ok ⟨h.cli, h.themeFlags, rfl, h.lanes⟩
  · cases h
    intro s t h
    exact h.write (fun o => { o with noKeyboardSnapTakeover := true }) (fun c => { c with noKeyboardSnapTakeover := some true })
      (fun l => { l with noKeyboardSnapTakeover := true }) h.themeFlags (fun _ => rfl) (fun _ => rfl) fun _ => rfl
  · cases h
    intro s t h
    exact h.write (fun o => { o with allowWinL := true }) (fun c => { c with allowWinL := some true })
      (fun l => { l with allowWinL := true }) h.themeFlags (fun _ => rfl) (fun _ => rfl) fun _ => rfl
  · cases h
    intro s t h
    exact h.write (fun o => { o with noMouseSnapPrevention := true }) (fun c => { c with noMouseSnapPrevention := some true })
      (fun l => { l with noMouseSnapPrevention := true }) h.themeFlags (fun _ => rfl) (fun _ => rfl) fun _ => rfl
  · cases h
    intro value s t h
    refine InStep.parsed fun gap => ?_
    exact h.write (fun o => { o with innerGap := gap }) (fun c => { c with innerGap := some gap })
      (fun l => { l with innerGap := gap }) h.themeFlags (fun _ => rfl) (fun _ => rfl) fun _ => rfl
  · cases h
    intro value s t h
    refine InStep.parsed fun gap => ?_
    exact h.write (fun o => { o with outerGap := gap }) (fun c => { c with outerGap := some gap })
      (fun l => { l with outerGap := gap }) h.themeFlags (fun _ => rfl) (fun _ => rfl) fun _ => rfl
  · cases h
    intro s t h
    exact h.write (fun o => { o with border.enabled := false }) (fun c => { c with borderEnabled := some false })
      (fun l => { l with border.enabled := false }) h.themeFlags (fun _ => rfl) (fun _ => rfl) fun _ => rfl
  · cases h
    intro value s t h
    refine InStep.parsed fun width => ?_
    exact h.write (fun o => { o with border.style.width := width }) (fun c => { c with borderWidth := some width })
      (fun l => { l with border.style.width := width }) h.themeFlags (fun _ => rfl) (fun _ => rfl) fun _ => rfl
  · cases h
    intro value s t h
    refine InStep.parsed fun gap => ?_
    exact h.write (fun o => { o with border.style.gap := gap }) (fun c => { c with borderGap := some gap })
      (fun l => { l with border.style.gap := gap }) h.themeFlags (fun _ => rfl) (fun _ => rfl) fun _ => rfl
  · cases h
    intro value s t h
    refine InStep.parsed fun radius => ?_
    exact h.write (fun o => { o with border.style.radius := radius }) (fun c => { c with borderRadius := some radius })
      (fun l => { l with border.style.radius := radius }) h.themeFlags (fun _ => rfl) (fun _ => rfl) fun _ => rfl
  · cases h
    intro value s t h
    refine InStep.parsed fun color => ?_
    exact h.write (fun o => { o with border.style.color := color }) (fun c => { c with borderColor := some color })
      (fun l => { l with border.style.color := color }) h.themeFlags (fun _ => rfl) (fun _ => rfl) fun _ => rfl
  · cases h
    intro s t h
    dsimp only
    rw [h.themeFlags]
    split
    · exact .error _
    · exact h.write (fun o => { o with border.style.useTheme := false })
        (fun c => { c with borderUseTheme := some false })
        (fun l => { l with border.style.useTheme := false }) rfl (fun _ => rfl) (fun _ => rfl)
        fun _ => rfl
  · cases h
    intro s t h
    dsimp only
    rw [h.themeFlags]
    split
    · exact .error _
    · exact h.write (fun o => { o with border.style.useTheme := true })
        (fun c => { c with borderUseTheme := some true })
        (fun l => { l with border.style.useTheme := true }) rfl (fun _ => rfl) (fun _ => rfl)
        fun _ => rfl
  -- the scopes are the run's own: what they hold decides nothing the file controls
  · cases h
    intro value s t h
    dsimp only
    split
    · exact .error _
    · split <;> split <;> exact .ok ⟨h.cli, h.themeFlags, h.userStart, h.lanes⟩
  · cases h
    intro value s t h
    refine InStep.parsed fun pair => ?_
    split <;> split <;> exact .ok ⟨h.cli, h.themeFlags, h.userStart, h.lanes⟩
  · cases h
    intro value s t h
    dsimp only
    split
    · exact .error _
    · split
      · exact .error _
      · exact .ok ⟨h.cli, h.themeFlags, h.userStart, h.lanes⟩
  · cases h

theorem switch_even {arg : String} {switch : Switch F}
    (h : ((applyUnderlayArgTracked fl arg).orElse fun _ => tileSwitch fl arg) = some switch) :
    switch.Even base := by
  cases htracked : applyUnderlayArgTracked fl arg with
  | none =>
    rw [htracked] at h
    exact tileSwitch_even h
  | some tracked =>
    rw [htracked] at h
    cases h
    exact applyUnderlayArgTracked_even htracked

/-- Two scans of the same arguments stay in step. -/
theorem scanArgs_inStep : ∀ (args : List String) {s t : Scan F}, Twin base s t →
    InStep base (scanArgs fl args s) (scanArgs fl args t)
  | [], _, _, h => .ok h
  | arg :: rest, s, t, h => by
    cases hswitch : (applyUnderlayArgTracked fl arg).orElse fun _ => tileSwitch fl arg with
    | none =>
      simp only [scanArgs, hswitch]
      exact .error usage
    | some switch =>
      have heven : switch.Even base := switch_even hswitch
      cases switch with
      | flag apply =>
        simp only [scanArgs, hswitch]
        exact (heven h).bind fun h => scanArgs_inStep rest h
      | valued apply =>
        cases rest with
        | nil =>
          simp only [scanArgs, hswitch]
          exact .error usage
        | cons value rest =>
          simp only [scanArgs, hswitch]
          exact (heven value h).bind fun h => scanArgs_inStep rest h

/-- Two bases under the same switches. -/
theorem parse_inStep (args : List String) (defaults : TileOptions F) :
    (∃ e, parseTileArgsFromWithOverrides fl args defaults = .error e ∧
        parseTileArgsFromWithOverrides fl args base = .error e) ∨
      ∃ options options' cli, parseTileArgsFromWithOverrides fl args defaults = .ok (options, cli) ∧
        parseTileArgsFromWithOverrides fl args base = .ok (options', cli) ∧
        options'.lanes = (applyCliOverrides base cli).lanes := by
  have hstart : Twin base ⟨{ defaults with userStart := false }, 0, {}⟩
      ⟨{ base with userStart := false }, 0, {}⟩ := ⟨rfl, rfl, rfl, rfl⟩
  have hsteps := @scanArgs_inStep F fl base args _ _ hstart
  unfold parseTileArgsFromWithOverrides
  generalize scanArgs fl args ⟨{ defaults with userStart := false }, 0, {}⟩ = x at hsteps ⊢
  generalize scanArgs fl args ⟨{ base with userStart := false }, 0, {}⟩ = y at hsteps ⊢
  cases hsteps with
  | error e => exact .inl ⟨e, rfl, rfl⟩
  | @ok s t h =>
    cases huser : s.options.userStart with
    | false =>
      refine .inl ⟨"refuse: tile requires explicit --user-start", ?_, ?_⟩
      · simp only [bind, Except.bind, huser]
        rfl
      · simp only [bind, Except.bind, h.userStart, huser]
        rfl
    | true =>
      refine .inr ⟨s.options, t.options, s.cli, ?_, ?_, h.lanes⟩
      · simp only [bind, Except.bind, huser]
        rfl
      · simp only [bind, Except.bind, h.userStart, huser, h.cli]
        rfl

/-- Switches accepted over one base are accepted over every other with the
same overrides, and these applied to it give, on what a settings file controls,
what parsing over it gives; once is enough. -/
theorem parse_overrides {args : List String} {defaults options : TileOptions F}
    (h : parseTileArgsFromWithOverrides fl args defaults = .ok (options, cli))
    (base : TileOptions F) :
    (∃ options', parseTileArgsFromWithOverrides fl args base = .ok (options', cli) ∧
      (applyCliOverrides base cli).lanes = options'.lanes) ∧
      applyCliOverrides (applyCliOverrides base cli) cli = applyCliOverrides base cli := by
  refine ⟨?_, applyCliOverrides_idempotent⟩
  rcases @parse_inStep F fl base args defaults with ⟨e, herror, -⟩ |
    ⟨options₁, options', cli', hok, hok', hlanes⟩
  · rw [h] at herror
    cases herror
  · rw [h] at hok
    cases hok
    exact ⟨options', hok', hlanes.symm⟩

/-- Whole numbers for the floats. -/
def wholeFloats : Floats Int where
  parse := parseI32
  isFinite _ := true
  eq a b := a == b
  lt a b := decide (a < b)
  ofInt n := n

def someArgs : List String :=
  ["--user-start", "--inner-gap", "4", "--active-border-width", "2", "--active-border-theme",
    "--group-underlay-color", "#11223344", "--group-underlay-extension", "-1", "--inner-gap", "6"]

def someOverrides : CliOverrides Int where
  innerGap := some 6
  borderWidth := some 2
  borderUseTheme := some true
  underlayColor := some ((0x22, 0x33, 0x44), 0x11)
  underlayExtension := some (-1)

/-- Five lanes, one of them set twice, over any base. -/
theorem parse_overrides_some :
    parseTileArgsFromWithOverrides wholeFloats someArgs (tileOptionsDefaults wholeFloats) =
        .ok (applyCliOverrides { tileOptionsDefaults wholeFloats with userStart := true } someOverrides,
          someOverrides) ∧
      ∀ base, (∃ options', parseTileArgsFromWithOverrides wholeFloats someArgs base =
          .ok (options', someOverrides) ∧
        (applyCliOverrides base someOverrides).lanes = options'.lanes) ∧
        applyCliOverrides (applyCliOverrides base someOverrides) someOverrides =
          applyCliOverrides base someOverrides := by
  have hok : parseTileArgsFromWithOverrides wholeFloats someArgs (tileOptionsDefaults wholeFloats) =
      .ok (applyCliOverrides { tileOptionsDefaults wholeFloats with userStart := true } someOverrides,
        someOverrides) := by decide +kernel
  exact ⟨hok, fun base => parse_overrides hok base⟩

end

end TileArgs

end PlasmaTiler
