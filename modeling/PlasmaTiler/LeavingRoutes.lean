import PlasmaTiler.Leaving

/-!
# What the routes leave

The requests over one domain: a domain that is taken over from another
output, one that is seeded anew, and the commands that run on either.

The slots such a request has business with are not known before it runs, as a
relocation takes the slot of a domain it has to find first. `Touches` names
them from the engine before the request: its own domain, the domains it
names, and the one domain a relocation would take over. That the search finds
the same domain later, after the request has written its own slot, is
`Leaves.relocates`, and it is why the frame can be stated on the pre-state.

The commands themselves come down to one lemma, `Leaves.runRetained`, at the
routes that are `Regular`; each command adds the checks it makes before it
has a route. Fresh domains are the other half, where every session comes out
of a seed, a fit or a convergence of an empty session.
-/

namespace PlasmaTiler

namespace Engine

/-! ## Relocation -/

/-- The slots a request has business with: of its own domain, of the domains it
names, and of the one domain a relocation would take over. -/
inductive Touches (e : Engine) (r : Request) : DomainKey → Prop
  | domain : Touches e r r.event.domain.key
  | source {source target : OutputDomain} (h : r.event.directional = some (source, target)) :
      Touches e r source.key
  | target {source target : OutputDomain} (h : r.event.directional = some (source, target)) :
      Touches e r target.key
  | named {target : OutputDomain} (h : r.event.targetDomain = some target) :
      Touches e r target.key
  | relocated {key : DomainKey} (h : e.findUniqueSourceForTarget r.event.domain.key = some key) :
      Touches e r key

/-- The slot of the request's own domain. -/
def Own (r : Request) (key : DomainKey) : Prop := key = r.event.domain.key

section
variable {e₀ e : Engine} {r : Request} {touched : DomainKey → Prop} {s : Session}
  {key source : DomainKey}

theorem findUniqueSourceForTarget_iff : e.findUniqueSourceForTarget key = some source ↔
    ∀ k : DomainKey, (k ∈ e.sessions ∧ k.workspace = key.workspace ∧ k.output ≠ key.output) ↔
      k = source := by
  have hmem : ∀ k : DomainKey, (k ∈ e.sessions.keys.filter fun k =>
      k.workspace == key.workspace && k.output != key.output) ↔
        k ∈ e.sessions ∧ k.workspace = key.workspace ∧ k.output ≠ key.output := by
    intro k
    simp only [List.mem_filter, Std.ExtTreeMap.mem_keys, Bool.and_eq_true, beq_iff_eq, bne_iff_ne]
  have hnodup : (e.sessions.keys.filter fun k =>
      k.workspace == key.workspace && k.output != key.output).Nodup :=
    Std.ExtTreeMap.nodup_keys.filter _
  unfold findUniqueSourceForTarget
  constructor
  · intro h k
    split at h
    · rename_i heq
      cases h
      rw [← hmem, heq, List.mem_singleton]
    · cases h
  · intro h
    have hperm := (List.perm_ext_iff_of_nodup hnodup (List.nodup_singleton source)).mpr fun k => by
      rw [hmem, h k, List.mem_singleton]
    rw [List.perm_singleton.mp hperm]

/-- Which domain can be taken over does not depend on the request's own slot. -/
theorem Leaves.relocates (h : e₀.Leaves r (Own r) e)
    (hsource : e.findUniqueSourceForTarget r.event.domain.key = some source) :
    e₀.findUniqueSourceForTarget r.event.domain.key = some source := by
  rw [findUniqueSourceForTarget_iff] at hsource ⊢
  intro k
  rw [← hsource k]
  refine and_congr_left fun ⟨_, houtput⟩ => ?_
  have hne : ¬Own r k := fun heq => houtput (congrArg DomainKey.output heq)
  rw [mem_iff_lookup, mem_iff_lookup, (h.frame k hne).1]

theorem Leaves.own (h : e₀.Leaves r (Own r) e) : e₀.Leaves r (e₀.Touches r) e :=
  h.mono fun key hkey => by
    have heq : key = r.event.domain.key := hkey
    rw [heq]
    exact .domain

/-- A relocation moves slot and gap to the request's domain. -/
theorem Leaves.tryRelocateForTarget (h : e₀.Leaves r (Own r) e) {moved : Engine}
    {outerGap : Int} (hmoved : e.tryRelocateForTarget r.event.domain outerGap = some moved) :
    e₀.Leaves r (e₀.Touches r) moved := by
  simp only [Engine.tryRelocateForTarget, Option.bind_eq_bind, Option.bind_eq_some_iff,
    require_eq_some] at hmoved
  obtain ⟨_, -, _, -, source, hsource, s, hs, _, -, _, -, _, -, hmoved⟩ := hmoved
  split at hmoved
  · cases hmoved
  · rename_i relocated hrelocated
    simp only [Option.bind_eq_some_iff, require_eq_some, Option.pure_def, Option.some.injEq] at hmoved
    obtain ⟨_, -, rfl⟩ := hmoved
    have hslot := h.slot hs
    have hready : e₀.Ready r [r.event.domain.key] relocated := by
      refine ⟨hslot.made.relocated (fun hr => hr.ids.domain) hrelocated, ?_⟩
      have hsettled := @Session.relocateDomain_settled s source r.event.domain.key
        r.event.domain.bounds r.event.domain.gap hslot.settled
      rwa [hrelocated] at hsettled
    have hstamp := @Session.relocateDomain_stamp s source r.event.domain.key
      r.event.domain.bounds r.event.domain.gap
    rw [hrelocated] at hstamp
    exact (h.own.remove (.relocated (h.relocates hsource))).insert .domain
      ⟨hready, hslot.adopted.stamped hstamp⟩

theorem Leaves.takeUsableSession (h : e₀.Leaves r touched e) (hkey : touched r.event.domain.key) :
    e₀.Leaves r touched (e.takeUsableSession r.event.domain).1 ∧
      ∀ s, (e.takeUsableSession r.event.domain).2 = some s →
        e₀.Slot r r.event.domain.key s := by
  unfold Engine.takeUsableSession
  split
  · exact ⟨h, fun _ heq => by cases heq⟩
  · rename_i s hs
    split
    · exact ⟨h.remove hkey, fun _ heq => by cases heq⟩
    · refine ⟨h, fun t ht => ?_⟩
      cases ht
      exact h.slot hs

/-! ## Rebuilding -/

theorem seedAdmitStep_ready {keys : List DomainKey} {s' : Session} {domain : OutputDomain}
    {admitted : ObservedWindow} {index preFingerprint postFingerprint : Nat}
    (h : e₀.Makes r keys s) (hids : r.Validated → admitted.window.Opaque)
    (hok : s.seedAdmitStep r.event.owner r.event.generation domain admitted index preFingerprint
      postFingerprint = some s') : e₀.Ready r keys s' := by
  simp only [Session.seedAdmitStep, Option.bind_eq_bind, Option.bind_eq_some_iff] at hok
  obtain ⟨id, -, ⟨proposed, plan⟩, hproposed, ⟨acked, applied⟩, hacked, ⟨verified, commit⟩,
    hverified, heq⟩ := hok
  cases heq
  rw [succeeded_eq_some] at hproposed hacked hverified
  obtain ⟨hmade, hdrag⟩ := h.proposed (p := .command (.admitWindow _) _ _ _)
    (fun hr => by exact hids hr) (bound_of_ok hproposed)
  obtain ⟨hmade', hdrag'⟩ := hmade.acked hdrag hacked
  exact hmade'.verified hdrag' (v := .lifecycle _) hverified

theorem seedAll_ready {keys : List DomainKey} {s' : Session} {domain : OutputDomain}
    {order : List EngineWindow} {index fingerprint : Nat} (h : e₀.Ready r keys s)
    (hids : r.Validated → ∀ entry ∈ order, entry.window.Opaque)
    (hok : Session.seedAll r.event.owner r.event.generation fingerprint domain order index s =
      some s') : e₀.Ready r keys s' := by
  induction order generalizing index s with
  | nil =>
    cases hok
    exact h
  | cons entry order ih =>
    simp only [Session.seedAll, Option.bind_eq_bind, Option.bind_eq_some_iff] at hok
    obtain ⟨t, hstep, hok⟩ := hok
    refine ih (seedAdmitStep_ready h.made (fun hr => hids hr entry List.mem_cons_self) hstep)
      (fun hr other hother => hids hr other (List.mem_cons_of_mem _ hother)) hok

theorem seedSession_ready {order : List EngineWindow}
    (hids : r.Validated → ∀ entry ∈ order, entry.window.Opaque)
    (hok : seedSession r.event.owner r.event.generation r.event.fingerprint r.event.domain order =
      some s) : e₀.Ready r [r.event.domain.key] s := by
  simp only [seedSession, Option.bind_eq_bind, Option.bind_eq_some_iff] at hok
  obtain ⟨fresh, hfresh, hok⟩ := hok
  have hnew := toOption_eq_some.mp hfresh
  exact seedAll_ready ⟨.new rfl hnew, Session.new_settled hnew⟩ hids hok

/-- A seed order holds carried windows. -/
theorem orderSpatial_ids {windows order : List EngineWindow} {focused : WindowId} {tied : Bool}
    (hwindows : ∀ entry ∈ windows, entry.window.Opaque)
    (horder : orderSpatialWithFocusLast windows focused tied = some order) :
    ∀ entry ∈ order, entry.window.Opaque := by
  unfold orderSpatialWithFocusLast at horder
  dsimp only at horder
  split at horder
  · cases horder
  · cases horder
    intro entry hentry
    exact hwindows entry (List.mem_mergeSort.mp hentry)

/-! ## Routes -/

variable {R : Type} {route : Route R} {seedOrder : Option (List EngineWindow)}
  {converged ambiguousAsSnapshot : Bool}

theorem Leaves.rebuild (h : e₀.Leaves r touched e) (hroute : route.Regular r)
    (hkey : touched r.event.domain.key)
    (horder : ∀ order, seedOrder = some order → r.Validated →
      ∀ entry ∈ order, entry.window.Opaque) :
    e₀.Leaves r touched (e.rebuild r.event converged seedOrder ambiguousAsSnapshot route).1 := by
  unfold Engine.rebuild
  split
  · exact h
  · rename_i order
    split
    · exact h
    · split
      · exact h
      · rename_i seeded hseeded
        have hready : e₀.Ready r [r.event.domain.key] seeded :=
          seedSession_ready (horder order rfl) hseeded
        split
        · rename_i stored reply hrun
          exact h.storeCommitted hkey (hroute.run hready.made hrun)
        · exact h
        · exact h

theorem Leaves.runRetained (h : e₀.Leaves r (Own r) e) (hroute : route.Regular r)
    (horder : ∀ order, seedOrder = some order → r.Validated →
      ∀ entry ∈ order, entry.window.Opaque) :
    e₀.Leaves r (e₀.Touches r)
      (e.runRetained r.event converged seedOrder ambiguousAsSnapshot route).1 := by
  have htail : ∀ {e : Engine}, e₀.Leaves r (Own r) e → e₀.Leaves r (e₀.Touches r)
      (e.rebuild r.event converged seedOrder ambiguousAsSnapshot route).1 := by
    intro e h
    exact (h.rebuild hroute rfl horder).own
  have htaken : ∀ answer : Engine × Option Session,
      (if converged && e.unfit r.event.domain then (e, none)
        else e.takeUsableSession r.event.domain) = answer →
      e₀.Leaves r (Own r) answer.1 ∧
        ∀ s, answer.2 = some s → e₀.Slot r r.event.domain.key s := by
    rintro answer rfl
    split
    · exact ⟨h, fun _ heq => by cases heq⟩
    · exact h.takeUsableSession rfl
  unfold Engine.runRetained
  dsimp only
  generalize hanswer : (if converged && e.unfit r.event.domain then (e, none)
    else e.takeUsableSession r.event.domain) = answer
  obtain ⟨hleft, hslot⟩ := htaken answer hanswer
  obtain ⟨left, taken⟩ := answer
  cases taken with
  | some s =>
    have hs := hslot s rfl
    dsimp only
    split
    · rename_i stored reply hrun
      exact (hleft.storeCommitted rfl (hroute.run hs.made hrun)).own
    · exact (hleft.remove rfl).own
    · split
      · exact hleft.own
      · exact htail (hleft.remove rfl)
  | none =>
    dsimp only
    split
    · exact htail hleft
    · split
      · exact htail hleft
      · rename_i moved hmoved
        obtain ⟨hthere, hfound⟩ := (hleft.tryRelocateForTarget hmoved).takeUsableSession .domain
        split
        · exact htail hleft
        · rename_i there s heq
          rw [heq] at hthere hfound
          have hs := hfound s rfl
          split
          · rename_i stored reply hrun
            exact hthere.storeCommitted .domain (hroute.run hs.made hrun)
          · exact hleft.own
          · split
            · exact htail hleft
            · exact hleft.own

end

/-! ## The commands of one domain -/

section
variable {r : Request} {window : WindowId} {direction : Direction}

theorem moveRoute_regular {sameAxisMove : SameAxisMove} :
    (moveRoute r.event window direction sameAxisMove).Regular r where
  proposes h := ⟨_, .move _ _ _ _ _ _ _, _, .inr ⟨_, _, rfl⟩, fun _ ho => ho, rfl,
    bound_of_ok h⟩
  commits _ _ _ := ⟨.move _, rfl⟩

theorem focusRoute_regular : (focusRoute r.event window direction).Regular r where
  proposes h := ⟨_, .focus _ _ _ _ _ _, _, .inr ⟨_, _, rfl⟩, fun _ ho => ho, rfl,
    bound_of_ok h⟩
  commits _ _ _ := ⟨.focus _, rfl⟩

theorem orientationRoute_regular : (orientationRoute r.event window).Regular r where
  proposes h := ⟨_, .command (.toggleOrientation _) _ _ _, _, .inr ⟨_, _, rfl⟩, fun _ ho => ho, rfl,
    bound_of_ok h⟩
  commits _ _ _ := ⟨.lifecycle _, rfl⟩

theorem floatRoute_regular {floatRect : Option Rect} :
    (floatRoute r.event window floatRect).Regular r where
  proposes {s s' observation plan} h := by
    have hanswer : (floatRoute r.event window floatRect).propose s observation =
      (s', .ok plan) := h
    rw [floatRoute] at hanswer
    dsimp only at hanswer
    split at hanswer
    · cases hanswer
    · rename_i staged lifecycle hproposed
      cases hanswer
      exact ⟨s, .command (.toggleFloat _ _) _ _ _, _, .inl rfl, fun _ ho => ho, rfl,
        bound_of_ok hproposed⟩
  commits _ _ _ := ⟨.lifecycle _, rfl⟩

theorem keyboardRoute_regular {mode : ResizeMode} {pressIndex : Nat} :
    (keyboardRoute r.event window direction mode pressIndex).Regular r where
  proposes h := ⟨_, .resize _ _ _ _ _ _ _ _, _, .inr ⟨_, _, rfl⟩, fun _ ho => ho, rfl,
    bound_of_ok h⟩
  commits _ _ _ := ⟨.resize _, rfl⟩

theorem pointerRoute_regular {boundary : Int} :
    (pointerRoute r.event window direction boundary).Regular r where
  proposes h := ⟨_, .pointerResize _ _ _ _ _ _ _, _, .inr ⟨_, _, rfl⟩, fun _ ho => ho, rfl,
    bound_of_ok h⟩
  commits _ _ _ := ⟨.resize _, rfl⟩

theorem cornerRoute_regular {directionV : Direction} {boundaryH boundaryV : Int} :
    (cornerRoute r.event window direction boundaryH directionV boundaryV).Regular r where
  proposes h := ⟨_, .pointerResizeCorner _ _ _ _ _ _ _ _ _, _, .inr ⟨_, _, rfl⟩, fun _ ho => ho, rfl,
    bound_of_ok h⟩
  commits _ _ _ := ⟨.resize _, rfl⟩

/-- The admitted window is one of the request's. -/
theorem admitRoute_regular (hwindow : r.Validated → window.Opaque) :
    (admitRoute r.event window).Regular r where
  proposes h := ⟨_, .command (.admitWindow _) _ _ _, _, .inl rfl, fun hr _ => by exact hwindow hr,
    rfl, bound_of_ok h⟩
  commits _ _ _ := ⟨.lifecycle _, rfl⟩

end

section
variable {e₀ e : Engine} {r : Request} {window direction : String} {converged : Bool}

theorem strictOrder_ids (order : List EngineWindow) (horder : strictOrder r.event = some order)
    (hr : r.Validated) : ∀ entry ∈ order, entry.window.Opaque :=
  orderSpatial_ids hr.ids.windows horder

theorem Leaves.localMoveRequest (h : e₀.Leaves r (Own r) e) {sameAxisMove : SameAxisMove} :
    e₀.Leaves r (e₀.Touches r)
      (e.localMoveRequest r.event converged window direction sameAxisMove).1 := by
  unfold Engine.localMoveRequest
  split
  · exact h.own
  · split
    · exact h.own
    · exact h.runRetained moveRoute_regular strictOrder_ids

theorem Leaves.localFocusRequest (h : e₀.Leaves r (Own r) e) :
    e₀.Leaves r (e₀.Touches r) (e.localFocusRequest r.event converged window direction).1 := by
  unfold Engine.localFocusRequest
  split
  · exact h.own
  · split
    · exact h.own
    · exact h.runRetained focusRoute_regular strictOrder_ids

theorem Leaves.toggleOrientationRequest (h : e₀.Leaves r (Own r) e) :
    e₀.Leaves r (e₀.Touches r) (e.toggleOrientationRequest r.event converged window).1 := by
  unfold Engine.toggleOrientationRequest
  split
  · exact h.own
  · exact h.runRetained orientationRoute_regular strictOrder_ids

theorem Leaves.resizeRequest (h : e₀.Leaves r (Own r) e) {mode : String} {pressIndex : Nat} :
    e₀.Leaves r (e₀.Touches r)
      (e.resizeRequest r.event converged window direction mode pressIndex).1 := by
  unfold Engine.resizeRequest
  split
  · exact h.own
  · split
    · exact h.runRetained keyboardRoute_regular strictOrder_ids
    · exact h.own

theorem Leaves.pointerResizeRequest (h : e₀.Leaves r (Own r) e) {boundary : Int}
    {direction2 : Option String} {boundary2 : Option Int} :
    e₀.Leaves r (e₀.Touches r) (e.pointerResizeRequest r.event converged window direction boundary
      direction2 boundary2).1 := by
  unfold Engine.pointerResizeRequest
  split
  · exact h.own
  · split
    · exact h.own
    · split
      · exact h.own
      · exact h.runRetained pointerRoute_regular strictOrder_ids
      · split
        · exact h.runRetained cornerRoute_regular strictOrder_ids
        · exact h.runRetained cornerRoute_regular strictOrder_ids

/-! ## Fresh domains -/

theorem Leaves.convergeFreshFloating (h : e₀.Leaves r (Own r) e) :
    e₀.Leaves r (Own r) (e.convergeFreshFloating r.event).1 := by
  unfold Engine.convergeFreshFloating
  split
  · exact h
  · rename_i fresh hnew
    have hmade : e₀.Makes r [r.event.domain.key] (e.adoptFixedAdmission fresh) :=
      (Makes.new rfl hnew).adopted
    dsimp only
    split
    · exact h
    · rename_i settled counts hconverged
      exact h.storeCommitted rfl (hmade.converge
        (fun hr => sessionObservationFor_ids hr.ids.windows) hconverged)

theorem Leaves.commitFitted (h : e₀.Leaves r (Own r) e) {window : WindowId} {tree : Node}
    {links : List WindowLink} {answer : Engine × EngineReply}
    (hfit : ∃ windows : List Seed.EngineWindow,
      Seed.tryRecursiveCutFit r.event.domain windows = .ok (tree, links) ∧
        (r.Validated → ∀ entry ∈ windows, entry.window.Opaque))
    (hok : e.commitFitted r.event window tree links = some answer) :
    e₀.Leaves r (Own r) answer.1 := by
  simp only [Engine.commitFitted, Option.bind_eq_bind, Option.bind_eq_some_iff,
    toOption_eq_some] at hok
  obtain ⟨leaf, -, fresh, hnew, ⟨proposed, plan⟩, hproposed, committed, hcommit, heq⟩ := hok
  cases heq
  rw [succeeded_eq_some] at hproposed
  have hmade : e₀.Makes r [r.event.domain.key] (e.adoptFixedAdmission fresh) :=
    (Makes.new rfl hnew).adopted
  obtain ⟨windows, hfitted, hwindows⟩ := hfit
  obtain ⟨hstaged, hdrag⟩ := hmade.proposed (p := .fittedAdmit _ _ _ _)
    (fun hr => ⟨⟨_, windows, hfitted, hwindows hr⟩, sessionObservationFor_ids hr.ids.windows⟩)
    (bound_of_ok hproposed)
  exact h.storeCommitted rfl (hstaged.commit hdrag (v := .lifecycle _) hcommit)

/-- The fitted windows are the carried ones. -/
theorem fitWindows_ids (hr : r.Validated) : ∀ entry ∈ r.fitWindows, entry.window.Opaque := by
  intro entry hentry
  obtain ⟨carried, hcarried, rfl⟩ := List.mem_map.mp hentry
  exact hr.ids.windows carried hcarried

theorem Leaves.fitFresh (h : e₀.Leaves r (Own r) e) {window : WindowId}
    {answer : Engine × EngineReply} (hok : e.fitFresh r window = some answer) :
    e₀.Leaves r (Own r) answer.1 := by
  simp only [Engine.fitFresh, Option.bind_eq_bind, Option.bind_eq_some_iff, toOption_eq_some] at hok
  obtain ⟨_, -, _, -, ⟨tree, links, centreSplits⟩, hfit, _, -, _, -, hok⟩ := hok
  refine h.commitFitted ⟨r.fitWindows, ?_, fitWindows_ids⟩ hok
  rw [Seed.tryRecursiveCutFit, hfit]
  rfl

theorem Leaves.projectAdmitted (h : e₀.Leaves r (Own r) e) {s : Session}
    {answer : Engine × EngineReply} (hs : e₀.Slot r r.event.domain.key s)
    (hmem : r.event.domain.key ∈ e.sessions) (hok : e.projectAdmitted r s = some answer) :
    e₀.Leaves r (Own r) answer.1 := by
  unfold Engine.projectAdmitted at hok
  dsimp only at hok
  split at hok
  · cases hok
    exact h
  · simp only [Option.bind_eq_bind, Option.bind_eq_some_iff] at hok
    obtain ⟨_, -, _, -, _, -, heq⟩ := hok
    cases heq
    exact h.put rfl hmem hs

theorem Slot.synced {key : DomainKey} {s : Session} (hs : e₀.Slot r key s) (domain : DomainKey)
    (window : WindowId) : e₀.Slot r key (s.syncFocusFromWindow domain window).1 :=
  ⟨hs.toReady.synced domain window, hs.adopted.stamped Session.syncFocusFromWindow_same.stamp⟩

theorem Leaves.projectFresh (h : e₀.Leaves r (Own r) e) {window : WindowId}
    {answer : Engine × EngineReply} (hok : e.projectFresh r window = some answer) :
    e₀.Leaves r (Own r) answer.1 := by
  simp only [Engine.projectFresh, Option.bind_eq_bind, Option.bind_eq_some_iff] at hok
  obtain ⟨s, hs, hok⟩ := hok
  have hmem := mem_iff_lookup.mpr ⟨s, hs⟩
  split at hok
  · exact h.projectAdmitted ((h.slot hs).synced _ _) hmem hok
  · simp only [Option.bind_eq_some_iff] at hok
    obtain ⟨_, -, hok⟩ := hok
    exact h.projectAdmitted (h.slot hs) hmem hok

theorem Leaves.admitFresh (h : e₀.Leaves r (Own r) e) {window : WindowId}
    (hwindow : r.Validated → window.Opaque) :
    e₀.Leaves r (e₀.Touches r) (e.admitFresh r.event converged window).1 :=
  h.runRetained (admitRoute_regular hwindow) fun _ horder hr =>
    orderSpatial_ids (fun entry hentry =>
      hr.ids.windows entry (List.mem_of_mem_filter hentry)) horder

theorem Leaves.freshAdmitShared (h : e₀.Leaves r (Own r) e) {window : WindowId}
    (hwindow : r.Validated → window.Opaque) :
    e₀.Leaves r (e₀.Touches r) (e.freshAdmitShared r window).1 := by
  unfold Engine.freshAdmitShared
  split
  · rename_i answer hfit
    exact (h.fitFresh hfit).own
  · split
    · have hconverged := h.convergeFreshFloating
      split
      · rename_i heq
        rw [heq] at hconverged
        exact hconverged.own
      · rename_i heq
        rw [heq] at hconverged
        exact hconverged.admitFresh hwindow
      · rename_i heq
        rw [heq] at hconverged
        split
        · rename_i answer hproject
          exact (hconverged.projectFresh hproject).own
        · exact hconverged.admitFresh hwindow
    · exact h.admitFresh hwindow

/-- The anchor of a seed is a carried window. -/
theorem freshReconcileSeedAnchor_ids {anchor : WindowId}
    (hanchor : freshReconcileSeedAnchor r.event = some anchor) (hr : r.Validated) :
    anchor.Opaque := by
  unfold freshReconcileSeedAnchor at hanchor
  split at hanchor
  · rename_i hfocused
    cases hanchor
    simp only [Bool.and_eq_true, List.any_eq_true, beq_iff_eq] at hfocused
    obtain ⟨-, entry, hentry, hwindow, -⟩ := hfocused
    exact hwindow ▸ hr.ids.windows entry hentry
  · obtain ⟨entry, hfind, rfl⟩ := Option.map_eq_some_iff.mp hanchor
    exact hr.ids.windows entry (List.mem_of_find?_eq_some hfind)

theorem Leaves.freshReconcileRequest (h : e₀.Leaves r (Own r) e) :
    e₀.Leaves r (e₀.Touches r) (e.freshReconcileRequest r).1 := by
  unfold Engine.freshReconcileRequest
  split
  · exact h.own
  · split
    · rename_i anchor hanchor
      exact h.freshAdmitShared (freshReconcileSeedAnchor_ids hanchor)
    · have hconverged := h.convergeFreshFloating
      split
      · rename_i heq
        rw [heq] at hconverged
        exact hconverged.own
      · rename_i heq
        rw [heq] at hconverged
        exact hconverged.own
      · rename_i heq
        rw [heq] at hconverged
        exact hconverged.own

end

end Engine

end PlasmaTiler
