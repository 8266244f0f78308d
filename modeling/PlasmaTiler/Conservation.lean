import PlasmaTiler.FocusStacks
import PlasmaTiler.Transfers

/-!
# What a commit leaves alone

A committed operation names at most two domains and one window, and should
leave everything else alone. `Framed` says that it keeps trees, links and
focus stacks of all other domains; `Conserves` also what it keeps of the
named ones: every window and exception for a move, a focus, a resize, a drop
and an orientation, and for the operations that change a membership
everything but the named window's.

Which domains are named is read off the operation and the session before it
(`namedDomains`): the home of the window, the target of a send, the domain a
move or a focus change crosses to. A crossing is decided by the planner, so
the name of its target is the planner's answer.

The statement is about a plan that was proposed, acknowledged and verified.
`Plans` collects the worlds that proposals stage, `Lands` what the session is
after the commit of one; the families are taken in the next module.
-/

namespace PlasmaTiler

/-! ## Trees without their shares -/

namespace Node

mutual

/-- The nodes, axes and child order of a tree. -/
def unshared : Node → Node
  | .leaf id => .leaf id
  | .group id axis children _ => .group id axis (unsharedF children) []

def unsharedF : List Node → List Node
  | [] => []
  | child :: children => unshared child :: unsharedF children

end

variable {n n' : Node} {group : NodeId} {newShares : List Nat} {replaced : Nat}

theorem unsharedF_eq (cs : List Node) : unsharedF cs = cs.map unshared := by
  induction cs with
  | nil => rw [unsharedF, List.map_nil]
  | cons c cs ih => rw [unsharedF, ih, List.map_cons]

theorem unshared_group {id : NodeId} {axis : Axis} {cs : List Node} {shares : List Nat} :
    (Node.group id axis cs shares).unshared = .group id axis (cs.map unshared) [] := by
  rw [unshared, unsharedF_eq]

end Node

theorem applyResizeSharesChecked_unshared {n n' : Node} {group : NodeId} {newShares : List Nat}
    {replaced : Nat} (h : applyResizeSharesChecked group newShares n = some (n', replaced)) :
    n'.unshared = n.unshared := by
  induction n generalizing n' replaced with
  | leaf i =>
    cases h
    rfl
  | group i axis cs shares ih =>
    have hchildren : ∀ (l l' : List Node) (r : Nat), l ⊆ cs →
        applyResizeSharesIn group newShares l = some (l', r) →
        l'.map Node.unshared = l.map Node.unshared := by
      intro l
      induction l with
      | nil =>
        intro l' r _ h
        cases h
        rfl
      | cons c l ihl =>
        intro l' r hsub h
        obtain ⟨hc, hsub⟩ := List.cons_subset.mp hsub
        simp only [applyResizeSharesIn, Option.bind_eq_bind, Option.bind_eq_some_iff] at h
        obtain ⟨⟨next, r₁⟩, hnext, ⟨rest, r₂⟩, hrest, h⟩ := h
        cases h
        rw [List.map_cons, List.map_cons, ih c hc hnext, ihl rest r₂ hsub hrest]
    simp only [applyResizeSharesChecked, Option.bind_eq_bind, Option.bind_eq_some_iff] at h
    obtain ⟨⟨next, r⟩, hnext, h⟩ := h
    have hmap := hchildren cs next r (List.Subset.refl _) hnext
    split at h
    · simp only [Option.bind_eq_some_iff] at h
      obtain ⟨_, -, h⟩ := h
      cases h
      rw [Node.unshared_group, Node.unshared_group, hmap]
    · cases h
      rw [Node.unshared_group, Node.unshared_group, hmap]

theorem applyResizeShares_unshared {tree updated : Node} {group : NodeId} {newShares : List Nat}
    (h : applyResizeShares tree group newShares = some updated) :
    updated.unshared = tree.unshared := by
  simp only [applyResizeShares, Option.bind_eq_bind, Option.bind_eq_some_iff] at h
  obtain ⟨_, -, _, -, _, -, ⟨next, r⟩, hnext, _, -, h⟩ := h
  cases h
  exact applyResizeSharesChecked_unshared hnext

namespace Session

/-! ## What an operation names -/

/-- The domains a window is tiled or recorded in. -/
def homesOf (s : Session) (window : WindowId) : List DomainKey :=
  (s.windows[window]?.map WindowLink.key).toList ++
    (s.exceptions[window]?.map ExceptionRecord.key).toList

/-- Where the planner answers a move by crossing to. -/
def moveTarget (s : Session) (domain : DomainKey) (window : WindowId) (direction : Direction)
    (capabilities : Capabilities) (sameAxisMove : SameAxisMove) : Option DomainKey :=
  match s.focusedLeaf, s.moveSnapshot domain with
  | some leaf, some snapshot =>
    match planMoveWithCapabilities snapshot ⟨domain.output, leaf, window, direction, sameAxisMove⟩
        capabilities with
    | .planned plan => crossTarget plan.operation
    | _ => none
  | _, _ => none

/-- The domain a focus crosses to. -/
def focusTarget (s : Session) (domain : DomainKey) (direction : Direction) : Option DomainKey :=
  (s.domainAt domain).bind fun source => (s.adjacentDomain source direction).map OutputDomain.key

/-- The source and the target of a planned operation. -/
def namedDomains (s : Session) : Proposal → List DomainKey
  | .command (.admitWindow c) .. => [c.key]
  | .command (.remove window) .. | .command (.toggleFloat window _) .. => s.homesOf window
  | .command (.moveToWorkspace window target _) .. | .command (.moveToOutput window target _) .. =>
      target :: s.homesOf window
  | .command (.toggleOrientation _) .. | .toggleOrientation .. => s.focusedDomain.toList
  | .fittedAdmit f .. => [f.key]
  | .move domain window direction _ _ capabilities sameAxisMove =>
      domain :: (s.moveTarget domain window direction capabilities sameAxisMove).toList
  | .focus domain .. => [domain]
  | .crossOutputFocus domain _ direction .. | .floatCrossOutputFocus domain _ direction .. =>
      domain :: (s.focusTarget domain direction).toList
  | .resize domain .. | .pointerResize domain .. | .pointerResizeCorner domain .. => [domain]
  | .dropDrag .. => (s.drag.map DragState.domain).toList

/-! ## What it leaves alone -/

/-- Trees, links and focus stacks of all domains but the named ones are the
same. For links it says that no window enters or leaves such a domain. -/
structure Framed (s s' : Session) (named : List DomainKey) : Prop where
  trees : ∀ key ∉ named, s'.trees[key]? = s.trees[key]?
  links : ∀ {window : WindowId} {link : WindowLink}, link.key ∉ named →
    (s'.windows[window]? = some link ↔ s.windows[window]? = some link)
  focusStack : ∀ key ∉ named, s'.focusStack[key]? = s.focusStack[key]?

/-- No window and no exception joins, leaves or changes. Moves of the focus
and changes of shares leave this. -/
structure KeepsWindows (s s' : Session) : Prop where
  windows : s'.windows = s.windows
  exceptions : s'.exceptions = s.exceptions

/-- No window and no exception joins or leaves, and only one window may have
another domain. -/
structure KeepsMembership (s s' : Session) (window : WindowId) : Prop where
  leaves : ∀ w : WindowId, s'.windows[w]?.map WindowLink.leaf = s.windows[w]?.map WindowLink.leaf
  others : ∀ w : WindowId, w ≠ window → s'.windows[w]? = s.windows[w]?
  exceptions : s'.exceptions = s.exceptions

/-- The trees differ in their shares at most: nodes, axes and the order of
children are the same in every domain. -/
def KeepsShapes (s s' : Session) : Prop :=
  ∀ key : DomainKey, s'.trees[key]?.map (·.map Node.unshared) =
    s.trees[key]?.map (·.map Node.unshared)

/-- The leaves of a domain but the window's own. -/
def otherLeaves (s : Session) (window : WindowId) (key : DomainKey) : List NodeId :=
  (leavesAt s.trees key).filter fun leaf => !s.windows[window]?.any (·.leaf == leaf)

/-- All windows but the one keep their link or record, and their leaves keep
the order they had in every domain. -/
structure KeepsOthers (s s' : Session) (window : WindowId) : Prop where
  links : ∀ w : WindowId, w ≠ window → s'.windows[w]? = s.windows[w]?
  records : ∀ w : WindowId, w ≠ window → s'.exceptions[w]? = s.exceptions[w]?
  order : ∀ key, s'.otherLeaves window key = s.otherLeaves window key

/-- What a committed operation leaves of the domains it names. -/
def Keeps (s : Session) : Proposal → Session → Prop
  | .command (.admitWindow c) .., s' =>
      s.KeepsOthers s' c.window ∧ s.isKnown c.window = false ∧ s'.isKnown c.window = true
  | .command (.remove window) .., s' =>
      s.KeepsOthers s' window ∧ s.isKnown window = true ∧ s'.isKnown window = false
  | .command (.toggleFloat window _) .., s' =>
      s.KeepsOthers s' window ∧ s.isKnown window = true ∧
        s'.windows.contains window = s.exceptions.contains window ∧
        s'.exceptions.contains window = s.windows.contains window
  | .command (.moveToWorkspace window _ _) .., s' | .command (.moveToOutput window _ _) .., s'
  | .move _ window .., s' => s.KeepsMembership s' window
  | .command (.toggleOrientation _) .., s' | .toggleOrientation .., s' | .dropDrag .., s' =>
      s.KeepsWindows s'
  | .fittedAdmit .., s' => s.windows.isEmpty = true ∧ s'.exceptions = s.exceptions
  | .focus .., s' | .crossOutputFocus .., s' | .floatCrossOutputFocus .., s' | .resize .., s'
  | .pointerResize .., s' | .pointerResizeCorner .., s' => s.KeepsWindows s' ∧ s.KeepsShapes s'

/-- What a committed operation leaves alone: everything outside the domains it
names, and inside them what its kind has to keep. -/
structure Conserves (s : Session) (p : Proposal) (s' : Session) : Prop where
  framed : s.Framed s' (s.namedDomains p)
  keeps : s.Keeps p s'

/-! ## What is planned and what is committed -/

/-- The worlds a proposal stages. -/
inductive Plans (s : Session) : Proposal → PendingDesired → Prop
  | admits {c : AdmitCommand} {observed : SessionObservation} {id : CorrelationId}
      {capabilities : LifecycleCapabilities} {staging : Staging LifecyclePlan}
      (h : s.planAdmit c observed = .ok staging) :
      Plans s (.command (.admitWindow c) observed id capabilities) staging.desired
  | remove {window : WindowId} {observed : SessionObservation} {id : CorrelationId}
      {capabilities : LifecycleCapabilities} {staging : Staging LifecyclePlan}
      (h : s.planRemove window observed = .ok staging) :
      Plans s (.command (.remove window) observed id capabilities) staging.desired
  | unfloat {window : WindowId} {rect : Option Rect} {observed : SessionObservation}
      {id : CorrelationId} {capabilities : LifecycleCapabilities} {record : ExceptionRecord}
      {candidate : Session} {c : AdmitCommand} {staging : Staging LifecyclePlan}
      (hrecord : s.exceptions[window]? = some record)
      (hplan : s.planUnfloat window record rect observed = .ok (candidate, c))
      (h : candidate.planAdmit c (observed.settled window) = .ok staging) :
      Plans s (.command (.toggleFloat window rect) observed id capabilities) staging.desired
  | float {window : WindowId} {rect : Option Rect} {observed : SessionObservation}
      {id : CorrelationId} {capabilities : LifecycleCapabilities} {target : ObservedWindow}
      {effective : Rect} {staging : Staging LifecyclePlan} (hnone : s.exceptions[window]? = none)
      (hfloat : s.planFloat window rect observed = .ok (target, effective))
      (h : s.planRemove window observed = .ok staging) :
      Plans s (.command (.toggleFloat window rect) observed id capabilities)
        (staging.desired.floated target window effective)
  | send {window : WindowId} {target : DomainKey} {follow outputSend : Bool}
      {observed : SessionObservation} {id : CorrelationId} {capabilities : LifecycleCapabilities}
      {staging : Staging LifecyclePlan} {trace : SendPlacementTrace}
      (h : s.planSend window target follow outputSend observed = .ok (staging, trace)) :
      Plans s (.command (if outputSend then .moveToOutput window target follow
        else .moveToWorkspace window target follow) observed id capabilities) staging.desired
  | orientation {window : WindowId} {observed : SessionObservation} {id : CorrelationId}
      {capabilities : LifecycleCapabilities} {staging : Staging LifecyclePlan} {p : Proposal}
      (hp : p = .command (.toggleOrientation window) observed id capabilities ∨
        p = .toggleOrientation window observed id capabilities)
      (h : s.planToggleOrientation window observed = .ok staging) : Plans s p staging.desired
  | fittedAdmit {f : FittedAdmit} {observed : SessionObservation} {id : CorrelationId}
      {capabilities : LifecycleCapabilities} {staging : Staging LifecyclePlan}
      (h : s.planFittedAdmit f observed = .ok staging) :
      Plans s (.fittedAdmit f observed id capabilities) staging.desired
  | move {domain : DomainKey} {window : WindowId} {direction : Direction}
      {observed : SessionObservation} {id : CorrelationId} {capabilities : Capabilities}
      {sameAxisMove : SameAxisMove} {staging : Staging MovePlan}
      (h : s.planMoveWithSameAxis domain window direction observed capabilities sameAxisMove =
        .ok staging) :
      Plans s (.move domain window direction observed id capabilities sameAxisMove) staging.desired
  | focus {domain : DomainKey} {window : WindowId} {direction : Direction}
      {observed : SessionObservation} {id : CorrelationId} {capabilities : FocusCapabilities}
      {staging : Staging (FocusPlanContract × FocusPlan)}
      (h : s.planFocusIn domain window direction observed capabilities = .ok staging) :
      Plans s (.focus domain window direction observed id capabilities) staging.desired
  | crossOutputFocus {domain : DomainKey} {window : WindowId} {direction : Direction}
      {observed : SessionObservation} {id : CorrelationId} {capabilities : FocusCapabilities}
      {floatSubject : Bool} {staging : Staging (FocusPlanContract × FocusPlan)}
      (h : s.planCrossOutputFocus domain window direction observed capabilities floatSubject =
        .ok staging) :
      Plans s (if floatSubject then
          .floatCrossOutputFocus domain window direction observed id capabilities
        else .crossOutputFocus domain window direction observed id capabilities) staging.desired
  | resize {domain : DomainKey} {window : WindowId} {direction : Direction} {mode : ResizeMode}
      {pressIndex : Nat} {observed : SessionObservation} {id : CorrelationId}
      {capabilities : ResizeCapabilities} {staging : ResizeStaging}
      (h : s.planKeyboardResize domain window direction mode pressIndex observed capabilities =
        .ok staging) :
      Plans s (.resize domain window direction mode pressIndex observed id capabilities)
        staging.desired
  | pointerResize {domain : DomainKey} {window : WindowId} {direction : Direction}
      {boundary : Int} {observed : SessionObservation} {id : CorrelationId}
      {capabilities : ResizeCapabilities} {staging : ResizeStaging}
      (h : s.planPointerResize domain window direction boundary observed capabilities =
        .ok staging) :
      Plans s (.pointerResize domain window direction boundary observed id capabilities)
        staging.desired
  | pointerResizeCorner {domain : DomainKey} {window : WindowId}
      {directionH directionV : Direction} {boundaryH boundaryV : Int}
      {observed : SessionObservation} {id : CorrelationId} {capabilities : ResizeCapabilities}
      {staging : ResizeStaging}
      (h : s.planPointerResizeCorner domain window directionH boundaryH directionV boundaryV
        observed capabilities = .ok staging) :
      Plans s (.pointerResizeCorner domain window directionH boundaryH directionV boundaryV observed
        id capabilities) staging.desired
  | drop {capture : DragState} {x y : Int} {observed : SessionObservation} {id : CorrelationId}
      {capabilities : DragCapabilities} {staging : Staging DragPlan}
      {prior : Option PriorGroupEdge} (hdrag : s.drag = some capture)
      (h : s.planDrop capture x y observed capabilities = .ok (staging, prior)) :
      Plans s (.dropDrag x y observed id capabilities) staging.desired

section
variable {s s' : Session} {desired : PendingDesired} {P D R : Type}
  {planned : Except ProposeError (Staging P)} {verdict : P → Reconciler × Except Reconciler.ProposeError D}
  {report : D → Staging P → R} {answer : R}

/-- The session with a staged world: nothing else of it has changed. -/
structure Holds (s s' : Session) (desired : PendingDesired) : Prop where
  desired : s'.pendingDesired = some desired
  focusStack : s'.focusStack = s.focusStack

theorem proposeStaged_holds (h : s.proposeStaged planned verdict report = (s', .ok answer)) :
    ∃ staging, planned = .ok staging ∧ s.Holds s' staging.desired := by
  unfold proposeStaged attempt at h
  cases planned with
  | error e => cases h
  | ok staging =>
    simp only at h
    generalize verdict staging.plan = v at h
    obtain ⟨reconciler, result⟩ := v
    cases result with
    | ok dispatch =>
      cases h
      exact ⟨staging, rfl, rfl, rfl⟩
    | error e => cases e <;> cases h

variable {proposed : Session} {p : Proposal} {window : WindowId} {observed : SessionObservation}
  {id : CorrelationId} {plan : SessionPlan}

theorem proposeToggleFloat_plans {rect : Option Rect} {capabilities : LifecycleCapabilities}
    (h : s.proposeToggleFloat window rect observed id capabilities = (s', .ok plan)) :
    ∃ desired, s.Plans (.command (.toggleFloat window rect) observed id capabilities) desired ∧
      s.Holds s' desired := by
  unfold proposeToggleFloat at h
  split at h
  · rename_i record hrecord
    unfold attempt at h
    split at h
    · cases h
    · rename_i result hplan
      obtain ⟨candidate, c⟩ := result
      simp only at h
      split at h
      · rename_i final answer hadmit
        cases h
        unfold proposeAdmit proposeLifecyclePlan at hadmit
        obtain ⟨staging, hplanned, hdesired, hstack⟩ := proposeStaged_holds hadmit
        obtain ⟨-, retained, -, -, -, rfl, -⟩ := planUnfloat_ok hplan
        exact ⟨_, .unfloat hrecord hplan hplanned, hdesired, hstack⟩
      · cases h
  · rename_i hnone
    unfold attempt at h
    split at h
    · cases h
    · rename_i result hfloat
      obtain ⟨target, effective⟩ := result
      simp only at h
      split at h
      · cases h
      · rename_i final answer hremove
        unfold proposeRemove proposeLifecyclePlan at hremove
        obtain ⟨staging, hplanned, hdesired, hstack⟩ := proposeStaged_holds hremove
        simp only [hdesired, Prod.mk.injEq] at h
        obtain ⟨rfl, -⟩ := h
        exact ⟨_, .float hnone hfloat hplanned, rfl, hstack⟩

theorem proposeSend_plans {target : DomainKey} {follow outputSend : Bool}
    {capabilities : LifecycleCapabilities}
    (h : s.proposeSend window target follow outputSend observed id capabilities = (s', .ok plan)) :
    ∃ desired, s.Plans (.command (if outputSend then .moveToOutput window target follow
        else .moveToWorkspace window target follow) observed id capabilities) desired ∧
      s.Holds s' desired := by
  unfold proposeSend attempt at h
  split at h
  · cases h
  · rename_i result hplan
    obtain ⟨staging, trace⟩ := result
    simp only at h
    split at h
    · rename_i final answer hstaged
      cases h
      obtain ⟨staging', hplanned, hdesired, hstack⟩ := proposeStaged_holds hstaged
      cases hplanned
      exact ⟨_, .send hplan, hdesired, hstack⟩
    · cases h

theorem propose_plans {command : SessionCommand} {capabilities : LifecycleCapabilities}
    (h : s.propose command observed id capabilities = (s', .ok plan)) :
    ∃ desired, s.Plans (.command command observed id capabilities) desired ∧
      s.Holds s' desired := by
  unfold propose attempt at h
  split at h
  · cases h
  · cases command with
    | admitWindow c =>
      simp only [proposeAdmit, proposeLifecyclePlan] at h
      obtain ⟨staging, hplanned, hholds⟩ := proposeStaged_holds h
      exact ⟨_, .admits hplanned, hholds⟩
    | remove window =>
      simp only [proposeRemove, proposeLifecyclePlan] at h
      obtain ⟨staging, hplanned, hholds⟩ := proposeStaged_holds h
      exact ⟨_, .remove hplanned, hholds⟩
    | moveToWorkspace window target follow => exact @proposeSend_plans _ _ _ _ _ _ _ _ false _ h
    | moveToOutput window target follow => exact @proposeSend_plans _ _ _ _ _ _ _ _ true _ h
    | toggleFloat window rect => exact proposeToggleFloat_plans h
    | toggleOrientation window =>
      simp only [proposeToggleOrientation, proposeLifecyclePlan] at h
      obtain ⟨staging, hplanned, hholds⟩ := proposeStaged_holds h
      exact ⟨_, .orientation (.inl rfl) hplanned, hholds⟩

theorem dropDrag_plans {x y : Int} {capabilities : DragCapabilities} {drop : SessionDragPlan}
    (h : s.dropDrag x y observed id capabilities = (s', .ok (.planned drop))) :
    ∃ desired, s.Plans (.dropDrag x y observed id capabilities) desired ∧ s.Holds s' desired := by
  unfold dropDrag at h
  split at h
  · cases h
  · split at h
    · cases h
    · rename_i capture hdrag
      split at h
      · cases h
      · split at h
        · cases h
        · cases h
        · rename_i staging prior hplan
          split at h
          · rename_i final answer hstaged
            cases h
            obtain ⟨staging', hplanned, hdesired, hstack⟩ := proposeStaged_holds hstaged
            cases hplanned
            exact ⟨_, .drop hdrag hplan, hdesired, hstack⟩
          · cases h

theorem proposal_plans {binding : PlanBinding} (h : s.proposal p = (s', .ok (some binding))) :
    ∃ desired, s.Plans p desired ∧ s.Holds s' desired := by
  cases p with
  | command command observed id capabilities =>
    obtain ⟨plan, hplan⟩ := bound_ok h
    exact propose_plans hplan
  | toggleOrientation window observed id capabilities =>
    obtain ⟨plan, hplan⟩ := bound_ok h
    unfold proposeToggleOrientation proposeLifecyclePlan at hplan
    obtain ⟨staging, hplanned, hholds⟩ := proposeStaged_holds hplan
    exact ⟨_, .orientation (.inr rfl) hplanned, hholds⟩
  | fittedAdmit f observed id capabilities =>
    obtain ⟨plan, hplan⟩ := bound_ok h
    unfold proposeFittedAdmit proposeLifecyclePlan at hplan
    obtain ⟨staging, hplanned, hholds⟩ := proposeStaged_holds hplan
    exact ⟨_, .fittedAdmit hplanned, hholds⟩
  | move domain window direction observed id capabilities sameAxisMove =>
    obtain ⟨plan, hplan⟩ := bound_ok h
    obtain ⟨staging, hplanned, hholds⟩ := proposeStaged_holds hplan
    exact ⟨_, .move hplanned, hholds⟩
  | focus domain window direction observed id capabilities =>
    obtain ⟨plan, hplan⟩ := bound_ok h
    unfold proposeFocus proposeFocusPlan at hplan
    obtain ⟨staging, hplanned, hholds⟩ := proposeStaged_holds hplan
    exact ⟨_, .focus hplanned, hholds⟩
  | crossOutputFocus domain window direction observed id capabilities =>
    obtain ⟨plan, hplan⟩ := bound_ok h
    unfold proposeCrossOutputFocus crossOutputFocus proposeFocusPlan at hplan
    obtain ⟨staging, hplanned, hholds⟩ := proposeStaged_holds hplan
    exact ⟨_, @Plans.crossOutputFocus _ _ _ _ _ _ _ false _ hplanned, hholds⟩
  | floatCrossOutputFocus domain window direction observed id capabilities =>
    obtain ⟨plan, hplan⟩ := bound_ok h
    unfold proposeFloatCrossOutputFocus crossOutputFocus proposeFocusPlan at hplan
    obtain ⟨staging, hplanned, hholds⟩ := proposeStaged_holds hplan
    exact ⟨_, @Plans.crossOutputFocus _ _ _ _ _ _ _ true _ hplanned, hholds⟩
  | resize domain window direction mode pressIndex observed id capabilities =>
    obtain ⟨plan, hplan⟩ := bound_ok h
    obtain ⟨staging, hplanned, hholds⟩ := proposeStaged_holds hplan
    exact ⟨_, .resize hplanned, hholds⟩
  | pointerResize domain window direction boundary observed id capabilities =>
    obtain ⟨plan, hplan⟩ := bound_ok h
    obtain ⟨staging, hplanned, hholds⟩ := proposeStaged_holds hplan
    exact ⟨_, .pointerResize hplanned, hholds⟩
  | pointerResizeCorner domain window directionH boundaryH directionV boundaryV observed id
      capabilities =>
    obtain ⟨plan, hplan⟩ := bound_ok h
    obtain ⟨staging, hplanned, hholds⟩ := proposeStaged_holds hplan
    exact ⟨_, .pointerResizeCorner hplanned, hholds⟩
  | dropDrag x y observed id capabilities =>
    simp only [proposal, bound] at h
    generalize hdrop : s.dropDrag x y observed id capabilities = call at h
    obtain ⟨s₁, result⟩ := call
    cases result with
    | error e => cases h
    | ok release =>
      cases release with
      | planned plan =>
        cases h
        exact dropDrag_plans hdrop
      | snapBack _ => cases h

/-- The session after the commit of a world. The world is adopted as it was
staged; only the focus stacks are brought up to date with it. -/
structure Lands (s : Session) (desired : PendingDesired) (s' : Session) : Prop where
  trees : s'.trees = desired.trees
  windows : s'.windows = desired.windows
  exceptions : s'.exceptions = desired.exceptions
  focusStack : s'.focusStack = s.updatedFocusStack desired.focusedDomain desired.focusedLeaf
    desired.trees desired.windows

theorem Holds.lands {t : Session} {ack : AdapterAck} {v : Verification} {commit : Commit}
    (h : s.Holds proposed desired) (hack : (proposed.acknowledge ack).1 = t)
    (hcommit : t.verification v = (s', .ok commit)) : s.Lands desired s' := by
  obtain ⟨t', hverified, hmoved⟩ := verification_committed hcommit
  have hkept : t.divergence = none → t.pendingDesired = some desired ∧
      t.focusStack = s.focusStack := by
    intro hlive
    have hanswer := @acknowledge_acknowledged proposed ack
    rw [hack] at hanswer
    generalize (proposed.acknowledge ack).2 = result at hanswer
    cases hanswer with
    | cleared hreason =>
      have hdiverged : proposed.divergence = none := hlive
      rw [hdiverged] at hreason
      cases hreason
    | halted _ => cases hlive
    | unchanged => exact ⟨h.desired, h.focusStack⟩
    | acked _ _ => exact ⟨h.desired, h.focusStack⟩
  have hlands : s.Lands desired t' := by
    cases hverified with
    | bare hlive _ hnone =>
      rw [(hkept hlive).1] at hnone
      cases hnone
    | committed hlive _ hsome =>
      obtain ⟨hdesired, hstack⟩ := hkept hlive
      obtain rfl := Option.some.inj (hdesired.symm.trans hsome)
      exact ⟨rfl, rfl, rfl, updatedFocusStack_congr hstack⟩
  rcases hmoved with rfl | rfl
  · exact hlands
  · exact { hlands with }

theorem commitPlan_lands {ack : AdapterAck} {v : Verification}
    (h : s.commitPlan p ack v = some s') :
    ∃ desired, s.Plans p desired ∧ (s.proposal p).1.pendingDesired = some desired ∧
      s.Lands desired s' := by
  unfold commitPlan at h
  generalize hproposal : s.proposal p = answer at h ⊢
  obtain ⟨proposed, result⟩ := answer
  cases result with
  | error e => cases h
  | ok binding =>
    cases binding with
    | none => cases h
    | some binding =>
      simp only at h
      generalize hack : (proposed.acknowledge ack).1 = t at h
      generalize hverification : t.verification v = answer at h
      obtain ⟨committed, result⟩ := answer
      cases result with
      | error e => cases h
      | ok commit =>
        cases h
        obtain ⟨desired, hplans, hholds⟩ := proposal_plans hproposal
        exact ⟨desired, hplans, hholds.desired, hholds.lands hack hverification⟩

end

end Session

end PlasmaTiler
