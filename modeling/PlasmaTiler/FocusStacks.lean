import PlasmaTiler.WorldInvariant

/-!
# Focus stacks

Every domain has a stack of the leaves that had its focus. In a reachable
session the stacks hold linked leaves only, each once, and the focus is on
top of its domain's (`Stacked`).

Every change of the world goes through one update, which keeps of each stack
what still resolves and puts the new focus on top. So the invariant is a fact
about the update, and it comes with a frame: the stack of a domain that
neither changes nor takes the focus is left alone (`Stacked.updated_frame`),
which is what the frames of the commits need.
-/

namespace PlasmaTiler

namespace Session

section
variable {s : Session} {trees : Trees} {windows : Links} {key : DomainKey} {leaf : NodeId}
  {leaves : List NodeId} {focusDomain : Option DomainKey} {focusLeaf : Option NodeId}

/-- The leaves of a domain's stack that resolve, when there are any. -/
def liveStack (s : Session) (trees : Trees) (windows : Links) (key : DomainKey) :
    Option (List NodeId) :=
  s.focusStack[key]?.bind fun leaves =>
    let kept := leaves.filter fun leaf => validFocus trees windows (some key) (some leaf)
    if kept.isEmpty then none else some kept

theorem updatedFocusStack_of_focus {d : DomainKey} :
    (s.updatedFocusStack (some d) (some leaf) trees windows)[key]? =
      if d = key then some (((s.liveStack trees windows d).getD []).filter (· ≠ leaf) ++ [leaf])
      else s.liveStack trees windows key := by
  simp only [updatedFocusStack]
  rw [lookup_insert, Std.ExtTreeMap.getElem?_filterMap', Std.ExtTreeMap.getElem?_filterMap']
  rfl

theorem updatedFocusStack_of_none :
    (s.updatedFocusStack none none trees windows)[key]? = s.liveStack trees windows key := by
  simp only [updatedFocusStack]
  rw [Std.ExtTreeMap.getElem?_filterMap']
  rfl

theorem validFocus_cases (h : validFocus trees windows focusDomain focusLeaf = true) :
    (focusDomain = none ∧ focusLeaf = none) ∨ ∃ d leaf, focusDomain = some d ∧
      focusLeaf = some leaf ∧ validFocus trees windows (some d) (some leaf) = true := by
  cases focusDomain with
  | none =>
    cases focusLeaf with
    | none => exact .inl ⟨rfl, rfl⟩
    | some leaf => cases h
  | some d =>
    cases focusLeaf with
    | none => cases h
    | some leaf => exact .inr ⟨d, leaf, rfl, rfl, h⟩

/-- Stacks without repetition, of leaves that resolve, and none of them empty.
The focused leaf is on top of the stack of its domain. -/
structure Stacked (s : Session) : Prop where
  live : ∀ {key : DomainKey} {leaves : List NodeId}, s.focusStack[key]? = some leaves →
    leaves ≠ [] ∧ leaves.Nodup ∧
      ∀ leaf ∈ leaves, validFocus s.trees s.windows (some key) (some leaf) = true
  top : ∀ {key : DomainKey} {leaf : NodeId}, s.focusedDomain = some key →
    s.focusedLeaf = some leaf → ∃ rest, s.focusStack[key]? = some (rest ++ [leaf])

theorem Stacked.liveStack_some (h : s.Stacked)
    (hlive : s.liveStack trees windows key = some leaves) : leaves ≠ [] ∧ leaves.Nodup ∧
      ∀ leaf ∈ leaves, validFocus trees windows (some key) (some leaf) = true := by
  obtain ⟨all, hall, hkept⟩ := Option.bind_eq_some_iff.mp hlive
  dsimp only at hkept
  split at hkept
  · cases hkept
  · rename_i hne
    cases hkept
    refine ⟨fun hnil => hne (by rw [hnil]; rfl), (h.live hall).2.1.filter _, fun leaf hleaf => ?_⟩
    exact (List.mem_filter.mp hleaf).2

/-- What an update for a next world leaves is stacked again: dead leaves are
filtered out of every stack, and the focus is put on top of its own. -/
theorem Stacked.updated {s' : Session} (h : s.Stacked)
    (hfocus : validFocus s'.trees s'.windows s'.focusedDomain s'.focusedLeaf = true)
    (hstack : s'.focusStack =
      s.updatedFocusStack s'.focusedDomain s'.focusedLeaf s'.trees s'.windows) : s'.Stacked := by
  rcases validFocus_cases hfocus with ⟨hdomain, hleaf⟩ | ⟨d, top, hdomain, hleaf, htop⟩
  · rw [hdomain, hleaf] at hstack
    refine ⟨fun hlookup => ?_, fun hd => ?_⟩
    · rw [hstack, updatedFocusStack_of_none] at hlookup
      exact h.liveStack_some hlookup
    · rw [hdomain] at hd
      cases hd
  · rw [hdomain, hleaf] at hstack
    refine ⟨fun {key leaves} hlookup => ?_, fun {key leaf} hd hl => ?_⟩
    · rw [hstack, updatedFocusStack_of_focus] at hlookup
      split at hlookup
      · rename_i heq
        subst heq
        cases hlookup
        have hlive : ((s.liveStack s'.trees s'.windows d).getD []).Nodup ∧
            ∀ leaf ∈ (s.liveStack s'.trees s'.windows d).getD [],
              validFocus s'.trees s'.windows (some d) (some leaf) = true := by
          cases hcase : s.liveStack s'.trees s'.windows d with
          | none => exact ⟨List.nodup_nil, fun _ hin => absurd hin List.not_mem_nil⟩
          | some leaves => exact (h.liveStack_some hcase).2
        refine ⟨by simp, ?_, fun leaf hin => ?_⟩
        · rw [List.nodup_append']
          refine ⟨hlive.1.filter _, List.nodup_singleton _, fun leaf hin hsame => ?_⟩
          obtain rfl := List.mem_singleton.mp hsame
          simp at hin
        · rcases List.mem_append.mp hin with hin | hin
          · exact hlive.2 leaf (List.mem_of_mem_filter hin)
          · obtain rfl := List.mem_singleton.mp hin
            exact htop
      · exact h.liveStack_some hlookup
    · rw [hdomain] at hd
      rw [hleaf] at hl
      cases hd
      cases hl
      exact ⟨_, by rw [hstack, updatedFocusStack_of_focus, if_pos rfl]⟩

/-- A session with the same world and stacks. -/
theorem Stacked.congr {s' : Session} (h : s.Stacked) (htrees : s'.trees = s.trees)
    (hwindows : s'.windows = s.windows) (hstack : s'.focusStack = s.focusStack)
    (hdomain : s'.focusedDomain = s.focusedDomain) (hleaf : s'.focusedLeaf = s.focusedLeaf) :
    s'.Stacked := by
  refine ⟨?_, ?_⟩
  · rw [htrees, hwindows, hstack]
    exact h.live
  · rw [hdomain, hleaf, hstack]
    exact h.top

theorem updatedFocusStack_congr {s' : Session} (h : s'.focusStack = s.focusStack) :
    s'.updatedFocusStack focusDomain focusLeaf trees windows =
      s.updatedFocusStack focusDomain focusLeaf trees windows := by
  unfold updatedFocusStack
  rw [h]

/-- The stack of a domain that keeps its leaves and the focus it had is left
as it is: no leaf of it is filtered, and its top is on top already. -/
theorem Stacked.updated_frame (h : s.Stacked)
    (hsame : ∀ leaf, validFocus trees windows (some key) (some leaf) =
      validFocus s.trees s.windows (some key) (some leaf))
    (hfocus : validFocus trees windows focusDomain focusLeaf = true)
    (hkept : focusDomain = some key →
      s.focusedDomain = focusDomain ∧ s.focusedLeaf = focusLeaf) :
    (s.updatedFocusStack focusDomain focusLeaf trees windows)[key]? = s.focusStack[key]? := by
  have hlive : s.liveStack trees windows key = s.focusStack[key]? := by
    unfold liveStack
    cases hstack : s.focusStack[key]? with
    | none => rfl
    | some leaves =>
      obtain ⟨hnonempty, -, hvalid⟩ := h.live hstack
      have hall : (leaves.filter fun leaf => validFocus trees windows (some key) (some leaf)) =
          leaves := List.filter_eq_self.mpr fun leaf hleaf => (hsame leaf).trans (hvalid leaf hleaf)
      rw [Option.bind_some, hall]
      simp [hnonempty]
  rcases validFocus_cases hfocus with ⟨rfl, rfl⟩ | ⟨d, top, rfl, rfl, -⟩
  · rw [updatedFocusStack_of_none, hlive]
  · rw [updatedFocusStack_of_focus]
    split
    · rename_i heq
      subst heq
      obtain ⟨hdomain, hleaf⟩ := hkept rfl
      obtain ⟨rest, hrest⟩ := h.top hdomain hleaf
      have hnodup := (h.live hrest).2.1
      rw [List.nodup_append'] at hnodup
      have hkeep : rest.filter (· ≠ top) = rest := List.filter_eq_self.mpr fun leaf hin => by
        have hne : leaf ≠ top := by
          rintro rfl
          exact hnodup.2.2 hin (List.mem_singleton_self _)
        simpa using hne
      rw [hlive, hrest, Option.getD_some, List.filter_append, hkeep]
      simp
    · exact hlive

/-! ## Over a run -/

theorem moveKey_lookup {ν : Type} {m : BTreeMap DomainKey ν} {source target key : DomainKey}
    (htarget : m[target]? = none) : (moveKey m source target)[key]? =
      if target = key then m[source]? else if source = key then none else m[key]? := by
  unfold moveKey
  split
  · rename_i v hv
    rw [lookup_insert, lookup_erase, hv]
  · rename_i hnone
    split
    · rename_i heq
      rw [← heq, htarget, hnone]
    · split
      · rename_i heq
        rw [← heq, hnone]
      · rfl

theorem validFocus_some : validFocus trees windows (some key) (some leaf) = true ↔
    hasLeaf trees key leaf = true ∧ linkedAt windows key leaf = true := by
  rw [validFocus, Bool.and_eq_true]

/-- A domain takes its stack along to another output. The stack there was
empty, because a stack's leaves are live and the target had no tree. -/
theorem Stacked.relocated {source target : DomainKey} {bounds : Rect} {gap : Int}
    (h : s.Stacked) (hs : s.Valid) (htarget : target ∉ s.trees)
    (hvalid : (s.relocated source target bounds gap).Valid) :
    (s.relocated source target bounds gap).Stacked := by
  have htargetTree : s.trees[target]? = none := Std.ExtTreeMap.getElem?_eq_none htarget
  have htargetStack : s.focusStack[target]? = none := by
    cases hstack : s.focusStack[target]? with
    | none => rfl
    | some leaves =>
      obtain ⟨hnonempty, -, hlive⟩ := h.live hstack
      obtain ⟨leaf, hleaf⟩ := List.exists_mem_of_ne_nil leaves hnonempty
      obtain ⟨n, hn, -⟩ := hasLeaf_iff.mp (validFocus_some.mp (hlive leaf hleaf)).1
      rw [treeAt_eq_some, htargetTree] at hn
      cases hn
  have hstacks : ∀ key, (s.relocated source target bounds gap).focusStack[key]? =
      if target = key then s.focusStack[source]? else if source = key then none
      else s.focusStack[key]? := fun key => moveKey_lookup htargetStack
  have htrees : ∀ key, (s.relocated source target bounds gap).trees[key]? =
      if target = key then s.trees[source]? else if source = key then none
      else s.trees[key]? := fun key => moveKey_lookup htargetTree
  have hwindows : ∀ w : WindowId, (s.relocated source target bounds gap).windows[w]? =
      s.windows[w]?.map fun link =>
        if link.key = source then { link with output := target.output } else link := fun w =>
    Std.ExtTreeMap.getElem?_map
  refine ⟨fun {key leaves} hlookup => ?_, fun {key leaf} hd hl => ?_⟩
  · rw [hstacks] at hlookup
    split at hlookup
    · rename_i heq
      subst heq
      obtain ⟨hnonempty, hnodup, hlive⟩ := h.live hlookup
      refine ⟨hnonempty, hnodup, fun leaf hleaf => ?_⟩
      obtain ⟨htree, hlinked⟩ := validFocus_some.mp (hlive leaf hleaf)
      obtain ⟨n, hn, hin⟩ := hasLeaf_iff.mp htree
      obtain ⟨w, link, hlink, hlinkLeaf, hlinkKey⟩ := linkedAt_iff.mp hlinked
      have hmoved : (s.relocated source target bounds gap).windows[w]? =
          some { link with output := target.output } := by
        rw [hwindows, hlink, Option.map_some, if_pos hlinkKey]
      -- the moved link is valid, so its key is the target's
      have hat : WindowLink.key { link with output := target.output } = target := by
        by_contra haway
        obtain ⟨n', hn', hin'⟩ := hasLeaf_iff.mp (hasLeaf_of_link hvalid hmoved)
        rw [treeAt_eq_some, htrees, if_neg (Ne.symm haway)] at hn'
        split at hn'
        · cases hn'
        · rename_i hsource
          rw [hlinkLeaf] at hin'
          obtain ⟨w', link', hlink', hleaf', hkey'⟩ := hs.leaf_linked (treeAt_eq_some.mpr hn') hin'
          obtain rfl := hs.leaf_inj hlink' hlink (hleaf'.trans hlinkLeaf.symm)
          obtain rfl := Option.some.inj (hlink'.symm.trans hlink)
          exact hsource (hlinkKey.symm.trans hkey')
      refine validFocus_some.mpr ⟨hasLeaf_iff.mpr ⟨n, ?_, hin⟩, linkedAt_iff.mpr
        ⟨w, _, hmoved, hlinkLeaf, hat⟩⟩
      rw [treeAt_eq_some, htrees, if_pos rfl]
      exact treeAt_eq_some.mp hn
    · rename_i htargetNe
      split at hlookup
      · cases hlookup
      · rename_i hsourceNe
        obtain ⟨hnonempty, hnodup, hlive⟩ := h.live hlookup
        refine ⟨hnonempty, hnodup, fun leaf hleaf => ?_⟩
        obtain ⟨htree, hlinked⟩ := validFocus_some.mp (hlive leaf hleaf)
        obtain ⟨n, hn, hin⟩ := hasLeaf_iff.mp htree
        obtain ⟨w, link, hlink, hlinkLeaf, hlinkKey⟩ := linkedAt_iff.mp hlinked
        refine validFocus_some.mpr ⟨hasLeaf_iff.mpr ⟨n, ?_, hin⟩, linkedAt_iff.mpr
          ⟨w, link, ?_, hlinkLeaf, hlinkKey⟩⟩
        · rw [treeAt_eq_some, htrees, if_neg htargetNe, if_neg hsourceNe]
          exact treeAt_eq_some.mp hn
        · rw [hwindows, hlink, Option.map_some, if_neg]
          exact fun heq => hsourceNe (heq.symm.trans hlinkKey)
  · obtain ⟨d, hdomain, hrehomed⟩ := Option.map_eq_some_iff.mp hd
    obtain ⟨rest, hrest⟩ := h.top hdomain hl
    refine ⟨rest, ?_⟩
    rw [hstacks]
    unfold rehome at hrehomed
    split at hrehomed
    · rename_i heq
      rw [if_pos hrehomed, ← heq]
      exact hrest
    · rename_i hsource
      subst hrehomed
      rw [if_neg, if_neg (Ne.symm hsource)]
      · exact hrest
      · rintro rfl
        rw [htargetStack] at hrest
        cases hrest

theorem Stacked.step {s' : Session} (h : s.Stacked) (hworlds : s.WorldsOk) (hstep : Step s s') :
    s'.Stacked := by
  cases hstep with
  | same | cleared _ | halted _ | withDrag _ | acked _ _ | cancelled _ | bare _ _ _ | gaps _ _
  | settings => exact ⟨h.live, h.top⟩
  | staged hbasis _ _ _ =>
    cases hbasis with
    | self _ => exact ⟨h.live, h.top⟩
    | unfloated _ _ hplan =>
      obtain ⟨-, retained, -, -, -, rfl, -⟩ := planUnfloat_ok hplan
      exact ⟨h.live, h.top⟩
  | committed _ _ hdesired _ =>
    exact Stacked.updated (s := s) h (hworlds.desired _ hdesired).focus rfl
  | refocused _ hplan hchanged =>
    obtain ⟨htrees, hwindows, -, -, -⟩ := convergenceChanged_eq_false.mp hchanged
    have hfocus := (planConvergence_ok hplan).valid.focus
    rw [htrees, hwindows] at hfocus
    exact Stacked.updated (s := s) h hfocus rfl
  | converged _ _ hplan =>
    exact Stacked.updated (s := s) h (planConvergence_ok hplan).valid.focus rfl
  | relocated _ _ htarget _ hvalid =>
    exact h.relocated hworlds.accepted htarget (validateCurrentTopology_iff.mp hvalid)
  | synced _ _ _ hlink hleaf =>
    obtain ⟨w, hw⟩ := mem_values.mp hlink
    exact Stacked.updated (s := s) h (validFocus_of_link hworlds.accepted hw) rfl

theorem reachable_stacked (h : Reachable s) : s.Stacked := by
  refine (worldsOk_invariant.strengthen (J := Stacked) (fun s hs => ?_) fun s op hworlds hstacked =>
    hstacked.step hworlds (next_step op)).reachable h |>.2
  refine ⟨fun hlookup => ?_, fun hd => ?_⟩
  · rw [hs.blank.focusStack, Std.ExtTreeMap.getElem?_empty] at hlookup
    cases hlookup
  · rw [hs.blank.focusedDomain] at hd
    cases hd

end

end Session

end PlasmaTiler
