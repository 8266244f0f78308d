import PlasmaTiler.Drag

/-!
# World operations

Changes of the accepted world that need no plan: work area and gap updates,
relocation of a domain to another output, and logical focus following a
native focus change. Each is all or nothing and reports whether it applied.

They need no plan because nothing has to be done on screen for them, or
because it has been done already: the compositor has moved the workspace, or
the user has clicked on a window. So they ask for a settled session, which
has no plan under way that the change could invalidate. The one exception is
the bare work area update (`reprojectDomain`), which is not checked at all.
-/

namespace PlasmaTiler

/-- The inclusive gap range. -/
def validGap (gap : Int) : Bool := decide (0 ≤ gap) && decide (gap ≤ 64)

namespace Session

/-- Replace the first domain with this key. -/
def updateDomain (domains : List OutputDomain) (key : DomainKey)
    (f : OutputDomain → OutputDomain) : List OutputDomain :=
  match domains with
  | [] => []
  | d :: rest => if d.key = key then f d :: rest else d :: updateDomain rest key f

/-- Update a domain's work area; unchecked. -/
def reprojectDomain (s : Session) (key : DomainKey) (bounds : Rect) : Session :=
  { s with domains := updateDomain s.domains key fun d => { d with bounds } }

/-- No divergence, no plan, no drag. -/
def settledWorld (s : Session) : Bool :=
  s.divergence.isNone && !s.hasPending && !s.hasPendingDesired && !s.hasDrag

def updateDomainGaps (s : Session) (key : DomainKey) (bounds : Rect) (gap : Int) :
    Session × Bool :=
  if !validGap gap || decide (bounds.w ≤ 0) || decide (bounds.h ≤ 0) || !s.settledWorld ||
      (s.domainAt key).isNone then (s, false)
  else
    let updated := { s with domains := updateDomain s.domains key fun d => { d with bounds, gap } }
    if updated.validateCurrentTopology then (updated, true) else (s, false)

/-- A key moves from source to target. -/
def rehome (source target key : DomainKey) : DomainKey := if key = source then target else key

/-- Move the value of one key to another. -/
def moveKey {ν : Type} (m : BTreeMap DomainKey ν) (source target : DomainKey) : BTreeMap DomainKey ν :=
  match m[source]? with
  | some v => (m.erase source).insert target v
  | none => m

/-- The world with a domain's identity moved to another output. -/
def relocated (s : Session) (source target : DomainKey) (bounds : Rect) (gap : Int) : Session :=
  { s with
    domains := updateDomain s.domains source fun d => { d with id := target.output, bounds, gap }
    trees := moveKey s.trees source target
    windows := s.windows.map fun _ link =>
      if link.key = source then { link with output := target.output } else link
    exceptions := s.exceptions.map fun _ record =>
      if record.key = source then { record with output := target.output } else record
    focusedDomain := s.focusedDomain.map (rehome source target)
    focusStack := moveKey s.focusStack source target
    lastActive := moveKey s.lastActive source target }

/-- Relocate one domain to another output on the same workspace. -/
def relocateDomain (s : Session) (source target : DomainKey) (bounds : Rect) (gap : Int) :
    Session × Bool :=
  if source == target || source.workspace != target.workspace || source.output == target.output ||
      decide (bounds.w ≤ 0) || decide (bounds.h ≤ 0) || !validGap gap || !s.settledWorld ||
      s.trees.contains target || (s.domainAt target).isSome || (s.domainAt source).isNone ||
      !s.validateCurrentTopology || !s.trees.contains source then (s, false)
  else
    let moved := s.relocated source target bounds gap
    if moved.validateCurrentTopology then (moved, true) else (s, false)

/-- Follow a native focus change to a tiled window of the domain. -/
def syncFocusFromWindow (s : Session) (domain : DomainKey) (window : WindowId) : Session × Bool :=
  if s.divergence.isSome || s.hasPending || s.hasDrag || (s.domainAt domain).isNone ||
      !s.validateCurrentTopology then (s, false)
  else
    match s.windows[window]? with
    | none => (s, false)
    | some link =>
      if link.key ≠ domain ∨ !hasLeaf s.trees domain link.leaf then (s, false)
      else
        ({ s with
            focusedDomain := some domain
            focusedLeaf := some link.leaf
            focusStack := s.updatedFocusStack (some domain) (some link.leaf) s.trees s.windows },
          true)

/-! ## Settings -/

def setFixedSizeAdmission (s : Session) (enabled : Bool) : Session :=
  { s with fixedAdmission := enabled }

def setMaximizedFocusFence (s : Session) (enabled : Bool) : Session :=
  { s with maximizedFocusFence := enabled }

def setFixedSizePredicate (s : Session) (predicate : FixedSizePredicate) : Session :=
  { s with fixedPredicate := predicate }

end Session

end PlasmaTiler
