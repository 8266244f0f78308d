import PlasmaTiler.Topology

/-!
# The keyboard classifier

Every physical key event passes the classifier: Win and the modifiers are
tracked, a chord of the catalog opens a hold on a slot of its family, and the
events of the hold carry its verdict until the key is released. Rebound
chords open the slot of their canonical key, so what a physical key opened is
pinned until its release, and a second physical key on an open slot is
swallowed as a collision.

The families differ in their slot, their guard and what they announce; what
they do with a hold is the same, so it is written once, in `pushArm`.
-/

namespace PlasmaTiler

namespace Snapkey

/-! ## Keys -/

/-- A Windows virtual-key code. -/
abbrev Vk := Nat

def vkTab : Vk := 0x09
def vkShift : Vk := 16
def vkControl : Vk := 17
def vkMenu : Vk := 18
def vkLeft : Vk := 37
def vkUp : Vk := 38
def vkRight : Vk := 39
def vkDown : Vk := 40
def vk0 : Vk := 0x30
def vk9 : Vk := 0x39
def vkG : Vk := 0x47
def vkH : Vk := 0x48
def vkJ : Vk := 0x4A
def vkK : Vk := 0x4B
def vkL : Vk := 0x4C
def vkM : Vk := 0x4D
def vkO : Vk := 0x4F
def vkF11 : Vk := 0x7A
def vkLWin : Vk := 91
def vkRWin : Vk := 92
def vkLShift : Vk := 160
def vkRShift : Vk := 161
def vkLControl : Vk := 162
def vkRControl : Vk := 163
def vkLMenu : Vk := 164
def vkRMenu : Vk := 165

/-- Slot of the directional catalog. -/
def catalogIndex (vk : Vk) : Option Nat :=
  if vk = vkH then some 0
  else if vk = vkJ then some 1
  else if vk = vkK then some 2
  else if vk = vkL then some 3
  else if vk = vkLeft then some 4
  else if vk = vkDown then some 5
  else if vk = vkUp then some 6
  else if vk = vkRight then some 7
  else none

def indexDirection (idx : Nat) : Direction :=
  if idx = 0 ∨ idx = 4 then .left
  else if idx = 1 ∨ idx = 5 then .down
  else if idx = 2 ∨ idx = 6 then .up
  else .right

def isDigitVk (vk : Vk) : Bool := decide (vk0 ≤ vk) && decide (vk ≤ vk9)

def isMaximizeVk (vk : Vk) : Bool := vk == vkM

def isFullscreenVk (vk : Vk) : Bool := vk == vkF11

def isFloatVk (vk : Vk) : Bool := vk == vkG

def isOrientationVk (vk : Vk) : Bool := vk == vkO

inductive WorkspaceHistoryOp
  | previous | prev | next
deriving DecidableEq, Repr

def historyIndex (vk : Vk) : Option Nat :=
  if vk = vkTab then some 0
  else if vk = vkH then some 1
  else if vk = vkK then some 2
  else if vk = vkLeft then some 3
  else if vk = vkUp then some 4
  else if vk = vkJ then some 5
  else if vk = vkL then some 6
  else if vk = vkDown then some 7
  else if vk = vkRight then some 8
  else none

def historyOpForVk (vk : Vk) : Option WorkspaceHistoryOp :=
  if vk = vkTab then some .previous
  else if vk = vkH ∨ vk = vkK ∨ vk = vkLeft ∨ vk = vkUp then some .prev
  else if vk = vkJ ∨ vk = vkL ∨ vk = vkDown ∨ vk = vkRight then some .next
  else none

def isHistoryVk (vk : Vk) : Bool := (historyIndex vk).isSome

def relativeSendIndex (vk : Vk) : Option Nat :=
  if vk = vkH then some 0
  else if vk = vkK then some 1
  else if vk = vkLeft then some 2
  else if vk = vkUp then some 3
  else if vk = vkJ then some 4
  else if vk = vkL then some 5
  else if vk = vkDown then some 6
  else if vk = vkRight then some 7
  else none

def relativeSendDelta (vk : Vk) : Option Int :=
  if vk = vkH ∨ vk = vkK ∨ vk = vkLeft ∨ vk = vkUp then some (-1)
  else if vk = vkJ ∨ vk = vkL ∨ vk = vkDown ∨ vk = vkRight then some 1
  else none

def isChordVk (vk : Vk) : Bool :=
  (catalogIndex vk).isSome || isDigitVk vk || isMaximizeVk vk || isFullscreenVk vk ||
    isFloatVk vk || isOrientationVk vk || isHistoryVk vk

def isWinVk (vk : Vk) : Bool := vk == vkLWin || vk == vkRWin

def isModifierVk (vk : Vk) : Bool :=
  [vkShift, vkControl, vkMenu, vkLShift, vkRShift, vkLControl, vkRControl, vkLMenu, vkRMenu].contains vk

/-! ## What a chord asks for -/

inductive SnapOp
  | focus | move
deriving DecidableEq, Repr

inductive ResizeMode
  | outwards | inwards
deriving DecidableEq, Repr

inductive WorkspaceOp
  | select | send
deriving DecidableEq, Repr

/-- Explicit arm of a chord. -/
inductive ChordAction
  | directional | workspaceDigit | workspaceStayDigit | workspaceSendPrev | workspaceSendNext
  | workspaceSendStayPrev | workspaceSendStayNext | maximize | fullscreen | float | sticky
  | orientation | workspacePrevious | workspacePrev | workspaceNext | resizeOut | resizeIn
deriving DecidableEq, Repr

inductive SnapEdge
  | down | up | repeat
deriving DecidableEq, Repr

/-- The variant of an intent with its own data. -/
inductive Shape
  | snap (op : SnapOp) (direction : Direction)
  | resize (mode : ResizeMode) (direction : Direction)
  | workspace (op : WorkspaceOp) (index : Nat) (follow : Bool)
  | workspaceSend (delta : Int) (follow : Bool)
  | workspaceHistory (op : WorkspaceHistoryOp)
  | maximize
  | fullscreen
  | float
  | sticky
  | orientation
deriving DecidableEq, Repr

/-- A classified event: the variant and the four fields every variant has. -/
structure Classified where
  shape : Shape
  edge : SnapEdge
  foreground : Bool
  consumed : Bool
  announce : Bool
deriving DecidableEq, Repr

/-- What armed the Start-menu mask. -/
inductive MaskTrigger
  | snap (op : SnapOp) (direction : Direction)
  | resize (mode : ResizeMode) (direction : Direction)
  | workspace (op : WorkspaceOp) (index : Nat)
  | workspaceSend (delta : Int) (follow : Bool)
  | workspaceHistory (op : WorkspaceHistoryOp)
  | maximize
  | fullscreen
  | float
  | sticky
  | orientation
  | winDrag
deriving DecidableEq, Repr

/-- The trigger of a consumed event of the shape. -/
def Shape.trigger : Shape → MaskTrigger
  | .snap op direction => .snap op direction
  | .resize mode direction => .resize mode direction
  | .workspace op index _ => .workspace op index
  | .workspaceSend delta follow => .workspaceSend delta follow
  | .workspaceHistory op => .workspaceHistory op
  | .maximize => .maximize
  | .fullscreen => .fullscreen
  | .float => .float
  | .sticky => .sticky
  | .orientation => .orientation

def collideTrigger (c : Classified) : MaskTrigger := c.shape.trigger

/-- The refusal of a colliding key, from the owner's shape. -/
def collideRefusal (shape : Classified) (edge : SnapEdge) (foreground consumed : Bool) :
    Classified :=
  { shape with edge, foreground, consumed, announce := false }

/-! ## The state -/

structure ChordRemap where
  fromVk : Vk
  fromShift : Bool
  fromCtrl : Bool
  fromAlt : Bool
  action : ChordAction
  toVk : Vk
deriving DecidableEq, Repr

structure ChordDisable where
  vk : Vk
  shift : Bool
  ctrl : Bool
  alt : Bool
deriving DecidableEq, Repr

/-- Where a physical key's hold lives. -/
structure PinnedRoute where
  canon : Vk
  action : ChordAction
deriving DecidableEq, Repr

inductive Route
  | remap (action : ChordAction) (target : Vk)
  | suppressed
  | direct
deriving DecidableEq, Repr

/-- A hold slot of one family. -/
inductive Slot
  | key (idx : Nat)
  | resize (idx : Nat)
  | digit (slot : Nat)
  | send (idx : Nat)
  | hist (idx : Nat)
  | maximize
  | fullscreen
  | float
  | sticky
  | orientation
deriving DecidableEq, Repr

/-- An open hold: whether its down was consumed, what it pinned, and the Ctrl
state a digit hold pinned. -/
structure Hold where
  origin : Bool
  shape : Shape
  ctrl : Bool
deriving DecidableEq, Repr

/-- Keyboard configuration of a fresh classifier. -/
structure KeyboardConfig where
  takeover : Bool
  allowWinL : Bool

/-- Physical keys the pin table holds. -/
def pinKeys : Nat := 256

structure SnapClassify where
  winL : Bool
  winR : Bool
  shift : Bool
  ctrl : Bool
  alt : Bool
  held : Slot → Option Hold
  enabled : Bool
  gateActive : Bool
  allowWinL : Bool
  vkRemap : List ChordRemap
  vkDisabled : List ChordDisable
  physPin : Vk → Option PinnedRoute
  collide : Vk → Option Classified
  maskPending : Bool
  maskTrigger : Option MaskTrigger
  holdMasked : Bool

namespace SnapClassify

def new (config : KeyboardConfig) : SnapClassify where
  winL := false
  winR := false
  shift := false
  ctrl := false
  alt := false
  held := fun _ => none
  enabled := config.takeover
  gateActive := true
  allowWinL := config.allowWinL
  vkRemap := []
  vkDisabled := []
  physPin := fun _ => none
  collide := fun _ => none
  maskPending := false
  maskTrigger := none
  holdMasked := false

/-- Either Win key is held. -/
def winHeld (s : SnapClassify) : Bool := s.winL || s.winR

/-- A fresh chord may be consumed. -/
def taking (s : SnapClassify) : Bool := s.enabled && s.gateActive

/-! ## Routing -/

def isSuppressed (s : SnapClassify) (vk : Vk) : Bool :=
  s.vkDisabled.any fun entry =>
    entry.vk == vk && entry.shift == s.shift && entry.ctrl == s.ctrl && entry.alt == s.alt

/-- Routing of a chord at the live modifiers: rebound wins over suppression. -/
def freshRoute (s : SnapClassify) (physical : Vk) : Route :=
  match s.vkRemap.find? fun entry => entry.fromVk == physical && entry.fromShift == s.shift &&
      entry.fromCtrl == s.ctrl && entry.fromAlt == s.alt with
  | some entry => .remap entry.action entry.toVk
  | none => if s.isSuppressed physical then .suppressed else .direct

def resizeModeForShift (shift : Bool) : ResizeMode := if shift then .inwards else .outwards

def resizeActionForMode : ResizeMode → ChordAction
  | .outwards => .resizeOut
  | .inwards => .resizeIn

def resizeModeForAction : ChordAction → Option ResizeMode
  | .resizeOut => some .outwards
  | .resizeIn => some .inwards
  | _ => none

/-- The action of a chord that is not rebound; `none` refuses. -/
def directAction (s : SnapClassify) (physical : Vk) : Option ChordAction :=
  if !s.winHeld then none
  else if s.ctrl && s.shift && !s.alt && (relativeSendDelta physical).isSome then
    if (relativeSendDelta physical).any (· < 0) then some .workspaceSendPrev
    else some .workspaceSendNext
  else if s.ctrl && !s.shift && !s.alt && (historyOpForVk physical).isSome then
    match historyOpForVk physical with
    | some .previous => some .workspacePrevious
    | some .prev => some .workspacePrev
    | some .next => some .workspaceNext
    | none => none
  else if s.alt && !s.ctrl && (catalogIndex physical).isSome then
    some (resizeActionForMode (resizeModeForShift s.shift))
  else if s.ctrl || s.alt then none
  else if (catalogIndex physical).isSome then some .directional
  else if isDigitVk physical then some .workspaceDigit
  else if isMaximizeVk physical && !s.shift then some .maximize
  else if isFullscreenVk physical && !s.shift then some .fullscreen
  else if isOrientationVk physical && !s.shift then some .orientation
  else if isFloatVk physical then some (if s.shift then .sticky else .float)
  else none

/-- The physical chord still routes to what its hold pinned. -/
def routeMatches (s : SnapClassify) (physical : Vk) (pinned : PinnedRoute) : Bool :=
  match s.freshRoute physical with
  | .remap action target => action == pinned.action && target == pinned.canon
  | .direct => physical == pinned.canon && s.directAction physical == some pinned.action
  | .suppressed => false

/-! ## Pins and slots -/

def pinGet (s : SnapClassify) (physical : Vk) : Option PinnedRoute :=
  if physical < pinKeys then s.physPin physical else none

def pinSet (s : SnapClassify) (physical : Vk) (route : PinnedRoute) : SnapClassify :=
  if physical < pinKeys then { s with physPin := Function.update s.physPin physical (some route) }
  else s

def pinTake (s : SnapClassify) (physical : Vk) : SnapClassify :=
  if physical < pinKeys then { s with physPin := Function.update s.physPin physical none } else s

/-- The slot of a canonical route. -/
def slotOf (action : ChordAction) (canon : Vk) : Option Slot :=
  match action with
  | .directional => (catalogIndex canon).map .key
  | .resizeOut | .resizeIn => (catalogIndex canon).map .resize
  | .workspaceDigit | .workspaceStayDigit =>
      if isDigitVk canon then some (.digit (canon - vk0)) else none
  | .workspaceSendPrev | .workspaceSendNext | .workspaceSendStayPrev | .workspaceSendStayNext =>
      (relativeSendIndex canon).map .send
  | .workspacePrevious | .workspacePrev | .workspaceNext => (historyIndex canon).map .hist
  | .maximize => some .maximize
  | .orientation => some .orientation
  | .fullscreen => some .fullscreen
  | .float => some .float
  | .sticky => some .sticky

/-- A canonical route holds a down without its up. -/
def canonIsDown (s : SnapClassify) (action : ChordAction) (canon : Vk) : Bool :=
  ((slotOf action canon).bind s.held).isSome

/-- The live shape of the hold that owns a canonical route. -/
def heldShape (s : SnapClassify) (action : ChordAction) (canon : Vk) : Option Classified :=
  ((slotOf action canon).bind s.held).map fun hold => ⟨hold.shape, .down, true, hold.origin, false⟩

/-! ## The Start-menu mask -/

/-- A consumed chord in a Win hold. -/
def arm (s : SnapClassify) (trigger : MaskTrigger) : SnapClassify :=
  { s with maskPending := true, maskTrigger := some trigger }

def noteWindragConsumed (s : SnapClassify) : SnapClassify :=
  if !s.winHeld then s
  else { s with maskTrigger := s.maskTrigger.or (some .winDrag), maskPending := true }

def noteWinDown (s : SnapClassify) (vk : Vk) : SnapClassify :=
  let already := if vk = vkLWin then s.winL else s.winR
  -- a naked auto-repeat after the mask re-arms the Start trigger
  let s := if already && s.holdMasked then { s with holdMasked := false, maskPending := true } else s
  if vk = vkLWin then { s with winL := true } else { s with winR := true }

/-- Bookkeeping of a Win-up; the trigger when the mask must be sent before it
passes. Only a drag waits for the last Win key. -/
def winUpNeedsMask (s : SnapClassify) (vk : Vk) (installed : Bool) :
    SnapClassify × Option MaskTrigger :=
  let s := if vk = vkLWin then { s with winL := false } else { s with winR := false }
  let trigger := if installed && s.maskPending && !s.holdMasked then s.maskTrigger else none
  if trigger == some .winDrag && s.winHeld then (s, none)
  else
    let s := if trigger.isSome then { s with maskPending := false, holdMasked := true } else s
    let s := if !s.winHeld then { s with maskPending := false, holdMasked := false, maskTrigger := none }
      else s
    (s, trigger)

/-! ## The families -/

/-- What sets one family apart: its slot, what a fresh down pins unless the
guard refuses it, whether a repeat of the hold is announced, and the shape its
release reports. -/
structure Arm where
  slot : Slot
  fresh : Option Shape
  repeats : Hold → Bool
  released : Shape → Shape

/-- One event of a family. A hold keeps the verdict of its down; a consumed
down, and a consumed repeat while Win is held, arm the mask. -/
def pushArm (s : SnapClassify) (a : Arm) (isUp foreground routeLive : Bool) :
    SnapClassify × Option Classified :=
  match s.held a.slot with
  | some hold =>
      if isUp then
        ({ s with held := Function.update s.held a.slot none },
          some ⟨a.released hold.shape, .up, foreground, hold.origin, false⟩)
      else if hold.origin then
        (if s.winHeld then s.arm hold.shape.trigger else s,
          some ⟨hold.shape, .repeat, foreground, true, s.taking && routeLive && a.repeats hold⟩)
      else (s, some ⟨hold.shape, .repeat, foreground, false, false⟩)
  | none =>
      if isUp then (s, none)
      else
        match a.fresh with
        | none => (s, none)
        | some shape =>
          let origin := s.taking && routeLive
          let s := { s with held := Function.update s.held a.slot (some ⟨origin, shape, s.ctrl⟩) }
          (if origin then s.arm shape.trigger else s,
            some ⟨shape, .down, foreground, origin, origin⟩)

def snapRepeatLive (s : SnapClassify) (op : SnapOp) : Bool :=
  !s.ctrl && !s.alt && s.winHeld && s.shift == (op == .move)

def snapOpAdmits (s : SnapClassify) (physical : Vk) (op : SnapOp) : Bool :=
  !(op == .focus && physical == vkL && !s.allowWinL)

def digitRepeatLive (s : SnapClassify) (op : WorkspaceOp) : Bool :=
  !s.ctrl && !s.alt && s.winHeld && s.shift == (op == .send)

def resizeRepeatLive (s : SnapClassify) (mode : ResizeMode) : Bool :=
  s.alt && !s.ctrl && s.winHeld && s.shift == (mode == .inwards)

def historyRepeatLive (s : SnapClassify) : Bool := s.ctrl && !s.shift && !s.alt && s.winHeld

def relativeSendRepeatLive (s : SnapClassify) : Bool := s.ctrl && s.shift && !s.alt && s.winHeld

/-- The directional arm of the slot `idx`. -/
def directionalArm (s : SnapClassify) (physical : Vk) (idx : Nat) : Arm where
  slot := .key idx
  fresh :=
    let op := if s.shift then SnapOp.move else .focus
    if s.ctrl || s.alt || !s.winHeld then none
    -- unshifted physical Win+L is the lock chord
    else if op = .focus ∧ idx = 3 ∧ physical = vkL ∧ s.allowWinL = false then none
    else some (.snap op (indexDirection idx))
  repeats hold :=
    match hold.shape with
    | .snap op _ => s.snapRepeatLive op && s.snapOpAdmits physical op
    | _ => false
  released := id

def pushDirectional (s : SnapClassify) (physical vk : Vk) (isUp foreground routeLive : Bool) :
    SnapClassify × Option Classified :=
  match catalogIndex vk with
  | some idx => s.pushArm (s.directionalArm physical idx) isUp foreground routeLive
  | none => (s, none)

def resizeArm (s : SnapClassify) (idx : Nat) (mode : ResizeMode) : Arm where
  slot := .resize idx
  fresh :=
    if !s.winHeld || !s.alt || s.ctrl then none
    else if s.shift != (mode == .inwards) then none
    else some (.resize mode (indexDirection idx))
  repeats hold :=
    match hold.shape with
    | .resize mode _ => s.resizeRepeatLive mode
    | _ => false
  released := id

def pushResize (s : SnapClassify) (vk : Vk) (action : ChordAction)
    (isUp foreground routeLive : Bool) : SnapClassify × Option Classified :=
  match catalogIndex vk, resizeModeForAction action with
  | some idx, some mode => s.pushArm (s.resizeArm idx mode) isUp foreground routeLive
  | _, _ => (s, none)

def historyOpForAction : ChordAction → Option WorkspaceHistoryOp
  | .workspacePrevious => some .previous
  | .workspacePrev => some .prev
  | .workspaceNext => some .next
  | _ => none

/-- The toggle never announces a repeat; a release reports the action's op. -/
def historyArm (s : SnapClassify) (idx : Nat) (op : WorkspaceHistoryOp) : Arm where
  slot := .hist idx
  fresh :=
    if !s.ctrl || s.shift || s.alt || !s.winHeld then none else some (.workspaceHistory op)
  repeats hold := s.historyRepeatLive && hold.shape != .workspaceHistory .previous
  released := fun _ => .workspaceHistory op

def pushHistory (s : SnapClassify) (vk : Vk) (action : ChordAction)
    (isUp foreground routeLive : Bool) : SnapClassify × Option Classified :=
  match historyIndex vk, historyOpForAction action with
  | some idx, some op => s.pushArm (s.historyArm idx op) isUp foreground routeLive
  | _, _ => (s, none)

/-- A stay hold keeps announcing at its pinned Ctrl state, the others at
theirs. -/
def digitArm (s : SnapClassify) (slot : Nat) (stay : Bool) : Arm where
  slot := .digit slot
  fresh :=
    if !s.winHeld || s.alt then none
    else if if stay then !s.shift else s.ctrl then none
    else
      let op := if s.shift then WorkspaceOp.send else .select
      some (.workspace op slot (if op = .send then !stay else true))
  repeats hold :=
    match hold.shape with
    | .workspace op _ follow =>
        if follow then s.digitRepeatLive op
        else s.shift && s.ctrl == hold.ctrl && !s.alt && s.winHeld
    | _ => false
  released := id

def pushDigit (s : SnapClassify) (vk : Vk) (action : ChordAction)
    (isUp foreground routeLive : Bool) : SnapClassify × Option Classified :=
  if isDigitVk vk then
    s.pushArm (s.digitArm (vk - vk0) (action == .workspaceStayDigit)) isUp foreground routeLive
  else (s, none)

/-- A release reports the action's delta and follow. -/
def relativeSendArm (s : SnapClassify) (idx : Nat) (delta : Int) (follow : Bool) : Arm where
  slot := .send idx
  fresh :=
    if !s.ctrl || !s.shift || s.alt || !s.winHeld then none else some (.workspaceSend delta follow)
  repeats _ := s.relativeSendRepeatLive
  released := fun _ => .workspaceSend delta follow

/-- A rebind of a prev action onto a next key refuses. -/
def pushRelativeSend (s : SnapClassify) (vk : Vk) (action : ChordAction)
    (isUp foreground routeLive : Bool) : SnapClassify × Option Classified :=
  match relativeSendIndex vk, relativeSendDelta vk with
  | some idx, some delta =>
      let follow := action == .workspaceSendPrev || action == .workspaceSendNext
      let actionPrev := action == .workspaceSendPrev || action == .workspaceSendStayPrev
      if decide (delta < 0) != actionPrev then (s, none)
      else s.pushArm (s.relativeSendArm idx delta follow) isUp foreground routeLive
  | _, _ => (s, none)

/-- The toggles of one key: no Shift, no announced repeat. -/
def toggleArm (s : SnapClassify) (slot : Slot) (shape : Shape) : Arm where
  slot := slot
  fresh := if s.ctrl || s.alt || s.shift || !s.winHeld then none else some shape
  repeats _ := false
  released := id

def pushMaximize (s : SnapClassify) (isUp foreground routeLive : Bool) :
    SnapClassify × Option Classified :=
  s.pushArm (s.toggleArm .maximize .maximize) isUp foreground routeLive

def pushOrientation (s : SnapClassify) (isUp foreground routeLive : Bool) :
    SnapClassify × Option Classified :=
  s.pushArm (s.toggleArm .orientation .orientation) isUp foreground routeLive

def pushFullscreen (s : SnapClassify) (isUp foreground routeLive : Bool) :
    SnapClassify × Option Classified :=
  s.pushArm (s.toggleArm .fullscreen .fullscreen) isUp foreground routeLive

/-- The halves of the G key: Shift selects. -/
def gArm (s : SnapClassify) (sticky : Bool) : Arm where
  slot := if sticky then .sticky else .float
  fresh :=
    if s.ctrl || s.alt || !s.winHeld then none
    else if s.shift != sticky then none
    else some (if sticky then .sticky else .float)
  repeats _ := false
  released := id

/-- Which half an event of the G key goes to: the open one, float first, then
the one Shift selects. The action it was routed by is not asked. -/
def gHalf (s : SnapClassify) : Bool :=
  if (s.held .float).isSome then false
  else if (s.held .sticky).isSome then true
  else s.shift

def pushG (s : SnapClassify) (isUp foreground routeLive : Bool) :
    SnapClassify × Option Classified :=
  s.pushArm (s.gArm s.gHalf) isUp foreground routeLive

/-! ## Classifying an event -/

/-- The family of the action. -/
def pushOwned (s : SnapClassify) (physical vk : Vk) (action : ChordAction)
    (isUp foreground routeLive : Bool) : SnapClassify × Option Classified :=
  match action with
  | .workspacePrevious | .workspacePrev | .workspaceNext =>
      s.pushHistory vk action isUp foreground routeLive
  | .workspaceDigit | .workspaceStayDigit => s.pushDigit vk action isUp foreground routeLive
  | .workspaceSendPrev | .workspaceSendNext | .workspaceSendStayPrev | .workspaceSendStayNext =>
      s.pushRelativeSend vk action isUp foreground routeLive
  | .maximize => s.pushMaximize isUp foreground routeLive
  | .orientation => s.pushOrientation isUp foreground routeLive
  | .fullscreen => s.pushFullscreen isUp foreground routeLive
  | .float | .sticky => s.pushG isUp foreground routeLive
  | .resizeOut | .resizeIn => s.pushResize vk action isUp foreground routeLive
  | .directional => s.pushDirectional physical vk isUp foreground routeLive

/-- A modifier event. -/
def pushModifier (s : SnapClassify) (vk : Vk) (isUp : Bool) : SnapClassify :=
  if vk = vkControl ∨ vk = vkLControl ∨ vk = vkRControl then { s with ctrl := !isUp }
  else if vk = vkMenu ∨ vk = vkLMenu ∨ vk = vkRMenu then { s with alt := !isUp }
  else { s with shift := !isUp }

/-- The route a fresh down takes: its action, its canonical key, and whether
it was rebound. -/
def routed (s : SnapClassify) (physical : Vk) : Option (ChordAction × Vk × Bool) :=
  match s.freshRoute physical with
  | .suppressed => none
  | .remap action target => some (action, target, true)
  | .direct => (s.directAction physical).map fun action => (action, physical, false)

/-- Unshifted physical Win+L without the opt-in. -/
def lockFenced (s : SnapClassify) (physical : Vk) (action : ChordAction) (canon : Vk) : Bool :=
  action == .directional && !s.shift && physical == vkL && !s.allowWinL &&
    catalogIndex canon == some 3

/-- A down of a key that holds nothing. -/
def pushFresh (s : SnapClassify) (physical : Vk) (foreground : Bool) :
    SnapClassify × Option Classified :=
  if !s.winHeld then (s, none)
  else
    match s.routed physical with
    | none => (s, none)
    | some (action, canon, remapped) =>
      if s.lockFenced physical action canon then (s, none)
      else if s.canonIsDown action canon then
        -- another key owns the slot: swallowed with the owner's shape
        if !s.taking then (s, none)
        else
          match s.heldShape action canon with
          | none => (s, none)
          | some shape =>
            let down := collideRefusal shape .down foreground true
            let s := if physical < pinKeys then
                { s with collide := Function.update s.collide physical (some down) } else s
            (s.arm (collideTrigger shape), some down)
      else
        let s := if remapped || isChordVk physical then s.pinSet physical ⟨canon, action⟩ else s
        s.pushOwned physical canon action false foreground true

/-- An event of a key that is neither Win nor a modifier. -/
def pushKey (s : SnapClassify) (physical : Vk) (isUp foreground : Bool) :
    SnapClassify × Option Classified :=
  match if physical < pinKeys then s.collide physical else none with
  | some tmpl =>
      if isUp then
        ({ s with collide := Function.update s.collide physical none },
          some (collideRefusal tmpl .up foreground tmpl.consumed))
      else
        (if tmpl.consumed && s.winHeld then s.arm (collideTrigger tmpl) else s,
          some (collideRefusal tmpl .repeat foreground tmpl.consumed))
  | none =>
      match s.pinGet physical with
      | some pinned =>
          if isUp then
            (s.pinTake physical).pushOwned physical pinned.canon pinned.action true foreground true
          else
            s.pushOwned physical pinned.canon pinned.action false foreground
              (s.routeMatches physical pinned)
      | none => if isUp then (s, none) else s.pushFresh physical foreground

/-- Classify one event. -/
def push (s : SnapClassify) (vk : Vk) (isUp foreground injected : Bool) :
    SnapClassify × Option Classified :=
  if injected then (s, none)
  else if isWinVk vk then
    (if isUp then (s.winUpNeedsMask vk false).1 else s.noteWinDown vk, none)
  else if isModifierVk vk then (s.pushModifier vk isUp, none)
  else s.pushKey vk isUp foreground

end SnapClassify

end Snapkey

end PlasmaTiler
