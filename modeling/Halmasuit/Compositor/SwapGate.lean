import Mathlib.Data.List.Basic

/-!
# The two-key swap gates

`halmasuit/src/swap_gate.rs` 20–267: `SwapGate`, which makes the session visible when both its keys
are in (`SessionOpened` and the first non-empty frame of the session's client) and reverts once, and
`GreeterSwapGate`, its counterpart between the wallpaper and the greeter.

A method of the source that takes `&mut self` returns the action and the gate after the call.

- `arm_cases`, `revertOrDisarm_cases`: every way a gate can move.
-/

namespace Halmasuit.Compositor

/-- `SwapAction`. -/
inductive SwapAction where
  | none
  | swap
  | revert
  deriving DecidableEq, Repr

/-- `Phase` of the gate. -/
inductive GatePhase where
  | arming (opened firstFrame : Bool)
  | swapped
  | done
  deriving DecidableEq, Repr

/-- `SwapGate`. -/
structure SwapGate where
  phase : GatePhase
  deriving DecidableEq, Repr

/-- `SwapGate::new`. -/
def SwapGate.new : SwapGate := ⟨.arming false false⟩

/-- `SwapGate::arm`. -/
def SwapGate.arm (g : SwapGate) (setOpened setFirstFrame : Bool) : SwapAction × SwapGate :=
  match g.phase with
  | .arming opened firstFrame =>
    if (opened || setOpened) && (firstFrame || setFirstFrame) then (.swap, ⟨.swapped⟩)
    else (.none, ⟨.arming (opened || setOpened) (firstFrame || setFirstFrame)⟩)
  | .swapped | .done => (.none, g)

/-- `SwapGate::session_opened`. -/
def SwapGate.sessionOpened (g : SwapGate) : SwapAction × SwapGate := g.arm true false

/-- `SwapGate::session_first_frame`. -/
def SwapGate.sessionFirstFrame (g : SwapGate) : SwapAction × SwapGate := g.arm false true

/-- `SwapGate::revert_or_disarm`. -/
def SwapGate.revertOrDisarm (g : SwapGate) : SwapAction × SwapGate :=
  match g.phase with
  | .swapped => (.revert, ⟨.done⟩)
  | .arming _ _ => (.none, ⟨.done⟩)
  | .done => (.none, g)

/-- `SwapGate::session_ended`. -/
def SwapGate.sessionEnded (g : SwapGate) : SwapAction × SwapGate := g.revertOrDisarm

/-- `SwapGate::session_client_gone`. -/
def SwapGate.sessionClientGone (g : SwapGate) : SwapAction × SwapGate := g.revertOrDisarm

/-! ## The greeter's gate -/

/-- `GreeterSwapAction`. -/
inductive GreeterSwapAction where
  | none
  | swap
  deriving DecidableEq, Repr

/-- `GreeterVisible`. -/
inductive GreeterVisible where
  | wallpaper
  | greeter
  deriving DecidableEq, Repr

/-- `GreeterPhase`. -/
inductive GreeterPhase where
  | arming (spawned firstFrame : Bool)
  | swapped
  deriving DecidableEq, Repr

/-- `GreeterSwapGate`. -/
structure GreeterSwapGate where
  phase : GreeterPhase
  deriving DecidableEq, Repr

/-- `GreeterSwapGate::new`. -/
def GreeterSwapGate.new : GreeterSwapGate := ⟨.arming false false⟩

/-- `GreeterSwapGate::visible_foreground`. -/
def GreeterSwapGate.visibleForeground (g : GreeterSwapGate) : GreeterVisible :=
  match g.phase with
  | .arming _ _ => .wallpaper
  | .swapped => .greeter

/-- `GreeterSwapGate::arm`. -/
def GreeterSwapGate.arm (g : GreeterSwapGate) (setSpawned setFirstFrame : Bool) :
    GreeterSwapAction × GreeterSwapGate :=
  match g.phase with
  | .arming spawned firstFrame =>
    if (spawned || setSpawned) && (firstFrame || setFirstFrame) then (.swap, ⟨.swapped⟩)
    else (.none, ⟨.arming (spawned || setSpawned) (firstFrame || setFirstFrame)⟩)
  | .swapped => (.none, g)

/-- `GreeterSwapGate::greeter_spawned`. -/
def GreeterSwapGate.greeterSpawned (g : GreeterSwapGate) : GreeterSwapAction × GreeterSwapGate :=
  g.arm true false

/-- `GreeterSwapGate::greeter_first_frame`. -/
def GreeterSwapGate.greeterFirstFrame (g : GreeterSwapGate) :
    GreeterSwapAction × GreeterSwapGate := g.arm false true

/-! ## Inversion -/

/-- A key completes an armed gate, joins it, or does nothing. -/
theorem arm_cases (g : SwapGate) (o f : Bool) :
    (∃ o' f', g.phase = .arming o' f' ∧ (o' || o) = true ∧ (f' || f) = true ∧
      g.arm o f = (.swap, ⟨.swapped⟩)) ∨
    (∃ o' f', g.phase = .arming o' f' ∧ ((o' || o) && (f' || f)) = false ∧
      g.arm o f = (.none, ⟨.arming (o' || o) (f' || f)⟩)) ∨
    ((g.phase = .swapped ∨ g.phase = .done) ∧ g.arm o f = (.none, g)) := by
  unfold SwapGate.arm
  cases hg : g.phase with
  | arming o' f' =>
    by_cases hk : ((o' || o) && (f' || f)) = true
    · left
      have hb : (o' || o) = true ∧ (f' || f) = true := by simpa using hk
      exact ⟨o', f', rfl, hb.1, hb.2, if_pos hk⟩
    · right
      left
      exact ⟨o', f', rfl, by simpa using hk, if_neg hk⟩
  | swapped => exact .inr (.inr ⟨.inl rfl, rfl⟩)
  | done => exact .inr (.inr ⟨.inr rfl, rfl⟩)

/-- A revert trigger reverts a swapped gate, disarms an armed one, and does nothing after that. -/
theorem revertOrDisarm_cases (g : SwapGate) :
    (g.phase = .swapped ∧ g.revertOrDisarm = (.revert, ⟨.done⟩)) ∨
    ((∃ o f, g.phase = .arming o f) ∧ g.revertOrDisarm = (.none, ⟨.done⟩)) ∨
    (g.phase = .done ∧ g.revertOrDisarm = (.none, g)) := by
  unfold SwapGate.revertOrDisarm
  cases hg : g.phase with
  | arming o f => exact .inr (.inl ⟨⟨o, f, rfl⟩, rfl⟩)
  | swapped => exact .inl ⟨rfl, rfl⟩
  | done => exact .inr (.inr ⟨rfl, rfl⟩)

end Halmasuit.Compositor
