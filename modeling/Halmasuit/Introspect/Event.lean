import Mathlib.Data.List.Basic

/-!
# The events of the compositor

`Event` and what it is made of (`halmasuit-introspect/src/lib.rs` 31–485), and the names that a
wallpaper knows the events by (`halmasuit-events/src/lib.rs` 30–119).

An event is a line of the journal, and most of them have a name that a uniform of a shader can be
bound to. What one event has more to say than another of the same name (a pid, an outcome) is not
for the wallpaper.

- `fromU32_asU32`, `asU32_fromU32`: the numbers of the phases;
- `serdeName_eq`: `Phase::name` is the name that serde gives a phase;
- `canonicalName_marker`: what the wallpaper says about itself has no name.
-/

namespace Halmasuit.Introspect

/-! ## Phases -/

/-- `Phase`. -/
inductive Phase where
  | init
  | waylandReady
  | greetdReady
  | deprivileged
  | drmMasterAcquired
  | scanoutActive
  | initramfsInit
  | rootfsReady
  deriving DecidableEq, Repr

/-- The `snake_case` of serde, of the name of a variant: a capital letter that is not the first
stands behind an underscore, and letters are made small. -/
def snakeCase (variant : String) : String :=
  match variant.toList with
  | [] => ""
  | x :: xs =>
    String.ofList (x.toLower :: xs.flatMap fun y => if y.isUpper then ['_', y.toLower] else [y])

namespace Phase

/-- `Phase::as_u32`. -/
def asU32 : Phase → UInt32
  | .init => 0
  | .waylandReady => 1
  | .greetdReady => 2
  | .deprivileged => 3
  | .drmMasterAcquired => 4
  | .scanoutActive => 5
  | .initramfsInit => 6
  | .rootfsReady => 7

/-- `Phase::from_u32`. -/
def fromU32 (v : UInt32) : Option Phase :=
  match v.toNat with
  | 0 => some .init
  | 1 => some .waylandReady
  | 2 => some .greetdReady
  | 3 => some .deprivileged
  | 4 => some .drmMasterAcquired
  | 5 => some .scanoutActive
  | 6 => some .initramfsInit
  | 7 => some .rootfsReady
  | _ => none

/-- `Phase::name`. -/
def name : Phase → String
  | .init => "init"
  | .waylandReady => "wayland_ready"
  | .greetdReady => "greetd_ready"
  | .deprivileged => "deprivileged"
  | .drmMasterAcquired => "drm_master_acquired"
  | .scanoutActive => "scanout_active"
  | .initramfsInit => "initramfs_init"
  | .rootfsReady => "rootfs_ready"

/-- The variants, as the source spells them. -/
def variant : Phase → String
  | .init => "Init"
  | .waylandReady => "WaylandReady"
  | .greetdReady => "GreetdReady"
  | .deprivileged => "Deprivileged"
  | .drmMasterAcquired => "DrmMasterAcquired"
  | .scanoutActive => "ScanoutActive"
  | .initramfsInit => "InitramfsInit"
  | .rootfsReady => "RootfsReady"

/-- The name of a phase in an event: `#[serde(rename_all = "snake_case")]`. -/
def serdeName (p : Phase) : String := snakeCase p.variant

/-- The two vocabularies are one. -/
theorem serdeName_eq (p : Phase) : p.serdeName = p.name := by cases p <;> decide +kernel

@[simp] theorem fromU32_asU32 (p : Phase) : fromU32 p.asU32 = some p := by
  cases p <;> rfl

theorem asU32_fromU32 {v : UInt32} {p : Phase} (h : fromU32 v = some p) : p.asU32 = v := by
  unfold fromU32 at h
  rw [← UInt32.toNat_inj]
  split at h <;> cases h <;> simp [asU32, *]

end Phase

/-! ## Events -/

/-- `ShutdownReason`. -/
inductive ShutdownReason where
  | signalTerm
  | signalInt
  | prepareForShutdown
  | internal
  deriving DecidableEq, Repr

/-- `SessionExit`. -/
inductive SessionExit where
  | exited (code : Int32)
  | signaled (signal : Int32)
  deriving DecidableEq, Repr

/-- `Foreground`. -/
inductive Foreground where
  | greeter
  | session
  deriving DecidableEq, Repr

/-- `LayerRole`. -/
inductive LayerRole where
  | wallpaper
  | background
  | bottom
  | top
  | overlay
  deriving DecidableEq, Repr

/-- `Event`. -/
inductive Event where
  | started (pid : UInt32) (version : String)
  | phaseEntered (phase : Phase)
  | shutdown (reason : ShutdownReason)
  | fatal (message : String)
  | sessionRequested (uid gid : UInt32)
  | greeterSpawned (pid : UInt32)
  | greeterTerminated (pid : UInt32)
  | greeterKillFailed (pid : UInt32) (error : String)
  | greeterDiedPreAuth (pid : UInt32)
  | frameRendered (frameId pixelCount clearPixelCount blackPixelCount : UInt64) (degenerate : Bool)
      (phash : UInt64)
  | clientFirstFrame (role : LayerRole)
  | foregroundChanged (target : Foreground)
  | sessionOpened
  | sessionClientFirstFrame
  | sessionEnded (outcome : SessionExit)
  | sessionLeaderPidfdArmed
  | sessionLeaderExitedViaPidfd
  | luksPromptShown
  | wallpaperUniformApplied (eventName uniform : String)
  deriving DecidableEq, Repr

/-! ## Names -/

/-- `phase_name`. -/
def phaseName : Phase → String
  | .init => "halmasuit.phase.init"
  | .waylandReady => "halmasuit.phase.wayland_ready"
  | .greetdReady => "halmasuit.phase.greetd_ready"
  | .deprivileged => "halmasuit.phase.deprivileged"
  | .drmMasterAcquired => "halmasuit.phase.drm_master_acquired"
  | .scanoutActive => "halmasuit.phase.scanout_active"
  | .initramfsInit => "halmasuit.phase.initramfs_init"
  | .rootfsReady => "halmasuit.phase.rootfs_ready"

/-- `layer_role_name`. -/
def layerRoleName : LayerRole → String
  | .wallpaper => "halmasuit.client_first_frame.wallpaper"
  | .background => "halmasuit.client_first_frame.background"
  | .bottom => "halmasuit.client_first_frame.bottom"
  | .top => "halmasuit.client_first_frame.top"
  | .overlay => "halmasuit.client_first_frame.overlay"

/-- `canonical_name`. -/
def canonicalName : Event → Option String
  | .started .. => some "halmasuit.started"
  | .phaseEntered phase => some (phaseName phase)
  | .shutdown _ => some "halmasuit.shutdown"
  | .sessionRequested .. => some "halmasuit.session.requested"
  | .greeterSpawned _ => some "halmasuit.greeter.spawned"
  | .greeterTerminated _ => some "halmasuit.greeter.terminated"
  | .clientFirstFrame role => some (layerRoleName role)
  | .foregroundChanged .greeter => some "halmasuit.foreground.greeter"
  | .foregroundChanged .session => some "halmasuit.foreground.session"
  | .sessionOpened => some "halmasuit.session.opened"
  | .sessionClientFirstFrame => some "halmasuit.session.client_first_frame"
  | .sessionEnded _ => some "halmasuit.session.ended"
  | .luksPromptShown => some "halmasuit.luks.prompt"
  | .frameRendered .. => none
  | .fatal _ => none
  | .greeterKillFailed .. => none
  | .greeterDiedPreAuth _ => none
  | .sessionLeaderPidfdArmed => none
  | .sessionLeaderExitedViaPidfd => none
  | .wallpaperUniformApplied .. => none

/-- The consumer is the only one to emit such an event. -/
def Event.isMarker : Event → Bool
  | .wallpaperUniformApplied .. => true
  | _ => false

/-- The phase that an event is about. -/
def Event.phase? : Event → Option Phase
  | .phaseEntered p => some p
  | _ => none

theorem canonicalName_marker {e : Event} (h : e.isMarker = true) : canonicalName e = none := by
  cases e with
  | wallpaperUniformApplied eventName uniform => rfl
  | _ => cases h

end Halmasuit.Introspect
