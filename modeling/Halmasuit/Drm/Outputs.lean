import Mathlib.Data.List.Nodup
import Halmasuit.Lib.Greedy

/-!
# One CRTC for each connector

Model of the loop over the connected connectors in `build_drm_pipeline` (`drm.rs`), which gives each
a CRTC of its own and a place to the right of the ones before it. The device is a parameter: what
`get_encoder`, `filter_crtcs`, `create_surface` and `DrmCompositor::new` return. `create_surface`
may answer by what was created before.

* `i32` arithmetic wraps, as it does in the release profile. That `x_offset` never does is part of
  what is proved: there are 32 bits in a mask, and the width of a mode is a `u16`.
* The refresh rate has no part in the layout.

The loop is a first fit (`outputLoop_firstFit`), so it takes what `Lib.Greedy` says of those. It
does not bind every connector that could be bound (`greedy_skips`).
-/

namespace Halmasuit.Drm.Outputs

open Lib.Greedy

/-! ## The code -/

/-- `connector::Interface`, with one case for the ones without a name of their own. -/
inductive Interface where
  | displayPort | hdmiA | hdmiB | dviI | dviD | dviA | vga | embeddedDisplayPort | composite
  | sVideo | lvds | component | ninePinDin | dsi | dpi | writeback | spi | usb | tv | virtual
  | unknown
  deriving DecidableEq

/-- `interface_prefix`. -/
def interfacePrefix : Interface → String
  | .displayPort => "DP"
  | .hdmiA => "HDMI-A"
  | .hdmiB => "HDMI-B"
  | .dviI => "DVI-I"
  | .dviD => "DVI-D"
  | .dviA => "DVI-A"
  | .vga => "VGA"
  | .embeddedDisplayPort => "eDP"
  | .composite => "Composite"
  | .sVideo => "SVIDEO"
  | .lvds => "LVDS"
  | .component => "Component"
  | .ninePinDin => "DIN"
  | .dsi => "DSI"
  | .dpi => "DPI"
  | .writeback => "Writeback"
  | .spi => "SPI"
  | .usb => "USB"
  | .tv => "TV"
  | .virtual => "Virtual"
  | .unknown => "Unknown"

/-- A mode: `size()` and `vrefresh()`. -/
structure Mode where
  width : UInt16
  height : UInt16
  vrefresh : UInt32
  deriving DecidableEq

/-- `connector::Info`. -/
structure Info (Enc : Type) where
  handle : UInt32
  interface : Interface
  interfaceId : UInt32
  modes : List Mode
  encoders : List Enc

/-- `connector_short_name`. -/
def connectorShortName {Enc : Type} (info : Info Enc) : String :=
  interfacePrefix info.interface ++ "-" ++ toString info.interfaceId.toNat

/-- The device. -/
structure Device (Enc Crtc : Type) where
  /-- `ResourceHandles::crtcs`. -/
  crtcs : List Crtc
  /-- `ResourceHandles::filter_crtcs`. -/
  filterCrtcs : UInt32 → List Crtc
  /-- `get_encoder`, to the `possible_crtcs` of the encoder. -/
  getEncoder : Enc → Option UInt32
  /-- Whether `create_surface` succeeds, after the surfaces on the CRTCs of the list. -/
  createSurface : List Crtc → Crtc → Mode → UInt32 → Bool
  /-- Whether `DrmCompositor::new` succeeds. -/
  newCompositor : List Crtc → Crtc → Mode → Bool

/-- `OutputSurface`, with the state of its `Output`. -/
structure OutputSurface (Crtc : Type) where
  name : String
  model : String
  size : Int × Int
  refresh : Int
  x : Int
  crtc : Crtc

/-- The variables of the loop. -/
structure Loop (Crtc : Type) where
  outputs : List (OutputSurface Crtc)
  usedCrtcs : List Crtc
  xOffset : Int

/-- The value of an `i32` operation. -/
def wrapI32 (x : Int) : Int := x.bmod 4294967296

def i32Max : Int := 2147483647

variable {Enc Crtc : Type}

/-- The CRTCs that the encoders of a connector can use, in the order in which they are tried. -/
def reach (dev : Device Enc Crtc) (info : Info Enc) : List Crtc :=
  (info.encoders.filterMap dev.getEncoder).flatMap dev.filterCrtcs

/-- The output of a connector. -/
def newOutput (info : Info Enc) (mode : Mode) (crtc : Crtc) (x : Int) : OutputSurface Crtc where
  name := connectorShortName info
  model := "drm-" ++ toString mode.width.toNat ++ "x" ++ toString mode.height.toNat
  size := (mode.width.toNat, mode.height.toNat)
  refresh :=
    wrapI32 ((if (mode.vrefresh.toNat : Int) ≤ i32Max then mode.vrefresh.toNat else 60000) * 1000)
  x
  crtc

section
variable [DecidableEq Crtc]

/-- The first of them that no earlier output has. -/
def freeCrtc (dev : Device Enc Crtc) (used : List Crtc) (info : Info Enc) : Option Crtc :=
  (reach dev info).find? fun c => decide (c ∉ used)

/-- One connector. The error is the name in the message of `DrmCompositor::new`, which ends the
setup; everything else that goes wrong skips the connector. -/
def bindConnector (dev : Device Enc Crtc) (st : Loop Crtc) (info : Info Enc) :
    Except String (Loop Crtc) :=
  match info.modes.head? with
  | none => .ok st
  | some mode =>
    match freeCrtc dev st.usedCrtcs info with
    | none => .ok st
    | some crtc =>
      if dev.createSurface st.usedCrtcs crtc mode info.handle then
        if dev.newCompositor st.usedCrtcs crtc mode then
          .ok {
            outputs := st.outputs ++ [newOutput info mode crtc st.xOffset]
            usedCrtcs := st.usedCrtcs ++ [crtc]
            xOffset := wrapI32 (st.xOffset + mode.width.toNat) }
        else .error (connectorShortName info)
      else .ok st

/-- The loop from a state. -/
def bindAll (dev : Device Enc Crtc) (st : Loop Crtc) (connected : List (Info Enc)) :
    Except String (Loop Crtc) :=
  connected.foldlM (bindConnector dev) st

/-- The state before the loop. -/
def start : Loop Crtc := ⟨[], [], 0⟩

/-- The loop. -/
def outputLoop (dev : Device Enc Crtc) (connected : List (Info Enc)) :
    Except String (List (OutputSurface Crtc)) :=
  (bindAll dev start connected).map Loop.outputs

end

/-! ## What is said of it -/

/-- `info.modes().first()` is there. -/
def hasMode (info : Info Enc) : Bool := !info.modes.isEmpty

/-- `filter_crtcs` gives the CRTCs whose index is a bit of the mask. -/
def FilterLaw (dev : Device Enc Crtc) : Prop :=
  ∀ mask c, c ∈ dev.filterCrtcs mask ↔
    ∃ i < 32, mask.toNat.testBit i = true ∧ dev.crtcs[i]? = some c

/-- The CRTC is a bit of the mask of one of the connector's encoders. -/
def Reachable (dev : Device Enc Crtc) (info : Info Enc) (c : Crtc) : Prop :=
  ∃ enc ∈ info.encoders, ∃ mask, dev.getEncoder enc = some mask ∧
    ∃ i < 32, mask.toNat.testBit i = true ∧ dev.crtcs[i]? = some c

/-- The connectors that have a CRTC, with it. -/
def bound (bs : List (Info Enc × Option Crtc)) : List (Info Enc × Crtc) :=
  bs.filterMap fun p => p.2.map fun c => (p.1, c)

/-- The output of a connector on its CRTC, in the connector's first mode. -/
def IsOutput (p : Info Enc × Crtc) (o : OutputSurface Crtc) : Prop :=
  ∃ mode, p.1.modes.head? = some mode ∧ o = newOutput p.1 mode p.2 o.x

/-- The outputs stand side by side from `x` on, all within `i32`. -/
def Tiles (x : Int) : List (OutputSurface Crtc) → Prop
  | [] => True
  | o :: os => o.x = x ∧ x + o.size.1 ≤ i32Max ∧ Tiles (x + o.size.1) os

/-- Who has which CRTC, and where the outputs are. -/
structure Assigned (dev : Device Enc Crtc) (connected : List (Info Enc))
    (outs : List (OutputSurface Crtc)) (bs : List (Info Enc × Option Crtc)) : Prop where
  /-- The connectors with a mode, in their order. -/
  connectors : bs.map Prod.fst = connected.filter hasMode
  /-- One output for each that has a CRTC. -/
  outputs : List.Forall₂ IsOutput (bound bs) outs
  reachable : ∀ info c, (info, some c) ∈ bs → Reachable dev info c
  distinct : (outs.map OutputSurface.crtc).Nodup
  tiles : Tiles 0 outs
  /-- A connector goes without only if those before it have all its CRTCs. -/
  skipped : ∀ pre info post, bs = pre ++ (info, none) :: post →
    ∀ c, Reachable dev info c → c ∈ taken pre
  /-- And none does, where each can have one, and what a connector shares with a later one is all
  it has. -/
  complete : Nested (reach dev) (connected.filter hasMode) →
    Assignable (reach dev) (connected.filter hasMode) → ∀ p ∈ bs, p.2 ≠ none

/-! ## The layout -/

/-- The outputs stand side by side, in the arithmetic of the loop. -/
def Laid (x : Int) : List (OutputSurface Crtc) → Prop
  | [] => True
  | o :: os => o.x = x ∧ Laid (wrapI32 (x + o.size.1)) os

theorem map_snd_bound (bs : List (Info Enc × Option Crtc)) :
    (bound bs).map Prod.snd = taken bs := by
  induction bs with
  | nil => rfl
  | cons p bs ih => obtain ⟨info, _ | c⟩ := p <;> simpa [bound] using ih

theorem IsOutput.crtc_eq {p : Info Enc × Crtc} {o : OutputSurface Crtc} (h : IsOutput p o) :
    o.crtc = p.2 := by
  obtain ⟨mode, -, ho⟩ := h
  rw [ho, newOutput]

theorem IsOutput.width {p : Info Enc × Crtc} {o : OutputSurface Crtc} (h : IsOutput p o) :
    0 ≤ o.size.1 ∧ o.size.1 ≤ 65535 := by
  obtain ⟨mode, -, ho⟩ := h
  have hlt := mode.width.toNat_lt
  rw [ho, newOutput]
  dsimp only
  omega

theorem crtcs_of_forall₂ {ps : List (Info Enc × Crtc)} {outs : List (OutputSurface Crtc)}
    (h : List.Forall₂ IsOutput ps outs) : outs.map OutputSurface.crtc = ps.map Prod.snd := by
  induction h with
  | nil => rfl
  | cons ho _ ih => rw [List.map_cons, List.map_cons, ih, ho.crtc_eq]

theorem wrapI32_eq {x : Int} (hx : 0 ≤ x) (hmax : x ≤ i32Max) : wrapI32 x = x := by
  unfold i32Max at hmax
  unfold wrapI32
  rw [Int.bmod_def]
  omega

/-- The arithmetic of the loop is exact as long as everything fits. -/
theorem Laid.tiles {ps : List (Info Enc × Crtc)} {outs : List (OutputSurface Crtc)} {x : Int}
    (hmatch : List.Forall₂ IsOutput ps outs) (h : Laid x outs) (hx : 0 ≤ x)
    (hfit : x + 65535 * outs.length ≤ i32Max) : Tiles x outs := by
  induction hmatch generalizing x with
  | nil => trivial
  | @cons _ o _ outs ho _ ih =>
    obtain ⟨hat, hrest⟩ := h
    have hw := ho.width
    rw [List.length_cons] at hfit
    push_cast at hfit
    have hmax : x + o.size.1 ≤ i32Max := by omega
    rw [wrapI32_eq (by omega) hmax] at hrest
    exact ⟨hat, hmax, ih hrest (by omega) (by omega)⟩

/-! ## The loop is a first fit -/

variable {dev : Device Enc Crtc}

theorem mem_reach_iff (hfilter : FilterLaw dev) {info : Info Enc} {c : Crtc} :
    c ∈ reach dev info ↔ Reachable dev info c := by
  simp only [reach, List.mem_flatMap, List.mem_filterMap, Reachable]
  constructor
  · rintro ⟨mask, ⟨enc, henc, hmask⟩, h⟩
    exact ⟨enc, henc, mask, hmask, (hfilter mask c).mp h⟩
  · rintro ⟨enc, henc, mask, hmask, h⟩
    exact ⟨mask, ⟨enc, henc, hmask⟩, (hfilter mask c).mpr h⟩

section
variable [DecidableEq Crtc]

/-- The surface of each pair that is tried, in the run over `connected` from `st`, is created. -/
def SurfacesCreated (dev : Device Enc Crtc) (st : Loop Crtc) (connected : List (Info Enc)) : Prop :=
  ∀ pre info post st' mode c, connected = pre ++ info :: post → bindAll dev st pre = .ok st' →
    info.modes.head? = some mode → freeCrtc dev st'.usedCrtcs info = some c →
    dev.createSurface st'.usedCrtcs c mode info.handle = true

/-- What one connector does to the loop, if a surface is created where one is tried. -/
theorem bindConnector_cases {st st' : Loop Crtc} {info : Info Enc}
    (hsurface : ∀ mode c, info.modes.head? = some mode → freeCrtc dev st.usedCrtcs info = some c →
      dev.createSurface st.usedCrtcs c mode info.handle = true)
    (h : bindConnector dev st info = .ok st') :
    (hasMode info = false ∧ st' = st) ∨
      (hasMode info = true ∧ freeCrtc dev st.usedCrtcs info = none ∧ st' = st) ∨
      ∃ mode c, hasMode info = true ∧ info.modes.head? = some mode ∧
        freeCrtc dev st.usedCrtcs info = some c ∧
        st' = ⟨st.outputs ++ [newOutput info mode c st.xOffset], st.usedCrtcs ++ [c],
          wrapI32 (st.xOffset + mode.width.toNat)⟩ := by
  unfold bindConnector at h
  split at h
  · rename_i hmode
    left
    exact ⟨by simpa [hasMode] using hmode, (Except.ok.inj h).symm⟩
  rename_i mode hmode
  have hhas : hasMode info = true := by
    cases hm : info.modes with
    | nil => simp [hm] at hmode
    | cons m ms => simp [hasMode, hm]
  split at h
  · rename_i hfind
    exact .inr (.inl ⟨hhas, hfind, (Except.ok.inj h).symm⟩)
  rename_i c hfind
  rw [if_pos (hsurface mode c hmode hfind)] at h
  split at h
  · exact .inr (.inr ⟨mode, c, hhas, hmode, hfind, (Except.ok.inj h).symm⟩)
  · cases h

theorem bindAll_cons {st st₁ : Loop Crtc} {info : Info Enc} {infos : List (Info Enc)}
    (h : bindConnector dev st info = .ok st₁) :
    bindAll dev st (info :: infos) = bindAll dev st₁ infos := by
  unfold bindAll
  rw [List.foldlM_cons, h]
  rfl

theorem SurfacesCreated.head {st : Loop Crtc} {info : Info Enc} {infos : List (Info Enc)}
    (h : SurfacesCreated dev st (info :: infos)) (mode : Mode) (c : Crtc)
    (hmode : info.modes.head? = some mode) (hfree : freeCrtc dev st.usedCrtcs info = some c) :
    dev.createSurface st.usedCrtcs c mode info.handle = true :=
  h [] info infos st mode c rfl rfl hmode hfree

theorem SurfacesCreated.tail {st st₁ : Loop Crtc} {info : Info Enc} {infos : List (Info Enc)}
    (h : SurfacesCreated dev st (info :: infos)) (hone : bindConnector dev st info = .ok st₁) :
    SurfacesCreated dev st₁ infos := by
  intro pre info' post st' mode c hsplit hrun
  exact h (info :: pre) info' post st' mode c (by rw [hsplit, List.cons_append])
    ((bindAll_cons hone).trans hrun)

/-- The outputs of a whole run are those of the first fit. -/
theorem bindAll_firstFit {st st' : Loop Crtc} {infos : List (Info Enc)}
    (hsurface : SurfacesCreated dev st infos) (h : bindAll dev st infos = .ok st') :
    ∃ outs, st'.outputs = st.outputs ++ outs ∧ Laid st.xOffset outs ∧
      List.Forall₂ IsOutput (bound (firstFit (reach dev) st.usedCrtcs (infos.filter hasMode)))
        outs := by
  induction infos generalizing st with
  | nil =>
    obtain rfl := Except.ok.inj h
    exact ⟨[], by simp, trivial, .nil⟩
  | cons info infos ih =>
    cases hone : bindConnector dev st info with
    | error e =>
      unfold bindAll at h
      rw [List.foldlM_cons, hone] at h
      cases h
    | ok st₁ =>
      rw [bindAll_cons hone] at h
      obtain ⟨outs, houts, hlaid, hmatch⟩ := ih (hsurface.tail hone) h
      rcases bindConnector_cases hsurface.head hone with
        ⟨hno, rfl⟩ | ⟨hhas, hfind, rfl⟩ | ⟨mode, c, hhas, hmode, hfind, rfl⟩
      · exact ⟨outs, houts, hlaid, by rwa [List.filter_cons_of_neg (by simp [hno])]⟩
      · refine ⟨outs, houts, hlaid, ?_⟩
        rw [List.filter_cons_of_pos hhas, firstFit_none hfind]
        exact hmatch
      · refine ⟨newOutput info mode c st.xOffset :: outs, by simpa using houts, ⟨rfl, hlaid⟩, ?_⟩
        rw [List.filter_cons_of_pos hhas, firstFit_some hfind]
        exact .cons ⟨mode, hmode, rfl⟩ hmatch

theorem outputLoop_firstFit {connected : List (Info Enc)} {outs : List (OutputSurface Crtc)}
    (hsurface : SurfacesCreated dev start connected) (h : outputLoop dev connected = .ok outs) :
    Laid 0 outs ∧
      List.Forall₂ IsOutput (bound (firstFit (reach dev) [] (connected.filter hasMode))) outs := by
  unfold outputLoop at h
  cases hrun : bindAll dev start connected with
  | error e =>
    rw [hrun] at h
    cases h
  | ok st =>
    rw [hrun] at h
    obtain ⟨outs', houts, hlaid, hmatch⟩ := bindAll_firstFit hsurface hrun
    obtain rfl : outs' = outs := by
      rw [← Except.ok.inj h]
      simpa [start] using houts.symm
    exact ⟨hlaid, hmatch⟩

/-- Only `DrmCompositor::new` ends the loop. -/
theorem bindAll_ok (hcompositor : ∀ used c mode, dev.newCompositor used c mode = true)
    (st : Loop Crtc) (infos : List (Info Enc)) : ∃ st', bindAll dev st infos = .ok st' := by
  induction infos generalizing st with
  | nil => exact ⟨st, rfl⟩
  | cons info infos ih =>
    have hone : ∃ st₁, bindConnector dev st info = .ok st₁ := by
      unfold bindConnector
      split
      · exact ⟨_, rfl⟩
      split
      · exact ⟨_, rfl⟩
      split
      · rw [if_pos (hcompositor _ _ _)]
        exact ⟨_, rfl⟩
      · exact ⟨_, rfl⟩
    obtain ⟨st₁, hone⟩ := hone
    rw [bindAll_cons hone]
    exact ih st₁

/-- A mask has no more bits than there are outputs. -/
theorem length_le_of_reachable {infos : List (Info Enc)} (hfilter : FilterLaw dev) :
    (taken (firstFit (reach dev) [] infos)).length ≤ 32 := by
  have hnodup : (taken (firstFit (reach dev) [] infos)).Nodup :=
    nodup_taken_firstFit List.nodup_nil
  have hsub : taken (firstFit (reach dev) [] infos) ⊆ dev.crtcs.take 32 := by
    intro c hc
    obtain ⟨⟨info, b⟩, hp, rfl⟩ := List.mem_filterMap.mp hc
    obtain ⟨_, _, _, _, i, hi, _, hat⟩ := (mem_reach_iff hfilter).mp (mem_reach_of_mem_firstFit hp)
    exact List.mem_of_getElem? (by rw [List.getElem?_take_of_lt hi, hat])
  calc (taken (firstFit (reach dev) [] infos)).length
      ≤ (dev.crtcs.take 32).length := (hnodup.subperm hsub).length_le
    _ ≤ 32 := List.length_take_le 32 _

/-! ## The assignment -/

/-- Where the surfaces that are tried are created, the loop is cut short by a compositor only, and
what it binds is an assignment. -/
theorem outputLoop_assigned (dev : Device Enc Crtc) (hfilter : FilterLaw dev)
    (connected : List (Info Enc)) (hsurface : SurfacesCreated dev start connected) :
    (∀ outs, outputLoop dev connected = .ok outs → ∃ bs, Assigned dev connected outs bs) ∧
      ((∀ used c mode, dev.newCompositor used c mode = true) →
        ∃ outs, outputLoop dev connected = .ok outs) := by
  constructor
  · intro outs h
    obtain ⟨hlaid, hmatch⟩ := outputLoop_firstFit hsurface h
    have hcrtcs := (crtcs_of_forall₂ hmatch).trans (map_snd_bound _)
    have hlen : outs.length ≤ 32 := by
      rw [← List.length_map OutputSurface.crtc, hcrtcs]
      exact length_le_of_reachable hfilter
    refine ⟨firstFit (reach dev) [] (connected.filter hasMode), ?_⟩
    constructor
    case connectors => exact map_fst_firstFit
    case outputs => exact hmatch
    case reachable =>
      intro info c hmem
      exact (mem_reach_iff hfilter).mp (mem_reach_of_mem_firstFit hmem)
    case distinct =>
      rw [hcrtcs]
      exact nodup_taken_firstFit List.nodup_nil
    case tiles => exact hlaid.tiles hmatch (by omega) (by unfold i32Max; omega)
    case skipped =>
      intro pre info post hsplit c hc
      exact firstFit_skipped hsplit c ((mem_reach_iff hfilter).mpr hc)
    case complete => exact firstFit_complete
  · intro hcompositor
    obtain ⟨st, hst⟩ := bindAll_ok hcompositor start connected
    exact ⟨st.outputs, by rw [outputLoop, hst]; rfl⟩

end

/-! ## Two connectors and two CRTCs -/

/-- Two CRTCs. Encoder 0 can use both of them, encoder 1 the first only. -/
def twoHeads : Device (Fin 2) (Fin 2) where
  crtcs := [0, 1]
  filterCrtcs mask := ([0, 1] : List (Fin 2)).filter fun c => mask.toNat.testBit c.val
  getEncoder enc := some (if enc = 0 then 3 else 1)
  createSurface _ _ _ _ := true
  newCompositor _ _ _ := true

/-- A connector with one mode, 1920 pixels wide. -/
def head (handle : UInt32) (enc : Fin 2) : Info (Fin 2) :=
  ⟨handle, .displayPort, handle, [⟨1920, 1080, 60⟩], [enc]⟩

theorem twoHeads_filterLaw : FilterLaw twoHeads := by
  intro mask c
  have hindex : ∀ c : Fin 2, twoHeads.crtcs[c.val]? = some c := by decide
  have hmem : ∀ c : Fin 2, c ∈ twoHeads.crtcs := by decide
  constructor
  · intro h
    exact ⟨c.val, by omega, (List.mem_filter.mp h).2, hindex c⟩
  · rintro ⟨i, -, hbit, hat⟩
    obtain ⟨hi, hat⟩ := List.getElem?_eq_some_iff.mp hat
    have hc := List.getElem?_eq_some_iff.mp (hindex c)
    obtain rfl : i = c.val := by
      have hnodup : twoHeads.crtcs.Nodup := by decide
      exact (List.Nodup.getElem_inj_iff hnodup).mp (hat.trans hc.2.symm)
    exact List.mem_filter.mpr ⟨hmem c, hbit⟩

/-- The connector that comes first takes the only CRTC of the other one. -/
theorem greedy_skips :
    ¬ ∀ (dev : Device (Fin 2) (Fin 2)) (connected : List (Info (Fin 2))), FilterLaw dev →
      SurfacesCreated dev start connected → Assignable (reach dev) (connected.filter hasMode) →
      ∀ outs, outputLoop dev connected = .ok outs →
        outs.length = (connected.filter hasMode).length := by
  intro hclaim
  have hsurface : SurfacesCreated twoHeads start [head 1 0, head 2 1] := fun _ _ _ _ _ _ _ _ _ _ =>
    rfl
  have hassignable : Assignable (reach twoHeads) ([head 1 0, head 2 1].filter hasMode) :=
    ⟨[1, 0], .cons (by decide) (.cons (by decide) .nil), by decide⟩
  have hlen := hclaim twoHeads [head 1 0, head 2 1] twoHeads_filterLaw hsurface hassignable _ rfl
  exact absurd hlen (by decide)

/-- In the other order both are bound. -/
theorem outputLoop_assigned_twoHeads :
    ∃ bs, Assigned twoHeads [head 2 1, head 1 0]
      [newOutput (head 2 1) ⟨1920, 1080, 60⟩ 0 0, newOutput (head 1 0) ⟨1920, 1080, 60⟩ 1 1920] bs :=
  (outputLoop_assigned twoHeads twoHeads_filterLaw [head 2 1, head 1 0]
    fun _ _ _ _ _ _ _ _ _ _ => rfl).1 _ rfl

end Halmasuit.Drm.Outputs
