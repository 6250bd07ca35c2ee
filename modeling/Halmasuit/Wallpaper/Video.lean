import Halmasuit.Wallpaper.Relay

/-!
# The texture of a video

`VideoBackend` (`halmasuit/src/wallpaper/video.rs` 64–310), with the frames that the engine's one
leaves out. A frame of the decoder is imported as a texture, and the texture is painted until the
next one. The index that the relay gives a frame is kept, so that a frame is not imported twice.

A texture is known by what was imported. The placeholder is `none`.

- `step_engine`: without the frames, it is the backend that the engine has;
- **`texture_agrees`**: on every run, against any decoder, the texture is the one that a backend
  without the index paints; each frame is imported once; and what is imported has as many bytes as
  its dimensions say.
-/

namespace Halmasuit.Wallpaper.Relay.Video

open Halmasuit.Lib
open Halmasuit.DecoderIpc
open Halmasuit.Wallpaper.Relay.DecoderRelay (poll)

/-- `current_buffer` and `current_size`. -/
structure Texture where
  width : UInt32
  height : UInt32
  bytes : List UInt8
  deriving DecidableEq, Repr

/-- `VideoBackend`. -/
structure VideoBackend where
  relay : Option DecoderRelay
  spawnAttempted : Bool
  currentBuffer : Option Texture
  lastUploadedIdx : Option UInt64
  deriving DecidableEq, Repr

/-- A call of the backend, with what it finds: whether `DecoderRelay::spawn` succeeds, what a poll of
the relay finds, and whether `TextureBuffer::from_memory` succeeds. -/
inductive Input where
  | pollPending (spawned : Bool) (p : Poll)
  | renderElement (p : Poll) (imports : Bool)
  deriving DecidableEq, Repr

/-- What the backend does, in order. -/
inductive Event where
  | relay (e : Relay.Event)
  /-- `TextureBuffer::from_memory`, for the frame with the index. -/
  | imported (idx : UInt64) (t : Texture) (ok : Bool)
  | rendered (t : Option Texture)
  deriving DecidableEq, Repr

/-- `VideoBackend::new`. -/
def VideoBackend.new : VideoBackend := ⟨none, false, none, none⟩

/-- The texture of a frame. -/
def texture (f : LatestFrame) : Texture := ⟨f.width, f.height, f.bytes⟩

/-- `i32::MAX`. -/
def i32Max : Nat := 2147483647

/-- `ensure_relay_spawned`. -/
def VideoBackend.ensureRelaySpawned (v : VideoBackend) (spawned : Bool) : VideoBackend :=
  if v.spawnAttempted then v
  else { v with spawnAttempted := true, relay := if spawned then some .new else v.relay }

/-- The check of the index. -/
def isUploaded (v : VideoBackend) (f : LatestFrame) : Bool :=
  decide (some f.frameIdx = v.lastUploadedIdx)

section
variable (fromSlice : List UInt8 → Option DecoderToCompositor)

/-- The poll of a relay that is there and not dead. -/
def VideoBackend.pollRelay (v : VideoBackend) (p : Poll) : VideoBackend × List Event :=
  match v.relay with
  | none => (v, [])
  | some r =>
    if r.dead then (v, [])
    else ({ v with relay := some (poll fromSlice r p).1 }, (poll fromSlice r p).2.map .relay)

/-- The upload of `render_element`; `skip` is the check that makes it pass a frame over. -/
def VideoBackend.upload (skip : VideoBackend → LatestFrame → Bool) (v : VideoBackend)
    (imports : Bool) : VideoBackend × List Event :=
  match v.relay.bind (·.latestFrame) with
  | none => (v, [])
  | some f =>
    if skip v f then (v, [])
    else if i32Max < f.width.toNat then (v, [])
    else if i32Max < f.height.toNat then (v, [])
    else if imports then
      ({ v with currentBuffer := some (texture f), lastUploadedIdx := some f.frameIdx },
        [.imported f.frameIdx (texture f) true])
    else (v, [.imported f.frameIdx (texture f) false])

/-- `render_element`. -/
def VideoBackend.render (skip : VideoBackend → LatestFrame → Bool) (v : VideoBackend) (p : Poll)
    (imports : Bool) : VideoBackend × List Event :=
  let polled := v.pollRelay fromSlice p
  let uploaded := polled.1.upload skip imports
  (uploaded.1, polled.2 ++ (uploaded.2 ++ [.rendered uploaded.1.currentBuffer]))

/-- A call of the backend. -/
def stepWith (skip : VideoBackend → LatestFrame → Bool) (v : VideoBackend) :
    Input → VideoBackend × List Event
  | .pollPending spawned p => (v.ensureRelaySpawned spawned).pollRelay fromSlice p
  | .renderElement p imports => v.render fromSlice skip p imports

/-- The backend. -/
def step : VideoBackend → Input → VideoBackend × List Event := stepWith fromSlice isUploaded

/-- A backend that imports the latest frame for every frame it paints. -/
def plainStep : VideoBackend → Input → VideoBackend × List Event := stepWith fromSlice fun _ _ => false

end

/-! ## What is in a trace -/

/-- What the relay did. -/
def relayEvents (tr : List Event) : List Relay.Event :=
  tr.filterMap fun
    | .relay e => some e
    | _ => none

/-- The indices of the frames that were imported. -/
def uploads (tr : List Event) : List UInt64 :=
  tr.filterMap fun
    | .imported idx _ true => some idx
    | _ => none

/-- What was painted. -/
def painted (tr : List Event) : List (Option Texture) :=
  tr.filterMap fun
    | .rendered t => some t
    | _ => none

/-- The dimensions are positive, and there are as many bytes as they say, within the ceiling. -/
def Sized (t : Texture) : Prop :=
  0 < t.width.toNat ∧ 0 < t.height.toNat ∧ t.bytes.length = t.width.toNat * t.height.toNat * 4 ∧
    t.bytes.length ≤ maxFrameBytes

/-- The dimensions of a frame that passed the check fit an `i32`. -/
theorem Sized.fits {t : Texture} (h : Sized t) :
    t.width.toNat ≤ i32Max ∧ t.height.toNat ≤ i32Max := by
  obtain ⟨hw, hh, hlen, hmax⟩ := h
  have hceil : maxFrameBytes = 16777216 := rfl
  have hwh : t.width.toNat ≤ t.width.toNat * t.height.toNat := Nat.le_mul_of_pos_right _ hh
  have hhw : t.height.toNat ≤ t.width.toNat * t.height.toNat := Nat.le_mul_of_pos_left _ hw
  unfold i32Max
  omega

theorem relayEvents_append (tr es : List Event) :
    relayEvents (tr ++ es) = relayEvents tr ++ relayEvents es := List.filterMap_append

theorem uploads_append (tr es : List Event) : uploads (tr ++ es) = uploads tr ++ uploads es :=
  List.filterMap_append

theorem painted_append (tr es : List Event) : painted (tr ++ es) = painted tr ++ painted es :=
  List.filterMap_append

theorem relayEvents_map (es : List Relay.Event) : relayEvents (es.map .relay) = es := by
  unfold relayEvents
  rw [List.filterMap_map]
  exact List.filterMap_some

theorem uploads_map (es : List Relay.Event) : uploads (es.map .relay) = [] := by
  unfold uploads
  rw [List.filterMap_map, List.filterMap_eq_nil_iff]
  exact fun _ _ => rfl

theorem painted_map (es : List Relay.Event) : painted (es.map .relay) = [] := by
  unfold painted
  rw [List.filterMap_map, List.filterMap_eq_nil_iff]
  exact fun _ _ => rfl

theorem storedFrames_append (tr es : List Relay.Event) :
    storedFrames (tr ++ es) = storedFrames tr + storedFrames es := List.countP_append

section
variable {fromSlice : List UInt8 → Option DecoderToCompositor} {r : DecoderRelay}
  {tr : List Relay.Event}

/-! ## A poll of the relay -/

/-- The latest frame is the one from before, or one whose index no frame had before. -/
def Fresh (tr : List Relay.Event) (before after : Option LatestFrame) : Prop :=
  after = before ∨ ∃ f, after = some f ∧ storedFrames tr ≤ f.frameIdx.toNat

/-- A turn of the relay leaves the latest frame, or stores one under the next index. -/
theorem iterate_latest (h : Sound fromSlice r tr) (i : Relay.RecvResult × Relay.Failure)
    (hcount : storedFrames (tr ++ (r.iterate fromSlice i).2) ≤ 2 ^ 64) :
    Fresh tr r.latestFrame (r.iterate fromSlice i).1.latestFrame := by
  by_cases hdead : r.dead = true
  · have hstay : r.iterate fromSlice i = (r, []) := if_pos hdead
    rw [hstay]
    exact .inl rfl
  · have hturn := iterate_turn fromSlice r i (by simpa using hdead)
    revert hturn hcount
    generalize (r.iterate fromSlice i).2 = es
    generalize (r.iterate fromSlice i).1 = r'
    intro hcount hturn
    cases hturn with
    | drained => exact .inl rfl
    | ready hd => exact .inl rfl
    | frame hd hready =>
      refine .inr ⟨_, rfl, ?_⟩
      have hlt : storedFrames tr + 1 ≤ 2 ^ 64 := by
        rw [storedFrames_append] at hcount
        simpa [storedFrames] using hcount
      show storedFrames tr ≤ r.nextFrameIdx.toNat
      rw [h.counter, UInt64.toNat_ofNat']
      omega
    | endOfFile hready hframe => exact .inl rfl
    | broken => exact .inl (Relay.noteFailure_frames r i.2).1
    | rejected scratch hready hframe =>
      exact .inl (Relay.noteFailure_frames { r with payloadScratch := scratch } i.2).1

/-- So does a poll, over all its turns. -/
theorem poll_latest (h : Sound fromSlice r tr) (p : Poll) :
    Sound fromSlice (poll fromSlice r p).1 (tr ++ (poll fromSlice r p).2) ∧
      (storedFrames (tr ++ (poll fromSlice r p).2) ≤ 2 ^ 64 →
        Fresh tr r.latestFrame (poll fromSlice r p).1.latestFrame) := by
  obtain ⟨is, heq⟩ := run_polls fromSlice [p] r
  have hpoll : run (poll fromSlice) r [p] = poll fromSlice r p := by simp [run]
  rw [← hpoll, heq]
  refine (run_invariant (fun r' tr' => Sound fromSlice r' tr' ∧ storedFrames tr ≤ storedFrames tr' ∧
    (storedFrames tr' ≤ 2 ^ 64 → Fresh tr r.latestFrame r'.latestFrame)) ?_ is r tr
    ⟨h, Nat.le_refl _, fun _ => .inl rfl⟩).imp_right And.right
  rintro r' tr' i ⟨hsound, hle, hfresh⟩
  have hgrow := storedFrames_append tr' (r'.iterate fromSlice i).2
  refine ⟨sound_iterate r' tr' i hsound, by omega, fun hcount => ?_⟩
  rcases iterate_latest hsound i hcount with hsame | ⟨f, hf, hidx⟩
  · rw [hsame]
    exact hfresh (by omega)
  · exact .inr ⟨f, hf, hle.trans hidx⟩

/-- The latest frame is one that passed the check. -/
theorem latest_sized (h : Sound fromSlice r tr) (hcount : storedFrames tr ≤ 2 ^ 64)
    {f : LatestFrame} (hf : r.latestFrame = some f) :
    Sized (texture f) ∧ f.frameIdx.toNat < storedFrames tr := by
  obtain ⟨_, _, _, -, -, hframe, -⟩ := h.shown f hf
  exact ⟨hframe.bounds, h.latest_lt hcount hf⟩

end

/-! ## The backend of the engine -/

/-- A backend, as the engine has it: without the frames, on a clock of milliseconds. -/
structure MirrorsBackend (v : VideoBackend) (e : Wallpaper.VideoBackend) : Prop where
  spawnAttempted : v.spawnAttempted = e.spawnAttempted
  relay : Option.Rel Mirrors v.relay e.relay

section
variable {fromSlice : List UInt8 → Option DecoderToCompositor} {v : VideoBackend}
  {e : Wallpaper.VideoBackend}

theorem MirrorsBackend.spawn (h : MirrorsBackend v e) (spawned : Bool) :
    MirrorsBackend (v.ensureRelaySpawned spawned) (e.ensureRelaySpawned spawned).1 := by
  unfold VideoBackend.ensureRelaySpawned Wallpaper.VideoBackend.ensureRelaySpawned
  rw [← h.spawnAttempted]
  by_cases hattempted : v.spawnAttempted = true
  · rw [if_pos hattempted, if_pos hattempted]
    exact h
  · rw [if_neg hattempted, if_neg hattempted]
    cases spawned with
    | true => exact ⟨rfl, .some ⟨rfl, rfl, rfl⟩⟩
    | false => exact ⟨rfl, h.relay⟩

theorem MirrorsBackend.pollRelay (h : MirrorsBackend v e) (ms : List RecvResult) (now : Nat)
    (spawned : Bool) :
    MirrorsBackend (v.pollRelay fromSlice ⟨ms, ⟨now * milli, spawned⟩⟩).1
      (e.pollRelay ⟨ms.map (outcome fromSlice), now, spawned⟩).1 := by
  obtain ⟨relay, spawnAttempted, currentBuffer, lastUploadedIdx⟩ := v
  obtain ⟨relay', spawnAttempted', fallback⟩ := e
  obtain ⟨hattempted, hrelay⟩ := h
  unfold VideoBackend.pollRelay Wallpaper.VideoBackend.pollRelay
  cases hrelay with
  | none => exact ⟨hattempted, .none⟩
  | @some r r' hr =>
    dsimp only
    by_cases hdead : r.dead = true
    · rw [if_pos hdead, if_pos (hr.dead ▸ hdead)]
      exact ⟨hattempted, .some hr⟩
    · rw [if_neg hdead, if_neg (hr.dead ▸ hdead)]
      exact ⟨hattempted, .some (pollFrames_engine hr ms now spawned).1⟩

theorem MirrorsBackend.upload (h : MirrorsBackend v e)
    (skip : VideoBackend → LatestFrame → Bool) (imports : Bool) :
    MirrorsBackend (v.upload skip imports).1 e := by
  unfold VideoBackend.upload
  split
  · exact h
  · split_ifs
    · exact h
    · exact h
    · exact h
    · exact ⟨h.spawnAttempted, h.relay⟩
    · exact h

/-- **The backend of the engine.** A call does to this backend what it does to the one the engine
has. -/
theorem step_engine (h : MirrorsBackend v e) (ms : List RecvResult) (now : Nat) (spawned : Bool) :
    (∀ first, MirrorsBackend
      (step fromSlice v (.pollPending first ⟨ms, ⟨now * milli, spawned⟩⟩)).1
      (e.pollPending first ⟨ms.map (outcome fromSlice), now, spawned⟩).1) ∧
    ∀ imports, MirrorsBackend
      (step fromSlice v (.renderElement ⟨ms, ⟨now * milli, spawned⟩⟩ imports)).1
      (e.pollRelay ⟨ms.map (outcome fromSlice), now, spawned⟩).1 :=
  ⟨fun first => (h.spawn first).pollRelay ms now spawned,
    fun imports => (h.pollRelay ms now spawned).upload isUploaded imports⟩

end

/-! ## What the index is worth -/

/-- The indices are counted with 64 bits, and no two frames of the trace have the same. -/
def Counted (tr : List Event) : Prop := storedFrames (relayEvents tr) ≤ 2 ^ 64

theorem Counted.of_append {tr es : List Event} (h : Counted (tr ++ es)) : Counted tr := by
  unfold Counted at h ⊢
  rw [relayEvents_append, storedFrames_append] at h
  omega

/-- The backend after the events before. The index stands for the frame that the texture is of. -/
structure Cached (fromSlice : List UInt8 → Option DecoderToCompositor) (v : VideoBackend)
    (tr : List Event) : Prop where
  unspawned : v.spawnAttempted = false → v.relay = none
  silent : v.relay = none → relayEvents tr = []
  sound : ∀ r, v.relay = some r → Sound fromSlice r (relayEvents tr)
  last : ∀ idx, v.lastUploadedIdx = some idx → idx ∈ uploads tr
  below : ∀ idx ∈ uploads tr, idx.toNat < storedFrames (relayEvents tr)
  current : ∀ f, v.relay.bind (·.latestFrame) = some f → f.frameIdx ∈ uploads tr →
    v.lastUploadedIdx = some f.frameIdx ∧ v.currentBuffer = some (texture f)
  nodup : (uploads tr).Nodup
  sized : ∀ idx t ok, .imported idx t ok ∈ tr → Sized t

section
variable {fromSlice : List UInt8 → Option DecoderToCompositor} {v : VideoBackend}
  {tr : List Event}

theorem cached_new : Cached fromSlice .new [] where
  unspawned := fun _ => rfl
  silent := fun _ => rfl
  sound := fun r h => by cases h
  last := fun idx h => by cases h
  below := fun idx h => by cases h
  current := fun f h => by cases h
  nodup := List.nodup_nil
  sized := fun idx t ok h => by cases h

theorem Cached.spawn (h : Cached fromSlice v tr) (spawned : Bool) :
    Cached fromSlice (v.ensureRelaySpawned spawned) tr := by
  unfold VideoBackend.ensureRelaySpawned
  cases hattempted : v.spawnAttempted with
  | true => exact h
  | false =>
    have hnone := h.unspawned hattempted
    cases spawned with
    | false => exact { h with unspawned := fun hc => by cases hc }
    | true =>
      refine { h with
        unspawned := fun hc => by cases hc
        silent := fun _ => h.silent hnone
        sound := fun r hr => ?_
        current := fun f hf => by cases hf }
      obtain rfl := Option.some.inj hr
      rw [h.silent hnone]
      exact sound_new

theorem Cached.pollRelay (h : Cached fromSlice v tr) (p : Poll)
    (hcount : Counted (tr ++ (v.pollRelay fromSlice p).2)) :
    Cached fromSlice (v.pollRelay fromSlice p).1 (tr ++ (v.pollRelay fromSlice p).2) := by
  unfold VideoBackend.pollRelay at hcount ⊢
  cases hrelay : v.relay with
  | none => simpa using h
  | some r =>
    rw [hrelay] at hcount
    dsimp only at hcount ⊢
    by_cases hdead : r.dead = true
    · rw [if_pos hdead]
      simpa using h
    · rw [if_neg hdead] at hcount ⊢
      have hevents : relayEvents (tr ++ (poll fromSlice r p).2.map .relay) =
          relayEvents tr ++ (poll fromSlice r p).2 := by
        rw [relayEvents_append, relayEvents_map]
      have huploads : uploads (tr ++ (poll fromSlice r p).2.map .relay) = uploads tr := by
        rw [uploads_append, uploads_map, List.append_nil]
      rw [Counted, hevents] at hcount
      obtain ⟨hsound, hfresh⟩ := poll_latest (h.sound r hrelay) p
      refine ⟨fun hc => ?_, (fun hc => by cases hc), fun r' hr' => ?_, ?_, ?_, ?_, ?_, ?_⟩
      · rw [h.unspawned hc] at hrelay
        cases hrelay
      · obtain rfl := Option.some.inj hr'
        rw [hevents]
        exact hsound
      · rw [huploads]
        exact h.last
      · rw [hevents, huploads, storedFrames_append]
        exact fun idx hidx => Nat.lt_add_right _ (h.below idx hidx)
      · rw [huploads]
        intro f hf hidx
        -- a frame of this poll has an index that no frame had before
        rcases hfresh hcount with hsame | ⟨f', hf', hlarge⟩
        · refine h.current f ?_ hidx
          rw [hrelay, Option.bind_some, ← hsame]
          exact hf
        · obtain rfl : f' = f := Option.some.inj (hf'.symm.trans hf)
          exact absurd (h.below _ hidx) (Nat.not_lt_of_le hlarge)
      · rw [huploads]
        exact h.nodup
      · intro idx t ok hmem
        rcases List.mem_append.mp hmem with hmem | hmem
        · exact h.sized idx t ok hmem
        · obtain ⟨e, -, heq⟩ := List.mem_map.mp hmem
          cases heq

/-- What the upload does to a backend whose index is right: nothing, when the texture is that of the
latest frame or there is none, or an import of the latest frame, which was not imported before. -/
inductive Uploads (v : VideoBackend) (tr : List Event) (imports : Bool) :
    VideoBackend → List Event → Prop
  | none (h : v.relay.bind (·.latestFrame) = none) : Uploads v tr imports v []
  | same {f} (h : v.relay.bind (·.latestFrame) = some f)
      (htexture : v.currentBuffer = some (texture f)) : Uploads v tr imports v []
  | imports {f} (h : v.relay.bind (·.latestFrame) = some f) (hnew : f.frameIdx ∉ uploads tr)
      (himports : imports = true) :
      Uploads v tr imports
        { v with currentBuffer := some (texture f), lastUploadedIdx := some f.frameIdx }
        [.imported f.frameIdx (texture f) true]
  | fails {f} (h : v.relay.bind (·.latestFrame) = some f) (himports : imports = false) :
      Uploads v tr imports v [.imported f.frameIdx (texture f) false]

theorem Cached.latest (h : Cached fromSlice v tr) (hcount : Counted tr) {f : LatestFrame}
    (hf : v.relay.bind (·.latestFrame) = some f) :
    Sized (texture f) ∧ f.frameIdx.toNat < storedFrames (relayEvents tr) := by
  obtain ⟨r, hr, hrf⟩ := Option.bind_eq_some_iff.mp hf
  exact latest_sized (h.sound r hr) hcount hrf

theorem Cached.upload_cases (h : Cached fromSlice v tr) (hcount : Counted tr) (imports : Bool) :
    Uploads v tr imports (v.upload isUploaded imports).1 (v.upload isUploaded imports).2 := by
  unfold VideoBackend.upload
  cases hf : v.relay.bind (·.latestFrame) with
  | none => exact .none hf
  | some f =>
    have hfits := (h.latest hcount hf).1.fits
    have hw : f.width.toNat ≤ i32Max := hfits.1
    have hh : f.height.toNat ≤ i32Max := hfits.2
    dsimp only
    rw [if_neg (Nat.not_lt_of_le hw), if_neg (Nat.not_lt_of_le hh)]
    unfold isUploaded
    by_cases hlast : some f.frameIdx = v.lastUploadedIdx
    · rw [if_pos (by simpa using hlast)]
      exact .same hf (h.current f hf (h.last _ hlast.symm)).2
    · rw [if_neg (by simpa using hlast)]
      have hnew : f.frameIdx ∉ uploads tr := fun hmem => hlast (h.current f hf hmem).1.symm
      cases imports with
      | true => exact .imports hf hnew rfl
      | false => exact .fails hf rfl

/-- An upload keeps the index right. -/
theorem Cached.uploaded (h : Cached fromSlice v tr) (hcount : Counted tr) {imports : Bool}
    {v' : VideoBackend} {es : List Event} (hup : Uploads v tr imports v' es)
    (shown : Option Texture) : Cached fromSlice v' (tr ++ (es ++ [Event.rendered shown])) := by
  have hquiet : ∀ es : List Event, relayEvents es = [] → uploads es = [] →
      (∀ idx t ok, .imported idx t ok ∈ es → Sized t) → Cached fromSlice v (tr ++ es) := by
    intro es hrelay huploads hsized
    refine ⟨h.unspawned, ?_, ?_, ?_, ?_, ?_, ?_, fun idx t ok hmem => ?_⟩
    · rw [relayEvents_append, hrelay, List.append_nil]
      exact h.silent
    · rw [relayEvents_append, hrelay, List.append_nil]
      exact h.sound
    · rw [uploads_append, huploads, List.append_nil]
      exact h.last
    · rw [relayEvents_append, hrelay, List.append_nil, uploads_append, huploads, List.append_nil]
      exact h.below
    · rw [uploads_append, huploads, List.append_nil]
      exact h.current
    · rw [uploads_append, huploads, List.append_nil]
      exact h.nodup
    · rcases List.mem_append.mp hmem with hmem | hmem
      · exact h.sized idx t ok hmem
      · exact hsized idx t ok hmem
  cases hup with
  | none hf => exact hquiet _ rfl rfl (by simp)
  | same hf htexture => exact hquiet _ rfl rfl (by simp)
  | @fails f hf himports =>
    refine hquiet _ rfl rfl fun idx t ok hmem => ?_
    obtain ⟨-, rfl, -⟩ : idx = f.frameIdx ∧ t = texture f ∧ ok = false := by simpa using hmem
    exact (h.latest hcount hf).1
  | @imports f hf hnew himports =>
    obtain ⟨hsized, hidx⟩ := h.latest hcount hf
    have hrelay : relayEvents (tr ++ ([Event.imported f.frameIdx (texture f) true] ++
        [Event.rendered shown])) = relayEvents tr := by
      rw [relayEvents_append]
      exact List.append_nil _
    have huploads : uploads (tr ++ ([Event.imported f.frameIdx (texture f) true] ++
        [Event.rendered shown])) = uploads tr ++ [f.frameIdx] := uploads_append _ _
    refine ⟨h.unspawned, ?_, ?_, fun idx hlast => ?_, ?_, fun f' hf' _ => ?_, ?_,
      fun idx t ok hmem => ?_⟩
    · rw [hrelay]
      exact h.silent
    · rw [hrelay]
      exact h.sound
    · obtain rfl := Option.some.inj hlast
      rw [huploads]
      exact List.mem_append_right _ (List.mem_singleton.mpr rfl)
    · rw [hrelay, huploads]
      intro idx hmem
      rcases List.mem_append.mp hmem with hmem | hmem
      · exact h.below idx hmem
      · rw [List.mem_singleton.mp hmem]
        exact hidx
    · obtain rfl : f = f' := Option.some.inj (hf.symm.trans hf')
      exact ⟨rfl, rfl⟩
    · rw [huploads]
      refine List.nodup_append.mpr ⟨h.nodup, by simp, ?_⟩
      rintro idx hmem _ hsing rfl
      rw [List.mem_singleton.mp hsing] at hmem
      exact hnew hmem
    · rcases List.mem_append.mp hmem with hmem | hmem
      · exact h.sized idx t ok hmem
      · obtain ⟨-, rfl, -⟩ : idx = f.frameIdx ∧ t = texture f ∧ ok = true := by simpa using hmem
        exact hsized

/-- The upload of a backend without the index leaves the same texture. -/
theorem Uploads.plain {imports : Bool} {v' : VideoBackend} {es : List Event}
    (h : Uploads v tr imports v' es)
    (hfits : ∀ f, v.relay.bind (·.latestFrame) = some f → Sized (texture f))
    (idx : Option UInt64) :
    ∃ idx', (({ v with lastUploadedIdx := idx } : VideoBackend).upload (fun _ _ => false)
      imports).1 = { v' with lastUploadedIdx := idx' } := by
  have hupload : ∀ f, v.relay.bind (·.latestFrame) = some f →
      (({ v with lastUploadedIdx := idx } : VideoBackend).upload (fun _ _ => false) imports).1 =
        if imports then
          { v with currentBuffer := some (texture f), lastUploadedIdx := some f.frameIdx }
        else { v with lastUploadedIdx := idx } := by
    intro f hf
    have hw : f.width.toNat ≤ i32Max := (hfits f hf).fits.1
    have hh : f.height.toNat ≤ i32Max := (hfits f hf).fits.2
    unfold VideoBackend.upload
    dsimp only
    rw [hf]
    dsimp only
    rw [if_neg (by decide), if_neg (Nat.not_lt_of_le hw), if_neg (Nat.not_lt_of_le hh)]
    split <;> rfl
  cases h with
  | none h =>
    refine ⟨idx, ?_⟩
    unfold VideoBackend.upload
    dsimp only
    rw [h]
  | @same f h htexture =>
    rw [hupload f h]
    split
    · exact ⟨some f.frameIdx, by rw [htexture]⟩
    · exact ⟨idx, rfl⟩
  | @imports f h hnew himports =>
    rw [hupload f h, if_pos himports]
    exact ⟨some f.frameIdx, rfl⟩
  | @fails f h himports =>
    rw [hupload f h, if_neg (by simp [himports])]
    exact ⟨idx, rfl⟩

/-- What is painted is the latest frame, if its import goes well. -/
theorem Uploads.shows {imports : Bool} {v' : VideoBackend} {es : List Event}
    (h : Uploads v tr imports v' es) (himports : imports = true) {f : LatestFrame}
    (hf : v'.relay.bind (·.latestFrame) = some f) : v'.currentBuffer = some (texture f) := by
  cases h with
  | none h =>
    rw [h] at hf
    cases hf
  | same h htexture =>
    obtain rfl := Option.some.inj (h.symm.trans hf)
    exact htexture
  | imports h hnew _ =>
    obtain rfl := Option.some.inj (h.symm.trans hf)
    rfl
  | fails h hfails =>
    rw [himports] at hfails
    cases hfails

/-! ## Every run -/

/-- The same backend, but for the index. -/
def Alike (v w : VideoBackend) : Prop := ∃ idx, w = { v with lastUploadedIdx := idx }

theorem Alike.pollRelay {w : VideoBackend} (h : Alike v w)
    (fromSlice : List UInt8 → Option DecoderToCompositor) (p : Poll) :
    Alike (v.pollRelay fromSlice p).1 (w.pollRelay fromSlice p).1 ∧
      (w.pollRelay fromSlice p).2 = (v.pollRelay fromSlice p).2 := by
  obtain ⟨idx, rfl⟩ := h
  obtain ⟨relay, spawnAttempted, currentBuffer, lastUploadedIdx⟩ := v
  unfold VideoBackend.pollRelay
  cases relay with
  | none => exact ⟨⟨idx, rfl⟩, rfl⟩
  | some r =>
    by_cases hdead : r.dead = true
    · simp only [hdead, if_true]
      exact ⟨⟨idx, rfl⟩, trivial⟩
    · simp only [hdead]
      exact ⟨⟨idx, rfl⟩, rfl⟩

theorem Alike.spawn {w : VideoBackend} (h : Alike v w) (spawned : Bool) :
    Alike (v.ensureRelaySpawned spawned) (w.ensureRelaySpawned spawned) := by
  obtain ⟨idx, rfl⟩ := h
  unfold VideoBackend.ensureRelaySpawned
  dsimp only
  split
  · exact ⟨idx, rfl⟩
  · exact ⟨idx, rfl⟩

theorem painted_pollRelay (v : VideoBackend) (p : Poll) :
    painted (v.pollRelay fromSlice p).2 = [] := by
  unfold VideoBackend.pollRelay
  cases v.relay with
  | none => rfl
  | some r =>
    dsimp only
    split
    · rfl
    · exact painted_map _

theorem painted_upload (skip : VideoBackend → LatestFrame → Bool) (v : VideoBackend)
    (imports : Bool) : painted (v.upload skip imports).2 = [] := by
  unfold VideoBackend.upload
  split
  · rfl
  · split_ifs <;> rfl

/-- One call: the index stays right, and without it the same is painted. -/
theorem step_cached {w : VideoBackend} (h : Cached fromSlice v tr) (hw : Alike v w) (i : Input)
    (hcount : Counted (tr ++ (step fromSlice v i).2)) :
    Cached fromSlice (step fromSlice v i).1 (tr ++ (step fromSlice v i).2) ∧
      Alike (step fromSlice v i).1 (plainStep fromSlice w i).1 ∧
      painted (plainStep fromSlice w i).2 = painted (step fromSlice v i).2 := by
  cases i with
  | pollPending spawned p =>
    obtain ⟨halike, hsame⟩ := (hw.spawn spawned).pollRelay fromSlice p
    exact ⟨(h.spawn spawned).pollRelay p hcount, halike, congrArg painted hsame⟩
  | renderElement p imports =>
    unfold step plainStep stepWith VideoBackend.render at *
    dsimp only at *
    rw [← List.append_assoc] at hcount
    have hpolled := h.pollRelay p hcount.of_append
    obtain ⟨⟨idx, heq⟩, -⟩ := hw.pollRelay fromSlice p
    have hup := hpolled.upload_cases hcount.of_append imports
    obtain ⟨idx', hplain⟩ := hup.plain
      (fun f hf => (hpolled.latest hcount.of_append hf).1) idx
    rw [← List.append_assoc]
    refine ⟨hpolled.uploaded hcount.of_append hup _, ⟨idx', ?_⟩, ?_⟩
    · rw [heq]
      exact hplain
    · simp only [painted_append, painted_pollRelay, painted_upload, List.nil_append]
      rw [heq, hplain]

theorem run_cached (is : List Input) : ∀ (v w : VideoBackend) (tr : List Event),
    Cached fromSlice v tr → Alike v w → Counted (tr ++ (run (step fromSlice) v is).2) →
      Cached fromSlice (run (step fromSlice) v is).1 (tr ++ (run (step fromSlice) v is).2) ∧
      painted (run (plainStep fromSlice) w is).2 = painted (run (step fromSlice) v is).2 := by
  induction is with
  | nil =>
    intro v w tr h _ _
    simpa [run] using h
  | cons i is ih =>
    intro v w tr h hw hcount
    simp only [run, ← List.append_assoc] at hcount ⊢
    obtain ⟨hnext, halike, hpainted⟩ := step_cached h hw i hcount.of_append
    obtain ⟨hlast, hrest⟩ := ih _ _ _ hnext halike hcount
    refine ⟨hlast, ?_⟩
    rw [painted_append, painted_append, hpainted, hrest]

/-- What is painted after a call of `render_element` whose import goes well. -/
theorem render_shows (h : Cached fromSlice v tr) (p : Poll)
    (hcount : Counted (tr ++ (step fromSlice v (.renderElement p true)).2)) {f : LatestFrame}
    (hf : (step fromSlice v (.renderElement p true)).1.relay.bind (·.latestFrame) = some f) :
    (step fromSlice v (.renderElement p true)).1.currentBuffer = some (texture f) := by
  unfold step stepWith VideoBackend.render at *
  dsimp only at *
  rw [← List.append_assoc] at hcount
  have hpolled := h.pollRelay p hcount.of_append
  exact (hpolled.upload_cases hcount.of_append true).shows rfl hf

end

/-- **The index loses no frame.** Against any decoder, over every run below 2^64 frames, respawns
included: what is painted is what a backend paints that imports the latest frame for every frame of
its own; it is the latest frame after every call whose import goes well; no frame is imported twice;
and what is imported has positive dimensions, and as many bytes as they say. -/
theorem texture_agrees (fromSlice : List UInt8 → Option DecoderToCompositor) (is : List Input)
    (hcount : Counted (run (step fromSlice) .new is).2) :
    let tr := (run (step fromSlice) .new is).2
    painted (run (plainStep fromSlice) .new is).2 = painted tr ∧ (uploads tr).Nodup ∧
      (∀ idx t ok, .imported idx t ok ∈ tr → Sized t) ∧
      ∀ pre p post, is = pre ++ .renderElement p true :: post →
        let v := (run (step fromSlice) .new (pre ++ [.renderElement p true])).1
        ∀ f, v.relay.bind (·.latestFrame) = some f → v.currentBuffer = some (texture f) := by
  intro tr
  have hstart : Alike VideoBackend.new VideoBackend.new := ⟨none, rfl⟩
  obtain ⟨hcached, hpainted⟩ := run_cached is .new .new [] cached_new hstart hcount
  refine ⟨hpainted, hcached.nodup, hcached.sized, fun pre p post heq f hf => ?_⟩
  subst heq
  have hsplit : (run (step fromSlice) .new (pre ++ .renderElement p true :: post)).2 =
      (run (step fromSlice) .new pre).2 ++
        (step fromSlice (run (step fromSlice) .new pre).1 (.renderElement p true)).2 ++
        (run (step fromSlice) (step fromSlice (run (step fromSlice) .new pre).1
          (.renderElement p true)).1 post).2 := by
    rw [run_append, run, List.append_assoc]
  rw [hsplit] at hcount
  have hpre := (run_cached pre .new .new [] cached_new hstart hcount.of_append.of_append).1
  rw [run_append] at hf ⊢
  exact render_shows hpre p hcount.of_append hf

/-- A frame that is painted twice is imported once. -/
theorem texture_agrees_frame :
    let ready := [33, 0, 0, 0] ++ (DecoderToCompositor.ready wireVersion).toVec
    let frame := [100, 0, 0, 0] ++
      (DecoderToCompositor.frameHeader 0 0 1 1 .rgba8 4).toVec ++ [9, 9, 9, 9]
    let is : List Input := [.pollPending true ⟨[.datagram ready, .wouldBlock], ⟨0, true⟩⟩,
      .renderElement ⟨[.datagram frame, .wouldBlock], ⟨0, true⟩⟩ true,
      .renderElement ⟨[.wouldBlock], ⟨0, true⟩⟩ true]
    let tr := (run (step readDecoder) .new is).2
    painted tr = [some ⟨1, 1, [9, 9, 9, 9]⟩, some ⟨1, 1, [9, 9, 9, 9]⟩] ∧ uploads tr = [0] ∧
      painted (run (plainStep readDecoder) .new is).2 = painted tr := by
  intro ready frame is tr
  have hcount : storedFrames (relayEvents tr) ≤ 2 ^ 64 := by decide +kernel
  exact ⟨by decide +kernel, by decide +kernel, (texture_agrees readDecoder is hcount).1⟩

end Halmasuit.Wallpaper.Relay.Video
