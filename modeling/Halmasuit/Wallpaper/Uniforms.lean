import Mathlib.Data.List.Sort
import Mathlib.Data.String.Basic
import Halmasuit.Lib.Run
import Halmasuit.Wallpaper.Shader

/-!
# The uniforms of a shader

What a shader wallpaper is told in each frame (`halmasuit/src/wallpaper/shader.rs` 107–419, with
`default_shadertoy_bindings` of `config.rs`): every uniform that the configuration declares is bound
to the clock, the frame, a constant, or an event of the compositor's bus.

* What the shader does with an `f32` is no matter here, so the numbers are a parameter (`F32`).
* A `HashMap` is a list in the order in which it happens to iterate; the two tables of the events are
  functions.
* Times are in nanoseconds. Reading and compiling the shader are left out, and so is
  `last_output_size`, which nothing reads.

Results:
* **`bindings_resolved`**: the bindings are those of the user and, for a shader of Shadertoy's shape,
  the ones of Shadertoy that the user left out, in the order of their names.
* `shader_frames`: on every run, what a frame shows is a function of the frames and the events before
  it.
-/

namespace Halmasuit.Wallpaper.Shader

open Halmasuit.Lib

/-! ## The configuration -/

/-- The numbers of a shader. -/
structure F32 (F : Type) where
  zero : F
  one : F
  minusOne : F
  /-- `Duration::as_secs_f32`, of nanoseconds. -/
  asSecs : Nat → F
  /-- `as f32`. -/
  ofI32 : Int → F

/-- `StaticValue`. -/
inductive StaticValue (F : Type) where
  | float (x : F)
  | vec2 (a b : F)
  | vec3 (a b c : F)
  | vec4 (a b c d : F)
  | int (x : Int)
  | bool (b : Bool)
  deriving DecidableEq, Repr

/-- `UniformBinding`. -/
inductive UniformBinding (F : Type) where
  | autoTime
  | autoResolution
  | autoFrame
  | autoDelta
  | autoMouse
  | static (value : StaticValue F)
  | eventTime (event : String)
  | eventValue (event : String)
  deriving DecidableEq, Repr

/-- A named uniform with its binding. -/
abbrev Binding (F : Type) : Type := String × UniformBinding F

/-- A `HashMap<String, UniformBinding>`, in the order in which it iterates. -/
structure UniformMap (F : Type) where
  entries : List (Binding F)
  nodup : (entries.map Prod.fst).Nodup

/-- `UniformType`. -/
inductive UniformType where
  | f1
  | f2
  | f3
  | f4
  | i1
  deriving DecidableEq, Repr

/-- `UniformValue`. -/
inductive UniformValue (F : Type) where
  | f1 (x : F)
  | f2 (a b : F)
  | f3 (a b c : F)
  | f4 (a b c d : F)
  | i1 (x : Int)
  deriving DecidableEq, Repr

variable {F : Type}

def UniformValue.type : UniformValue F → UniformType
  | .f1 _ => .f1
  | .f2 _ _ => .f2
  | .f3 _ _ _ => .f3
  | .f4 _ _ _ _ => .f4
  | .i1 _ => .i1

/-- `uniform_type_for`. -/
def uniformTypeFor : UniformBinding F → UniformType
  | .autoTime => .f1
  | .autoDelta => .f1
  | .eventTime _ => .f1
  | .eventValue _ => .f1
  | .autoResolution => .f3
  | .autoFrame => .i1
  | .autoMouse => .f4
  | .static (.float _) => .f1
  | .static (.vec2 _ _) => .f2
  | .static (.vec3 _ _ _) => .f3
  | .static (.vec4 _ _ _ _) => .f4
  | .static (.int _) => .i1
  | .static (.bool _) => .i1

/-- `static_to_uniform_value`. -/
def staticToUniformValue : StaticValue F → UniformValue F
  | .float x => .f1 x
  | .vec2 a b => .f2 a b
  | .vec3 a b c => .f3 a b c
  | .vec4 a b c d => .f4 a b c d
  | .int x => .i1 x
  | .bool b => .i1 (if b then 1 else 0)

/-- `default_shadertoy_bindings`. -/
def defaultShadertoyBindings : UniformMap F where
  entries := [("iResolution", .autoResolution), ("iTime", .autoTime), ("iTimeDelta", .autoDelta),
    ("iFrame", .autoFrame), ("iMouse", .autoMouse)]
  nodup := by simp

/-- `entry(k).or_insert(v)`. Where a new key comes in the order is up to the map. -/
def UniformMap.orInsert (m : UniformMap F) (b : Binding F) : UniformMap F :=
  if h : b.1 ∈ m.entries.map Prod.fst then m
  else ⟨b :: m.entries, by simpa using ⟨by simpa using h, m.nodup⟩⟩

/-- The bindings of `ShaderBackend::new`, before they are sorted, with the defaults in the order in
which their map happens to iterate. -/
def mergedWith (defaults : UniformMap F) (raw : List Char) (uniforms : UniformMap F) :
    UniformMap F :=
  if isShadertoyShape raw then defaults.entries.foldl UniformMap.orInsert uniforms else uniforms

def mergedUniforms : List Char → UniformMap F → UniformMap F := mergedWith defaultShadertoyBindings

/-- `bindings`, as `ShaderBackend::new` sorts them. -/
def sortedBindings (m : UniformMap F) : List (Binding F) :=
  m.entries.mergeSort fun a b => decide (a.1 ≤ b.1)

/-! ## The backend -/

/-- A `HashMap<String, f32>`. -/
abbrev EventMap (F : Type) : Type := String → Option F

/-- `HashMap::insert`. -/
def EventMap.insert (m : EventMap F) (event : String) (x : F) : EventMap F :=
  fun e => if e = event then some x else m e

/-- `ShaderBackend`. -/
structure ShaderBackend (F : Type) where
  bindings : List (Binding F)
  frameStart : Nat
  lastFrame : Nat
  /-- A `u64`. -/
  frameCounter : Nat
  eventTimes : EventMap F
  eventValues : EventMap F

/-- `u64::MAX`. -/
def u64Max : Nat := 18446744073709551615

/-- `i32::MAX`. -/
def i32Max : Nat := 2147483647

/-- `apply_event`: the tables after the event, and the uniforms that were written. -/
def applyEvent (eventName : String) (time value : F) : List (Binding F) → EventMap F → EventMap F →
    (EventMap F × EventMap F) × List String
  | [], times, values => ((times, values), [])
  | (uniform, .eventTime event) :: bs, times, values =>
    if event = eventName then
      let r := applyEvent eventName time value bs (times.insert event time) values
      (r.1, uniform :: r.2)
    else applyEvent eventName time value bs times values
  | (uniform, .eventValue event) :: bs, times, values =>
    if event = eventName then
      let r := applyEvent eventName time value bs times (values.insert event value)
      (r.1, uniform :: r.2)
    else applyEvent eventName time value bs times values
  | _ :: bs, times, values => applyEvent eventName time value bs times values

variable (ops : F32 F)

/-- `resolve_event_time`. -/
def resolveEventTime (times : EventMap F) (event : String) : F := (times event).getD ops.minusOne

/-- `resolve_event_value`. -/
def resolveEventValue (values : EventMap F) (event : String) : F := (values event).getD ops.zero

namespace ShaderBackend

/-- `ShaderBackend::new`, for a shader that compiles. -/
def new (raw : List Char) (uniforms : UniformMap F) (now : Nat) : ShaderBackend F where
  bindings := sortedBindings (mergedUniforms raw uniforms)
  frameStart := now
  lastFrame := now
  frameCounter := 0
  eventTimes := fun _ => none
  eventValues := fun _ => none

/-- `uniform_names` of `ShaderBackend::new`, which the program is compiled with. -/
def uniformNames (bindings : List (Binding F)) : List (String × UniformType) :=
  bindings.map fun b => (b.1, uniformTypeFor b.2)

/-- `current_uniforms`. -/
def currentUniforms (s : ShaderBackend F) (time delta : F) (frameId : Nat) (resolution : F × F) :
    List (String × UniformValue F) :=
  s.bindings.map fun b => (b.1, match b.2 with
    | .autoTime => .f1 time
    | .autoResolution => .f3 resolution.1 resolution.2 ops.one
    | .autoFrame => .i1 frameId
    | .autoDelta => .f1 delta
    | .autoMouse => .f4 ops.zero ops.zero ops.zero ops.zero
    | .static v => staticToUniformValue v
    | .eventTime event => .f1 (resolveEventTime ops s.eventTimes event)
    | .eventValue event => .f1 (resolveEventValue ops s.eventValues event))

/-- `notify_event`. -/
def notifyEvent (s : ShaderBackend F) (now : Nat) (eventName : String) (value : F) :
    ShaderBackend F × List String :=
  let r := applyEvent eventName (ops.asSecs (now - s.frameStart)) value s.bindings s.eventTimes
    s.eventValues
  ({ s with eventTimes := r.1.1, eventValues := r.1.2 }, r.2)

/-- `render_element`, for an output of `w` by `h`. -/
def renderElement (s : ShaderBackend F) (now : Nat) (w h : Int) :
    ShaderBackend F × List (String × UniformValue F) :=
  ({ s with lastFrame := now, frameCounter := min (s.frameCounter + 1) u64Max },
    s.currentUniforms ops (ops.asSecs (now - s.frameStart)) (ops.asSecs (now - s.lastFrame))
      (min s.frameCounter i32Max) (ops.ofI32 w, ops.ofI32 h))

end ShaderBackend

/-! ## The bindings -/

/-- The bindings that a shader is to have. -/
structure Resolved (raw : List Char) (uniforms : UniformMap F) (bindings : List (Binding F)) :
    Prop where
  sorted : bindings.Pairwise (·.1 < ·.1)
  mem_iff : ∀ b, b ∈ bindings ↔ b ∈ uniforms.entries ∨
    isShadertoyShape raw = true ∧ b ∈ (defaultShadertoyBindings : UniformMap F).entries ∧
      b.1 ∉ uniforms.entries.map Prod.fst

theorem mem_orInsert (m : UniformMap F) (b c : Binding F) :
    c ∈ (m.orInsert b).entries ↔ c ∈ m.entries ∨ c = b ∧ b.1 ∉ m.entries.map Prod.fst := by
  unfold UniformMap.orInsert
  by_cases h : b.1 ∈ m.entries.map Prod.fst
  · rw [dif_pos h]
    simp [h]
  · rw [dif_neg h, List.mem_cons]
    constructor
    · rintro (rfl | hc)
      · exact .inr ⟨rfl, h⟩
      · exact .inl hc
    · rintro (hc | ⟨rfl, -⟩)
      · exact .inr hc
      · exact .inl rfl

/-- Bindings of different names, inserted where there is none of the name yet. -/
theorem mem_foldl_orInsert (bs : List (Binding F)) : ∀ m : UniformMap F, (bs.map Prod.fst).Nodup →
    ∀ c, c ∈ (bs.foldl UniformMap.orInsert m).entries ↔
      c ∈ m.entries ∨ c ∈ bs ∧ c.1 ∉ m.entries.map Prod.fst := by
  induction bs with
  | nil =>
    intro m _ c
    simp
  | cons b bs ih =>
    intro m hnodup c
    obtain ⟨hb, hbs⟩ := List.nodup_cons.mp hnodup
    have hname : ∀ c ∈ bs, c.1 ≠ b.1 := fun c hc heq => hb (heq ▸ List.mem_map_of_mem hc)
    have hnames : ∀ c ∈ bs,
        (c.1 ∈ (m.orInsert b).entries.map Prod.fst ↔ c.1 ∈ m.entries.map Prod.fst) := by
      intro c hc
      simp only [List.mem_map, mem_orInsert]
      constructor
      · rintro ⟨d, hd | ⟨rfl, -⟩, heq⟩
        · exact ⟨d, hd, heq⟩
        · exact absurd heq.symm (hname c hc)
      · rintro ⟨d, hd, heq⟩
        exact ⟨d, .inl hd, heq⟩
    rw [List.foldl_cons, ih _ hbs, mem_orInsert, List.mem_cons]
    constructor
    · rintro ((hc | ⟨rfl, hc⟩) | ⟨hc, hno⟩)
      · exact .inl hc
      · exact .inr ⟨.inl rfl, hc⟩
      · exact .inr ⟨.inr hc, fun h => hno ((hnames c hc).mpr h)⟩
    · rintro (hc | ⟨rfl | hc, hno⟩)
      · exact .inl (.inl hc)
      · exact .inl (.inr ⟨rfl, hno⟩)
      · exact .inr ⟨hc, fun h => hno ((hnames c hc).mp h)⟩

theorem mem_mergedWith {defaults : UniformMap F}
    (hd : defaults.entries.Perm (defaultShadertoyBindings : UniformMap F).entries)
    (raw : List Char) (uniforms : UniformMap F) (b : Binding F) :
    b ∈ (mergedWith defaults raw uniforms).entries ↔ b ∈ uniforms.entries ∨
      isShadertoyShape raw = true ∧ b ∈ (defaultShadertoyBindings : UniformMap F).entries ∧
        b.1 ∉ uniforms.entries.map Prod.fst := by
  unfold mergedWith
  by_cases h : isShadertoyShape raw = true
  · rw [if_pos h, mem_foldl_orInsert _ _ defaults.nodup, hd.mem_iff]
    simp [h]
  · rw [if_neg h]
    simp [h]

theorem sortedBindings_perm (m : UniformMap F) : (sortedBindings m).Perm m.entries :=
  List.mergeSort_perm _ _

theorem sortedBindings_sorted (m : UniformMap F) : (sortedBindings m).Pairwise (·.1 < ·.1) := by
  have hle : (sortedBindings m).Pairwise fun a b => decide (a.1 ≤ b.1) = true := by
    refine List.pairwise_mergeSort (fun a b c hab hbc => ?_) (fun a b => ?_) _
    · rw [decide_eq_true_eq] at *
      exact le_trans hab hbc
    · simpa using le_total a.1 b.1
  have hne : (sortedBindings m).Pairwise fun a b => a.1 ≠ b.1 :=
    List.pairwise_map.mp ((sortedBindings_perm m).map Prod.fst |>.nodup_iff.mpr m.nodup)
  exact (hle.and hne).imp fun {a b} h => lt_of_le_of_ne (of_decide_eq_true h.1) h.2

/-- The bindings that come of the maps, in whatever order these iterate. -/
theorem sortedBindings_resolved {defaults merged : UniformMap F} {raw : List Char}
    {uniforms : UniformMap F}
    (hd : defaults.entries.Perm (defaultShadertoyBindings : UniformMap F).entries)
    (hm : merged.entries.Perm (mergedWith defaults raw uniforms).entries) :
    Resolved raw uniforms (sortedBindings merged) where
  sorted := sortedBindings_sorted _
  mem_iff b := (sortedBindings_perm _).mem_iff.trans <|
    hm.mem_iff.trans (mem_mergedWith hd raw uniforms b)

theorem new_resolved (raw : List Char) (uniforms : UniformMap F) (now : Nat) :
    Resolved raw uniforms (ShaderBackend.new raw uniforms now).bindings :=
  sortedBindings_resolved (.refl _) (.refl _)

/-- They do not depend on the order in which the map iterates. -/
theorem Resolved.unique {raw : List Char} {u u' : UniformMap F} {bs bs' : List (Binding F)}
    (h : Resolved raw u bs) (h' : Resolved raw u' bs') (hu : u.entries.Perm u'.entries) :
    bs = bs' := by
  have hnodup : ∀ {bs : List (Binding F)}, bs.Pairwise (·.1 < ·.1) → bs.Nodup :=
    fun hs => hs.imp fun hlt heq => absurd (heq ▸ hlt) (lt_irrefl _)
  have hperm : bs.Perm bs' := by
    refine (List.perm_ext_iff_of_nodup (hnodup h.sorted) (hnodup h'.sorted)).mpr fun b => ?_
    rw [h.mem_iff, h'.mem_iff, hu.mem_iff, (hu.map Prod.fst).mem_iff]
  exact hperm.eq_of_pairwise (fun a b _ _ hab hba => absurd (hab.trans hba) (lt_irrefl _))
    h.sorted h'.sorted

/-- **The bindings of a shader** are those of the user, each name once; a shader of Shadertoy's shape
has the five of Shadertoy besides, but for the names that the user has. They are in the order of
their names, in whatever order the maps iterate: that of the user, that of the defaults, and the one
that the two are merged into. -/
theorem bindings_resolved (raw : List Char) (uniforms : UniformMap F) (now : Nat) :
    let bs := (ShaderBackend.new raw uniforms now).bindings
    Resolved raw uniforms bs ∧ ∀ uniforms' : UniformMap F,
      uniforms'.entries.Perm uniforms.entries →
        (ShaderBackend.new raw uniforms' now).bindings = bs ∧
        ∀ defaults merged : UniformMap F,
          defaults.entries.Perm (defaultShadertoyBindings : UniformMap F).entries →
          merged.entries.Perm (mergedWith defaults raw uniforms').entries →
            sortedBindings merged = bs := by
  have hnew := new_resolved raw uniforms now
  refine ⟨hnew, fun uniforms' h => ⟨(new_resolved raw uniforms' now).unique hnew h, ?_⟩⟩
  exact fun defaults merged hd hm => (sortedBindings_resolved hd hm).unique hnew h

/-! ## Runs -/

/-- A call of the backend. -/
inductive Call (F : Type) where
  | notify (now : Nat) (eventName : String) (value : F)
  | render (now : Nat) (w h : Int)

/-- What comes of a call: an event with the uniforms it was written to, or a frame. -/
inductive Seen (F : Type) where
  | fired (now : Nat) (eventName : String) (value : F) (written : List String)
  | frame (now : Nat) (w h : Int) (uniforms : List (String × UniformValue F))
  deriving DecidableEq, Repr

def ShaderBackend.step (s : ShaderBackend F) : Call F → ShaderBackend F × List (Seen F)
  | .notify now eventName value =>
    let r := s.notifyEvent ops now eventName value
    (r.1, [.fired now eventName value r.2])
  | .render now w h =>
    let r := s.renderElement ops now w h
    (r.1, [.frame now w h r.2])

/-! ## What a frame is to show -/

/-- The uniform is the time of the event. -/
def UniformBinding.readsTime (eventName : String) : UniformBinding F → Bool
  | .eventTime event => event = eventName
  | _ => false

/-- The uniform is the value of the event. -/
def UniformBinding.readsValue (eventName : String) : UniformBinding F → Bool
  | .eventValue event => event = eventName
  | _ => false

/-- The uniforms that are about an event. -/
def watchers (bindings : List (Binding F)) (eventName : String) : List String :=
  (bindings.filter fun b => b.2.readsTime eventName || b.2.readsValue eventName).map Prod.fst

/-- The time and the value of an event. -/
def Seen.firing (event : String) : Seen F → Option (Nat × F)
  | .fired now eventName value _ => if eventName = event then some (now, value) else none
  | .frame .. => none

/-- The time of a frame. -/
def Seen.frameTime : Seen F → Option Nat
  | .fired .. => none
  | .frame now .. => some now

/-- When an event was last fired, and with which value. -/
def lastFired (event : String) (tr : List (Seen F)) : Option (Nat × F) :=
  tr.reverse.findSome? (Seen.firing event)

/-- The time of the last frame, or of the start. -/
def lastFrameTime (start : Nat) (tr : List (Seen F)) : Nat :=
  (tr.reverse.findSome? Seen.frameTime).getD start

/-- How many frames there were. -/
def frameCount (tr : List (Seen F)) : Nat := (tr.filterMap Seen.frameTime).length

/-- The value of a uniform in a frame, after everything before it. -/
def valueAt (start : Nat) (pre : List (Seen F)) (now : Nat) (w h : Int) :
    UniformBinding F → UniformValue F
  | .autoTime => .f1 (ops.asSecs (now - start))
  | .autoResolution => .f3 (ops.ofI32 w) (ops.ofI32 h) ops.one
  | .autoFrame => .i1 (min (frameCount pre) i32Max : Nat)
  | .autoDelta => .f1 (ops.asSecs (now - lastFrameTime start pre))
  | .autoMouse => .f4 ops.zero ops.zero ops.zero ops.zero
  | .static v => staticToUniformValue v
  | .eventTime event =>
    .f1 (match lastFired event pre with
      | some (t, _) => ops.asSecs (t - start)
      | none => ops.minusOne)
  | .eventValue event =>
    .f1 (match lastFired event pre with
      | some (_, v) => v
      | none => ops.zero)

/-- What comes of a call is right after everything before it. -/
def SeenOk (bindings : List (Binding F)) (start : Nat) (pre : List (Seen F)) : Seen F → Prop
  | .fired _ eventName _ written => written = watchers bindings eventName
  | .frame now w h uniforms =>
    (uniforms = bindings.map fun b => (b.1, valueAt ops start pre now w h b.2)) ∧
      uniforms.map (fun u => (u.1, u.2.type)) = ShaderBackend.uniformNames bindings

/-- A uniform has the type that the program is compiled with. -/
theorem valueAt_type (start : Nat) (pre : List (Seen F)) (now : Nat) (w h : Int)
    (b : UniformBinding F) : (valueAt ops start pre now w h b).type = uniformTypeFor b := by
  cases b with
  | static v => cases v <;> rfl
  | _ => rfl

/-! ## The tables of the events -/

section Tables

variable (eventName : String) (time value : F)

theorem applyEvent_written (bs : List (Binding F)) : ∀ times values,
    (applyEvent eventName time value bs times values).2 = watchers bs eventName := by
  induction bs with
  | nil => exact fun times values => rfl
  | cons b bs ih =>
    intro times values
    obtain ⟨uniform, b⟩ := b
    cases b with
    | eventTime event =>
      by_cases h : event = eventName
      · simp [applyEvent, watchers, UniformBinding.readsTime, UniformBinding.readsValue, h,
          ih]
      · simp [applyEvent, watchers, UniformBinding.readsTime, UniformBinding.readsValue, h,
          ih]
    | eventValue event =>
      by_cases h : event = eventName
      · simp [applyEvent, watchers, UniformBinding.readsTime, UniformBinding.readsValue, h,
          ih]
      · simp [applyEvent, watchers, UniformBinding.readsTime, UniformBinding.readsValue, h,
          ih]
    | _ => simp [applyEvent, watchers, UniformBinding.readsTime, UniformBinding.readsValue, ih]

theorem insert_self (m : EventMap F) (x : F) :
    (m.insert eventName x).insert eventName x = m.insert eventName x := by
  funext e
  unfold EventMap.insert
  by_cases h : e = eventName
  · simp [h]
  · simp [h]

/-- The tables after an event, which is written once if any uniform is about it. -/
theorem applyEvent_tables (bs : List (Binding F)) : ∀ times values,
    (applyEvent eventName time value bs times values).1 =
      (if bs.any (·.2.readsTime eventName) then times.insert eventName time else times,
       if bs.any (·.2.readsValue eventName) then values.insert eventName value else values) := by
  induction bs with
  | nil => exact fun times values => rfl
  | cons b bs ih =>
    intro times values
    obtain ⟨uniform, b⟩ := b
    rw [List.any_cons, List.any_cons]
    generalize bs.any (·.2.readsTime eventName) = t at ih ⊢
    generalize bs.any (·.2.readsValue eventName) = v at ih ⊢
    cases b with
    | eventTime event =>
      by_cases h : event = eventName
      · simp [applyEvent, ih, UniformBinding.readsTime, UniformBinding.readsValue, h, insert_self]
      · simp [applyEvent, ih, UniformBinding.readsTime, UniformBinding.readsValue, h]
    | eventValue event =>
      by_cases h : event = eventName
      · simp [applyEvent, ih, UniformBinding.readsTime, UniformBinding.readsValue, h, insert_self]
      · simp [applyEvent, ih, UniformBinding.readsTime, UniformBinding.readsValue, h]
    | _ => simp [applyEvent, ih, UniformBinding.readsTime, UniformBinding.readsValue]

/-- A table after an event, read for a uniform that is about some event. -/
theorem read_table {p : Binding F → Bool} {bs : List (Binding F)} {m : EventMap F} {event : String}
    (hp : event = eventName → bs.any p = true) (x : F) :
    (if bs.any p then m.insert eventName x else m) event =
      (if eventName = event then some x else none).or (m event) := by
  by_cases he : event = eventName
  · simp [hp he, he, EventMap.insert]
  · rw [if_neg (Ne.symm he), Option.none_or]
    split
    · exact if_neg he
    · rfl

end Tables

/-! ## Every frame -/

theorem lastFired_snoc (event : String) (tr : List (Seen F)) (e : Seen F) :
    lastFired event (tr ++ [e]) = (e.firing event).or (lastFired event tr) := by
  simp [lastFired, List.findSome?_cons]
  cases e.firing event <;> rfl

theorem lastFrameTime_snoc (start : Nat) (tr : List (Seen F)) (e : Seen F) :
    lastFrameTime start (tr ++ [e]) = e.frameTime.getD (lastFrameTime start tr) := by
  simp [lastFrameTime, List.findSome?_cons]
  cases e.frameTime <;> rfl

theorem frameCount_snoc (tr : List (Seen F)) (e : Seen F) :
    frameCount (tr ++ [e]) = frameCount tr + e.frameTime.toList.length := by
  rw [frameCount, List.filterMap_append, List.length_append]
  cases e <;> rfl

/-- What the backend keeps says of what happened so far. -/
structure Reflects (bindings : List (Binding F)) (start : Nat) (s : ShaderBackend F)
    (tr : List (Seen F)) : Prop where
  bindings_eq : s.bindings = bindings
  frameStart_eq : s.frameStart = start
  lastFrame_eq : s.lastFrame = lastFrameTime start tr
  frameCounter_eq : s.frameCounter = min (frameCount tr) u64Max
  times_eq : ∀ uniform event, (uniform, .eventTime event) ∈ bindings →
    s.eventTimes event = (lastFired event tr).map fun r => ops.asSecs (r.1 - start)
  values_eq : ∀ uniform event, (uniform, .eventValue event) ∈ bindings →
    s.eventValues event = (lastFired event tr).map (·.2)

variable {ops}

theorem Reflects.notify {bindings : List (Binding F)} {start : Nat} {s : ShaderBackend F}
    {tr : List (Seen F)} (h : Reflects ops bindings start s tr) (now : Nat) (eventName : String)
    (value : F) : Reflects ops bindings start (s.step ops (.notify now eventName value)).1
      (tr ++ (s.step ops (.notify now eventName value)).2) ∧
    Always (fun pre => SeenOk ops bindings start (tr ++ pre))
      (s.step ops (.notify now eventName value)).2 := by
  simp only [ShaderBackend.step, ShaderBackend.notifyEvent, h.bindings_eq, h.frameStart_eq,
    applyEvent_tables]
  refine ⟨⟨rfl, rfl, ?_, ?_, fun uniform event hmem => ?_, fun uniform event hmem => ?_⟩, ?_⟩
  · rw [lastFrameTime_snoc]
    exact h.lastFrame_eq
  · rw [frameCount_snoc]
    exact h.frameCounter_eq
  · have hany : event = eventName → bindings.any (·.2.readsTime eventName) = true := fun he =>
      List.any_eq_true.mpr ⟨_, hmem, by simp [UniformBinding.readsTime, he]⟩
    dsimp only
    rw [read_table eventName hany, lastFired_snoc, Option.map_or, h.times_eq uniform event hmem,
      Seen.firing]
    split <;> rfl
  · have hany : event = eventName → bindings.any (·.2.readsValue eventName) = true := fun he =>
      List.any_eq_true.mpr ⟨_, hmem, by simp [UniformBinding.readsValue, he]⟩
    dsimp only
    rw [read_table eventName hany, lastFired_snoc, Option.map_or, h.values_eq uniform event hmem,
      Seen.firing]
    split <;> rfl
  · rw [always_singleton]
    exact applyEvent_written _ _ _ _ _ _

theorem Reflects.uniforms {bindings : List (Binding F)} {start : Nat} {s : ShaderBackend F}
    {tr : List (Seen F)} (h : Reflects ops bindings start s tr) (now : Nat) (w h' : Int) :
    (s.renderElement ops now w h').2 =
      bindings.map fun b => (b.1, valueAt ops start tr now w h' b.2) := by
  have hle : i32Max ≤ u64Max := by decide
  simp only [ShaderBackend.renderElement, ShaderBackend.currentUniforms, h.bindings_eq,
    h.frameStart_eq, h.lastFrame_eq, h.frameCounter_eq]
  refine List.map_congr_left fun b hb => ?_
  obtain ⟨uniform, b⟩ := b
  cases b with
  | autoFrame =>
    have hmin : min (min (frameCount tr) u64Max) i32Max = min (frameCount tr) i32Max := by omega
    simp only [valueAt, hmin]
  | eventTime event =>
    simp only [resolveEventTime, h.times_eq uniform event hb, valueAt]
    cases lastFired event tr <;> rfl
  | eventValue event =>
    simp only [resolveEventValue, h.values_eq uniform event hb, valueAt]
    cases lastFired event tr <;> rfl
  | _ => rfl

theorem Reflects.render {bindings : List (Binding F)} {start : Nat} {s : ShaderBackend F}
    {tr : List (Seen F)} (h : Reflects ops bindings start s tr) (now : Nat) (w h' : Int) :
    Reflects ops bindings start (s.step ops (.render now w h')).1
      (tr ++ (s.step ops (.render now w h')).2) ∧
    Always (fun pre => SeenOk ops bindings start (tr ++ pre))
      (s.step ops (.render now w h')).2 := by
  have huniforms := h.uniforms now w h'
  simp only [ShaderBackend.step]
  refine ⟨⟨h.bindings_eq, h.frameStart_eq, ?_, ?_, fun uniform event hmem => ?_,
    fun uniform event hmem => ?_⟩, ?_⟩
  · rw [lastFrameTime_snoc]
    rfl
  · have hcount := frameCount_snoc tr (.frame now w h' (s.renderElement ops now w h').2)
    simp only [Seen.frameTime, Option.toList_some, List.length_singleton] at hcount
    rw [hcount]
    simp only [ShaderBackend.renderElement, h.frameCounter_eq]
    omega
  · rw [lastFired_snoc]
    exact h.times_eq uniform event hmem
  · rw [lastFired_snoc]
    exact h.values_eq uniform event hmem
  · rw [always_singleton, List.append_nil]
    refine ⟨huniforms, ?_⟩
    rw [huniforms, List.map_map]
    exact List.map_congr_left fun b _ => Prod.ext rfl (valueAt_type ops start tr now w h' b.2)

/-- **What a shader is told.** On every run, an event is written to the uniforms that are about it,
and a frame shows what `valueAt` says of the frames and the events before it, in the types that the
program is compiled with. -/
theorem shader_frames (ops : F32 F) (raw : List Char) (uniforms : UniformMap F) (start : Nat)
    (calls : List (Call F)) :
    let s := ShaderBackend.new raw uniforms start
    Always (SeenOk ops s.bindings start) (run (ShaderBackend.step ops) s calls).2 := by
  intro s
  refine (run_invariant_init
    (fun s' tr => Reflects ops s.bindings start s' tr ∧ Always (SeenOk ops s.bindings start) tr)
    ⟨⟨rfl, rfl, rfl, rfl, fun _ _ _ => rfl, fun _ _ _ => rfl⟩, always_nil _⟩ ?_ calls).2
  rintro s' tr call ⟨hs, htr⟩
  cases call with
  | notify now eventName value =>
    have hstep := hs.notify now eventName value
    exact ⟨hstep.1, htr.append hstep.2⟩
  | render now w h =>
    have hstep := hs.render now w h
    exact ⟨hstep.1, htr.append hstep.2⟩

end Halmasuit.Wallpaper.Shader
