import Halmasuit.Broker.Relay
import Mathlib.Data.List.Perm.Basic

/-!
# The PAM conversation callback

`halmasuit-session/src/pam_ffi.rs` 185–348, with `conv.rs` and the `ChannelResponder` of
`responder.rs`: `conv_trampoline`, which libpam calls with a list of messages. It allocates an
array of responses, one slot a message, puts each message to a `ConvResponder` and copies the
answers of the prompts into the slots. On success the array is libpam's to free; on failure
`rollback_resp_array` frees what was allocated so far.

- A pointer may be null: a message, a text, an out-pointer. A text is bytes, read lossily.
- What the allocator and the responder do is a parameter. A responder is any machine: a call
  answers, fails or panics. A panic unwinds to `catch_unwind` and goes past the rollback.
- An allocation is named by what it is for, the array or the string of a slot; it is made at most
  once in a call.

Results:

- `fill_contract_iff`: the loop, from any index, by the `Progress` of what came before;
- **`contract_iff`**: the call keeps its contract exactly when the responder does not panic;
- `channel_contract`: the `ChannelResponder` keeps it as long as its trace lines can be written.
-/

namespace Halmasuit.Session.PamConv

open Halmasuit.Lib
open Halmasuit.Broker (TransportError send)
open Halmasuit.SessionIpc

/-! ## Messages -/

/-- The continuation bytes of a UTF-8 sequence, by its first byte: their number, and the range of
the first of them. -/
def continuation (b : UInt8) : Option (Nat × UInt8 × UInt8) :=
  if 0xc2 ≤ b ∧ b ≤ 0xdf then some (1, 0x80, 0xbf)
  else if b = 0xe0 then some (2, 0xa0, 0xbf)
  else if b = 0xed then some (2, 0x80, 0x9f)
  else if 0xe1 ≤ b ∧ b ≤ 0xef then some (2, 0x80, 0xbf)
  else if b = 0xf0 then some (3, 0x90, 0xbf)
  else if 0xf1 ≤ b ∧ b ≤ 0xf3 then some (3, 0x80, 0xbf)
  else if b = 0xf4 then some (3, 0x80, 0x8f)
  else none

/-- How many of `k` continuation bytes stand at the front, the first of them from `lo` to `hi`. -/
def continued : Nat → UInt8 → UInt8 → List UInt8 → Nat
  | k + 1, lo, hi, b :: bs => if lo ≤ b ∧ b ≤ hi then 1 + continued k 0x80 0xbf bs else 0
  | _, _, _, _ => 0

/-- `CStr::to_string_lossy`: what is not UTF-8 is replaced by U+FFFD, a longest part of a sequence
at a time. `fuel` bounds the characters. -/
def lossyChars : Nat → List UInt8 → List Char
  | fuel + 1, b :: bs =>
    if b < 0x80 then Char.ofNat b.toNat :: lossyChars fuel bs
    else
      match continuation b with
      | none => Char.ofNat 0xfffd :: lossyChars fuel bs
      | some (k, lo, hi) =>
        if continued k lo hi bs = k then
          Char.ofNat ((bs.take k).foldl (fun n c => 64 * n + c.toNat % 64)
            (b.toNat % 2 ^ (6 - k))) :: lossyChars fuel (bs.drop k)
        else Char.ofNat 0xfffd :: lossyChars fuel (bs.drop (continued k lo hi bs))
  | _, _ => []

def toStringLossy (bs : List UInt8) : String := String.ofList (lossyChars bs.length bs)

example : toStringLossy [0x70, 0xff, 0xc3, 0xa9, 0xe2, 0x82] = "p\uFFFDé\uFFFD" := by decide

/-- `pam_message`: its style, and its text, which may be null. -/
structure PamMessage where
  msgStyle : Int32
  msg : Option (List UInt8)
  deriving DecidableEq, Repr

/-- The text of a message, empty where there is none. -/
def PamMessage.text (m : PamMessage) : String := (m.msg.map toStringLossy).getD ""

/-- `MessageKind`. -/
inductive MessageKind where
  | prompt (style : PromptStyle) (message : String)
  | display (style : DisplayStyle) (message : String)
  deriving DecidableEq, Repr

/-- `ConvError`. -/
inductive ConvError where
  | unknownStyle (style : Int32)
  deriving DecidableEq, Repr

/-- `message_from_pam`. -/
def messageFromPam (msgStyle : Int32) (message : String) : Except ConvError MessageKind :=
  if msgStyle = 1 then .ok (.prompt .secret message)
  else if msgStyle = 2 then .ok (.prompt .visible message)
  else if msgStyle = 3 then .ok (.display .error message)
  else if msgStyle = 4 then .ok (.display .info message)
  else .error (.unknownStyle msgStyle)

def MessageKind.isPrompt : MessageKind → Bool
  | .prompt _ _ => true
  | .display _ _ => false

/-- What libpam asks by a message pointer: nothing where it is null or of no known style. -/
def kind? : Option PamMessage → Option MessageKind
  | none => none
  | some m => (messageFromPam m.msgStyle m.text).toOption

/-! ## The responder and the heap -/

/-- How a call of the responder ends. -/
inductive Answer (α : Type) where
  | ok (a : α)
  | error
  | panic
  deriving DecidableEq, Repr

/-- `ConvResponder`: any machine with the two calls. -/
structure ConvResponder (σ : Type) where
  respond : σ → PromptStyle → String → Answer String × σ
  display : σ → DisplayStyle → String → Answer Unit × σ

/-- What was allocated. -/
inductive Allocation where
  | array
  | string (slot : Nat)
  deriving DecidableEq, Repr

/-- Which allocations of the call succeed: that of the array, and that of the string of a slot. -/
structure Allocator where
  calloc : Bool
  strdup : Nat → Bool

/-- A C string on the heap, without its trailing NUL. -/
structure CString where
  alloc : Allocation
  bytes : List UInt8
  deriving DecidableEq, Repr

/-- What the call did, in order. -/
inductive ConvEvent where
  | alloc (a : Allocation)
  | free (a : Allocation)
  | asked (style : PromptStyle) (message : String) (answer : Answer String)
  | shown (style : DisplayStyle) (message : String) (answer : Answer Unit)
  deriving DecidableEq, Repr

/-- `PAM_SUCCESS`, `PAM_BUF_ERR`, `PAM_CONV_ERR`. -/
def pamSuccess : Int32 := 0
def pamBufErr : Int32 := 5
def pamConvErr : Int32 := 19

/-- A finished call: its status, the array published to libpam, what it did. -/
structure Called (σ : Type) where
  status : Int32
  resp : Option (List (Option CString))
  events : List ConvEvent
  responder : σ

/-- Where the loop stands: the responder, the slots of the array, what was done. -/
structure Loop (σ : Type) where
  responder : σ
  slots : List (Option CString)
  events : List ConvEvent

/-- `rollback_resp_array`. -/
def rollbackRespArray (slots : List (Option CString)) (count : Nat) : List ConvEvent :=
  ((slots.take count).filterMap fun slot => slot.map fun s => .free s.alloc) ++ [.free .array]

variable {σ : Type}

/-- Roll back `count` slots and return the status. -/
def Loop.fail (st : Loop σ) (count : Nat) (status : Int32) : Called σ :=
  ⟨status, none, st.events ++ rollbackRespArray st.slots count, st.responder⟩

section
variable (R : ConvResponder σ) (A : Allocator)

/-- The loop of `conv_trampoline` from slot `i` on. -/
def fill : Nat → List (Option PamMessage) → Loop σ → Called σ
  | _, [], st => ⟨pamSuccess, some st.slots, st.events, st.responder⟩
  | i, none :: _, st => st.fail i pamConvErr
  | i, some m :: msgs, st =>
    match messageFromPam m.msgStyle m.text with
    | .error _ => st.fail i pamConvErr
    | .ok (.prompt style message) =>
      let (answer, s) := R.respond st.responder style message
      let st : Loop σ := ⟨s, st.slots, st.events ++ [.asked style message answer]⟩
      match answer with
      | .panic => ⟨pamConvErr, none, st.events, st.responder⟩
      | .error => st.fail i pamConvErr
      | .ok secret =>
        if 0 ∈ Json.utf8 secret then st.fail i pamConvErr
        else if A.strdup i then
          fill (i + 1) msgs ⟨st.responder, st.slots.set i (some ⟨.string i, Json.utf8 secret⟩),
            st.events ++ [.alloc (.string i)]⟩
        else st.fail i pamBufErr
    | .ok (.display style message) =>
      let (answer, s) := R.display st.responder style message
      let st : Loop σ := ⟨s, st.slots, st.events ++ [.shown style message answer]⟩
      match answer with
      | .panic => ⟨pamConvErr, none, st.events, st.responder⟩
      | .error => st.fail i pamConvErr
      | .ok () => fill (i + 1) msgs st

/-- The arguments of the callback: the messages, and which pointers are null. -/
structure Args where
  messages : List (Option PamMessage)
  msgNull : Bool
  respNull : Bool
  appdataNull : Bool

/-- The guard at the head of `conv_trampoline`. -/
def Args.Valid (a : Args) : Prop :=
  a.messages ≠ [] ∧ a.msgNull = false ∧ a.respNull = false ∧ a.appdataNull = false

instance (a : Args) : Decidable a.Valid := by unfold Args.Valid; infer_instance

/-- `conv_trampoline`. -/
def convTrampoline (s : σ) (a : Args) : Called σ :=
  if a.Valid then
    if A.calloc then
      fill R A 0 a.messages ⟨s, List.replicate a.messages.length none, [.alloc .array]⟩
    else ⟨pamBufErr, none, [], s⟩
  else ⟨pamConvErr, none, [], s⟩

end

/-! ## The contract -/

def allocated (es : List ConvEvent) : List Allocation :=
  es.filterMap fun
    | .alloc a => some a
    | _ => none

def freed (es : List ConvEvent) : List Allocation :=
  es.filterMap fun
    | .free a => some a
    | _ => none

/-- What the responder was asked, in order. -/
def questions (es : List ConvEvent) : List MessageKind :=
  es.filterMap fun
    | .asked style message _ => some (.prompt style message)
    | .shown style message _ => some (.display style message)
    | _ => none

/-- What it answered, in the same order: the bytes of a secret, and nothing to a display message. -/
def answers (es : List ConvEvent) : List (Option (List UInt8)) :=
  es.filterMap fun
    | .asked _ _ (.ok secret) => some (some (Json.utf8 secret))
    | .asked _ _ _ => some none
    | .shown _ _ _ => some none
    | _ => none

/-- An array as libpam may have it: every message was put to the responder in order; a slot for each,
filled exactly for the prompts, with the answer as a C string; and everything allocated is in it. -/
structure Filled (msgs : List (Option PamMessage)) (slots : List (Option CString))
    (es : List ConvEvent) : Prop where
  length : slots.length = msgs.length
  asked : msgs.map kind? = (questions es).map some
  prompts : slots.map Option.isSome = (questions es).map MessageKind.isPrompt
  answers : slots.map (Option.map CString.bytes) = answers es
  noNul : ∀ s : CString, some s ∈ slots → 0 ∉ s.bytes
  owned : allocated es = .array :: slots.filterMap (Option.map CString.alloc)
  distinct : (allocated es).Nodup
  kept : freed es = []

/-- **The contract of the callback.** On success the array is published and is `Filled`; on failure
nothing is published, and what was allocated is freed, each allocation once. -/
structure Called.Contract (c : Called σ) (msgs : List (Option PamMessage)) : Prop where
  success : c.status = pamSuccess → ∃ slots, c.resp = some slots ∧ Filled msgs slots c.events
  failure : c.status ≠ pamSuccess → c.resp = none ∧ (allocated c.events).Nodup ∧
    (freed c.events).Perm (allocated c.events)

section
variable (R : ConvResponder σ) (A : Allocator)

/-- The responder panics at one of the messages from slot `i` on, each of those before it being
answered, without NUL, and copied. -/
def PanicsFrom : Nat → List (Option PamMessage) → σ → Prop
  | _, [], _ => False
  | _, none :: _, _ => False
  | i, some m :: msgs, s =>
    match messageFromPam m.msgStyle m.text with
    | .error _ => False
    | .ok (.prompt style message) =>
      match R.respond s style message with
      | (.panic, _) => True
      | (.error, _) => False
      | (.ok secret, s) => 0 ∉ Json.utf8 secret ∧ A.strdup i = true ∧ PanicsFrom (i + 1) msgs s
    | .ok (.display style message) =>
      match R.display s style message with
      | (.panic, _) => True
      | (.error, _) => False
      | (.ok (), s) => PanicsFrom (i + 1) msgs s

/-- The responder panics in the call. -/
def Panics (s : σ) (a : Args) : Prop :=
  a.Valid ∧ A.calloc = true ∧ PanicsFrom R A 0 a.messages s

end

/-! ## The loop -/

/-- Where the loop stands after the messages `done` of `n`: their slots are filled, the others are
still zeroed. -/
structure Progress (done : List (Option PamMessage)) (n : Nat) (st : Loop σ)
    (filled : List (Option CString)) : Prop where
  slots : st.slots = filled ++ List.replicate (n - done.length) none
  filled : Filled done filled st.events
  /-- The strings are those of the slots before this one. -/
  before : ∀ a ∈ allocated st.events, a = .array ∨ ∃ j < done.length, a = .string j

@[simp] theorem allocated_append (es es' : List ConvEvent) :
    allocated (es ++ es') = allocated es ++ allocated es' := List.filterMap_append
@[simp] theorem freed_append (es es' : List ConvEvent) :
    freed (es ++ es') = freed es ++ freed es' := List.filterMap_append
@[simp] theorem questions_append (es es' : List ConvEvent) :
    questions (es ++ es') = questions es ++ questions es' := List.filterMap_append
@[simp] theorem answers_append (es es' : List ConvEvent) :
    answers (es ++ es') = answers es ++ answers es' := List.filterMap_append

section
variable (style : PromptStyle) (dstyle : DisplayStyle) (message secret : String)
  (answer : Answer String) (danswer : Answer Unit) (a : Allocation) (es : List ConvEvent)

@[simp] theorem allocated_nil : allocated [] = [] := rfl
@[simp] theorem allocated_alloc : allocated (.alloc a :: es) = a :: allocated es := rfl
@[simp] theorem allocated_free : allocated (.free a :: es) = allocated es := rfl
@[simp] theorem allocated_asked :
    allocated (.asked style message answer :: es) = allocated es := rfl
@[simp] theorem allocated_shown :
    allocated (.shown dstyle message danswer :: es) = allocated es := rfl
@[simp] theorem freed_nil : freed [] = [] := rfl
@[simp] theorem freed_alloc : freed (.alloc a :: es) = freed es := rfl
@[simp] theorem freed_free : freed (.free a :: es) = a :: freed es := rfl
@[simp] theorem freed_asked : freed (.asked style message answer :: es) = freed es := rfl
@[simp] theorem freed_shown : freed (.shown dstyle message danswer :: es) = freed es := rfl
@[simp] theorem questions_nil : questions [] = [] := rfl
@[simp] theorem questions_alloc : questions (.alloc a :: es) = questions es := rfl
@[simp] theorem questions_asked :
    questions (.asked style message answer :: es) = .prompt style message :: questions es := rfl
@[simp] theorem questions_shown :
    questions (.shown dstyle message danswer :: es) = .display dstyle message :: questions es := rfl
@[simp] theorem answers_nil : answers [] = [] := rfl
@[simp] theorem answers_alloc : answers (.alloc a :: es) = answers es := rfl
@[simp] theorem answers_asked :
    answers (.asked style message (.ok secret) :: es) = some (Json.utf8 secret) :: answers es := rfl
@[simp] theorem answers_shown :
    answers (.shown dstyle message danswer :: es) = none :: answers es := rfl

end

/-- What a rollback frees. -/
theorem freed_rollback (slots : List (Option CString)) (count : Nat) :
    freed (rollbackRespArray slots count)
      = (slots.take count).filterMap (Option.map CString.alloc) ++ [Allocation.array] := by
  simp only [rollbackRespArray, freed_append, freed_free, freed_nil]
  congr 1
  induction slots.take count with
  | nil => rfl
  | cons slot slots ih => cases slot <;> simp [ih]

theorem allocated_rollback (slots : List (Option CString)) (count : Nat) :
    allocated (rollbackRespArray slots count) = [] := by
  simp only [rollbackRespArray, allocated_append, allocated_free, allocated_nil, List.append_nil]
  induction slots.take count with
  | nil => rfl
  | cons slot slots ih => cases slot <;> simp [ih]

theorem Progress.take {done : List (Option PamMessage)} {n : Nat} {st : Loop σ}
    {filled : List (Option CString)} (h : Progress done n st filled) :
    st.slots.take done.length = filled := by
  rw [h.slots, List.take_append_of_le_length (Nat.le_of_eq h.filled.length.symm)]
  exact List.take_of_length_le (Nat.le_of_eq h.filled.length)

/-- **A rollback keeps the contract**: the slots filled so far and the array are freed, once
each, also when the responder was asked once more. -/
theorem fail_contract {done msgs : List (Option PamMessage)} {n : Nat} {st : Loop σ}
    {filled : List (Option CString)} (h : Progress done n st filled) {status : Int32}
    (hs : status ≠ pamSuccess) (s : σ) {es : List ConvEvent} (ha : allocated es = [])
    (hf : freed es = []) :
    ((⟨s, st.slots, st.events ++ es⟩ : Loop σ).fail done.length status).Contract msgs := by
  refine ⟨fun h' => absurd h' hs, fun _ => ⟨rfl, ?_, ?_⟩⟩
  · simp [Loop.fail, ha, allocated_rollback, h.filled.distinct]
  · -- the array was allocated before the strings and is freed after them
    simp [Loop.fail, ha, hf, allocated_rollback, freed_rollback, h.take, h.filled.kept,
      h.filled.owned]

/-- The slots after the first unfilled one is written, or left as it is. -/
theorem Progress.rest {done : List (Option PamMessage)} {n : Nat} {st : Loop σ}
    {filled : List (Option CString)} (h : Progress done n st filled) (hn : done.length < n) :
    st.slots = filled ++ none :: List.replicate (n - (done.length + 1)) none := by
  obtain ⟨k, hk⟩ : ∃ k, n - done.length = k + 1 := ⟨n - done.length - 1, by omega⟩
  have hk' : n - (done.length + 1) = k := by omega
  rw [h.slots, hk, hk', List.replicate_succ]

/-- A prompt answered and copied. -/
theorem Progress.prompt {done : List (Option PamMessage)} {n : Nat} {st : Loop σ}
    {filled : List (Option CString)} (h : Progress done n st filled) (hn : done.length < n)
    {m : PamMessage} {style : PromptStyle} {message secret : String}
    (hk : kind? (some m) = some (.prompt style message)) (hnul : 0 ∉ Json.utf8 secret) (s : σ) :
    Progress (done ++ [some m]) n
      ⟨s, st.slots.set done.length (some ⟨.string done.length, Json.utf8 secret⟩),
        st.events ++ [ConvEvent.asked style message (.ok secret)] ++
          [ConvEvent.alloc (.string done.length)]⟩
      (filled ++ [some ⟨.string done.length, Json.utf8 secret⟩]) := by
  have hf := h.filled
  have hlen : filled.length = done.length := hf.length
  have hnew : .string done.length ∉ allocated st.events := by
    intro hmem
    rcases h.before _ hmem with heq | ⟨j, hj, heq⟩
    · cases heq
    · cases heq
      omega
  refine ⟨?_, ⟨?_, ?_, ?_, ?_, ?_, ?_, ?_, ?_⟩, ?_⟩
  · rw [h.rest hn, ← hlen, List.set_append_right _ _ (Nat.le_refl _)]
    simp [hlen]
  · simp [hlen]
  · simp [hf.asked, hk]
  · simp [hf.prompts, MessageKind.isPrompt]
  · simp [hf.answers]
  · intro s' hs'
    rcases List.mem_append.mp hs' with hs' | hs'
    · exact hf.noNul s' hs'
    · obtain rfl : s' = ⟨.string done.length, Json.utf8 secret⟩ := by simpa using hs'
      exact hnul
  · simp [hf.owned]
  · simp only [allocated_append]
    refine List.nodup_append.mpr ⟨by simpa using hf.distinct, by simp, ?_⟩
    intro a ha b hb
    obtain rfl : b = .string done.length := by simpa using hb
    rintro rfl
    exact hnew (by simpa using ha)
  · simp [hf.kept]
  · intro a ha
    simp only [allocated_append, List.mem_append] at ha
    rcases ha with (ha | ha) | ha
    · rcases h.before a ha with rfl | ⟨j, hj, rfl⟩
      · exact .inl rfl
      · exact .inr ⟨j, by simp; omega, rfl⟩
    · simp at ha
    · exact .inr ⟨done.length, by simp, by simpa using ha⟩

/-- A message displayed; its slot stays zeroed. -/
theorem Progress.display {done : List (Option PamMessage)} {n : Nat} {st : Loop σ}
    {filled : List (Option CString)} (h : Progress done n st filled) (hn : done.length < n)
    {m : PamMessage} {style : DisplayStyle} {message : String}
    (hk : kind? (some m) = some (.display style message)) (s : σ) :
    Progress (done ++ [some m]) n
      ⟨s, st.slots, st.events ++ [ConvEvent.shown style message (.ok ())]⟩ (filled ++ [none]) := by
  have hf := h.filled
  have hlen : filled.length = done.length := hf.length
  refine ⟨?_, ⟨?_, ?_, ?_, ?_, ?_, ?_, ?_, ?_⟩, ?_⟩
  · rw [h.rest hn]
    simp
  · simp [hlen]
  · simp [hf.asked, hk]
  · simp [hf.prompts, MessageKind.isPrompt]
  · simp [hf.answers]
  · intro s' hs'
    exact hf.noNul s' (by simpa using hs')
  · simp [hf.owned]
  · simpa using hf.distinct
  · simp [hf.kept]
  · intro a ha
    have ha' : a ∈ allocated st.events := by simpa using ha
    rcases h.before a ha' with rfl | ⟨j, hj, rfl⟩
    · exact .inl rfl
    · exact .inr ⟨j, by simp; omega, rfl⟩

/-- A panic frees nothing. -/
theorem panic_contract {done msgs : List (Option PamMessage)} {n : Nat} {st : Loop σ}
    {filled : List (Option CString)} (h : Progress done n st filled) (s : σ) {es : List ConvEvent}
    (hf : freed es = []) :
    ¬ (⟨pamConvErr, none, st.events ++ es, s⟩ : Called σ).Contract msgs := by
  intro hc
  have hfail : pamConvErr ≠ pamSuccess := by decide
  have hperm := (hc.failure hfail).2.2.length_eq
  simp [hf, h.filled.kept, h.filled.owned] at hperm

/-- **The loop**, from any message on. -/
theorem fill_contract_iff (R : ConvResponder σ) (A : Allocator) (msgs : List (Option PamMessage)) :
    ∀ (done : List (Option PamMessage)) (n : Nat) (st : Loop σ) (filled : List (Option CString)),
      Progress done n st filled → n = done.length + msgs.length →
      ((fill R A done.length msgs st).Contract (done ++ msgs) ↔
        ¬ PanicsFrom R A done.length msgs st.responder) := by
  induction msgs with
  | nil =>
    intro done n st filled h hn
    have hslots : st.slots = filled := by
      rw [h.slots, hn]
      simp
    refine iff_of_true ⟨fun _ => ⟨filled, ?_, ?_⟩, fun hne => absurd rfl hne⟩ id
    · rw [fill, hslots]
    · rw [List.append_nil]
      exact h.filled
  | cons m msgs ih =>
    intro done n st filled h hn
    have hlt : done.length < n := by
      rw [hn, List.length_cons]
      omega
    have hfail {status : Int32} (hs : status ≠ pamSuccess) :
        (st.fail done.length status).Contract (done ++ m :: msgs) := by
      simpa using fail_contract h hs st.responder (rfl : allocated [] = []) rfl
    -- one message more is behind
    have hnext {st' : Loop σ} {filled' : List (Option CString)}
        (h' : Progress (done ++ [m]) n st' filled') :
        (fill R A (done.length + 1) msgs st').Contract (done ++ m :: msgs) ↔
          ¬ PanicsFrom R A (done.length + 1) msgs st'.responder := by
      have hstep := ih (done ++ [m]) n st' filled' h' (by
        rw [hn, List.length_append, List.length_cons, List.length_singleton]
        omega)
      simpa using hstep
    cases m with
    | none => exact iff_of_true (hfail (by decide)) id
    | some m =>
      cases hkind : messageFromPam m.msgStyle m.text with
      | error e =>
        simp only [fill, PanicsFrom, hkind]
        exact iff_of_true (hfail (by decide)) id
      | ok kind =>
        have hk : kind? (some m) = some kind := by simp [kind?, hkind, Except.toOption]
        cases kind with
        | prompt style message =>
          rcases hr : R.respond st.responder style message with ⟨answer, s⟩
          cases answer with
          | panic =>
            simp only [fill, PanicsFrom, hkind, hr]
            exact iff_of_false (panic_contract h s rfl) (fun hno => hno trivial)
          | error =>
            simp only [fill, PanicsFrom, hkind, hr]
            exact iff_of_true (fail_contract h (by decide) s rfl rfl) id
          | ok secret =>
            simp only [fill, PanicsFrom, hkind, hr]
            by_cases hnul : 0 ∈ Json.utf8 secret
            · rw [if_pos hnul]
              exact iff_of_true (fail_contract h (by decide) s rfl rfl) fun hp => hp.1 hnul
            rw [if_neg hnul]
            by_cases hdup : A.strdup done.length = true
            · rw [if_pos hdup, hnext (h.prompt hlt hk hnul s)]
              simp [hnul, hdup]
            · rw [if_neg hdup]
              exact iff_of_true (fail_contract h (by decide) s rfl rfl) fun hp => hdup hp.2.1
        | display style message =>
          rcases hr : R.display st.responder style message with ⟨answer, s⟩
          cases answer with
          | panic =>
            simp only [fill, PanicsFrom, hkind, hr]
            exact iff_of_false (panic_contract h s rfl) (fun hno => hno trivial)
          | error =>
            simp only [fill, PanicsFrom, hkind, hr]
            exact iff_of_true (fail_contract h (by decide) s rfl rfl) id
          | ok u =>
            simp only [fill, PanicsFrom, hkind, hr]
            exact hnext (h.display hlt hk s)

/-- The array as it was allocated. -/
theorem progress_new (n : Nat) (s : σ) :
    Progress [] n ⟨s, List.replicate n none, [.alloc .array]⟩ [] :=
  ⟨by simp, ⟨rfl, rfl, rfl, rfl, by simp, rfl, by simp, rfl⟩, by simp⟩

/-- **When the callback keeps its contract.** For every list of messages, every allocator and every
responder: exactly when the responder does not panic in the call. -/
theorem contract_iff (R : ConvResponder σ) (A : Allocator) (s : σ) (a : Args) :
    (convTrampoline R A s a).Contract a.messages ↔ ¬ Panics R A s a := by
  unfold convTrampoline Panics
  by_cases hv : a.Valid
  · rw [if_pos hv]
    by_cases hc : A.calloc = true
    · rw [if_pos hc]
      have h := fill_contract_iff R A a.messages [] a.messages.length _ []
        (progress_new a.messages.length s) (by simp)
      simpa [hv, hc] using h
    · rw [if_neg hc]
      have hfail : pamBufErr ≠ pamSuccess := by decide
      refine iff_of_true ⟨fun h => absurd h hfail, fun _ => ⟨rfl, ?_, ?_⟩⟩ fun h => hc h.2.1
      · exact List.nodup_nil
      · exact List.Perm.refl []
  · rw [if_neg hv]
    have hfail : pamConvErr ≠ pamSuccess := by decide
    refine iff_of_true ⟨fun h => absurd h hfail, fun _ => ⟨rfl, ?_, ?_⟩⟩ fun h => hv h.1
    · exact List.nodup_nil
    · exact List.Perm.refl []

/-! ## The responder on the broker's channel -/

/-- What becomes of the coming calls of a `ChannelResponder`: whether a trace line meets a closed
stderr (the trace being on), whether the kernel takes a datagram, what is received. -/
structure Channel where
  traceFails : List Bool
  sends : List (Except TransportError Unit)
  recvs : List (Except TransportError CompositorToBroker)
  deriving Repr

/-- `wire_trace::emit`: `eprintln!` panics where the line cannot be written. -/
def Channel.emit (ch : Channel) : Bool × Channel :=
  (ch.traceFails.headD false, { ch with traceFails := ch.traceFails.tail })

/-- `SeqpacketChannel::send`. -/
def Channel.send (ch : Channel) (frame : BrokerToCompositor) :
    Except TransportError Unit × Channel :=
  (Broker.send (ch.sends.headD (.error .closed)) frame.toVec, { ch with sends := ch.sends.tail })

/-- `SeqpacketChannel::recv`. -/
def Channel.recv (ch : Channel) : Except TransportError CompositorToBroker × Channel :=
  (ch.recvs.headD (.error .closed), { ch with recvs := ch.recvs.tail })

/-- `ChannelResponder::respond`. -/
def Channel.respond (ch : Channel) (style : PromptStyle) (message : String) :
    Answer String × Channel :=
  let (panics, ch) := ch.emit
  if panics then (.panic, ch)
  else
    match ch.send (.convPrompt style message) with
    | (.error _, ch) => (.error, ch)
    | (.ok (), ch) =>
      match ch.recv with
      | (.error _, ch) => (.error, ch)
      | (.ok incoming, ch) =>
        let (panics, ch) := ch.emit
        if panics then (.panic, ch)
        else
          match incoming with
          | .convResponse response => (.ok response, ch)
          | _ => (.error, ch)

/-- `ChannelResponder::display`. -/
def Channel.display (ch : Channel) (style : DisplayStyle) (message : String) :
    Answer Unit × Channel :=
  let (panics, ch) := ch.emit
  if panics then (.panic, ch)
  else
    match ch.send (.convDisplay style message) with
    | (.error _, ch) => (.error, ch)
    | (.ok (), ch) => (.ok (), ch)

/-- `ChannelResponder`. -/
def channelResponder : ConvResponder Channel := ⟨Channel.respond, Channel.display⟩

/-- Every trace line can be written. -/
def Channel.Traces (ch : Channel) : Prop := ∀ fails ∈ ch.traceFails, fails = false

/-- A responder that cannot panic where it stands, nor after any of its calls. -/
theorem not_panicsFrom {R : ConvResponder σ} {A : Allocator} (P : σ → Prop)
    (hr : ∀ s style message, P s →
      (R.respond s style message).1 ≠ .panic ∧ P (R.respond s style message).2)
    (hd : ∀ s style message, P s →
      (R.display s style message).1 ≠ .panic ∧ P (R.display s style message).2)
    (msgs : List (Option PamMessage)) : ∀ i s, P s → ¬ PanicsFrom R A i msgs s := by
  induction msgs with
  | nil => exact fun _ _ _ => id
  | cons m msgs ih =>
    intro i s hs
    cases m with
    | none => exact id
    | some m =>
      rw [PanicsFrom]
      split
      · exact id
      · rename_i style message _
        have h := hr s style message hs
        split
        · rename_i heq
          exact absurd (congrArg Prod.fst heq) h.1
        · exact id
        · rename_i secret s' heq
          rw [heq] at h
          exact fun hp => ih _ _ h.2 hp.2.2
      · rename_i style message _
        have h := hd s style message hs
        split
        · rename_i heq
          exact absurd (congrArg Prod.fst heq) h.1
        · exact id
        · rename_i s' heq
          rw [heq] at h
          exact ih _ _ h.2

theorem emit_traces {ch : Channel} (h : ch.Traces) :
    ch.emit.1 = false ∧ ch.emit.2.Traces := by
  obtain ⟨fails, sends, recvs⟩ := ch
  cases fails with
  | nil => exact ⟨rfl, h⟩
  | cons f fails => exact ⟨h f (by simp), fun f' hf' => h f' (List.mem_cons_of_mem _ hf')⟩

theorem respond_traces {ch : Channel} (h : ch.Traces) (style : PromptStyle) (message : String) :
    (ch.respond style message).1 ≠ .panic ∧ (ch.respond style message).2.Traces := by
  obtain ⟨h₁, ht₁⟩ := emit_traces h
  have ht₂ : (ch.emit.2.send (.convPrompt style message)).2.recv.2.Traces := ht₁
  obtain ⟨h₃, ht₃⟩ := emit_traces ht₂
  simp only [Channel.respond, h₁, Bool.false_eq_true, if_false]
  split
  · rename_i heq
    rw [heq] at ht₂
    exact ⟨by simp, ht₂⟩
  rename_i ch₂ heq
  rw [heq] at ht₂ h₃ ht₃
  simp only at ht₂ h₃ ht₃
  split
  · rename_i heq
    rw [heq] at ht₂
    exact ⟨by simp, ht₂⟩
  rename_i incoming ch₃ heq
  rw [heq] at ht₂ h₃ ht₃
  simp only at h₃ ht₃
  simp only [h₃, Bool.false_eq_true, if_false]
  split <;> exact ⟨by simp, ht₃⟩

theorem display_traces {ch : Channel} (h : ch.Traces) (style : DisplayStyle) (message : String) :
    (ch.display style message).1 ≠ .panic ∧ (ch.display style message).2.Traces := by
  obtain ⟨h₁, ht₁⟩ := emit_traces h
  have ht₂ : (ch.emit.2.send (.convDisplay style message)).2.Traces := ht₁
  simp only [Channel.display, h₁, Bool.false_eq_true, if_false]
  split <;> (rename_i heq; rw [heq] at ht₂; exact ⟨by simp, ht₂⟩)

/-- **The broker's responder keeps the contract** as long as its trace lines can be written. -/
theorem channel_contract (A : Allocator) {ch : Channel} (h : ch.Traces) (a : Args) :
    (convTrampoline channelResponder A ch a).Contract a.messages :=
  (contract_iff channelResponder A ch a).mpr fun hp =>
    not_panicsFrom Channel.Traces (fun _ style message hs => respond_traces hs style message)
      (fun _ style message hs => display_traces hs style message) a.messages 0 ch h hp.2.2

/-- Two prompts. The first is answered; before the second the trace, which is on, loses its
stderr. -/
def lostTrace : Channel := ⟨[false, false, true], [.ok ()], [.ok (.convResponse "hunter2")]⟩

def twoPrompts : Args :=
  ⟨[some ⟨1, some [0x50]⟩, some ⟨2, none⟩], false, false, false⟩

/-- **A panic leaks the first answer.** The callback fails, and neither the password nor the array
is freed. -/
theorem panic_leaks_answer :
    let c := convTrampoline channelResponder ⟨true, fun _ => true⟩ lostTrace twoPrompts
    c.status = pamConvErr ∧ allocated c.events = [.array, .string 0] ∧ freed c.events = [] ∧
      ¬ c.Contract twoPrompts.messages := by
  intro c
  have hstatus : c.status = pamConvErr := by decide +kernel
  have halloc : allocated c.events = [.array, .string 0] := by decide +kernel
  have hfreed : freed c.events = [] := by decide +kernel
  refine ⟨hstatus, halloc, hfreed, fun hc => ?_⟩
  have hfail : c.status ≠ pamSuccess := by
    rw [hstatus]
    decide
  have hperm := (hc.failure hfail).2.2.length_eq
  simp [halloc, hfreed] at hperm

end Halmasuit.Session.PamConv
