import Halmasuit.Broker.Relay
import Halmasuit.Lib.Tagged
import Halmasuit.SessionIpc.Readers

/-!
# The session wire family

Three message types travel behind one framing (`halmasuit-session-ipc/src/lib.rs`,
`halmasuit-session/src/worker.rs`): the compositor's frames, the broker's, and a worker's outcomes.
Each is an object tagged by `type`. A worker's channel carries the broker's frames and the outcomes
together, and `ParentMessage` tells them apart by trying one type and then the other.

The deserialisers are those of `serde_json`, and `Serde` is what the code relies on: a type takes
back what it writes, and refuses an object whose `type` is none of its tags.

- `compositorTags_broker`, `compositorTags_worker`, `brokerTags_worker`: the tags are disjoint;
- **`wire_codecs`**: round trips with any tail, no message from a part of a frame, streams cut
  anywhere, no frame of one type read as another, and `ParentMessage` exact;
- `readers`: readers of the compact form are a `Serde`.
-/

namespace Halmasuit.Broker

open Halmasuit.Lib
open Halmasuit.Lib.Framing (CodecError)
open Halmasuit.Greetd (whole closed field_string closed_member)
open Halmasuit.SessionIpc

/-! ## Tags -/

/-- The tags of `WorkerOutcome`. -/
def workerTags : List String :=
  ["worker_success", "worker_failure", "worker_auth_ok", "worker_session_opened",
    "worker_session_ended"]

theorem compositorTags_broker : List.Disjoint compositorTags brokerTags :=
  fun tag => (by decide : ∀ tag ∈ compositorTags, tag ∉ brokerTags) tag

theorem compositorTags_worker : List.Disjoint compositorTags workerTags :=
  fun tag => (by decide : ∀ tag ∈ compositorTags, tag ∉ workerTags) tag

theorem brokerTags_worker : List.Disjoint brokerTags workerTags :=
  fun tag => (by decide : ∀ tag ∈ brokerTags, tag ∉ workerTags) tag

/-! ## The deserialisers -/

/-- The deserialisers of the three types, with what is relied on: each takes back what `to_vec`
writes, and refuses an object whose `type` is none of its tags. -/
structure Serde where
  fromCompositor : List UInt8 → Option CompositorToBroker
  fromBroker : List UInt8 → Option BrokerToCompositor
  fromWorker : List UInt8 → Option WorkerOutcome
  compositor_toVec : ∀ m, fromCompositor m.toVec = some m
  broker_toVec : ∀ m, fromBroker m.toVec = some m
  worker_toVec : ∀ m, fromWorker m.toVec = some m
  compositor_tag : ∀ tag ∉ compositorTags, ∀ ms,
    fromCompositor (Json.object (("type", Json.string tag) :: ms)) = none
  broker_tag : ∀ tag ∉ brokerTags, ∀ ms,
    fromBroker (Json.object (("type", Json.string tag) :: ms)) = none
  worker_tag : ∀ tag ∉ workerTags, ∀ ms,
    fromWorker (Json.object (("type", Json.string tag) :: ms)) = none

section
variable (S : Serde)

def Serde.compositor : Tagged "type" CompositorToBroker where
  toVec := CompositorToBroker.toVec
  fromSlice := S.fromCompositor
  fromSlice_toVec := S.compositor_toVec
  tags := compositorTags
  tagged m := by cases m <;> exact ⟨_, by simp [compositorTags], _, rfl⟩
  refuses := S.compositor_tag

def Serde.broker : Tagged "type" BrokerToCompositor where
  toVec := BrokerToCompositor.toVec
  fromSlice := S.fromBroker
  fromSlice_toVec := S.broker_toVec
  tags := brokerTags
  tagged m := by cases m <;> exact ⟨_, by simp [brokerTags], _, rfl⟩
  refuses := S.broker_tag

def Serde.worker : Tagged "type" WorkerOutcome where
  toVec := WorkerOutcome.toVec
  fromSlice := S.fromWorker
  fromSlice_toVec := S.worker_toVec
  tags := workerTags
  tagged m := by cases m <;> exact ⟨_, by simp [workerTags], _, rfl⟩
  refuses := S.worker_tag

/-- The deserialiser of `ParentMessage`, an untagged enum: its variants are tried in order. -/
def Serde.fromParent (bs : List UInt8) : Option ParentMessage :=
  match S.fromBroker bs with
  | some frame => some (.conv frame)
  | none => (S.fromWorker bs).map .outcome

/-- No frame of the broker reads as an outcome, and no outcome as a frame: what was sent is what is
read. -/
def Serde.parent : Codec ParentMessage where
  toVec := ParentMessage.toVec
  fromSlice := S.fromParent
  fromSlice_toVec pm := by
    cases pm with
    | conv frame => simp [Serde.fromParent, ParentMessage.toVec, S.broker_toVec]
    | outcome o =>
      have hno : S.fromBroker o.toVec = none :=
        S.worker.refuses_toVec S.broker (fun _ hw hb => brokerTags_worker hb hw) o
      simp [Serde.fromParent, ParentMessage.toVec, hno, S.worker_toVec]

end

/-! ## What the codecs give -/

/-- A message type read back from its frames: with any tail behind the frame, not from a proper part
of it, and from a stream of frames wherever it is cut. -/
def RoundTrips {α : Type} (toVec : α → List UInt8) (fromSlice : List UInt8 → Option α) : Prop :=
  (∀ m bs tail, encode (toVec m) = .ok bs →
    tryDecode fromSlice (bs ++ tail) = .ok (some (m, bs.length))) ∧
  (∀ m part rest, rest ≠ [] → encode (toVec m) = .ok (part ++ rest) →
    tryDecode fromSlice part = .ok none) ∧
  ∀ ms bss chunks, Framing.Frames maxMessageSize toVec ms bss → chunks.flatten = bss.flatten →
    run (Framing.receive maxMessageSize fromSlice) [] chunks = ([], ms)

/-- A frame of one type is refused by the other. -/
def CrossRefused {α β : Type} (toVec : α → List UInt8) (fromSlice : List UInt8 → Option β) : Prop :=
  ∀ m bs tail, encode (toVec m) = .ok bs → tryDecode fromSlice (bs ++ tail) = .error .json

theorem roundTrips_codec {α : Type} (C : Codec α) : RoundTrips C.toVec C.fromSlice :=
  ⟨fun _ _ tail h => C.tryDecode_append h tail, fun _ _ _ hne h => C.tryDecode_part hne h,
    fun _ _ _ h hcut => C.run_receive h hcut⟩

theorem crossRefused_tags {key : String} {α β : Type} (A : Tagged key α) (B : Tagged key β)
    (h : List.Disjoint A.tags B.tags) : CrossRefused A.toVec B.fromSlice :=
  fun _ _ tail henc => A.tryDecode_other B h henc tail

/-- **The codecs of the session wire family.** Each of the three message types, and the worker
channel's `ParentMessage`, is read back exactly from its frames; and no frame of one of the three
types is read as another. -/
theorem wire_codecs (S : Serde) :
    RoundTrips CompositorToBroker.toVec S.fromCompositor ∧
    RoundTrips BrokerToCompositor.toVec S.fromBroker ∧
    RoundTrips WorkerOutcome.toVec S.fromWorker ∧
    RoundTrips ParentMessage.toVec S.fromParent ∧
    CrossRefused CompositorToBroker.toVec S.fromBroker ∧
    CrossRefused CompositorToBroker.toVec S.fromWorker ∧
    CrossRefused BrokerToCompositor.toVec S.fromCompositor ∧
    CrossRefused BrokerToCompositor.toVec S.fromWorker ∧
    CrossRefused WorkerOutcome.toVec S.fromCompositor ∧
    CrossRefused WorkerOutcome.toVec S.fromBroker :=
  ⟨roundTrips_codec S.compositor.toCodec, roundTrips_codec S.broker.toCodec,
    roundTrips_codec S.worker.toCodec, roundTrips_codec S.parent,
    crossRefused_tags S.compositor S.broker compositorTags_broker,
    crossRefused_tags S.compositor S.worker compositorTags_worker,
    crossRefused_tags S.broker S.compositor fun _ hb hc => compositorTags_broker hc hb,
    crossRefused_tags S.broker S.worker brokerTags_worker,
    crossRefused_tags S.worker S.compositor fun _ hw hc => compositorTags_worker hc hw,
    crossRefused_tags S.worker S.broker fun _ hw hb => brokerTags_worker hb hw⟩

/-! ## A deserialiser of each type -/

/-- One outcome, by its tag. -/
def readWorkerBody : Json.Reader WorkerOutcome := fun bs =>
  match Json.field 0x7b "type" Json.readString bs with
  | none => none
  | some (tag, bs) =>
    if tag = "worker_success" then
      (readIdentity bs).map fun r => (.success r.1.1 r.1.2.1 r.1.2.2, r.2)
    else if tag = "worker_failure" then
      (closed (Json.field 0x2c "reason" Json.readString) bs).map fun r => (.failure r.1, r.2)
    else if tag = "worker_auth_ok" then
      (readIdentity bs).map fun r => (.authOk r.1.1 r.1.2.1 r.1.2.2, r.2)
    else if tag = "worker_session_opened" then
      (readIdentity bs).map fun r => (.sessionOpened r.1.1 r.1.2.1 r.1.2.2, r.2)
    else if tag = "worker_session_ended" then
      (closed (Json.field 0x2c "outcome" readOutcome) bs).map fun r => (.sessionEnded r.1, r.2)
    else none

/-- A reader of the outcomes `to_vec` writes. -/
def readWorker (bs : List UInt8) : Option WorkerOutcome := whole readWorkerBody bs

/-- **The worker reader takes back what `to_vec` writes.** -/
theorem readWorker_toVec (m : WorkerOutcome) : readWorker m.toVec = some m := by
  cases m with
  | success username uid gid | authOk username uid gid | sessionOpened username uid gid =>
    have h := readIdentity_members username uid gid []
    simp only [readWorker, whole, readWorkerBody, WorkerOutcome.toVec, identityMembers,
      Json.object, List.map_cons, List.map_nil, Json.commaSep, List.append_assoc,
      List.cons_append, field_string, h, if_true]
    rfl
  | failure reason =>
    have h := closed_member 0x2c "reason" _ _ reason [] (Json.readString_string reason)
    simp only [readWorker, whole, readWorkerBody, WorkerOutcome.toVec, Json.object,
      List.map_cons, List.map_nil, Json.commaSep, List.append_assoc, List.cons_append,
      field_string, h, if_true]
    rfl
  | sessionEnded outcome =>
    have h := closed_member 0x2c "outcome" _ _ outcome [] (readOutcome_toVec outcome)
    simp only [readWorker, whole, readWorkerBody, WorkerOutcome.toVec, Json.object,
      List.map_cons, List.map_nil, Json.commaSep, List.append_assoc, List.cons_append,
      field_string, h, if_true]
    rfl

theorem readWorker_tag {tag : String} (h : tag ∉ workerTags) (ms : List (String × List UInt8)) :
    readWorker (Json.object (("type", Json.string tag) :: ms)) = none := by
  obtain ⟨rest, htag⟩ := field_tag tag ms
  simp only [workerTags, List.mem_cons, List.not_mem_nil, or_false, not_or] at h
  simp [readWorker, whole, readWorkerBody, htag, h]

/-- The readers of the compact form are deserialisers as relied on. -/
def readers : Serde where
  fromCompositor := readCompositor
  fromBroker := readBroker
  fromWorker := readWorker
  compositor_toVec := readCompositor_toVec
  broker_toVec := readBroker_toVec
  worker_toVec := readWorker_toVec
  compositor_tag _ h := readCompositor_tag h
  broker_tag _ h := readBroker_tag h
  worker_tag _ h := readWorker_tag h

/-- A worker's datagrams in three chunks, a prompt cut in its length prefix. -/
theorem prompt_then_outcome_read :
    let prompt := BrokerToCompositor.convPrompt .secret "Password: "
    let opened := WorkerOutcome.sessionOpened "alice" 1000 1000
    ∃ b₁ b₂, encode prompt.toVec = .ok b₁ ∧ encode opened.toVec = .ok b₂ ∧
      run (Framing.receive maxMessageSize readers.fromParent) []
        [b₁.take 2, b₁.drop 2 ++ b₂.take 9, b₂.drop 9]
        = ([], [.conv prompt, .outcome opened]) := by
  intro prompt opened
  obtain ⟨b₁, h₁⟩ : ∃ b₁, encode prompt.toVec = .ok b₁ := ⟨_, encode_of_fits (by decide +kernel)⟩
  obtain ⟨b₂, h₂⟩ : ∃ b₂, encode opened.toVec = .ok b₂ := ⟨_, encode_of_fits (by decide +kernel)⟩
  refine ⟨b₁, b₂, h₁, h₂, ?_⟩
  refine (wire_codecs readers).2.2.2.1.2.2 [.conv prompt, .outcome opened] [b₁, b₂] _ ?_ ?_
  · simp only [Framing.Frames, List.map_cons, List.map_nil, ParentMessage.toVec]
    rw [← encode, ← encode, h₁, h₂]
  · simp only [List.flatten_cons, List.flatten_nil, List.append_nil, List.append_assoc,
      List.take_append_drop]
    rw [← List.append_assoc, List.take_append_drop]

end Halmasuit.Broker
