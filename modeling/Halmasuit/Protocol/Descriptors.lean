import Halmasuit.Broker.Relay
import Halmasuit.Compositor.Episode
import Halmasuit.Decoder.Lifecycle
import Halmasuit.Lib.Rights
import Halmasuit.Lib.Tagged
import Halmasuit.SessionIpc.Readers

/-!
# Descriptors between the processes

A message may come with a descriptor: the leader's pidfd from the worker to the broker and from the
broker to the compositor, the root directory from the broker, the wallpaper from the compositor to
the decoder. This is `send_frame_with_fd` and `recv_frame_with_fd` of `worker.rs`, `recv_with_fd` of
`broker_session.rs` and `recv_one` of the decoder's `main.rs`. All three that receive take ownership
of every descriptor that they find before they look at the message.

A hangup is a message with nothing in it. `recv_with_fd` is called with a message to read, and an
`recv_one` that is interrupted reads again.

Results:
* `descriptors_owned_iff`: on every run on which the process may have the descriptors that come, each
  of them ends with its owner, exactly if no message carries more than two, or sixteen for the
  decoder. Two and not one: the buffer for one has room for two. The descriptors of a message with
  more than that stay open for good.
* `frames_arrive`: on every run on which the reader may have the descriptors that come, every message
  that was sent is received once and in order, and its descriptor is open on the file of the
  sender's.
* `recv_ok_iff`: what a message has to be for the two that receive frames to take it. Of a message
  that is longer than their buffer only the beginning counts (`tail_ignored`).
-/

namespace Halmasuit.Protocol.Descriptors

open Halmasuit.Lib
open Halmasuit.Lib.Rights
open Halmasuit.SessionIpc
open Halmasuit.Broker (TransportError send)
open Halmasuit.Compositor (WireError)
open Halmasuit.Decoder (DecoderError)
open Halmasuit.DecoderIpc (CompositorToDecoder tryDecodeControl maxControlMsgBytes)

/-! ## The code -/

section
variable {α ε : Type}

/-- The checks of the two functions that receive frames, with what they close. -/
def finishFrame (codec closed malformed : ε) (fromSlice : List UInt8 → Option α)
    (bytes : List UInt8) (fds : List Nat) : Except ε (α × Option Nat) × List Nat :=
  if bytes = [] then (.error closed, fds)
  else if 1 < fds.length then (.error malformed, fds)
  else
    match tryDecode fromSlice bytes with
    | .error _ => (.error codec, fds)
    | .ok none => (.error malformed, fds)
    | .ok (some (m, consumed)) =>
      if consumed = bytes.length then (.ok (m, fds.head?), fds.tail) else (.error malformed, fds)

theorem finishFrame_cases (codec closed malformed : ε) (fromSlice : List UInt8 → Option α)
    (bytes : List UInt8) (fds : List Nat) :
    (∃ e, finishFrame codec closed malformed fromSlice bytes fds = (.error e, fds)) ∨
    ∃ m, bytes ≠ [] ∧ fds.length ≤ 1 ∧ tryDecode fromSlice bytes = .ok (some (m, bytes.length)) ∧
      finishFrame codec closed malformed fromSlice bytes fds = (.ok (m, fds.head?), fds.tail) := by
  unfold finishFrame
  by_cases hnil : bytes = []
  · exact .inl ⟨closed, if_pos hnil⟩
  rw [if_neg hnil]
  by_cases hmany : 1 < fds.length
  · exact .inl ⟨malformed, if_pos hmany⟩
  rw [if_neg hmany]
  cases hdec : tryDecode fromSlice bytes with
  | error e => exact .inl ⟨codec, rfl⟩
  | ok r =>
    match r with
    | none => exact .inl ⟨malformed, rfl⟩
    | some (m, consumed) =>
      by_cases hall : consumed = bytes.length
      · subst hall
        exact .inr ⟨m, hnil, Nat.le_of_not_lt hmany, rfl, if_pos rfl⟩
      · exact .inl ⟨malformed, if_neg hall⟩

/-- The two functions that receive frames. Which errors they have is theirs. -/
def frameReceiver (io codec closed malformed : ε) (fromSlice : List UInt8 → Option α) :
    Receiver ε (α × Option Nat) where
  buflen := Framing.lengthPrefixSize + maxMessageSize
  controllen := cmsgSpace 1
  truncated := none
  ofErrno := fun _ => io
  finish := finishFrame codec closed malformed fromSlice
  kept := fun b => b.2.toList
  finish_ok := by
    intro bytes fds b dropped h
    rcases finishFrame_cases codec closed malformed fromSlice bytes fds with ⟨e, heq⟩ |
      ⟨m, -, -, -, heq⟩
    · rw [heq] at h
      cases h
    · rw [heq] at h
      cases h
      cases fds <;> simp
  finish_error := by
    intro bytes fds e dropped h
    rcases finishFrame_cases codec closed malformed fromSlice bytes fds with ⟨e, heq⟩ |
      ⟨m, -, -, -, heq⟩
    · rw [heq] at h
      exact (Prod.mk.inj h).2.symm
    · rw [heq] at h
      cases h

/-- `recv_frame_with_fd`. -/
def recvFrameWithFd (fromSlice : List UInt8 → Option α) :
    Receiver TransportError (α × Option Nat) :=
  frameReceiver .io .codec .closed .malformed fromSlice

/-- `SeqpacketChannel::recv_with_fd`. -/
def recvWithFd (fromSlice : List UInt8 → Option BrokerToCompositor) :
    Receiver WireError (BrokerToCompositor × Option Nat) :=
  frameReceiver .io .codec .closed .malformed fromSlice

/-- The checks of the decoder's `recv_one`. What follows the message is not looked at. -/
def finishOne (fromSlice : List UInt8 → Option CompositorToDecoder) (bytes : List UInt8)
    (fds : List Nat) : Except DecoderError (CompositorToDecoder × List Nat) × List Nat :=
  if bytes = [] then (.error .peerHangup, fds)
  else
    match tryDecodeControl fromSlice bytes with
    | .error e => (.error (.codec e), fds)
    | .ok none =>
      (.error (.codec (.truncatedControl
        (if 4 ≤ bytes.length then Framing.fromLeBytes (bytes.take 4) else 0) bytes.length)), fds)
    | .ok (some (m, _)) => (.ok (m, fds), [])

/-- `recv_one` of the decoder. It looks at the mark of the read, for which its error is `EMSGSIZE`. -/
def recvOne (fromSlice : List UInt8 → Option CompositorToDecoder) :
    Receiver DecoderError (CompositorToDecoder × List Nat) where
  buflen := maxControlMsgBytes + 4
  controllen := cmsgSpace 16
  truncated := some (.recv 90)
  ofErrno := .recv
  finish := finishOne fromSlice
  kept := Prod.snd
  finish_ok := by
    intro bytes fds b dropped h
    unfold finishOne at h
    by_cases hnil : bytes = []
    · rw [if_pos hnil] at h
      cases h
    rw [if_neg hnil] at h
    split at h
    · cases h
    · cases h
    · cases h
      simp
  finish_error := by
    intro bytes fds e dropped h
    unfold finishOne at h
    by_cases hnil : bytes = []
    · rw [if_pos hnil] at h
      exact (Prod.mk.inj h).2.symm
    rw [if_neg hnil] at h
    split at h
    · exact (Prod.mk.inj h).2.symm
    · exact (Prod.mk.inj h).2.symm
    · cases h

/-- `send_frame_with_fd`, with what the kernel says to the datagram, and what is in the socket
then. -/
def sendFrameWithFd {File : Type} (kernel : Except TransportError Unit) (body : List UInt8)
    (fd : Option File) : Except TransportError Unit × List (Datagram File) :=
  match encode body with
  | .error _ => (.error .codec, [])
  | .ok bytes =>
    match kernel with
    | .error e => (.error e, [])
    | .ok () => (.ok (), [⟨bytes, fd.toList⟩])

theorem sendFrameWithFd_ok {File : Type} {kernel : Except TransportError Unit}
    {body : List UInt8} {fd : Option File} (h : (sendFrameWithFd kernel body fd).1 = .ok ()) :
    ∃ bytes, encode body = .ok bytes ∧
      (sendFrameWithFd kernel body fd).2 = [⟨bytes, fd.toList⟩] := by
  unfold sendFrameWithFd at h ⊢
  cases henc : encode body with
  | error e => simp [henc] at h
  | ok bytes =>
    cases kernel with
    | error e => simp [henc] at h
    | ok u => exact ⟨bytes, rfl, rfl⟩

theorem sendFrameWithFd_error {File : Type} {kernel : Except TransportError Unit}
    {body : List UInt8} {fd : Option File} (h : (sendFrameWithFd kernel body fd).1 ≠ .ok ()) :
    (sendFrameWithFd kernel body fd).2 = [] := by
  unfold sendFrameWithFd at h ⊢
  cases henc : encode body with
  | error e => rfl
  | ok bytes =>
    cases kernel with
    | error e => rfl
    | ok u => simp [henc] at h

end

/-! ## Nothing leaks -/

/-- Every descriptor of the process has its owner when the run is over. -/
def OwnedAfter {ε β File : Type} (rd : Receiver ε β) (nix : Cmsgs) (limit : Nat) (p : Holder File)
    (acts : List (Act File)) : Prop :=
  let p' := (run (rd.step nix limit) p acts).1
  ∀ fd ∈ p'.table.fds, fd ∈ p'.held

/-- No message carries more than `n` descriptors. -/
def AtMost {File : Type} (n : Nat) (acts : List (Act File)) : Prop :=
  ∀ d, Act.receive d ∈ acts → d.rights.length ≤ n

theorem scmMaxFds_one : scmMaxFds (cmsgSpace 1) = 2 := by decide

theorem scmMaxFds_sixteen : scmMaxFds (cmsgSpace 16) = 16 := by decide

theorem ownedAfter_iff {ε β File : Type} (rd : Receiver ε β) {n : Nat}
    (hn : scmMaxFds rd.controllen = n) (hpos : 0 < n) (nix : Cmsgs) (limit : Nat) {p : Holder File}
    (hp : p.table.fds.Perm p.held) {acts : List (Act File)}
    (hroom : Along (rd.step nix limit) (Roomy limit) p acts) :
    OwnedAfter rd nix limit p acts ↔ AtMost n acts := by
  subst hn
  exact run_owned_iff rd hpos nix limit p hp acts hroom

/-- **When no descriptor is leaked.** On every run of messages of any kind, among which descriptors
are closed by their owners and others are opened, from a process that owns all of its descriptors and
has the room for those that come: every descriptor has an owner, if and only if no message carried
more than the control buffer has room for. -/
theorem descriptors_owned_iff {α File : Type} (ofFrame : List UInt8 → Option α)
    (ofBroker : List UInt8 → Option BrokerToCompositor)
    (ofCompositor : List UInt8 → Option CompositorToDecoder) (nix : Cmsgs) (limit : Nat)
    {p : Holder File} (hp : p.table.fds.Perm p.held) (acts : List (Act File)) :
    (Along ((recvFrameWithFd ofFrame).step nix limit) (Roomy limit) p acts →
      (OwnedAfter (recvFrameWithFd ofFrame) nix limit p acts ↔ AtMost 2 acts)) ∧
    (Along ((recvWithFd ofBroker).step nix limit) (Roomy limit) p acts →
      (OwnedAfter (recvWithFd ofBroker) nix limit p acts ↔ AtMost 2 acts)) ∧
    (Along ((recvOne ofCompositor).step nix limit) (Roomy limit) p acts →
      (OwnedAfter (recvOne ofCompositor) nix limit p acts ↔ AtMost 16 acts)) :=
  ⟨ownedAfter_iff _ scmMaxFds_one Nat.zero_lt_two nix limit hp,
    ownedAfter_iff _ scmMaxFds_one Nat.zero_lt_two nix limit hp,
    ownedAfter_iff _ scmMaxFds_sixteen (Nat.zero_lt_succ 15) nix limit hp⟩

/-- A process with a descriptor of its own gets a message with two, and closes its own. -/
theorem descriptors_owned_iff_two :
    let p : Holder String := ⟨⟨[], .nil⟩, []⟩
    let acts : List (Act String) :=
      [.install "socket", .receive ⟨[0, 0, 0, 0], ["a", "b"]⟩, .drop 0]
    OwnedAfter (recvFrameWithFd fun _ => some ()) .enobufs 32 p acts ∧
      OwnedAfter (recvWithFd fun _ => none) .enobufs 32 p acts ∧
      OwnedAfter (recvOne fun _ => none) .enobufs 32 p acts := by
  intro p acts
  have hfew : ∀ n, 2 ≤ n → AtMost n acts := by
    intro n hn d hd
    obtain rfl : d = ⟨[0, 0, 0, 0], ["a", "b"]⟩ := by simpa [acts] using hd
    exact hn
  have hp : p.table.fds.Perm p.held := List.Perm.refl []
  obtain ⟨hframe, hbroker, hdecoder⟩ := descriptors_owned_iff (fun _ => some ()) (fun _ => none)
    (fun _ => none) .enobufs 32 hp acts
  exact ⟨(hframe (by decide)).mpr (hfew 2 (by decide)),
    (hbroker (by decide)).mpr (hfew 2 (by decide)),
    (hdecoder (by decide)).mpr (hfew 16 (by decide))⟩

/-- A message with three: two of them are opened, and nobody owns them. -/
example :
    let rd : Receiver TransportError (Unit × Option Nat) := recvFrameWithFd fun _ => some ()
    let p := (run (rd.step .enobufs 1024) ⟨⟨[], .nil⟩, []⟩
      [.receive ⟨[0, 0, 0, 0], ["a", "b", "c"]⟩]).1
    p.table.fds = [0, 1] ∧ p.held = [] := by
  decide

/-! ## What is received -/

section
variable {α ε : Type} {io codec closed malformed : ε} {fromSlice : List UInt8 → Option α}

/-- A frame that fills its buffer. -/
theorem tryDecode_whole_iff {bytes : List UInt8} {m : α} :
    tryDecode fromSlice bytes = .ok (some (m, bytes.length)) ↔
      ∃ body, Fits body ∧ fromSlice body = some m ∧
        bytes = Framing.toLeBytes body.length ++ body := by
  constructor
  · intro h
    obtain ⟨body, rest, hbytes, hfits, hbody, hlen⟩ := Framing.tryDecode_some_split h
    have hrest : rest = [] := by
      have hall := congrArg List.length hbytes
      rw [hlen, List.length_append, List.length_append, Framing.length_toLeBytes] at hall
      exact List.length_eq_zero_iff.mp (by omega)
    exact ⟨body, hfits, hbody, by rw [hbytes, hrest, List.append_nil]⟩
  · rintro ⟨body, hfits, hbody, rfl⟩
    have h := Framing.tryDecode_encode (encode_of_fits hfits) hbody []
    rw [List.append_nil] at h
    exact h

/-- **What is taken.** With room for its descriptors, a message of whatever kind is taken for `m` if
and only if it carries one descriptor at most, and what the buffer has room for is one frame that
reads as `m`. -/
theorem recv_ok_iff {File : Type} (nix : Cmsgs) {limit : Nat} {d : Datagram File} {t : Table File}
    (hroom : t.fds.length + d.rights.length ≤ limit) (m : α) :
    (∃ fd, ((frameReceiver io codec closed malformed fromSlice).receive nix limit d t).1 =
        .ok (m, fd)) ↔
      d.rights.length ≤ 1 ∧ ∃ body, Fits body ∧ fromSlice body = some m ∧
        d.bytes.take (Framing.lengthPrefixSize + maxMessageSize) =
          Framing.toLeBytes body.length ++ body := by
  let rd := frameReceiver io codec closed malformed fromSlice
  have hlen := length_recvmsg rd.buflen rd.controllen hroom
  have hcut := recvmsg_ctrunc_iff rd.buflen rd.controllen hroom
  have hmax : scmMaxFds rd.controllen = 2 := scmMaxFds_one
  rw [hmax] at hlen hcut
  cases hmarked : (recvmsg limit rd.buflen rd.controllen d t).1.ctrunc with
  | true =>
    obtain ⟨e, he⟩ := rd.receive_cut nix limit d t hmarked
    have hmany := hcut.mp hmarked
    rw [he]
    exact iff_of_false (fun ⟨fd, hfd⟩ => by cases hfd) fun h => by omega
  | false =>
    have hfew : d.rights.length ≤ 2 :=
      Nat.le_of_not_lt fun hlt => Bool.false_ne_true (hmarked ▸ hcut.mpr hlt)
    have hbytes : (recvmsg limit rd.buflen rd.controllen d t).1.bytes =
        d.bytes.take (Framing.lengthPrefixSize + maxMessageSize) := rfl
    have hanswer := congrArg Prod.fst (rd.receive_whole nix limit d t hmarked)
    dsimp only at hanswer
    rw [hanswer, ← tryDecode_whole_iff, ← hbytes]
    generalize (recvmsg limit rd.buflen rd.controllen d t).1 = r at hlen
    show (∃ fd, (finishFrame codec closed malformed fromSlice r.bytes r.fds).1 = .ok (m, fd)) ↔ _
    constructor
    · rintro ⟨fd, hfd⟩
      rcases finishFrame_cases codec closed malformed fromSlice r.bytes r.fds with ⟨e, heq⟩ |
        ⟨m', -, hone, hdec, heq⟩
      · rw [heq] at hfd
        cases hfd
      · rw [heq] at hfd
        cases hfd
        exact ⟨by omega, hdec⟩
    · rintro ⟨hone, hdec⟩
      have hne : r.bytes ≠ [] := by
        intro hnil
        rw [hnil] at hdec
        cases hdec
      refine ⟨r.fds.head?, ?_⟩
      rw [finishFrame, if_neg hne, if_neg (by omega), hdec]
      simp

/-- A message that is longer than the buffer is taken, whatever its tail is, if what the buffer has
room for is a frame. -/
theorem tail_ignored {File : Type} (nix : Cmsgs) {limit : Nat} {t : Table File} {body : List UInt8}
    {m : α} (hbody : fromSlice body = some m) (hlen : body.length = maxMessageSize)
    (tail : List UInt8) (hroom : t.fds.length ≤ limit) :
    ∃ fd, ((frameReceiver io codec closed malformed fromSlice).receive nix limit
      ⟨Framing.toLeBytes body.length ++ body ++ tail, []⟩ t).1 = .ok (m, fd) := by
  refine (recv_ok_iff nix hroom m).mpr ⟨Nat.zero_le 1, body, hlen.le, hbody, ?_⟩
  refine List.take_left' ?_
  rw [List.length_append, Framing.length_toLeBytes, hlen]

end

/-! ## In order, with its file -/

/-- One direction of a channel: the socket's queue, and the process that reads it. -/
structure Passing (File : Type) where
  queue : List (Datagram File)
  reader : Holder File

inductive Move (α File : Type) where
  /-- `send_frame_with_fd`, with the file of the descriptor. -/
  | send (m : α) (fd : Option File) (kernel : Except TransportError Unit)
  /-- A call, when there is something to receive. -/
  | receive
  | drop (fd : Nat)
  | install (f : File)

inductive Event (α ε File : Type) where
  | sent (m : α) (fd : Option File)
  /-- The answer, with what its descriptor is open on. -/
  | received (answer : Except ε (α × Option (Option File)))

section
variable {α ε File : Type} (C : Codec α) (rd : Receiver ε (α × Option Nat)) (nix : Cmsgs)
  (limit : Nat)

def Passing.step (s : Passing File) : Move α File → Passing File × List (Event α ε File)
  | .send m fd kernel =>
    let r := sendFrameWithFd kernel (C.toVec m) fd
    ({ s with queue := s.queue ++ r.2 }, if r.1 = .ok () then [.sent m fd] else [])
  | .receive =>
    match s.queue with
    | [] => (s, [])
    | d :: queue =>
      let r := rd.receive nix limit d s.reader.table
      (⟨queue, (rd.step nix limit s.reader (.receive d)).1⟩,
        [.received (r.1.map fun b => (b.1, b.2.map r.2.file?))])
  | .drop fd => ({ s with reader := (rd.step nix limit s.reader (.drop fd)).1 }, [])
  | .install f => ({ s with reader := (rd.step nix limit s.reader (.install f)).1 }, [])

/-- The reader may have the descriptor of a message that it receives. -/
def Passing.Room (s : Passing File) : Move α File → Prop
  | .receive => ∀ d ∈ s.queue.head?, s.reader.table.fds.length + d.rights.length ≤ limit
  | _ => True

instance (s : Passing File) : ∀ m : Move α File, Decidable (s.Room limit m)
  | .receive => inferInstanceAs (Decidable (∀ d ∈ s.queue.head?, _ ≤ _))
  | .send .. | .drop _ | .install _ => inferInstanceAs (Decidable True)

end

section
variable {α ε File : Type}

def sent (tr : List (Event α ε File)) : List (α × Option File) :=
  tr.filterMap fun
    | .sent m fd => some (m, fd)
    | .received _ => none

def received (tr : List (Event α ε File)) : List (Except ε (α × Option (Option File))) :=
  tr.filterMap fun
    | .sent _ _ => none
    | .received answer => some answer

theorem sent_append (tr es : List (Event α ε File)) : sent (tr ++ es) = sent tr ++ sent es :=
  List.filterMap_append

theorem received_append (tr es : List (Event α ε File)) :
    received (tr ++ es) = received tr ++ received es :=
  List.filterMap_append

/-- A message as it is received. -/
def asReceived (m : α × Option File) : Except ε (α × Option (Option File)) :=
  .ok (m.1, m.2.map some)

/-- A message in the socket. -/
def Carries (C : Codec α) (m : α × Option File) (d : Datagram File) : Prop :=
  ∃ bytes, encode (C.toVec m.1) = .ok bytes ∧ d = ⟨bytes, m.2.toList⟩

variable {C : Codec α} {io codec closed malformed : ε} {nix : Cmsgs} {limit : Nat}

/-- A message that was sent is taken, and its descriptor opened. -/
theorem receive_carried {m : α × Option File} {d : Datagram File} (h : Carries C m d)
    {t : Table File} (hroom : t.fds.length + d.rights.length ≤ limit) :
    let r := (frameReceiver io codec closed malformed C.fromSlice).receive nix limit d t
    r.1.map (fun b => (b.1, b.2.map r.2.file?)) = asReceived m := by
  obtain ⟨m, fd⟩ := m
  obtain ⟨bytes, henc, rfl⟩ := h
  let rd := frameReceiver io codec closed malformed C.fromSlice
  have hlen : bytes.length ≤ rd.buflen := by
    obtain ⟨rfl, -, hle⟩ := Framing.encode_ok _ henc
    rw [List.length_append, Framing.length_toLeBytes]
    exact Nat.add_le_add_left hle _
  have hne : bytes ≠ [] := by
    obtain ⟨rfl, -, -⟩ := Framing.encode_ok _ henc
    exact fun hnil => by cases hnil
  have hdec : tryDecode C.fromSlice bytes = .ok (some (m, bytes.length)) := by
    have h := C.tryDecode_append henc []
    rwa [List.append_nil] at h
  have hfinish : ∀ fds : List Nat, fds.length ≤ 1 →
      rd.finish bytes fds = (.ok (m, fds.head?), fds.tail) := by
    intro fds hone
    show finishFrame codec closed malformed C.fromSlice bytes fds = _
    rw [finishFrame, if_neg hne, if_neg (by omega), hdec]
    simp
  cases fd with
  | none =>
    have hrecv : recvmsg limit rd.buflen rd.controllen ⟨bytes, (none : Option File).toList⟩ t =
        (⟨bytes, [], false⟩, t) := by
      rw [Option.toList_none, recvmsg_none, List.take_of_length_le hlen]
    have hwhole := rd.receive_whole nix limit ⟨bytes, _⟩ t (congrArg (·.1.ctrunc) hrecv)
    rw [hrecv] at hwhole
    simp only [hfinish [] (Nat.zero_le 1)] at hwhole
    intro r
    rw [show r = _ from hwhole]
    rfl
  | some f =>
    have hpos : 0 < scmMaxFds rd.controllen := Nat.lt_of_lt_of_eq Nat.zero_lt_two scmMaxFds_one.symm
    have hrecv : recvmsg limit rd.buflen rd.controllen ⟨bytes, (some f).toList⟩ t =
        (⟨bytes, [lowest t.fds], false⟩, t.install f) := by
      rw [Option.toList_some, recvmsg_one hpos bytes f hroom,
        List.take_of_length_le hlen]
    have hwhole := rd.receive_whole nix limit ⟨bytes, _⟩ t (congrArg (·.1.ctrunc) hrecv)
    rw [hrecv] at hwhole
    simp only [hfinish [lowest t.fds] (Nat.le_refl 1)] at hwhole
    intro r
    rw [show r = _ from hwhole]
    simp [Except.map, asReceived, Table.file?_install]

/-- What was sent is what was received, and then what is in the socket. -/
def InOrder (C : Codec α) (s : Passing File) (tr : List (Event α ε File)) : Prop :=
  ∃ waiting, (sent tr).map asReceived = received tr ++ waiting.map asReceived ∧
    List.Forall₂ (Carries C) waiting s.queue

theorem step_inOrder {s : Passing File} {tr : List (Event α ε File)} {move : Move α File}
    (hroom : s.Room limit move) (h : InOrder C s tr) :
    let r := s.step C (frameReceiver io codec closed malformed C.fromSlice) nix limit move
    InOrder C r.1 (tr ++ r.2) := by
  intro r
  obtain ⟨waiting, hsent, hqueue⟩ := h
  cases move with
  | send m fd kernel =>
    have hr : r = ({ s with queue := s.queue ++ (sendFrameWithFd kernel (C.toVec m) fd).2 },
      if (sendFrameWithFd kernel (C.toVec m) fd).1 = .ok () then [.sent m fd] else []) := rfl
    rw [hr]
    by_cases hok : (sendFrameWithFd kernel (C.toVec m) fd).1 = .ok ()
    · obtain ⟨bytes, henc, hbytes⟩ := sendFrameWithFd_ok hok
      rw [if_pos hok, hbytes]
      refine ⟨waiting ++ [(m, fd)], ?_, List.rel_append hqueue (.cons ⟨bytes, henc, rfl⟩ .nil)⟩
      rw [sent_append, received_append, List.map_append, hsent]
      simp [sent, received]
    · rw [if_neg hok, sendFrameWithFd_error hok]
      exact ⟨waiting, by simpa using hsent, by simpa using hqueue⟩
  | receive =>
    cases hq : s.queue with
    | nil =>
      have hr : r = (s, []) := by simp only [r, Passing.step, hq]
      rw [hr]
      exact ⟨waiting, by simpa using hsent, hqueue⟩
    | cons d queue =>
      rw [hq] at hqueue
      cases hqueue with
      | cons hcarries hrest =>
        next m waiting =>
        have hd := hroom d (by rw [hq]; rfl)
        let rd := frameReceiver io codec closed malformed C.fromSlice
        have hr : r = (⟨queue, (rd.step nix limit s.reader (.receive d)).1⟩,
            [.received (asReceived m)]) := by
          simp only [r, Passing.step, hq]
          rw [receive_carried hcarries hd]
        rw [hr]
        refine ⟨waiting, ?_, hrest⟩
        rw [sent_append, received_append, List.map_append, hsent]
        simp [sent, received]
  | drop fd => exact ⟨waiting, by simpa [r, Passing.step] using hsent, hqueue⟩
  | install f => exact ⟨waiting, by simpa [r, Passing.step] using hsent, hqueue⟩

/-- What was sent in the run is received in order, each message once, with its descriptor on the same
file. -/
def Arrived (r : Passing File × List (Event α ε File)) : Prop :=
  ∃ waiting : List (α × Option File),
    (sent r.2).map asReceived = received r.2 ++ waiting.map asReceived ∧
      waiting.length = r.1.queue.length

theorem run_arrived (C : Codec α) (io codec closed malformed : ε) (nix : Cmsgs) (limit : Nat)
    (reader : Holder File) (moves : List (Move α File)) :
    let rd := frameReceiver io codec closed malformed C.fromSlice
    Along (Passing.step C rd nix limit) (Passing.Room limit) ⟨[], reader⟩ moves →
      Arrived (run (Passing.step C rd nix limit) ⟨[], reader⟩ moves) := by
  intro rd h
  obtain ⟨waiting, hsent, hqueue⟩ := run_invariant_along (fun s tr => InOrder C s tr)
    (fun _ _ _ hroom hs => step_inOrder hroom hs) moves ⟨[], reader⟩ [] h ⟨[], rfl, .nil⟩
  exact ⟨waiting, hsent, hqueue.length_eq⟩

end

/-- **Every descriptor arrives.** On every interleaving of what is sent, received and otherwise done,
in which the reader may have the descriptors that come: what was sent is what was received, and then
what is still in the socket; every message as it was sent, with a descriptor on the file of the
sender's, or with none. -/
theorem frames_arrive {α File : Type} (C : Codec α) (B : Codec BrokerToCompositor) (nix : Cmsgs)
    (limit : Nat) (reader : Holder File) (moves : List (Move α File))
    (moves' : List (Move BrokerToCompositor File)) :
    (Along (Passing.step C (recvFrameWithFd C.fromSlice) nix limit) (Passing.Room limit)
        ⟨[], reader⟩ moves →
      Arrived (run (Passing.step C (recvFrameWithFd C.fromSlice) nix limit) ⟨[], reader⟩ moves)) ∧
    (Along (Passing.step B (recvWithFd B.fromSlice) nix limit) (Passing.Room limit)
        ⟨[], reader⟩ moves' →
      Arrived (run (Passing.step B (recvWithFd B.fromSlice) nix limit) ⟨[], reader⟩ moves')) :=
  ⟨run_arrived C TransportError.io .codec .closed .malformed nix limit reader moves,
    run_arrived B WireError.io .codec .closed .malformed nix limit reader moves'⟩

/-- The frames of the broker, in their compact form. -/
def brokerFrames : Codec BrokerToCompositor :=
  ⟨BrokerToCompositor.toVec, readBroker, readBroker_toVec⟩

/-- `SessionOpened` comes with the pidfd of the leader. -/
theorem frames_arrive_pidfd :
    let reader : Holder String := ⟨⟨[(0, "socket")], List.nodup_singleton 0⟩, [0]⟩
    let moves : List (Move BrokerToCompositor String) :=
      [.send .sessionOpened (some "pidfd") (.ok ()), .receive,
        .send (.sessionEnded (.exited 0)) none (.ok ()), .receive]
    Arrived (run (Passing.step brokerFrames (recvFrameWithFd brokerFrames.fromSlice) .enobufs 32)
        ⟨[], reader⟩ moves) ∧
      Arrived (run (Passing.step brokerFrames (recvWithFd brokerFrames.fromSlice) .enobufs 32)
        ⟨[], reader⟩ moves) := by
  intro reader moves
  obtain ⟨hworker, hbroker⟩ :=
    frames_arrive brokerFrames brokerFrames .enobufs 32 reader moves moves
  exact ⟨hworker (by decide +kernel), hbroker (by decide +kernel)⟩

end Halmasuit.Protocol.Descriptors
