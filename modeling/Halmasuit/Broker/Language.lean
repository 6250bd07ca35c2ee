import Halmasuit.Lib.Run
import Halmasuit.Broker.Relay

/-!
# The language of the relay's output

What the compositor should see of one connection is a conversation, then either a `Failure`, or a
`Success`, a `SessionOpened` and a `SessionEnded` (`Spoken`, and `Place` reads it). The relay keeps
one phase for everything it awaits from the worker, so it forwards whatever the worker sends there,
in any order: a `SessionOpened` as the first frame (`opened_first_is_forwarded`), a `Failure` after
the `Success`, a conversation while the session runs.

- **`spoken_iff_inOrder`**: a run stays in the language, and refuses what would leave it, exactly
  when every message the relay reads from the worker continues the language.
-/

namespace Halmasuit.Broker

open Halmasuit.SessionIpc
open Halmasuit.Lib

/-! ## The language -/

def conversational : BrokerToCompositor → Bool
  | .convPrompt _ _ => true
  | .convDisplay _ _ => true
  | _ => false

/-- The beginnings of the words of the language. -/
def Spoken (w : List BrokerToCompositor) : Prop :=
  ∃ convs, (∀ f ∈ convs, conversational f = true) ∧
    ((∃ reason, w <+: convs ++ [.failure reason]) ∨
      ∃ username uid gid outcome,
        w <+: convs ++ [.success username uid gid, .sessionOpened, .sessionEnded outcome])

/-- Where in a word one is. -/
inductive Place where
  | talking
  | passed
  | opened
  | ended
  deriving DecidableEq, Repr

def Place.next : Place → BrokerToCompositor → Option Place
  | .talking, .convPrompt _ _ => some .talking
  | .talking, .convDisplay _ _ => some .talking
  | .talking, .failure _ => some .ended
  | .talking, .success _ _ _ => some .passed
  | .passed, .sessionOpened => some .opened
  | .opened, .sessionEnded _ => some .ended
  | _, _ => none

/-- Where a word leads from a place. -/
def Place.read : Place → List BrokerToCompositor → Option Place
  | p, [] => some p
  | p, f :: w => (p.next f).bind fun p' => p'.read w

theorem Place.read_append (p : Place) (w w' : List BrokerToCompositor) :
    p.read (w ++ w') = (p.read w).bind fun p' => p'.read w' := by
  induction w generalizing p with
  | nil => rfl
  | cons f w ih =>
    simp only [List.cons_append, Place.read]
    cases p.next f with
    | none => rfl
    | some p' => exact ih p'

/-- A conversation stays where it is. -/
theorem read_convs {convs : List BrokerToCompositor}
    (h : ∀ f ∈ convs, conversational f = true) : Place.talking.read convs = some .talking := by
  induction convs with
  | nil => rfl
  | cons f w ih =>
    have hf : Place.talking.next f = some .talking := by
      have := h f (by simp)
      cases f <;> first | rfl | cases this
    simp only [Place.read, hf, Option.bind_some]
    exact ih fun g hg => h g (by simp [hg])

/-- What is read before a place. -/
def Place.Before : Place → List BrokerToCompositor → Prop
  | .talking, w => ∀ f ∈ w, conversational f = true
  | .passed, w => ∃ convs username uid gid, (∀ f ∈ convs, conversational f = true) ∧
      w = convs ++ [.success username uid gid]
  | .opened, w => ∃ convs username uid gid, (∀ f ∈ convs, conversational f = true) ∧
      w = convs ++ [.success username uid gid, .sessionOpened]
  | .ended, w => ∃ convs, (∀ f ∈ convs, conversational f = true) ∧
      ((∃ reason, w = convs ++ [.failure reason]) ∨ ∃ username uid gid outcome,
        w = convs ++ [.success username uid gid, .sessionOpened, .sessionEnded outcome])

theorem Place.before_next {p p' : Place} {w : List BrokerToCompositor} {f : BrokerToCompositor}
    (h : p.Before w) (hn : p.next f = some p') : p'.Before (w ++ [f]) := by
  unfold Place.next at hn
  split at hn
  · cases hn
    intro g hg
    rcases List.mem_append.mp hg with hg | hg
    · exact h g hg
    · rw [List.mem_singleton.mp hg]
      rfl
  · cases hn
    intro g hg
    rcases List.mem_append.mp hg with hg | hg
    · exact h g hg
    · rw [List.mem_singleton.mp hg]
      rfl
  · cases hn
    exact ⟨w, h, .inl ⟨_, rfl⟩⟩
  · cases hn
    exact ⟨w, _, _, _, h, rfl⟩
  · cases hn
    obtain ⟨convs, username, uid, gid, hc, rfl⟩ := h
    exact ⟨convs, username, uid, gid, hc, by simp⟩
  · cases hn
    obtain ⟨convs, username, uid, gid, hc, rfl⟩ := h
    exact ⟨convs, hc, .inr ⟨username, uid, gid, _, List.append_assoc _ _ _⟩⟩
  · cases hn

theorem Place.before_read {w : List BrokerToCompositor} :
    ∀ {p p' : Place} {pre : List BrokerToCompositor}, p.Before pre → p.read w = some p' →
      p'.Before (pre ++ w) := by
  induction w with
  | nil =>
    rintro p p' pre h hr
    cases hr
    simpa using h
  | cons f w ih =>
    intro p p' pre h hr
    obtain ⟨q, hq, hr⟩ := Option.bind_eq_some_iff.mp hr
    simpa using ih (Place.before_next h hq) hr

/-- The places read exactly the language. -/
theorem spoken_iff_read (w : List BrokerToCompositor) :
    Spoken w ↔ (Place.talking.read w).isSome = true := by
  constructor
  · have hcut : ∀ {w v : List BrokerToCompositor}, w <+: v →
        (Place.talking.read v).isSome = true → (Place.talking.read w).isSome = true := by
      rintro w v ⟨u, rfl⟩ hv
      rw [Place.read_append] at hv
      cases hr : Place.talking.read w with
      | none =>
        rw [hr] at hv
        cases hv
      | some p => rfl
    rintro ⟨convs, hc, ⟨reason, hw⟩ | ⟨username, uid, gid, outcome, hw⟩⟩
    · refine hcut hw ?_
      rw [Place.read_append, read_convs hc]
      rfl
    · refine hcut hw ?_
      rw [Place.read_append, read_convs hc]
      rfl
  · intro h
    obtain ⟨p, hp⟩ := Option.isSome_iff_exists.mp h
    have hb : p.Before w := by
      have h0 : Place.talking.Before [] := by
        intro f hf
        cases hf
      simpa using Place.before_read h0 hp
    cases p with
    | talking => exact ⟨w, hb, .inl ⟨"", List.prefix_append _ _⟩⟩
    | passed =>
      obtain ⟨convs, username, uid, gid, hc, rfl⟩ := hb
      refine ⟨convs, hc, .inr ⟨username, uid, gid, .exited 0, ?_⟩⟩
      simp [List.prefix_append_right_inj]
    | opened =>
      obtain ⟨convs, username, uid, gid, hc, rfl⟩ := hb
      refine ⟨convs, hc, .inr ⟨username, uid, gid, .exited 0, ?_⟩⟩
      simp [List.prefix_append_right_inj]
    | ended =>
      obtain ⟨convs, hc, ⟨reason, rfl⟩ | ⟨username, uid, gid, outcome, rfl⟩⟩ := hb
      · exact ⟨convs, hc, .inl ⟨reason, List.prefix_rfl⟩⟩
      · exact ⟨convs, hc, .inr ⟨username, uid, gid, outcome, List.prefix_rfl⟩⟩

instance (w : List BrokerToCompositor) : Decidable (Spoken w) :=
  decidable_of_iff _ (spoken_iff_read w).symm

/-! ## Runs of a relay -/

/-- What a readiness of one of the two channels brings. -/
inductive RelayInput where
  | worker (current : Option (Except TransportError (ParentMessage × Option Fd)))
      (kernel : Except TransportError Unit)
  | greeter (recv : Except TransportError CompositorToBroker) (current : Bool)
      (kernel : Except TransportError Unit)
  deriving DecidableEq, Repr

/-- A relay, what it forwarded to the compositor, and whether its connection is over. -/
structure RelayRun where
  relay : Relay
  forwarded : List BrokerToCompositor
  ended : Bool
  deriving DecidableEq, Repr

def RelayRun.new : RelayRun := ⟨Relay.new, [], false⟩

/-- A message the worker's channel gave, what had been forwarded before, and what the relay did. -/
structure Offer where
  before : List BrokerToCompositor
  message : ParentMessage
  sent : Option BrokerToCompositor
  res : Except BrokerError RelayStep
  deriving DecidableEq

/-- A step that fails or finishes ends the connection. -/
def ends : Except BrokerError RelayStep → Bool
  | .ok .continue => false
  | _ => true

/-- The messages among what the worker's channel gives. -/
def Offer.of (before : List BrokerToCompositor)
    (current : Option (Except TransportError (ParentMessage × Option Fd)))
    (st : Stepped (BrokerToCompositor × Option Fd)) : List Offer :=
  match current with
  | some (.ok (pm, _)) => [⟨before, pm, st.sent.map (·.1), st.res⟩]
  | _ => []

/-- One readiness, while the connection lasts. -/
def RelayRun.step (s : RelayRun) (i : RelayInput) : RelayRun × List Offer :=
  if s.ended then (s, [])
  else
    match i with
    | .worker current kernel =>
      let st := s.relay.onWorkerReadable current kernel
      (⟨st.relay, s.forwarded ++ (st.sent.map (·.1)).toList, ends st.res⟩,
        Offer.of s.forwarded current st)
    | .greeter recv current kernel =>
      let st := s.relay.onGreeterReadable recv current kernel
      (⟨st.relay, s.forwarded, ends st.res⟩, [])

/-- The frame a worker's message is forwarded as, in any phase. -/
def ParentMessage.frame (pm : ParentMessage) : Option BrokerToCompositor :=
  (pm.relayed .awaitWorker).map (·.1)

theorem relayed_frame {pm : ParentMessage} {phase phase' : RelayPhase} {f : BrokerToCompositor}
    {step : RelayStep} (h : pm.relayed phase = some (f, phase', step)) : pm.frame = some f := by
  unfold ParentMessage.relayed at h
  unfold ParentMessage.frame ParentMessage.relayed
  split at h <;> cases h <;> rfl

/-- The message is not one the language allows after `before`. -/
def Leaves (before : List BrokerToCompositor) (pm : ParentMessage) : Prop :=
  ∀ f, pm.frame = some f → ¬ Spoken (before ++ [f])

/-- A message that leaves the language is refused, and nothing is forwarded for it. -/
def Offer.Refused (o : Offer) : Prop :=
  Leaves o.before o.message → o.res = .error .unexpectedFrame ∧ o.sent = none

/-- The phases in which the relay reads the worker's channel. -/
def RelayPhase.Reads (phase : RelayPhase) : Prop := phase = .awaitWorker ∨ phase = .sessionRunning

/-- What the worker sends, where the relay reads it, continues the language. -/
def InOrder (s : RelayRun) : RelayInput → Prop
  | .worker (some (.ok (pm, _))) _ =>
    s.ended = false → s.relay.phase.Reads → ∀ f, pm.frame = some f → Spoken (s.forwarded ++ [f])
  | _ => True

/-- A message that has a frame is not refused for being unexpected in a phase that reads. -/
theorem onWorkerReadable_not_unexpected {relay : Relay} (hp : relay.phase.Reads)
    {pm : ParentMessage} {f : BrokerToCompositor} (hf : pm.frame = some f) (fd : Option Fd)
    (kernel : Except TransportError Unit) :
    (relay.onWorkerReadable (some (.ok (pm, fd))) kernel).res ≠ .error .unexpectedFrame := by
  obtain ⟨⟨f', phase, step⟩, hr⟩ : ∃ r, pm.relayed relay.phase = some r := by
    unfold ParentMessage.frame ParentMessage.relayed at hf
    unfold ParentMessage.relayed
    split at hf <;> first | exact ⟨_, rfl⟩ | cases hf
  obtain ⟨fd', heq⟩ := onWorkerReadable_relayed hp hr fd kernel
  rw [heq]
  rcases write_cases relay kernel f'.toVec (f', fd') phase step with ⟨-, -, h⟩ | ⟨e, h⟩
  · rw [h]
    simp
  · rw [h]
    simp

/-- A message the relay does not take is refused without a word. -/
theorem onWorkerReadable_refuses {relay : Relay} {pm : ParentMessage} (fd : Option Fd)
    (kernel : Except TransportError Unit) (h : ¬ relay.phase.Reads ∨ pm.frame = none) :
    relay.onWorkerReadable (some (.ok (pm, fd))) kernel =
      ⟨relay, none, .error .unexpectedFrame⟩ := by
  unfold Relay.onWorkerReadable
  split
  · rfl
  rename_i hp
  have hreads : relay.phase.Reads := by
    by_cases h' : relay.phase = .awaitWorker
    · exact .inl h'
    · exact .inr (by_contra fun h'' => hp ⟨h', h''⟩)
  have hnone : pm.frame = none := h.resolve_left fun h' => h' hreads
  unfold ParentMessage.frame ParentMessage.relayed at hnone
  split at hnone
  all_goals first | rfl | cases hnone

/-- One message of the worker. -/
theorem message_inOrder {s : RelayRun} (hs : Spoken s.forwarded) (hend : s.ended = false)
    (pm : ParentMessage) (fd : Option Fd) (kernel : Except TransportError Unit) :
    let st := s.relay.onWorkerReadable (some (.ok (pm, fd))) kernel
    let i := RelayInput.worker (some (.ok (pm, fd))) kernel
    (InOrder s i ↔ Offer.Refused ⟨s.forwarded, pm, st.sent.map (·.1), st.res⟩) ∧
      (InOrder s i → Spoken (s.forwarded ++ (st.sent.map (·.1)).toList)) := by
  intro st i
  by_cases h : s.relay.phase.Reads ∧ ∃ f, pm.frame = some f
  · obtain ⟨hp, f, hf⟩ := h
    have hin : InOrder s i ↔ Spoken (s.forwarded ++ [f]) := by
      refine ⟨fun h => h hend hp f hf, fun h _ _ f' hf' => ?_⟩
      obtain rfl : f = f' := Option.some.inj (hf.symm.trans hf')
      exact h
    refine ⟨?_, fun h => ?_⟩
    · rw [hin]
      refine ⟨fun hsp hl => absurd hsp (hl f hf), fun href => by_contra fun hno => ?_⟩
      -- the message leaves the language, and is not refused
      have hl : Leaves s.forwarded pm := by
        intro f' hf'
        obtain rfl : f = f' := Option.some.inj (hf.symm.trans hf')
        exact hno
      exact onWorkerReadable_not_unexpected hp hf fd kernel (href hl).1
    · rcases onWorkerReadable_cases s.relay (some (.ok (pm, fd))) kernel with
        ⟨pm', fd', frame, fd'', phase, step, hcur, -, hrel, heq⟩ | ⟨e, heq⟩
      · obtain ⟨rfl, rfl⟩ : pm = pm' ∧ fd = fd' := by simpa using hcur
        obtain rfl : f = frame := Option.some.inj (hf.symm.trans (relayed_frame hrel))
        simp only [st, heq]
        exact hin.mp h
      · simp only [st, heq]
        simpa using hs
  · have hst : st = ⟨s.relay, none, .error .unexpectedFrame⟩ := by
      refine onWorkerReadable_refuses fd kernel ?_
      by_cases hp : s.relay.phase.Reads
      · exact .inr (Option.eq_none_iff_forall_not_mem.mpr fun f hf => h ⟨hp, f, hf⟩)
      · exact .inl hp
    have hin : InOrder s i := fun _ hp f hf => absurd ⟨hp, f, hf⟩ h
    rw [hst]
    exact ⟨⟨fun _ _ => ⟨rfl, rfl⟩, fun _ => hin⟩, fun _ => by simpa using hs⟩

/-- One readiness: it keeps to the language and refuses what leaves it exactly when it is in
order. -/
theorem step_inOrder {s : RelayRun} (hs : Spoken s.forwarded) (i : RelayInput) :
    (InOrder s i ↔ ∀ o ∈ (s.step i).2, o.Refused) ∧
      (InOrder s i → Spoken (s.step i).1.forwarded) := by
  have hquiet : ∀ o ∈ ([] : List Offer), o.Refused := by
    intro o ho
    cases ho
  unfold RelayRun.step
  cases hend : s.ended with
  | true =>
    simp only [if_true]
    refine ⟨⟨fun _ => hquiet, fun _ => ?_⟩, fun _ => hs⟩
    cases i with
    | greeter recv current kernel => trivial
    | worker current kernel =>
      unfold InOrder
      split
      · intro h
        rw [hend] at h
        cases h
      · trivial
  | false =>
    simp only [Bool.false_eq_true, if_false]
    cases i with
    | greeter recv current kernel => exact ⟨⟨fun _ => hquiet, fun _ => trivial⟩, fun _ => hs⟩
    | worker current kernel =>
      rcases current with _ | e | ⟨pm, fd⟩
      · have hst : (s.relay.onWorkerReadable none kernel).sent = none := by
          unfold Relay.onWorkerReadable
          split <;> rfl
        refine ⟨⟨fun _ => hquiet, fun _ => trivial⟩, fun _ => ?_⟩
        simpa [hst] using hs
      · have hst : (s.relay.onWorkerReadable (some (.error e)) kernel).sent = none := by
          unfold Relay.onWorkerReadable
          split <;> rfl
        refine ⟨⟨fun _ => hquiet, fun _ => trivial⟩, fun _ => ?_⟩
        simpa [hst] using hs
      · have h := message_inOrder hs hend pm fd kernel
        simpa [Offer.of] using h

/-- **The relay keeps to the language exactly as far as its worker does.** What a run forwards is a
beginning of a word of the language, and every message that would leave it is refused with nothing
forwarded, if and only if every message the relay reads from the worker continues the language. -/
theorem spoken_iff_inOrder (is : List RelayInput) :
    let r := run RelayRun.step .new is
    (Spoken r.1.forwarded ∧ ∀ o ∈ r.2, o.Refused) ↔ Along RelayRun.step InOrder .new is := by
  have hrun : ∀ (is : List RelayInput) (s : RelayRun), Spoken s.forwarded →
      ((Spoken (run RelayRun.step s is).1.forwarded ∧ ∀ o ∈ (run RelayRun.step s is).2, o.Refused) ↔
        Along RelayRun.step InOrder s is) := by
    intro is
    induction is with
    | nil =>
      intro s hs
      simp [run, Along, hs]
    | cons i is ih =>
      intro s hs
      obtain ⟨hiff, hnext⟩ := step_inOrder hs i
      simp only [run, Along, List.mem_append, hiff]
      constructor
      · rintro ⟨hsp, hall⟩
        have hfirst : ∀ o ∈ (s.step i).2, o.Refused := fun o ho => hall o (.inl ho)
        refine ⟨hfirst, (ih _ (hnext (hiff.mpr hfirst))).mp ⟨hsp, fun o ho => hall o (.inr ho)⟩⟩
      · rintro ⟨hfirst, hrest⟩
        obtain ⟨hsp, hall⟩ := (ih _ (hnext (hiff.mpr hfirst))).mpr hrest
        exact ⟨hsp, fun o ho => ho.elim (hfirst o) (hall o)⟩
  exact hrun is .new (by decide)

/-- A worker that claims a session before anything else has it forwarded. -/
theorem opened_first_is_forwarded :
    let r := run RelayRun.step .new
      [.worker (some (.ok (.outcome (.sessionOpened "alice" 1000 1000), none))) (.ok ())]
    r.1.forwarded = [.sessionOpened] ∧ r.2.map (·.res) = [.ok .continue] ∧
      ¬ Spoken r.1.forwarded := by
  decide +kernel

end Halmasuit.Broker
