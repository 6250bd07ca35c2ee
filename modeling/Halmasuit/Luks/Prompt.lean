import Halmasuit.Lib.Run
import Halmasuit.Lib.Utf8
import Halmasuit.Luks.Agent

/-!
# The prompt

Model of `State` in `halmasuit-luks/src/main.rs` (the poll, the keys and `request_close`) and of the
loop around it. The window is left out: nothing that is painted is read again. Each input says
whether the socket would take the datagram that a callback sends; one that is not taken is only
logged.

- A dispatch runs callbacks in any order and number. The loop looks at `should_exit` between
  dispatches, so what comes after the callback that sets it is still handled.
- The timer of the poll is dropped by a poll that finds `should_exit` set.

`step_moves` is everything that an input can do. `poll_picks_iff` is about the choice of a request:
the poll tries the first one that is listed, and no other.
-/

namespace Halmasuit.Luks

open Lib Lib.Utf8

/-- `CurrentRequest`. -/
structure CurrentRequest where
  path : Name
  ask : AskFile
  deriving DecidableEq

/-- `State`. -/
structure State where
  passphrase : List UInt8
  currentRequest : Option CurrentRequest
  active : Bool
  shouldExit : Bool
  deriving DecidableEq

/-- A datagram that was sent, with the request it answers. -/
structure Datagram where
  path : Name
  socket : List Char
  bytes : List UInt8
  deriving DecidableEq

/-- `send_datagram`. -/
def sendDatagram (req : CurrentRequest) (bytes : List UInt8) (sends : Bool) : List Datagram :=
  if sends then [⟨req.path, req.ask.responseSocket, bytes⟩] else []

/-- `AskFile::send_passphrase`. -/
def sendPassphrase (req : CurrentRequest) (passphrase : List UInt8) : Bool → List Datagram :=
  sendDatagram req (0x2b :: passphrase)

/-- `AskFile::send_cancel`. -/
def sendCancel (req : CurrentRequest) : Bool → List Datagram := sendDatagram req [0x2d]

/-! ## The keys -/

/-- `accept_passphrase_byte`. -/
def acceptPassphraseByte (b : UInt8) : Bool := decide (0x20 ≤ b ∧ b ≤ 0x7e) || decide (0x80 ≤ b)

/-- `State::type_char`. -/
def State.typeChar (s : State) (b : UInt8) : State :=
  match s.currentRequest with
  | none => s
  | some _ => { s with passphrase := s.passphrase ++ [b], active := true }

/-- `State::backspace`. -/
def State.backspace (s : State) : State :=
  match s.currentRequest with
  | none => s
  | some _ => { s with passphrase := s.passphrase.dropLast }

/-- `State::submit`. -/
def State.submit (s : State) (sends : Bool) : State × List Datagram :=
  match s.currentRequest with
  | none => (s, [])
  | some req =>
    ({ s with currentRequest := none, passphrase := [], active := false },
      sendPassphrase req s.passphrase sends)

/-- `State::cancel`. -/
def State.cancel (s : State) (sends : Bool) : State × List Datagram :=
  match s.currentRequest with
  | none => (s, [])
  | some req =>
    ({ s with currentRequest := none, passphrase := [], active := false }, sendCancel req sends)

/-- `press_key`, and `repeat_key`. -/
def State.pressKey (s : State) (keysym : UInt32) (text : Option (List Char)) (sends : Bool) :
    State × List Datagram :=
  if keysym = 0xff0d ∨ keysym = 0xff8d then s.submit sends
  else if keysym = 0xff1b then s.cancel sends
  else if keysym = 0xff08 then (s.backspace, [])
  else
    match text with
    | none => (s, [])
    | some text => (((utf8 text).filter acceptPassphraseByte).foldl State.typeChar s, [])

/-- `request_close`. -/
def State.requestClose (s : State) (sends : Bool) : State × List Datagram :=
  ({ (s.cancel sends).1 with shouldExit := true }, (s.cancel sends).2)

/-! ## The poll -/

/-- The request that the idle poll takes: the first of the listing, if it reads and parses. -/
def World.pick (w : World) : Option CurrentRequest :=
  match outstandingRequests w with
  | some (path :: _) =>
    match AskFile.read w path with
    | .ok ask => some ⟨path, ask⟩
    | .error _ => none
  | _ => none

/-- `State::poll_external_state`. -/
def State.pollExternalState (s : State) (w : World) (sends : Bool) : State × List Datagram :=
  if w.initrdRelease = false then
    ({ s with shouldExit := true },
      match s.currentRequest with
      | some req => sendCancel req sends
      | none => [])
  else
    match s.currentRequest with
    | some req =>
      if w.present req.path = false then
        ({ s with currentRequest := none, active := false, passphrase := [] }, [])
      else (s, [])
    | none =>
      match w.pick with
      | some req =>
        ({ s with currentRequest := some req, passphrase := [], active := false }, [])
      | none => (s, [])

/-! ## The loop -/

/-- What happens to the process: a callback, or the end of a dispatch. -/
inductive Input where
  | key (keysym : UInt32) (text : Option (List Char)) (sends : Bool)
  | requestClose (sends : Bool)
  | poll (w : World) (sends : Bool)
  | dispatched

/-- The process. -/
structure Process where
  state : State
  /-- The timer of the poll is registered. -/
  timer : Bool
  exited : Bool

/-- The start of the loop. -/
def start : Process := ⟨⟨[], none, false, false⟩, true, false⟩

/-- One input. -/
def step (p : Process) (i : Input) : Process × List Datagram :=
  if p.exited then (p, [])
  else
    match i with
    | .key keysym text sends =>
      ({ p with state := (p.state.pressKey keysym text sends).1 },
        (p.state.pressKey keysym text sends).2)
    | .requestClose sends =>
      ({ p with state := (p.state.requestClose sends).1 }, (p.state.requestClose sends).2)
    | .poll w sends =>
      if p.timer then
        ({ p with
            state := (p.state.pollExternalState w sends).1
            timer := !(p.state.pollExternalState w sends).1.shouldExit },
          (p.state.pollExternalState w sends).2)
      else (p, [])
    | .dispatched => ({ p with exited := p.state.shouldExit }, [])

/-! ## What an input can do -/

abbrev isEnter (keysym : UInt32) : Prop := keysym = 0xff0d ∨ keysym = 0xff8d

abbrev isEscape (keysym : UInt32) : Prop := keysym = 0xff1b

abbrev isBackSpace (keysym : UInt32) : Prop := keysym = 0xff08

/-- The bytes that a key adds. -/
def keyBytes (text : Option (List Char)) : List UInt8 :=
  (utf8 (text.getD [])).filter acceptPassphraseByte

/-- No request is current, and nothing is typed. -/
def State.cleared (s : State) : State :=
  { s with currentRequest := none, passphrase := [], active := false }

/-- What an input can do to a process that goes on. -/
inductive Moves (p : Process) : Input → Process → List Datagram → Prop
  | dispatched : Moves p .dispatched { p with exited := p.state.shouldExit } []
  /-- A key without a request to answer. -/
  | ignores {keysym text sends} : p.state.currentRequest = none →
    Moves p (.key keysym text sends) p []
  | types {req keysym text sends} (active : Bool) : p.state.currentRequest = some req →
    ¬ (isEnter keysym ∨ isEscape keysym) → ¬ isBackSpace keysym →
    Moves p (.key keysym text sends) { p with state := { p.state with
      passphrase := p.state.passphrase ++ keyBytes text, active } } []
  | erases {req keysym text sends} : p.state.currentRequest = some req → isBackSpace keysym →
    Moves p (.key keysym text sends) { p with state := { p.state with
      passphrase := p.state.passphrase.dropLast } } []
  | submits {req keysym text sends} : p.state.currentRequest = some req → isEnter keysym →
    Moves p (.key keysym text sends) { p with state := p.state.cleared }
      (sendPassphrase req p.state.passphrase sends)
  | cancels {req keysym text sends} : p.state.currentRequest = some req → isEscape keysym →
    Moves p (.key keysym text sends) { p with state := p.state.cleared } (sendCancel req sends)
  | closes {req sends} : p.state.currentRequest = some req →
    Moves p (.requestClose sends)
      { p with state := { p.state.cleared with shouldExit := true } } (sendCancel req sends)
  | closesIdle {sends} : p.state.currentRequest = none →
    Moves p (.requestClose sends) { p with state := { p.state with shouldExit := true } } []
  /-- A poll after the timer was dropped, or one that changes nothing but the timer. -/
  | waits {w sends} (timer : Bool) : Moves p (.poll w sends) { p with timer } []
  /-- The initrd is gone while a request is current. -/
  | pivots {req w sends} : p.state.currentRequest = some req → p.timer = true →
    w.initrdRelease = false →
    Moves p (.poll w sends) { p with state := { p.state with shouldExit := true }, timer := false }
      (sendCancel req sends)
  | pivotsIdle {w sends} : p.state.currentRequest = none → w.initrdRelease = false →
    Moves p (.poll w sends) { p with state := { p.state with shouldExit := true }, timer := false }
      []
  | vanishes {req w sends} (timer : Bool) : p.state.currentRequest = some req →
    Moves p (.poll w sends) { p with state := p.state.cleared, timer } []
  | picks {req w sends} (timer : Bool) : p.state.currentRequest = none → p.timer = true →
    w.initrdRelease = true → w.pick = some req →
    Moves p (.poll w sends)
      { p with state := { p.state.cleared with currentRequest := some req }, timer } []

theorem step_exited {p : Process} (h : p.exited = true) (i : Input) : step p i = (p, []) :=
  if_pos h

theorem foldl_typeChar {s : State} {req : CurrentRequest} (h : s.currentRequest = some req)
    (bs : List UInt8) :
    ∃ active, bs.foldl State.typeChar s =
      { s with passphrase := s.passphrase ++ bs, active } := by
  induction bs generalizing s with
  | nil => exact ⟨s.active, by simp⟩
  | cons b bs ih =>
    have hone : s.typeChar b = { s with passphrase := s.passphrase ++ [b], active := true } := by
      unfold State.typeChar
      rw [h]
    obtain ⟨active, hbs⟩ := ih (s := s.typeChar b) (by rw [hone]; exact h)
    refine ⟨active, ?_⟩
    rw [List.foldl_cons, hbs, hone]
    simp

theorem foldl_typeChar_idle {s : State} (h : s.currentRequest = none) (bs : List UInt8) :
    bs.foldl State.typeChar s = s := by
  induction bs with
  | nil => rfl
  | cons b bs ih =>
    have hone : s.typeChar b = s := by
      unfold State.typeChar
      rw [h]
    rw [List.foldl_cons, hone, ih]

theorem pressKey_idle {s : State} (h : s.currentRequest = none) (keysym : UInt32)
    (text : Option (List Char)) (sends : Bool) : s.pressKey keysym text sends = (s, []) := by
  cases text with
  | none => simp [State.pressKey, State.submit, State.cancel, State.backspace, h]
  | some text =>
    simp [State.pressKey, State.submit, State.cancel, State.backspace, h, foldl_typeChar_idle h]

theorem key_moves (p : Process) (keysym : UInt32) (text : Option (List Char)) (sends : Bool) :
    Moves p (.key keysym text sends) { p with state := (p.state.pressKey keysym text sends).1 }
      (p.state.pressKey keysym text sends).2 := by
  cases h : p.state.currentRequest with
  | none =>
    rw [pressKey_idle h]
    exact .ignores h
  | some req =>
    unfold State.pressKey
    split
    · rename_i hkey
      simp only [State.submit, h]
      exact .submits h hkey
    rename_i henter
    split
    · rename_i hkey
      simp only [State.cancel, h]
      exact .cancels h hkey
    rename_i hescape
    have hplain := not_or.mpr ⟨henter, hescape⟩
    split
    · rename_i hkey
      have hback : p.state.backspace =
          { p.state with passphrase := p.state.passphrase.dropLast } := by
        simp only [State.backspace, h]
      rw [hback]
      exact .erases h hkey
    rename_i hkey
    cases text with
    | none =>
      have htypes : Moves p (.key keysym none sends) _ [] := .types p.state.active h hplain hkey
      simpa [keyBytes, utf8] using htypes
    | some text =>
      obtain ⟨active, htyped⟩ := foldl_typeChar h ((utf8 text).filter acceptPassphraseByte)
      dsimp only
      rw [htyped]
      exact .types active h hplain hkey

theorem poll_moves {p : Process} (htimer : p.timer = true) (w : World) (sends : Bool) :
    Moves p (.poll w sends)
      { p with
        state := (p.state.pollExternalState w sends).1
        timer := !(p.state.pollExternalState w sends).1.shouldExit }
      (p.state.pollExternalState w sends).2 := by
  by_cases hgone : w.initrdRelease = false
  · cases h : p.state.currentRequest with
    | none =>
      have hpoll : p.state.pollExternalState w sends =
          ({ p.state with shouldExit := true }, []) := by
        simp only [State.pollExternalState, if_pos hgone, h]
      rw [hpoll]
      exact .pivotsIdle h hgone
    | some req =>
      have hpoll : p.state.pollExternalState w sends =
          ({ p.state with shouldExit := true }, sendCancel req sends) := by
        simp only [State.pollExternalState, if_pos hgone, h]
      rw [hpoll]
      exact .pivots h htimer hgone
  · cases h : p.state.currentRequest with
    | some req =>
      have hpoll : p.state.pollExternalState w sends =
          (if w.present req.path = false then p.state.cleared else p.state, []) := by
        simp only [State.pollExternalState, if_neg hgone, h]
        split <;> rfl
      rw [hpoll]
      split
      · exact .vanishes _ h
      · exact .waits _
    | none =>
      cases hpick : w.pick with
      | some req =>
        have hpoll : p.state.pollExternalState w sends =
            ({ p.state.cleared with currentRequest := some req }, []) := by
          simp only [State.pollExternalState, if_neg hgone, h, hpick, State.cleared]
        rw [hpoll]
        exact .picks _ h htimer (eq_true_of_ne_false hgone) hpick
      | none =>
        have hpoll : p.state.pollExternalState w sends = (p.state, []) := by
          simp only [State.pollExternalState, if_neg hgone, h, hpick]
        rw [hpoll]
        exact .waits _

/-- **The step.** Everything that an input can do. -/
theorem step_moves {p : Process} (hrun : p.exited = false) (i : Input) :
    Moves p i (step p i).1 (step p i).2 := by
  unfold step
  rw [if_neg (by simp [hrun])]
  cases i with
  | key keysym text sends => exact key_moves p keysym text sends
  | requestClose sends =>
    cases h : p.state.currentRequest with
    | none =>
      have hcancel : p.state.cancel sends = (p.state, []) := by
        unfold State.cancel
        rw [h]
      simp only [State.requestClose, hcancel]
      exact .closesIdle h
    | some req =>
      have hcancel : p.state.cancel sends = (p.state.cleared, sendCancel req sends) := by
        unfold State.cancel
        rw [h]
        rfl
      simp only [State.requestClose, hcancel]
      exact .closes h
  | poll w sends =>
    dsimp only
    split
    · rename_i htimer
      exact poll_moves htimer w sends
    · exact .waits p.timer
  | dispatched => exact .dispatched

/-! ## What a poll picks -/

theorem pick_eq_some {w : World} {req : CurrentRequest} :
    w.pick = some req ↔
      w.wholeListing ∧ w.listed.head? = some req.path ∧ AskFile.read w req.path = .ok req.ask := by
  unfold World.pick outstandingRequests World.wholeListing World.listed
  cases w.readDir with
  | notFound => simp
  | failed => simp
  | entries es =>
    dsimp only
    rw [collect_eq]
    by_cases hwhole : none ∈ es
    · simp [hwhole]
    · rw [if_neg hwhole]
      cases hasks : asks es with
      | nil => simp
      | cons path rest =>
        obtain ⟨path', ask⟩ := req
        cases hread : AskFile.read w path with
        | error e =>
          simp only [hread, reduceCtorEq, ReadDir.entries.injEq, exists_eq_left',
            List.head?_cons, Option.some.injEq, false_iff, not_and]
          rintro - rfl hok
          cases hread.symm.trans hok
        | ok ask' =>
          simp only [hread, ReadDir.entries.injEq, exists_eq_left', List.head?_cons,
            Option.some.injEq, CurrentRequest.mk.injEq, hwhole, not_false_eq_true, true_and]
          refine and_congr_right ?_
          rintro rfl
          rw [hread, Except.ok.injEq]

/-- A request is listed that reads and parses. -/
def World.Asks (w : World) : Prop := ∃ n ∈ w.listed, ∃ ask, AskFile.read w n = .ok ask

/-- The idle poll takes a request if there is one, exactly where the first that is listed is one
already, in a listing without errors. -/
theorem poll_picks_iff (s : State) (w : World) (sends : Bool) (hidle : s.currentRequest = none)
    (hinitrd : w.initrdRelease = true) :
    ((s.pollExternalState w sends).1.currentRequest.isSome = true ↔ w.Asks) ↔
      (w.Asks → w.wholeListing ∧
        ∃ n, w.listed.head? = some n ∧ ∃ ask, AskFile.read w n = .ok ask) := by
  have hpoll : (s.pollExternalState w sends).1.currentRequest = w.pick := by
    unfold State.pollExternalState
    rw [if_neg (by simp [hinitrd])]
    simp only [hidle]
    cases w.pick <;> simp [hidle]
  have hpick : w.pick.isSome = true ↔ w.wholeListing ∧
      ∃ n, w.listed.head? = some n ∧ ∃ ask, AskFile.read w n = .ok ask := by
    rw [Option.isSome_iff_exists]
    constructor
    · rintro ⟨req, h⟩
      obtain ⟨hwhole, hhead, hread⟩ := pick_eq_some.mp h
      exact ⟨hwhole, req.path, hhead, req.ask, hread⟩
    · rintro ⟨hwhole, n, hhead, ask, hread⟩
      exact ⟨⟨n, ask⟩, pick_eq_some.mpr ⟨hwhole, hhead, hread⟩⟩
  rw [hpoll, hpick]
  constructor
  · exact fun h => h.mpr
  · intro h
    refine ⟨?_, h⟩
    rintro ⟨-, n, hhead, hread⟩
    exact ⟨n, List.mem_of_head? hhead, hread⟩

/-- `ask.a` and `ask.b`. -/
def askA : Name := [0x61, 0x73, 0x6b, 0x2e, 0x61]
def askB : Name := [0x61, 0x73, 0x6b, 0x2e, 0x62]

/-- A directory in which the file of `askB` is a request, and no other file is. -/
def onlyB (names : List Name) : World where
  initrdRelease := true
  readDir := .entries (names.map some)
  readToString n := if n = askB then some "Socket=/s".toList else none
  present n := decide (n ∈ names)

/-- The file that cannot be read stands behind the request. -/
theorem poll_picks_b :
    ((start.state.pollExternalState (onlyB [askB, askA]) true).1.currentRequest.isSome = true ↔
      (onlyB [askB, askA]).Asks) :=
  (poll_picks_iff start.state (onlyB [askB, askA]) true rfl rfl).mpr fun _ =>
    ⟨⟨_, rfl, by decide⟩, askB, rfl, ⟨"/s".toList, [], false⟩, by decide⟩

/-- It stands before the request, and the poll takes nothing. -/
theorem unreadable_first_starves :
    ¬ ((start.state.pollExternalState (onlyB [askA, askB]) true).1.currentRequest.isSome = true ↔
      (onlyB [askA, askB]).Asks) := by
  intro h
  have hsome := h.mpr ⟨askB, by decide, ⟨"/s".toList, [], false⟩, by decide⟩
  exact absurd hsome (by decide)

end Halmasuit.Luks
