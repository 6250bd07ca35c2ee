import Halmasuit.Luks.Prompt

/-!
# Answers to a request

A request is forgotten when it is answered, and its file stays until systemd removes it. A poll
between the two takes it for a new one. The poll that finds the initrd gone does the opposite: it
answers the request and keeps it.

- `first_iff`: a run, and whatever follows it, answers no request twice, exactly if none of its polls
  does one or the other (`Fresh`);
- `answers_twice`: a key that is pressed again before systemd has removed the file.
-/

namespace Halmasuit.Luks

open Lib

/-- The requests that were answered. -/
def answered (tr : List Datagram) : List Name := tr.map Datagram.path

/-- The datagram is the first for its request. -/
def First (tr : List Datagram) (d : Datagram) : Prop := d.path ∉ answered tr

/-- An idle poll finds no answered request before all others, and the initrd goes while no request
is current, unless the cancellation is lost. -/
def Fresh (v : Process × List Datagram) : Input → Prop
  | .poll w sends => v.1.exited = false → v.1.timer = true →
    (w.initrdRelease = true → v.1.state.currentRequest = none →
      ∀ req, w.pick = some req → req.path ∉ answered v.2) ∧
    (w.initrdRelease = false → sends = true → v.1.state.currentRequest = none)
  | _ => True

/-- The current request has no answer yet. -/
def Unanswered (p : Process) (tr : List Datagram) : Prop :=
  p.exited = false → ∀ req, p.state.currentRequest = some req → req.path ∉ answered tr

section
variable {p q : Process} {i : Input} {ds tr : List Datagram}

theorem sendDatagram_eq (req : CurrentRequest) (bytes : List UInt8) (sends : Bool) :
    sendDatagram req bytes sends = [] ∨
      sendDatagram req bytes sends = [⟨req.path, req.ask.responseSocket, bytes⟩] := by
  cases sends
  · exact .inl rfl
  · exact .inr rfl

/-- What an input sends answers the current request, with one datagram. -/
theorem Moves.answers (hm : Moves p i q ds) :
    ds = [] ∨ ∃ req d, p.state.currentRequest = some req ∧ ds = [d] ∧ d.path = req.path := by
  have hsends : ∀ {req bytes sends}, p.state.currentRequest = some req →
      sendDatagram req bytes sends = [] ∨ ∃ req' d, p.state.currentRequest = some req' ∧
        sendDatagram req bytes sends = [d] ∧ d.path = req'.path := by
    intro req bytes sends hreq
    exact (sendDatagram_eq req bytes sends).imp_right fun h => ⟨req, _, hreq, h, rfl⟩
  cases hm with
  | submits hreq => exact hsends hreq
  | cancels hreq => exact hsends hreq
  | closes hreq => exact hsends hreq
  | pivots hreq => exact hsends hreq
  | _ => exact .inl rfl

theorem Moves.first (hm : Moves p i q ds) (hp : p.exited = false) (hun : Unanswered p tr)
    (htr : Always First tr) : Always First (tr ++ ds) := by
  rcases hm.answers with rfl | ⟨req, d, hreq, rfl, hpath⟩
  · simpa using htr
  · refine htr.snoc ?_
    unfold First
    rw [hpath]
    exact hun hp req hreq

/-- An input that answers leaves no request current, and a new one is not answered. -/
theorem Moves.unanswered (hm : Moves p i q ds) (hp : p.exited = false) (hun : Unanswered p tr)
    (hfresh : Fresh (p, tr) i) : Unanswered q (tr ++ ds) := by
  intro hq req hreq
  have hsame : p.state.currentRequest = some req → ds = [] → req.path ∉ answered (tr ++ ds) := by
    rintro hreq rfl
    rw [List.append_nil]
    exact hun hp req hreq
  cases hm with
  | @pivots req' w sends hreq' htimer hgone =>
    cases sends with
    | true =>
      have hnone := (hfresh hp htimer).2 hgone rfl
      rw [hnone] at hreq'
      cases hreq'
    | false => exact hsame hreq rfl
  | @picks req' w sends timer hidle htimer hinitrd hpick =>
    obtain rfl : req' = req := Option.some.inj hreq
    rw [List.append_nil]
    exact (hfresh hp htimer).1 hinitrd hidle _ hpick
  | submits => cases hreq
  | cancels => cases hreq
  | closes => cases hreq
  | vanishes => cases hreq
  | _ => exact hsame hreq rfl

end

/-- Enter answers the current request. -/
theorem enter_breaks {p : Process} {req : CurrentRequest} {tr : List Datagram}
    (hp : p.exited = false) (hreq : p.state.currentRequest = some req)
    (hmem : req.path ∈ answered tr) :
    ¬ Always First (tr ++ (step p (.key 0xff0d none true)).2) := by
  have hsends : (step p (.key 0xff0d none true)).2 =
      [⟨req.path, req.ask.responseSocket, 0x2b :: p.state.passphrase⟩] := by
    simp [step, hp, State.pressKey, State.submit, hreq, sendPassphrase, sendDatagram]
  rw [hsends]
  exact fun hall => hall.last hmem

/-- A poll that is not fresh leaves a request current that was answered. -/
theorem stale_breaks {p : Process} {tr : List Datagram} {i : Input} (hfresh : ¬ Fresh (p, tr) i) :
    ∃ j, ¬ Always First (tr ++ (step p i).2 ++ (step (step p i).1 j).2) := by
  refine ⟨.key 0xff0d none true, ?_⟩
  cases i with
  | poll w sends =>
    simp only [Fresh, Classical.not_imp, not_and_or, not_forall] at hfresh
    obtain ⟨hp, htimer, ⟨hinitrd, hidle, req, hpick, hmem⟩ | ⟨hgone, rfl, hcur⟩⟩ := hfresh
    · refine @enter_breaks _ req _ ?_ ?_ ?_
      · simp [step, hp, htimer]
      · simp [step, hp, htimer, State.pollExternalState, hinitrd, hidle, hpick]
      · rw [answered, List.map_append]
        exact List.mem_append_left _ (not_not.mp hmem)
    · obtain ⟨req, hreq⟩ := Option.ne_none_iff_exists'.mp hcur
      refine @enter_breaks _ req _ ?_ ?_ ?_
      · simp [step, hp, htimer]
      · simp [step, hp, htimer, State.pollExternalState, hgone, hreq]
      · simp [step, hp, htimer, State.pollExternalState, hgone, hreq, sendCancel, sendDatagram,
          answered]
  | _ => exact absurd trivial hfresh

/-- **One answer.** Of a run, and of whatever comes after any of its inputs: no request is answered
twice, if and only if every poll of the run is fresh. -/
theorem first_iff (is : List Input) :
    (∀ pre post, is = pre ++ post → ∀ j, Always First (run step start (pre ++ [j])).2) ↔
      Along (recording step) Fresh (start, []) is := by
  have hnext : ∀ (p : Process) tr i, Always First tr → Unanswered p tr →
      Always First (tr ++ (step p i).2) := by
    intro p tr i htr hun
    cases hp : p.exited with
    | true => simpa [step_exited hp] using htr
    | false => exact (step_moves hp i).first hp hun htr
  have hstep : ∀ (p : Process) tr i, Unanswered p tr → Fresh (p, tr) i →
      Unanswered (step p i).1 (tr ++ (step p i).2) := by
    intro p tr i hun hfresh
    cases hp : p.exited with
    | true =>
      rw [step_exited hp]
      exact fun hq => absurd (hp.symm.trans hq) (by decide)
    | false => exact (step_moves hp i).unanswered hp hun hfresh
  have hstart : Unanswered start [] := fun _ _ hreq => by cases hreq
  have h := @run_next_always_iff _ _ _
    (fun v tr => v.2 = tr ∧ Always First tr ∧ Unanswered v.1 tr) (recording step) First Fresh
    (fun v tr i hv => hnext v.1 tr i hv.2.1 hv.2.2)
    (by
      rintro ⟨p, tr⟩ _ i ⟨rfl, htr, hun⟩ hfresh
      exact ⟨rfl, hnext p tr i htr hun, hstep p tr i hun hfresh⟩)
    (by
      rintro ⟨p, tr⟩ _ i ⟨rfl, htr, hun⟩ hfresh
      exact stale_breaks hfresh)
    is (start, []) [] ⟨rfl, always_nil _, hstart⟩
  simpa [run_recording] using h

/-! ## Before systemd removes the file -/

/-- What systemd does with a file: it is there from one input to another, and if it is removed in
the run, then after an answer. -/
def Lives (is : List Input) (n : Name) : Prop :=
  ∃ created removed : Nat,
    (∀ pre w sends post, is = pre ++ .poll w sends :: post →
      ((n ∈ w.listed ↔ created ≤ pre.length ∧ pre.length < removed) ∧
        (w.present n = true ↔ created ≤ pre.length ∧ pre.length < removed))) ∧
    (created < removed → removed ≤ is.length → n ∈ answered (run step start (is.take removed)).2)

/-- `ask.b` is answered, is still there at the next poll, and Enter repeats. -/
def repeated : List Input :=
  [.poll (onlyB [askB]) true, .key 0xff0d none true, .poll (onlyB [askB]) true,
    .key 0xff0d none true]

/-- Two answers to a file that systemd removes after the first. -/
theorem answers_twice :
    ¬ ∀ is, (∀ n, isAsk n = true → Lives is n) → Always First (run step start is).2 := by
  intro hclaim
  have hpoll : ∀ pre w sends post, repeated = pre ++ .poll w sends :: post →
      w = onlyB [askB] ∧ pre.length < 4 := by
    intro pre w sends post heq
    have hmem : Input.poll w sends ∈ repeated := by
      rw [heq]
      simp
    have hlen : 4 = pre.length + (post.length + 1) := by
      rw [← List.length_cons, ← List.length_append, ← heq]
      rfl
    refine ⟨?_, by omega⟩
    simp only [repeated, List.mem_cons, Input.poll.injEq, reduceCtorEq, List.not_mem_nil,
      or_false, false_or] at hmem
    exact hmem.elim And.left And.left
  have hlives : ∀ n, isAsk n = true → Lives repeated n := by
    intro n _
    by_cases hn : n = askB
    · subst hn
      refine ⟨0, 4, ?_, fun _ _ => by decide⟩
      intro pre w sends post heq
      obtain ⟨rfl, hlt⟩ := hpoll pre w sends post heq
      exact ⟨iff_of_true (by decide) ⟨by omega, hlt⟩, iff_of_true (by decide) ⟨by omega, hlt⟩⟩
    · refine ⟨0, 0, ?_, nofun⟩
      intro pre w sends post heq
      obtain ⟨rfl, -⟩ := hpoll pre w sends post heq
      have hlisted : (onlyB [askB]).listed = [askB] := by decide
      refine ⟨iff_of_false ?_ (by omega), iff_of_false ?_ (by omega)⟩
      · rw [hlisted, List.mem_singleton]
        exact hn
      · intro hpresent
        exact hn (List.mem_singleton.mp (of_decide_eq_true hpresent))
  have h := hclaim repeated hlives [⟨askB, "/s".toList, [0x2b]⟩] ⟨askB, "/s".toList, [0x2b]⟩ []
    (by decide)
  exact h (by decide)

end Halmasuit.Luks
