import Halmasuit.Luks.Prompt

/-!
# What is sent is what was typed

A process is watched together with the characters typed for the current request, and each datagram
with those that were typed when it was sent. The source keeps the bytes of the characters instead.
Its Backspace takes a byte, so after a character of several bytes it leaves some of them behind.

- `faithful_iff`: a run, and whatever follows it, sends the characters that were typed, exactly if
  each Backspace meets a character of one byte or none (`WholeChar`);
- `backspace_splits`: `é`, Backspace, Enter.
-/

namespace Halmasuit.Luks

open Lib Lib.Utf8

/-- The characters that a passphrase may have. -/
def acceptChar (c : Char) : Bool := decide (0x20 ≤ c.toNat ∧ c.toNat ≠ 0x7f)

/-- The characters typed for the current request, after one more input. -/
def typedAfter (p : Process) (typed : List Char) (i : Input) : List Char :=
  match p.state.currentRequest with
  | none => []
  | some _ =>
    match i with
    | .key keysym text _ =>
      if isEnter keysym ∨ isEscape keysym then typed
      else if isBackSpace keysym then typed.dropLast
      else typed ++ (text.getD []).filter acceptChar
    | _ => typed

/-- The process, watched. -/
def watch (v : Process × List Char) (i : Input) :
    (Process × List Char) × List (Datagram × List Char) :=
  (((step v.1 i).1, typedAfter v.1 v.2 i), (step v.1 i).2.map fun d => (d, v.2))

/-- A passphrase that is sent is what was typed. -/
def Faithful (e : Datagram × List Char) : Prop :=
  ∀ bytes, e.1.bytes = 0x2b :: bytes → bytes = utf8 e.2

/-- A Backspace takes a whole character. -/
def WholeChar (v : Process × List Char) : Input → Prop
  | .key keysym _ _ => isBackSpace keysym → v.1.exited = false →
    v.1.state.currentRequest.isSome = true → ∀ b ∈ v.1.state.passphrase.getLast?, b < 0x80
  | _ => True

/-- While a request is current, the buffer holds what was typed for it. -/
def Holds (v : Process × List Char) : Prop :=
  v.1.exited = false → v.1.state.currentRequest.isSome = true → v.1.state.passphrase = utf8 v.2

theorem keyBytes_eq (text : Option (List Char)) :
    keyBytes text = utf8 ((text.getD []).filter acceptChar) := by
  refine filter_utf8 (fun c b hb => ?_) _
  unfold acceptPassphraseByte acceptChar
  by_cases hc : c.toNat < 0x80
  · rw [encode_ascii hc, List.mem_singleton] at hb
    have hn : b.toNat = c.toNat := by
      rw [hb, UInt8.toNat_ofNat', Nat.mod_eq_of_lt (by omega)]
    simp only [UInt8.le_iff_toNat_le, hn, UInt8.reduceToNat, Bool.or_eq_decide]
    grind
  · have hhigh := (encode_high (Nat.le_of_not_lt hc)).2 b hb
    simp only [hhigh, decide_true, Bool.or_true]
    symm
    simp
    omega

theorem typedAfter_idle {p : Process} (h : p.state.currentRequest = none) (typed : List Char)
    (i : Input) : typedAfter p typed i = [] := by
  simp only [typedAfter, h]

section
variable {p q : Process} {i : Input} {ds : List Datagram} {typed : List Char}

theorem eq_of_mem_sendDatagram {req : CurrentRequest} {bytes : List UInt8} {sends : Bool}
    {d : Datagram} (h : d ∈ sendDatagram req bytes sends) :
    d = ⟨req.path, req.ask.responseSocket, bytes⟩ := by
  cases sends
  · cases h
  · exact List.mem_singleton.mp h

/-- A passphrase is the buffer. -/
theorem Moves.sends_passphrase (hm : Moves p i q ds) {d : Datagram} (hd : d ∈ ds)
    {bytes : List UInt8} (hplus : d.bytes = 0x2b :: bytes) :
    p.state.currentRequest.isSome = true ∧ bytes = p.state.passphrase := by
  have hcancel : ∀ {req sends}, d ∈ sendCancel req sends → False := by
    intro req sends hmem
    rw [eq_of_mem_sendDatagram hmem] at hplus
    exact absurd (List.cons.inj hplus).1 (by decide)
  cases hm with
  | submits hreq hkey =>
    rw [eq_of_mem_sendDatagram hd] at hplus
    exact ⟨by rw [hreq]; rfl, (List.cons.inj hplus).2.symm⟩
  | cancels hreq hkey => exact (hcancel hd).elim
  | closes hreq => exact (hcancel hd).elim
  | pivots hreq htimer hgone => exact (hcancel hd).elim
  | _ => cases hd

/-- An input keeps the buffer true, unless it is a Backspace that takes part of a character. -/
theorem Moves.holds (hm : Moves p i q ds) (hrun : p.exited = false) (hv : Holds (p, typed))
    (hwhole : WholeChar (p, typed) i) : Holds (q, typedAfter p typed i) := by
  intro hq hcur
  obtain hidle | ⟨req, hreq⟩ := p.state.currentRequest.eq_none_or_eq_some
  · -- Only a poll that picks a request ends with one.
    cases hm with
    | picks => rw [typedAfter_idle hidle, utf8_nil]; rfl
    | _ => simp_all
  have hold : p.state.passphrase = utf8 typed := hv hrun (by rw [hreq]; rfl)
  cases hm with
  | types active hreq' hplain hkey =>
    simp only [typedAfter, hreq, if_neg hplain, if_neg hkey, utf8_append, hold, keyBytes_eq]
  | erases hreq' hkey =>
    have hplain : ¬ (isEnter 0xff08 ∨ isEscape 0xff08) := by decide
    obtain rfl := hkey
    simp only [typedAfter, hreq, if_neg hplain, hold]
    refine (dropLast_utf8 typed).mp ?_
    rw [← hold]
    exact hwhole rfl hrun (by rw [hreq]; rfl)
  | dispatched => simpa only [typedAfter, hreq] using hold
  | pivots => simpa only [typedAfter, hreq] using hold
  | waits => simpa only [typedAfter, hreq] using hold
  | _ => simp_all [State.cleared]

end

/-- Where the buffer is true, a passphrase that is sent is. -/
theorem watch_faithful {v : Process × List Char} (hv : Holds v) (i : Input) :
    ∀ e ∈ (watch v i).2, Faithful e := by
  intro e he bytes hplus
  obtain ⟨d, hd, rfl⟩ := List.mem_map.mp he
  cases hrun : v.1.exited with
  | true =>
    rw [step_exited hrun] at hd
    cases hd
  | false =>
    obtain ⟨hcur, rfl⟩ := (step_moves hrun i).sends_passphrase hd hplus
    exact hv hrun hcur

theorem watch_holds {v : Process × List Char} {i : Input} (hv : Holds v) (hwhole : WholeChar v i) :
    Holds (watch v i).1 := by
  cases hrun : v.1.exited with
  | true =>
    intro hq
    rw [watch, step_exited hrun] at hq
    rw [hrun] at hq
    cases hq
  | false => exact (step_moves hrun i).holds hrun hv hwhole

/-- After a Backspace that takes part of a character, Enter sends what was not typed. -/
theorem split_breaks {v : Process × List Char} {i : Input} (hv : Holds v)
    (hwhole : ¬ WholeChar v i) :
    ∃ j, ∃ e ∈ (watch (watch v i).1 j).2, ¬ Faithful e := by
  obtain ⟨p, typed⟩ := v
  cases i with
  | key keysym text sends =>
    simp only [WholeChar, Classical.not_imp] at hwhole
    obtain ⟨rfl, hrun, hcur, hlast⟩ := hwhole
    obtain ⟨req, hreq⟩ := Option.isSome_iff_exists.mp hcur
    have hold : p.state.passphrase = utf8 typed := hv hrun hcur
    have hplain : ¬ (isEnter 0xff08 ∨ isEscape 0xff08) := by decide
    refine ⟨.key 0xff0d none true, (⟨req.path, req.ask.responseSocket,
      0x2b :: p.state.passphrase.dropLast⟩, typed.dropLast), ?_, ?_⟩
    · simp [watch, step, hrun, State.pressKey, State.backspace, State.submit, hreq,
        sendPassphrase, sendDatagram, typedAfter, hplain]
    · intro hfaithful
      refine hlast ?_
      rw [hold]
      exact (dropLast_utf8 typed).mpr (hold ▸ hfaithful _ rfl)
  | _ => exact absurd trivial hwhole

/-- **Fidelity.** Of a run, and of whatever comes after any of its inputs: every passphrase that is
sent is what was typed since its request became current, if and only if every Backspace of the run
finds the buffer empty or at the end of a character of one byte. -/
theorem faithful_iff (is : List Input) :
    (∀ pre post, is = pre ++ post →
      ∀ j, ∀ e ∈ (run watch (start, []) (pre ++ [j])).2, Faithful e) ↔
      Along watch WholeChar (start, []) is := by
  have hstart : Holds (start, []) := fun _ hcur => by cases hcur
  have h := @run_next_always_iff _ _ _ (fun v tr => (∀ e ∈ tr, Faithful e) ∧ Holds v) watch
    (fun _ e => Faithful e) WholeChar
    (fun v tr i hv => always_const_iff.mpr
      (List.forall_mem_append.mpr ⟨hv.1, watch_faithful hv.2 i⟩))
    (fun v tr i hv hwhole => ⟨List.forall_mem_append.mpr ⟨hv.1, watch_faithful hv.2 i⟩,
      watch_holds hv.2 hwhole⟩)
    (fun v tr i hv hwhole => by
      obtain ⟨j, e, he, hno⟩ := split_breaks hv.2 hwhole
      exact ⟨j, fun hall => hno (always_const_iff.mp hall e (List.mem_append_right _ he))⟩)
    is (start, []) [] ⟨nofun, hstart⟩
  simpa [always_const_iff] using h

/-- `é`, Backspace and Enter send the first byte of `é`. -/
theorem backspace_splits :
    ¬ ∀ e ∈ (run watch (start, []) [.poll (onlyB [askB]) true, .key 0xe9 (some ['é']) true,
      .key 0xff08 (some ['\x08']) true, .key 0xff0d (some ['\r']) true]).2, Faithful e := by
  intro hall
  have h := hall (⟨askB, "/s".toList, [0x2b, 0xc3]⟩, []) (by decide) [0xc3] rfl
  exact absurd h (by decide)

end Halmasuit.Luks
