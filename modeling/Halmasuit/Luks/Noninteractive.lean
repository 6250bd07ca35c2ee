import Halmasuit.Lib.Run
import Halmasuit.Luks.Prompt

/-!
# The unattended agent

With `--passphrase-from` the agent has no window (`halmasuit-luks/src/main.rs` 104–310): it reads
the passphrase from a file, once, and answers what the directory asks for until the initrd is gone.
What a poll finds outside, and which sockets take a datagram, is the input of a turn. The warning
about the mode of the file is left out, as are the other lines of the log.

The prompt looks at the first request of a listing and takes no other; this loop looks at all of
them, at each poll again.

- `parseArgs_ok_iff`: which arguments are taken, and `mainNoninteractive_eq`: the file that is read;
- `finds_iff`: which requests a poll answers; `answerAll_pick`: the one that the prompt would show is
  among them;
- **`noninteractive_answers`**: on every run, a request has one answer for each poll that finds it
  and its socket ready, and each is the content of the file, to the last byte.
-/

namespace Halmasuit.Luks

open Lib

/-! ## The arguments -/

/-- The loop of `parse_args`, with what it has read so far. -/
def parseArgsFrom (passphraseFrom : Option String) : List String → Except String (Option String)
  | [] => .ok passphraseFrom
  | [arg] =>
    if arg = "--passphrase-from" then .error "--passphrase-from requires a PATH argument"
    else .error s!"unknown argument: {arg}"
  | arg :: path :: argv =>
    if arg = "--passphrase-from" then parseArgsFrom (some path) argv
    else .error s!"unknown argument: {arg}"

/-- `parse_args`. -/
def parseArgs : List String → Except String (Option String) := parseArgsFrom none

/-- The flag with each of the paths. -/
def passphraseArgs (paths : List String) : List String :=
  paths.flatMap fun path => ["--passphrase-from", path]

theorem parseArgsFrom_ok_iff (argv : List String) (acc r : Option String) :
    parseArgsFrom acc argv = .ok r ↔
      ∃ paths, argv = passphraseArgs paths ∧ r = paths.getLast?.or acc := by
  fun_induction parseArgsFrom acc argv with
  | case1 acc =>
    constructor
    · intro h
      exact ⟨[], rfl, (Except.ok.inj h).symm⟩
    · rintro ⟨paths, hnil, rfl⟩
      cases paths with
      | nil => rfl
      | cons path paths => simp [passphraseArgs] at hnil
  | case2 acc =>
    refine iff_of_false (fun h => by cases h) ?_
    rintro ⟨paths, heq, -⟩
    cases paths <;> simp [passphraseArgs] at heq
  | case3 acc arg hne =>
    refine iff_of_false (fun h => by cases h) ?_
    rintro ⟨paths, heq, -⟩
    cases paths <;> simp [passphraseArgs] at heq
  | case4 acc path argv ih =>
    rw [ih]
    constructor
    · rintro ⟨paths, rfl, rfl⟩
      refine ⟨path :: paths, rfl, ?_⟩
      cases paths <;> simp [List.getLast?_cons]
    · rintro ⟨paths, heq, rfl⟩
      cases paths with
      | nil => simp [passphraseArgs] at heq
      | cons path' paths =>
        simp only [passphraseArgs, List.flatMap_cons, List.cons_append, List.nil_append,
          List.cons.injEq, true_and] at heq
        obtain ⟨rfl, rfl⟩ := heq
        refine ⟨paths, rfl, ?_⟩
        cases paths <;> simp [List.getLast?_cons]
  | case5 acc arg path argv hne =>
    refine iff_of_false (fun h => by cases h) ?_
    rintro ⟨paths, heq, -⟩
    cases paths with
    | nil => simp [passphraseArgs] at heq
    | cons path' paths =>
      simp only [passphraseArgs, List.flatMap_cons, List.cons_append, List.cons.injEq] at heq
      exact hne heq.1

/-- The arguments are the flag with a path, as often as one likes, and the last path is taken. -/
theorem parseArgs_ok_iff (argv : List String) (r : Option String) :
    parseArgs argv = .ok r ↔ ∃ paths, argv = passphraseArgs paths ∧ r = paths.getLast? := by
  simp [parseArgs, parseArgsFrom_ok_iff]

/-! ## The loop -/

/-- What a turn of the loop finds: the world, and whether the socket that a request names would take
a datagram. -/
abbrev Poll : Type := World × (Name → Bool)

/-- The answer to one path of the scan. -/
def answerTo (passphrase : List UInt8) (i : Poll) (path : Name) : List Datagram :=
  match AskFile.read i.1 path with
  | .ok ask => sendPassphrase ⟨path, ask⟩ passphrase (i.2 path)
  | .error _ => []

/-- What the loop of `run_noninteractive` sends in a turn. -/
def answerAll (passphrase : List UInt8) (i : Poll) : List Datagram :=
  match outstandingRequests i.1 with
  | some requests => requests.flatMap (answerTo passphrase i)
  | none => []

/-- A turn of the loop of `run_noninteractive`: whether it goes on, and what it sends. -/
def turn (passphrase : List UInt8) (running : Bool) (i : Poll) : Bool × List Datagram :=
  if running && i.1.initrdRelease then (true, answerAll passphrase i) else (false, [])

/-- `run_noninteractive`, which ends at once if the file is not read: what it sends, and whether it
goes on. -/
def runNoninteractive (passphraseFile : Option (List UInt8)) (is : List Poll) :
    Option (Bool × List Datagram) :=
  passphraseFile.map fun passphrase => run (turn passphrase) true is

/-- `main`, where the arguments name a file. -/
def mainNoninteractive (fsRead : String → Option (List UInt8)) (argv : List String)
    (is : List Poll) : Option (Bool × List Datagram) :=
  match parseArgs argv with
  | .ok (some path) => runNoninteractive (fsRead path) is
  | _ => none

/-! ## What is answered -/

/-- The turns before the initrd is gone. -/
def live (is : List Poll) : List Poll := is.takeWhile (·.1.initrdRelease)

/-- The poll finds a request that it can answer: its file is read and parsed, and its socket takes
the datagram. -/
def finds (n : Name) (i : Poll) : Bool :=
  (outstandingRequests i.1).any (·.contains n) && (AskFile.read i.1 n).isOk && i.2 n

/-- The requests of a listing are found if all its entries are read. -/
theorem finds_iff (n : Name) (i : Poll) :
    finds n i = true ↔ i.1.wholeListing ∧ n ∈ i.1.listed ∧
      (∃ ask, AskFile.read i.1 n = .ok ask) ∧ i.2 n = true := by
  have hread : (AskFile.read i.1 n).isOk = true ↔ ∃ ask, AskFile.read i.1 n = .ok ask := by
    cases AskFile.read i.1 n <;> simp [Except.isOk, Except.toBool]
  have hscan : (outstandingRequests i.1).any (·.contains n) = true ↔
      i.1.wholeListing ∧ n ∈ i.1.listed := by
    unfold outstandingRequests World.wholeListing World.listed
    cases i.1.readDir with
    | notFound => simp
    | failed => simp
    | entries es =>
      dsimp only
      rw [collect_eq]
      by_cases hes : none ∈ es <;> simp [hes]
  unfold finds
  rw [Bool.and_eq_true, Bool.and_eq_true, hscan, hread]
  exact ⟨fun ⟨⟨⟨hw, hn⟩, hr⟩, hs⟩ => ⟨hw, hn, hr, hs⟩, fun ⟨hw, hn, hr, hs⟩ => ⟨⟨⟨hw, hn⟩, hr⟩, hs⟩⟩

section
variable {passphrase : List UInt8} {i : Poll} {path n : Name} {d : Datagram}

theorem mem_answerTo (h : d ∈ answerTo passphrase i path) :
    ∃ ask, AskFile.read i.1 path = .ok ask ∧ i.2 path = true ∧
      d = ⟨path, ask.responseSocket, 0x2b :: passphrase⟩ := by
  unfold answerTo at h
  cases hread : AskFile.read i.1 path with
  | error e =>
    rw [hread] at h
    cases h
  | ok ask =>
    rw [hread] at h
    cases hs : i.2 path with
    | true => exact ⟨ask, rfl, rfl, by simpa [sendPassphrase, sendDatagram, hs] using h⟩
    | false => simp [sendPassphrase, sendDatagram, hs] at h

theorem answerTo_of_read {ask : AskFile} (hread : AskFile.read i.1 path = .ok ask)
    (hs : i.2 path = true) :
    answerTo passphrase i path = [⟨path, ask.responseSocket, 0x2b :: passphrase⟩] := by
  simp [answerTo, hread, sendPassphrase, sendDatagram, hs]

/-- A path is answered for itself only. -/
theorem answerTo_filter (passphrase : List UInt8) (i : Poll) (n path : Name) :
    ((answerTo passphrase i path).filter (·.path = n)).length =
      if path = n ∧ (AskFile.read i.1 n).isOk = true ∧ i.2 n = true then 1 else 0 := by
  by_cases hpath : path = n
  · subst hpath
    unfold answerTo
    cases hread : AskFile.read i.1 path with
    | error e => simp [Except.isOk, Except.toBool]
    | ok ask =>
      cases hs : i.2 path <;> simp [sendPassphrase, sendDatagram, Except.isOk, Except.toBool]
  · rw [if_neg fun h => hpath h.1, List.length_eq_zero_iff, List.filter_eq_nil_iff]
    intro d hd
    obtain ⟨ask, -, -, rfl⟩ := mem_answerTo hd
    simpa using hpath

/-- Of paths that differ, each is answered once. -/
theorem flatMap_answerTo_filter (passphrase : List UInt8) (i : Poll) (n : Name)
    {requests : List Name} (hnodup : requests.Nodup) :
    ((requests.flatMap (answerTo passphrase i)).filter (·.path = n)).length =
      if n ∈ requests ∧ (AskFile.read i.1 n).isOk = true ∧ i.2 n = true then 1 else 0 := by
  induction requests with
  | nil => simp
  | cons path requests ih =>
    obtain ⟨hnot, hrest⟩ := List.nodup_cons.mp hnodup
    rw [List.flatMap_cons, List.filter_append, List.length_append, answerTo_filter, ih hrest]
    by_cases hpath : path = n
    · subst hpath
      simp [hnot]
    · simp [hpath, Ne.symm hpath]

/-- What the scan finds is listed, and no name twice. -/
theorem outstandingRequests_nodup {w : World} {requests : List Name} (hnodup : w.listed.Nodup)
    (hscan : outstandingRequests w = some requests) : requests.Nodup := by
  unfold outstandingRequests at hscan
  unfold World.listed at hnodup
  cases hdir : w.readDir with
  | notFound =>
    rw [hdir] at hscan
    obtain rfl := Option.some.inj hscan
    exact List.nodup_nil
  | failed =>
    rw [hdir] at hscan
    cases hscan
  | entries es =>
    rw [hdir] at hscan hnodup
    dsimp only at hscan hnodup
    rw [collect_eq] at hscan
    split at hscan
    · cases hscan
    · obtain rfl := Option.some.inj hscan
      exact hnodup

/-- A request that the poll finds has one answer. -/
theorem answerAll_filter (passphrase : List UInt8) {i : Poll} (n : Name)
    (hnodup : i.1.listed.Nodup) :
    ((answerAll passphrase i).filter (·.path = n)).length = if finds n i then 1 else 0 := by
  unfold answerAll finds
  cases hscan : outstandingRequests i.1 with
  | none => simp
  | some requests =>
    dsimp only
    rw [flatMap_answerTo_filter passphrase i n (outstandingRequests_nodup hnodup hscan)]
    simp [and_assoc]

theorem mem_answerAll (h : d ∈ answerAll passphrase i) :
    ∃ ask, AskFile.read i.1 d.path = .ok ask ∧ d.socket = ask.responseSocket ∧
      d.bytes = 0x2b :: passphrase ∧ finds d.path i = true := by
  unfold answerAll at h
  cases hscan : outstandingRequests i.1 with
  | none =>
    rw [hscan] at h
    cases h
  | some requests =>
    rw [hscan] at h
    obtain ⟨path, hpath, hd⟩ := List.mem_flatMap.mp h
    obtain ⟨ask, hread, hs, rfl⟩ := mem_answerTo hd
    refine ⟨ask, hread, rfl, rfl, ?_⟩
    simp [finds, hscan, hpath, hread, hs, Except.isOk, Except.toBool]

/-- What the prompt would take is answered, if its socket takes the datagram. -/
theorem answerAll_pick {req : CurrentRequest} (h : i.1.pick = some req) (hs : i.2 req.path = true) :
    ⟨req.path, req.ask.responseSocket, 0x2b :: passphrase⟩ ∈ answerAll passphrase i := by
  obtain ⟨rest, hscan, hread⟩ : ∃ rest, outstandingRequests i.1 = some (req.path :: rest) ∧
      AskFile.read i.1 req.path = .ok req.ask := by
    unfold World.pick at h
    split at h
    · rename_i path rest hscan
      split at h
      · rename_i ask hread
        obtain rfl := Option.some.inj h
        exact ⟨rest, hscan, hread⟩
      · cases h
    · cases h
  unfold answerAll
  rw [hscan]
  refine List.mem_flatMap.mpr ⟨req.path, List.mem_cons_self, ?_⟩
  rw [answerTo_of_read hread hs]
  exact List.mem_singleton.mpr rfl

end

/-! ## Runs -/

theorem run_stopped (passphrase : List UInt8) (is : List Poll) :
    run (turn passphrase) false is = (false, []) := by
  induction is with
  | nil => rfl
  | cons i is ih => simp [run, turn, ih]

/-- A run is made of the polls before the initrd is gone. -/
theorem run_turn (passphrase : List UInt8) (is : List Poll) :
    run (turn passphrase) true is =
      (is.all (·.1.initrdRelease), (live is).flatMap (answerAll passphrase)) := by
  induction is with
  | nil => rfl
  | cons i is ih =>
    unfold live at ih ⊢
    cases hi : i.1.initrdRelease with
    | true => simp [run, turn, hi, ih]
    | false => simp [run, turn, hi, run_stopped]

/-- The last path that is given is read. -/
theorem mainNoninteractive_eq (fsRead : String → Option (List UInt8)) (paths : List String)
    (path : String) (is : List Poll) :
    mainNoninteractive fsRead (passphraseArgs (paths ++ [path])) is =
      runNoninteractive (fsRead path) is := by
  have hargs : parseArgs (passphraseArgs (paths ++ [path])) = .ok (some path) :=
    (parseArgs_ok_iff _ _).mpr ⟨_, rfl, by simp⟩
  simp only [mainNoninteractive, hargs]

/-- **Every request is answered, with the file.** Where no listing names a file twice, a run sends
for a request one datagram for each poll before the initrd is gone that finds it and its socket
ready, whatever becomes of the other requests, and each is the content of the file that the last flag
names, for the socket that the request names; and the run is over exactly if a poll found the initrd
gone. -/
theorem noninteractive_answers {fsRead : String → Option (List UInt8)} (paths : List String)
    {path : String} {passphrase : List UInt8} (hread : fsRead path = some passphrase)
    (is : List Poll) (hnodup : ∀ i ∈ is, i.1.listed.Nodup) :
    ∃ running tr,
      mainNoninteractive fsRead (passphraseArgs (paths ++ [path])) is = some (running, tr) ∧
      (running = false ↔ ∃ i ∈ is, i.1.initrdRelease = false) ∧
      (∀ n, (tr.filter (·.path = n)).length = (live is).countP (finds n)) ∧
      ∀ d ∈ tr, d.bytes = 0x2b :: passphrase ∧ ∃ i ∈ live is, finds d.path i = true ∧
        ∃ ask, AskFile.read i.1 d.path = .ok ask ∧ d.socket = ask.responseSocket := by
  have hmain : mainNoninteractive fsRead (passphraseArgs (paths ++ [path])) is =
      some (run (turn passphrase) true is) := by
    rw [mainNoninteractive_eq, hread]
    rfl
  rw [run_turn] at hmain
  refine ⟨_, _, hmain, by simp, fun n => ?_, fun d hd => ?_⟩
  · have hlive : ∀ i ∈ live is, i.1.listed.Nodup := fun i hi =>
      hnodup i ((List.takeWhile_sublist _).mem hi)
    generalize live is = polls at hlive
    induction polls with
    | nil => rfl
    | cons i polls ih =>
      have hi := answerAll_filter passphrase n (hlive i List.mem_cons_self)
      rw [List.flatMap_cons, List.filter_append, List.length_append, hi,
        ih fun j hj => hlive j (List.mem_cons_of_mem i hj), List.countP_cons, Nat.add_comm]
  · obtain ⟨i, hi, hd⟩ := List.mem_flatMap.mp hd
    obtain ⟨ask, hread, hsocket, hbytes, hfinds⟩ := mem_answerAll hd
    exact ⟨hbytes, i, hi, hfinds, ask, hread, hsocket⟩

/-- The first path is not read. A request that stands behind a file that cannot be read is answered
by both polls that find it, and the third finds the initrd gone. -/
theorem noninteractive_answers_twice :
    let i : Poll := (onlyB [askA, askB], fun _ => true)
    let gone : Poll := ({ onlyB [askB] with initrdRelease := false }, fun _ => true)
    let fsRead : String → Option (List UInt8) := fun path =>
      if path = "/run/key" then some [0x78] else none
    ∃ tr, mainNoninteractive fsRead ["--passphrase-from", "/key", "--passphrase-from", "/run/key"]
        [i, i, gone] = some (false, tr) ∧
      (tr.filter (·.path = askB)).length = 2 := by
  intro i gone fsRead
  have hread : fsRead "/run/key" = some [0x78] := if_pos rfl
  obtain ⟨running, tr, hrun, hover, hcount, -⟩ :=
    noninteractive_answers ["/key"] hread [i, i, gone] (by decide)
  obtain rfl : running = false := hover.mpr ⟨gone, by simp, rfl⟩
  exact ⟨tr, hrun, (hcount askB).trans (by decide)⟩

end Halmasuit.Luks
