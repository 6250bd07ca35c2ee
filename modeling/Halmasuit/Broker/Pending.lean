import Halmasuit.Lib.Run
import Halmasuit.Broker.Loop

/-!
# The table of pending connections

A connection past the uid gate waits in `pending` for its first frame. It leaves the table once: to
be dispatched, or evicted as the oldest when the table is full. `Table` is the table with its
history, and has three operations (`Table.number`, `Table.enter`, `Table.take`); every callback is
made of them. `Quiet` is the law of the idle clock: whatever takes a connection away arms it again.

- **`pending_table`**: on every run the table is bounded, its ids are distinct, every connection in
  it was let in by the gate and leaves it once, and the idle clock runs exactly while there is no
  connection.
-/

namespace Halmasuit.Broker

open Halmasuit.SessionIpc
open Halmasuit.Lib

/-! ## The table and its history -/

/-- A connection that was admitted under `id` and has not left the table. -/
def Waiting (tr : List LoopEvent) (id : Nat) : Prop :=
  (∃ puid, .admitted id puid ∈ tr) ∧ .evicted id ∉ tr ∧ .dispatched id ∉ tr

/-- What makes an event of the table right: only root and the relay peer are admitted, under an id
not used before; only a waiting connection is evicted or dispatched. -/
def TableOk (relayPeerUid : UInt32) (pre : List LoopEvent) : LoopEvent → Prop
  | .admitted id puid => (puid = 0 ∨ puid = relayPeerUid) ∧ ∀ puid', .admitted id puid' ∉ pre
  | .evicted id => Waiting pre id
  | .dispatched id => Waiting pre id
  | _ => True

/-- A table, the next id, and the events before. -/
structure Table (relayPeerUid : UInt32) (pending : List Pending) (next : Nat)
    (tr : List LoopEvent) : Prop where
  ids : (pending.map (·.id)).Nodup
  waiting : ∀ p ∈ pending, Waiting tr p.id
  numbered : ∀ id puid, .admitted id puid ∈ tr → id < next
  trace : Always (TableOk relayPeerUid) tr

section
variable {relayPeerUid : UInt32} {pending : List Pending} {next : Nat} {tr : List LoopEvent}

theorem Waiting.lt {id : Nat} (h : Table relayPeerUid pending next tr) (hw : Waiting tr id) :
    id < next := by
  obtain ⟨⟨puid, hmem⟩, -⟩ := hw
  exact h.numbered id puid hmem

/-- An id may be skipped. -/
theorem Table.number (h : Table relayPeerUid pending next tr) :
    Table relayPeerUid pending (next + 1) tr :=
  ⟨h.ids, h.waiting, fun id puid hm => Nat.lt_succ_of_lt (h.numbered id puid hm), h.trace⟩

/-- A connection is admitted under the next id. -/
theorem Table.enter (h : Table relayPeerUid pending next tr) {puid : UInt32}
    (hp : puid = 0 ∨ puid = relayPeerUid) (token : Token) :
    Table relayPeerUid (pending ++ [⟨next, puid, token⟩]) (next + 1)
      (tr ++ [LoopEvent.admitted next puid]) := by
  have hfresh : ∀ puid', LoopEvent.admitted next puid' ∉ tr :=
    fun puid' hm => Nat.lt_irrefl _ (h.numbered next puid' hm)
  -- an event about an id was preceded by its admission
  have hnew : .evicted next ∉ tr ∧ .dispatched next ∉ tr := by
    constructor
    all_goals
      intro hm
      obtain ⟨pre, post, rfl⟩ := List.append_of_mem hm
      obtain ⟨⟨puid', hmem⟩, -⟩ := h.trace _ _ _ rfl
      exact hfresh puid' (List.mem_append_left _ hmem)
  refine ⟨?_, ?_, ?_, h.trace.snoc ⟨hp, hfresh⟩⟩
  · rw [List.map_append, List.nodup_append]
    refine ⟨h.ids, by simp, ?_⟩
    rintro a ha b hb rfl
    obtain ⟨p, hpm, rfl⟩ := List.mem_map.mp ha
    simp only [List.map_cons, List.map_nil, List.mem_singleton] at hb
    exact Nat.ne_of_lt (Waiting.lt h (h.waiting p hpm)) hb
  · intro p hpm
    rcases List.mem_append.mp hpm with hpm | hpm
    · obtain ⟨⟨puid', hm⟩, he, hd⟩ := h.waiting p hpm
      exact ⟨⟨puid', List.mem_append_left _ hm⟩, by simpa using he, by simpa using hd⟩
    · obtain rfl := List.mem_singleton.mp hpm
      exact ⟨⟨puid, by simp⟩, by simpa using hnew.1, by simpa using hnew.2⟩
  · intro id puid' hm
    rcases List.mem_append.mp hm with hm | hm
    · exact Nat.lt_succ_of_lt (h.numbered id puid' hm)
    · obtain ⟨rfl, -⟩ : id = next ∧ puid' = puid := by simpa using hm
      exact Nat.lt_succ_self id

/-- A connection leaves, to be evicted or dispatched. -/
theorem Table.take (pre : List Pending) {post : List Pending} {p : Pending}
    (h : Table relayPeerUid (pre ++ p :: post) next tr) {e : LoopEvent}
    (he : e = .evicted p.id ∨ e = .dispatched p.id) :
    Table relayPeerUid (pre ++ post) next (tr ++ [e]) := by
  have hids := h.ids
  rw [List.map_append, List.map_cons, List.perm_middle.nodup_iff, List.nodup_cons,
    ← List.map_append] at hids
  have hsub : ∀ q ∈ pre ++ post, q ∈ pre ++ p :: post := by
    intro q hq
    rcases List.mem_append.mp hq with hq | hq
    · exact List.mem_append_left _ hq
    · exact List.mem_append_right _ (List.mem_cons_of_mem _ hq)
  have hok : TableOk relayPeerUid tr e := by
    have hw := h.waiting p (by simp)
    rcases he with rfl | rfl <;> exact hw
  refine ⟨hids.2, fun q hq => ?_, fun id puid hm => ?_, h.trace.snoc hok⟩
  · have hne : q.id ≠ p.id := fun heq => hids.1 (heq ▸ List.mem_map_of_mem hq)
    obtain ⟨⟨puid, hm⟩, hev, hdi⟩ := h.waiting q (hsub q hq)
    refine ⟨⟨puid, List.mem_append_left _ hm⟩, ?_, ?_⟩
    · rcases he with rfl | rfl <;> simp [hev, hne]
    · rcases he with rfl | rfl <;> simp [hdi, hne]
  · refine h.numbered id puid ?_
    rcases he with rfl | rfl <;> simpa using hm

/-- Events of workers leave the table alone. -/
theorem Table.workers (h : Table relayPeerUid pending next tr) {es : List LoopEvent}
    (hes : ∀ e ∈ es, ∃ pid, e = .spawned pid ∨ e = .lost pid ∨ ∃ killed, e = .reaped pid killed) :
    Table relayPeerUid pending next (tr ++ es) := by
  have hnot : ∀ e ∈ es, (∀ id puid, e ≠ .admitted id puid) ∧ (∀ id, e ≠ .evicted id) ∧
      (∀ id, e ≠ .dispatched id) := by
    intro e he
    obtain ⟨pid, rfl | rfl | ⟨killed, rfl⟩⟩ := hes e he <;> simp
  refine ⟨h.ids, fun p hp => ?_, fun id puid hm => ?_, h.trace.append_of_forall fun e he pre => ?_⟩
  · obtain ⟨⟨puid, hm⟩, hev, hdi⟩ := h.waiting p hp
    refine ⟨⟨puid, List.mem_append_left _ hm⟩, ?_, ?_⟩
    · exact fun hm' => (List.mem_append.mp hm').elim hev fun hm' => (hnot _ hm').2.1 _ rfl
    · exact fun hm' => (List.mem_append.mp hm').elim hdi fun hm' => (hnot _ hm').2.2 _ rfl
  · rcases List.mem_append.mp hm with hm | hm
    · exact h.numbered id puid hm
    · exact absurd rfl ((hnot _ hm).1 id puid)
  · obtain ⟨pid, rfl | rfl | ⟨killed, rfl⟩⟩ := hes e he <;> trivial

end

/-! ## The idle clock -/

/-- The idle clock is off while there is a connection. -/
def Armable (bl : BrokerLoop) : Prop := bl.hasConnection = true → bl.idleSince = none

/-- The idle clock runs exactly while there is no connection. -/
def Quiet (bl : BrokerLoop) : Prop :=
  bl.idleSince.isSome = true ↔ bl.active = none ∧ bl.pending = []

theorem hasConnection_eq_false {bl : BrokerLoop} :
    bl.hasConnection = false ↔ bl.active = none ∧ bl.pending = [] := by
  unfold BrokerLoop.hasConnection
  rw [Bool.or_eq_false_iff, Option.isSome_eq_false_iff, Option.isNone_iff_eq_none,
    Bool.not_eq_false', List.isEmpty_iff]

theorem Quiet.armable {bl : BrokerLoop} (h : Quiet bl) : Armable bl := by
  intro hc
  cases hi : bl.idleSince with
  | none => rfl
  | some t =>
    have hq := hasConnection_eq_false.mpr (h.mp (by simp [hi]))
    rw [hc] at hq
    cases hq

theorem quiet_armIdleIfQuiet {bl : BrokerLoop} (h : Armable bl) (now : Instant) :
    Quiet (bl.armIdleIfQuiet now) := by
  unfold BrokerLoop.armIdleIfQuiet
  split
  · rename_i hc
    unfold Quiet
    rw [h hc, ← hasConnection_eq_false, hc]
    simp
  · rename_i hc
    have hq := hasConnection_eq_false.mp (by simpa using hc)
    exact ⟨fun _ => hq, fun _ => rfl⟩

/-- Taking the in-flight connection away arms the clock where no other is left. -/
theorem quiet_dropActive (bl : BrokerLoop) (h : Armable bl) (now : Instant) :
    Quiet (bl.dropActive now) := by
  have hrest : ∀ bl' : BrokerLoop, bl'.active = none → bl'.pending = bl.pending →
      bl'.idleSince = bl.idleSince → Armable bl' := by
    intro bl' ha hp hi hc
    rw [hi]
    refine h ?_
    simp only [BrokerLoop.hasConnection, ha, hp, Option.isSome_none, Bool.false_or] at hc
    simp [BrokerLoop.hasConnection, hc]
  unfold BrokerLoop.dropActive
  split
  · refine quiet_armIdleIfQuiet (hrest _ ?_ ?_ ?_) now <;> rfl
  · rename_i ha
    exact quiet_armIdleIfQuiet (hrest _ ha rfl rfl) now

theorem armable_activate {bl : BrokerLoop} (h : Armable bl) (greeter : Nat) (puid : UInt32)
    (w : World) : Armable (bl.activate greeter puid w).1 := by
  have hd := (quiet_dropActive bl h w.now).armable
  rcases activate_cases bl greeter puid w with
    ⟨-, recent, heq⟩ | ⟨-, -, recent, heq⟩ | ⟨-, -, pid, recent, -, heq⟩
  · rw [heq]
    exact hd
  · rw [heq]
    exact hd
  · rw [heq]
    dsimp only
    split
    · split
      · exact fun _ => rfl
      · exact hd
    · exact hd

/-! ## Every callback keeps them -/

/-- The table of a loop, its bound, the gate's uid and the idle clock. -/
structure Tabled (relayPeerUid : UInt32) (bl : BrokerLoop) (tr : List LoopEvent) : Prop where
  table : Table relayPeerUid bl.pending bl.nextPendingId tr
  bound : bl.pending.length ≤ maxPending
  uid : bl.slot.relayPeerUid = relayPeerUid
  quiet : Quiet bl

section
variable {relayPeerUid : UInt32} {bl : BrokerLoop} {tr : List LoopEvent}

/-- Making room in the table. -/
theorem makeRoom_table (h : Tabled relayPeerUid bl tr) :
    Table relayPeerUid bl.makeRoom.1.pending bl.makeRoom.1.nextPendingId (tr ++ bl.makeRoom.2) ∧
    bl.makeRoom.1.pending.length < maxPending ∧ bl.makeRoom.1.slot = bl.slot ∧
    Quiet bl.makeRoom.1 := by
  have hmax : maxPending = 8 := rfl
  have hb := h.bound
  have ht := h.table
  unfold BrokerLoop.makeRoom
  cases hp : bl.pending with
  | nil =>
    rw [hp] at ht
    refine ⟨by simpa [hp] using ht, by simp [hp, hmax], rfl, h.quiet⟩
  | cons old rest =>
    rw [hp] at ht hb
    dsimp only
    split
    · rename_i hfull
      simp only [List.length_cons] at hb hfull
      refine ⟨?_, ?_, rfl, ?_⟩
      · exact Table.take [] ht (.inl rfl)
      · show rest.length < maxPending
        omega
      · -- the table was full, so it is not empty now
        have hne : rest ≠ [] := by
          rintro rfl
          simp only [List.length_nil] at hfull
          omega
        have hq := h.quiet
        unfold Quiet at hq ⊢
        simp only [remove_idleSince, remove_active, remove_pending, hne, and_false, iff_false]
        rw [hp] at hq
        simpa using hq
    · rename_i hroom
      simp only [List.length_cons] at hroom
      refine ⟨by simpa [hp] using ht, by simp [hp]; omega, rfl, h.quiet⟩

theorem admitOne_tabled (h : Tabled relayPeerUid bl tr) (accepted : Accepted) (registers : Bool) :
    Tabled relayPeerUid (bl.admitOne accepted registers).1
      (tr ++ (bl.admitOne accepted registers).2.1) := by
  obtain ⟨htable, hlt, hslot, hquiet⟩ := makeRoom_table h
  unfold BrokerLoop.admitOne
  split
  · simpa using h
  · simpa using h
  · simpa using h
  · rename_i puid
    split
    · simpa using h
    · rename_i hgate
      dsimp only
      split
      · have huid : puid = 0 ∨ puid = relayPeerUid := by
          rw [← h.uid]
          by_contra hno
          exact hgate ⟨fun h0 => hno (.inl h0), fun h1 => hno (.inr h1)⟩
        refine ⟨?_, ?_, ?_, ?_⟩
        · rw [← List.append_assoc]
          exact htable.enter huid _
        · simp only [List.length_append, List.length_cons, List.length_nil]
          omega
        · exact (congrArg AuthSlot.relayPeerUid hslot).trans h.uid
        · unfold Quiet
          simp
      · refine ⟨htable.number, ?_, ?_, hquiet⟩
        · exact Nat.le_of_lt hlt
        · exact (congrArg AuthSlot.relayPeerUid hslot).trans h.uid

theorem reaping_workers {slot : AuthSlot} {killed waits : Bool} {e : LoopEvent}
    (he : e ∈ slot.reaping killed waits) :
    ∃ pid, e = .spawned pid ∨ e = .lost pid ∨ ∃ killed, e = .reaped pid killed := by
  obtain ⟨pid, rfl⟩ := mem_reaping he
  refine ⟨pid, ?_⟩
  split <;> simp

/-- `activate` forks and waits, and leaves the table alone. -/
theorem activate_table (bl : BrokerLoop)
    (h : Table relayPeerUid bl.pending bl.nextPendingId tr) (greeter : Nat) (puid : UInt32)
    (w : World) :
    let r := bl.activate greeter puid w
    Table relayPeerUid r.1.pending r.1.nextPendingId (tr ++ r.2) ∧ r.1.pending = bl.pending ∧
      r.1.slot.relayPeerUid = bl.slot.relayPeerUid := by
  intro r
  rcases activate_cases bl greeter puid w with
    ⟨-, recent, heq⟩ | ⟨-, -, recent, heq⟩ | ⟨-, -, pid, recent, -, heq⟩
  · simp only [r, heq]
    exact ⟨by simpa using h, by simp, trivial⟩
  · simp only [r, heq]
    exact ⟨by simpa using h.workers fun e he => reaping_workers he, by simp, trivial⟩
  · simp only [r, heq]
    have hw : Table relayPeerUid bl.pending bl.nextPendingId
        (tr ++ (bl.slot.reaping true w.waits ++ [LoopEvent.spawned pid])) := by
      refine h.workers fun e he => ?_
      rcases List.mem_append.mp he with he | he
      · exact reaping_workers he
      · exact ⟨pid, .inl (List.mem_singleton.mp he)⟩
    refine ⟨?_, ?_, ?_⟩
    · split <;> [split; skip] <;> simpa using hw
    · split <;> [split; skip] <;> simp
    · split <;> [split; skip] <;> rfl

/-- The first pending connection with an id, and the table without it. -/
theorem take_split {pending : List Pending} {id : Nat} {p : Pending}
    (h : pending.find? (·.id = id) = some p) :
    p.id = id ∧ ∃ pre post, pending = pre ++ p :: post ∧
      pending.eraseP (·.id = id) = pre ++ post := by
  obtain ⟨hid, pre, post, rfl, hpre⟩ := List.find?_eq_some_iff_append.mp h
  refine ⟨by simpa using hid, pre, post, rfl, ?_⟩
  have hnone : ∀ q ∈ pre, ¬ (decide (q.id = id)) = true := by
    intro q hq
    simpa using hpre q hq
  rw [List.eraseP_append_right _ hnone]
  simp [hid]

theorem firstFrameReady_tabled (h : Tabled relayPeerUid bl tr) (id : Nat)
    (recv : Except TransportError CompositorToBroker) (w : World) :
    Tabled relayPeerUid (bl.firstFrameReady id recv w).1
      (tr ++ (bl.firstFrameReady id recv w).2) := by
  unfold BrokerLoop.firstFrameReady
  cases hp : bl.pending.find? (·.id = id) with
  | none => simpa using h
  | some p =>
    dsimp only
    obtain ⟨-, pre, post, hsplit, herase⟩ := take_split hp
    have ht := h.table
    have hb := h.bound
    rw [hsplit] at ht hb
    have htake : Table relayPeerUid (bl.pending.eraseP (·.id = id)) bl.nextPendingId
        (tr ++ [LoopEvent.dispatched p.id]) := by
      rw [herase]
      exact Table.take pre ht (.inr rfl)
    have hlen : (bl.pending.eraseP (·.id = id)).length ≤ maxPending := by
      rw [herase]
      simp only [List.length_append, List.length_cons] at hb ⊢
      omega
    -- there was a connection, so the clock was off
    have hoff : bl.idleSince = none := by
      refine h.quiet.armable ?_
      simp [BrokerLoop.hasConnection, hsplit]
    have harm : Armable ({ bl with pending := bl.pending.eraseP (·.id = id) }.remove p.token) :=
      fun _ => hoff
    split
    · obtain ⟨htab, hpend, huid⟩ := activate_table
        ({ bl with pending := bl.pending.eraseP (·.id = id) }.remove p.token) htake p.id p.puid w
      refine ⟨?_, ?_, ?_, quiet_armIdleIfQuiet (armable_activate harm p.id p.puid w) w.now⟩
      · simpa using htab
      · rw [armIdleIfQuiet_pending, hpend]
        exact hlen
      · rw [armIdleIfQuiet_slot, huid]
        exact h.uid
    · rename_i pid _
      have htrack : ∀ bl' : BrokerLoop,
          (bl'.trackGreeter pid w.registersGreeter).pending = bl'.pending ∧
          (bl'.trackGreeter pid w.registersGreeter).nextPendingId = bl'.nextPendingId ∧
          (bl'.trackGreeter pid w.registersGreeter).slot = bl'.slot ∧
          (Armable bl' → Armable (bl'.trackGreeter pid w.registersGreeter)) := by
        intro bl'
        unfold BrokerLoop.trackGreeter
        split <;> exact ⟨rfl, rfl, rfl, fun ha => ha⟩
      obtain ⟨h1, h2, h3, h4⟩ :=
        htrack ({ bl with pending := bl.pending.eraseP (·.id = id) }.remove p.token)
      refine ⟨?_, ?_, ?_, quiet_armIdleIfQuiet (h4 harm) w.now⟩
      · rw [armIdleIfQuiet_pending, armIdleIfQuiet_nextPendingId, h1, h2]
        exact htake
      · rw [armIdleIfQuiet_pending, h1]
        exact hlen
      · rw [armIdleIfQuiet_slot, h3]
        exact h.uid
    · refine ⟨?_, ?_, ?_, quiet_armIdleIfQuiet harm w.now⟩
      · rw [armIdleIfQuiet_pending, armIdleIfQuiet_nextPendingId]
        exact htake
      · rw [armIdleIfQuiet_pending]
        exact hlen
      · rw [armIdleIfQuiet_slot]
        exact h.uid

/-- A step of the in-flight connection leaves the table alone, and arms the clock if it ends. -/
theorem stepped_tabled {α : Type} (h : Tabled relayPeerUid bl tr) {a : Active}
    (ha : bl.active = some a) (st : Stepped α) (now : Instant) (waits : Bool) :
    Tabled relayPeerUid (bl.stepped a st now waits).1
      (tr ++ (bl.stepped a st now waits).2) := by
  have hoff : bl.idleSince = none := by
    refine h.quiet.armable ?_
    simp [BrokerLoop.hasConnection, ha]
  rcases stepped_cases bl a st now waits with heq | ⟨killed, heq⟩
  · rw [heq]
    refine ⟨by simpa using h.table, h.bound, h.uid, ?_⟩
    simp [Quiet, hoff]
  · rw [heq]
    refine ⟨?_, ?_, h.uid, ?_⟩
    · have hw : Table relayPeerUid bl.pending bl.nextPendingId
          (tr ++ bl.slot.reaping killed waits) :=
        h.table.workers fun e he => reaping_workers he
      simpa using hw
    · simpa using h.bound
    · exact quiet_dropActive { bl with active := some { a with relay := st.relay } }
        (fun _ => hoff) now

theorem turn_tabled {s : BrokerProcess} (h : Tabled relayPeerUid s.bl tr) (idleExit : Nat)
    (now : Instant) (accepted : Accepted) (registers : Bool) :
    Tabled relayPeerUid (s.turn idleExit now accepted registers).1.bl
      (tr ++ (s.turn idleExit now accepted registers).2) := by
  have hadm := admitOne_tabled h accepted registers
  unfold BrokerProcess.turn
  dsimp only
  split
  · generalize s.bl.admitOne accepted registers = r at hadm
    obtain ⟨bl, es, res⟩ := r
    rcases res with u | b
    · exact hadm
    · cases b <;> exact hadm
  · simpa using h

theorem step_tabled (idleExit : Nat) {s : BrokerProcess} (h : Tabled relayPeerUid s.bl tr)
    (i : LoopInput) :
    Tabled relayPeerUid (s.step idleExit i).1.bl (tr ++ (s.step idleExit i).2) := by
  unfold BrokerProcess.step
  dsimp only
  split
  · simpa using h
  cases i with
  | accept accepted registers => exact admitOne_tabled h accepted registers
  | firstFrame id recv w => exact firstFrameReady_tabled h id recv w
  | workerReadable recv kernel now waits =>
    unfold BrokerLoop.stepWorker
    cases ha : s.bl.active with
    | none => simpa using h
    | some a => exact stepped_tabled h ha _ now waits
  | greeterReadable recv kernel now waits =>
    unfold BrokerLoop.stepGreeter
    cases ha : s.bl.active with
    | none => simpa using h
    | some a => exact stepped_tabled h ha _ now waits
  | greeterExited pid =>
    dsimp only
    rw [List.append_nil]
    unfold BrokerLoop.reapGreeter
    split
    · exact ⟨h.table, h.bound, h.uid, h.quiet⟩
    · exact h
  | signal =>
    rw [List.append_nil]
    exact ⟨h.table, h.bound, h.uid, h.quiet⟩
  | turn now accepted registers => exact turn_tabled h idleExit now accepted registers

end

/-- **The table of pending connections.** On every run there are at most `MAX_PENDING` pending
connections, with distinct ids; only root and the relay peer were admitted, each under an id of its
own; a connection is dispatched or evicted only while it waits, so once; and the idle clock runs
exactly while there is no connection. -/
theorem pending_table (idleExit : Nat) (relayPeerUid : UInt32) (start : Instant)
    (is : List LoopInput) :
    let r := run (BrokerProcess.step idleExit) (.new relayPeerUid start) is
    r.1.bl.pending.length ≤ maxPending ∧ (r.1.bl.pending.map (·.id)).Nodup ∧
      (∀ p ∈ r.1.bl.pending, Waiting r.2 p.id) ∧ Always (TableOk relayPeerUid) r.2 ∧
      (r.1.bl.idleSince.isSome = true ↔ r.1.bl.active = none ∧ r.1.bl.pending = []) := by
  intro r
  have h0 : Tabled relayPeerUid (BrokerProcess.new relayPeerUid start).bl [] := by
    refine ⟨⟨by simp [BrokerProcess.new, BrokerLoop.new], ?_, by simp, always_nil _⟩, ?_, rfl, ?_⟩
    · intro p hp
      cases hp
    · exact Nat.zero_le _
    · simp [Quiet, BrokerProcess.new, BrokerLoop.new]
  have h := run_invariant_init (fun (s : BrokerProcess) tr => Tabled relayPeerUid s.bl tr) h0
    (fun s tr i h => step_tabled idleExit h i) is
  exact ⟨h.bound, h.table.ids, h.table.waiting, h.table.trace, h.quiet⟩

end Halmasuit.Broker
