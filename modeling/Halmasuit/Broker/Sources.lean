import Halmasuit.Lib.Run
import Halmasuit.Broker.Loop

/-!
# The sources of the loop

A source that is registered with calloop watches a descriptor it does not own (`broker.rs` 384–398,
464–560). So it has to go before the owner of the descriptor does, and a channel that is kept has to
have its source, or nobody would ever read from it.

The bookkeeping is about a list of tokens that are in use: registering a source adds a token of its
own, removing one takes it out (`Holds`).

- **`sources_held`**: on every run the registered sources are exactly those of the in-flight
  connection, the pending connections and the greeters, each once, and an idle exit leaves none but
  the greeters'.
-/

namespace Halmasuit.Broker

open Halmasuit.SessionIpc
open Halmasuit.Lib

/-- The sources of the in-flight connection. -/
def Active.tokens (a : Active) : List Token := [a.greeterToken, a.workerToken]

/-- The sources that something in the loop holds the token of. -/
def BrokerLoop.held (bl : BrokerLoop) : List Token :=
  bl.active.toList.flatMap Active.tokens ++
    (bl.pending.map (·.token) ++ bl.greeters.map (·.token))

/-- What `find?` finds is what `eraseP` takes out. -/
theorem find?_split {α : Type} {p : α → Bool} {xs : List α} {x : α} (h : xs.find? p = some x) :
    ∃ l₁ l₂, xs = l₁ ++ x :: l₂ ∧ xs.eraseP p = l₁ ++ l₂ := by
  obtain ⟨hx, l₁, l₂, hsplit, hnot⟩ := List.find?_eq_some_iff_append.mp h
  refine ⟨l₁, l₂, hsplit, ?_⟩
  have hpre : ∀ y ∈ l₁, ¬ p y = true := by simpa using hnot
  rw [hsplit, List.eraseP_append_right _ hpre, List.eraseP_cons_of_pos hx]

/-- The sources are those of these tokens, each once, and no token to come is among them. -/
structure Holds (bl : BrokerLoop) (held : List Token) : Prop where
  sources : bl.sources.Perm held
  nodup : held.Nodup
  fresh : ∀ token ∈ held, token < bl.nextToken

namespace Holds

variable {bl bl' : BrokerLoop} {held held' : List Token}

theorem perm (h : Holds bl held) (hp : held.Perm held') : Holds bl held' :=
  ⟨h.sources.trans hp, hp.nodup_iff.mp h.nodup, fun t ht => h.fresh t (hp.mem_iff.mpr ht)⟩

/-- What is no matter of the sources. -/
theorem of_eq (h : Holds bl held) (hs : bl'.sources = bl.sources)
    (ht : bl'.nextToken = bl.nextToken) : Holds bl' held :=
  ⟨hs ▸ h.sources, h.nodup, fun t hmem => ht ▸ h.fresh t hmem⟩

theorem registered (h : Holds bl held) : Holds bl.registered (bl.nextToken :: held) := by
  refine ⟨h.sources.cons _, List.nodup_cons.mpr ⟨fun hmem => ?_, h.nodup⟩, ?_⟩
  · exact absurd (h.fresh _ hmem) (Nat.lt_irrefl _)
  · intro t ht
    show t < bl.nextToken + 1
    rcases List.mem_cons.mp ht with rfl | ht
    · exact Nat.lt_succ_self _
    · exact Nat.lt_succ_of_lt (h.fresh t ht)

theorem remove {token : Token} (h : Holds bl (token :: held)) : Holds (bl.remove token) held := by
  obtain ⟨hnot, hnodup⟩ := List.nodup_cons.mp h.nodup
  refine ⟨?_, hnodup, fun t ht => h.fresh t (List.mem_cons_of_mem _ ht)⟩
  have hf := h.sources.filter (· ≠ token)
  have hkeep : held.filter (· ≠ token) = held := by
    refine List.filter_eq_self.mpr fun t ht => ?_
    have hne : t ≠ token := fun heq => hnot (heq ▸ ht)
    simpa using hne
  rwa [List.filter_cons_of_neg (by simp), hkeep] at hf

end Holds

section
variable {bl : BrokerLoop} (h : Holds bl bl.held) (now : Instant)

include h

theorem armIdleIfQuiet_holds : Holds (bl.armIdleIfQuiet now) (bl.armIdleIfQuiet now).held := by
  unfold BrokerLoop.armIdleIfQuiet
  split
  · exact h
  · exact h.of_eq rfl rfl

theorem dropActive_holds : Holds (bl.dropActive now) (bl.dropActive now).held := by
  unfold BrokerLoop.dropActive
  split
  · rename_i a ha
    apply armIdleIfQuiet_holds
    have hheld : bl.held =
        a.greeterToken :: a.workerToken :: (bl.pending.map (·.token) ++
          bl.greeters.map (·.token)) := by
      simp [BrokerLoop.held, ha, Active.tokens]
    have hidle : Holds { bl with active := none } _ := (hheld ▸ h).of_eq rfl rfl
    exact hidle.remove.remove
  · exact armIdleIfQuiet_holds h now

theorem makeRoom_holds : Holds bl.makeRoom.1 bl.makeRoom.1.held := by
  unfold BrokerLoop.makeRoom
  split
  · rename_i old rest hp
    split
    · have hheld : bl.held.Perm (old.token :: { bl with pending := rest }.held) := by
        simp only [BrokerLoop.held, hp, List.map_cons, List.cons_append]
        exact List.perm_middle
      have hmoved : Holds { bl with pending := rest } _ := (h.perm hheld).of_eq rfl rfl
      exact hmoved.remove
    · exact h
  · exact h

theorem admitOne_holds (accepted : Accepted) (registers : Bool) :
    Holds (bl.admitOne accepted registers).1 (bl.admitOne accepted registers).1.held := by
  have hroom := makeRoom_holds h
  unfold BrokerLoop.admitOne
  split
  · exact h
  · exact h
  · exact h
  · split
    · exact h
    dsimp only
    split
    · have hnum : Holds { bl.makeRoom.1 with
          nextPendingId := bl.makeRoom.1.nextPendingId + 1 } bl.makeRoom.1.held :=
        hroom.of_eq rfl rfl
      refine (hnum.registered.perm ?_).of_eq rfl rfl
      simp only [BrokerLoop.held, List.map_append, List.map_cons, List.map_nil, List.append_assoc,
        List.cons_append, List.nil_append]
      rw [← List.append_assoc]
      exact List.perm_middle.symm.trans (by rw [List.append_assoc]; rfl)
    · exact hroom.of_eq rfl rfl

theorem activate_holds (greeter : Nat) (puid : UInt32) (w : World) :
    Holds (bl.activate greeter puid w).1 (bl.activate greeter puid w).1.held := by
  have hd := dropActive_holds h w.now
  rcases activate_cases bl greeter puid w with
    ⟨-, recent, heq⟩ | ⟨-, -, recent, heq⟩ | ⟨-, -, pid, recent, -, heq⟩
  · rw [heq]
    exact hd.of_eq rfl rfl
  · rw [heq]
    exact hd.of_eq rfl rfl
  · rw [heq]
    dsimp only
    generalize hc : { bl.dropActive w.now with
      slot := { bl.slot with recent := recent, inflight := some ⟨pid⟩ } } = created
    have hcreated : Holds created created.held := hc ▸ hd.of_eq rfl rfl
    split
    · split
      · refine (hcreated.registered.registered.perm (List.Perm.of_eq ?_)).of_eq rfl rfl
        subst hc
        simp [BrokerLoop.held, Active.tokens, BrokerLoop.registered]
      · subst hc
        exact hcreated.registered.remove
    · exact hcreated

theorem trackGreeter_holds (pid : Pid) (registers : Bool) :
    Holds (bl.trackGreeter pid registers) (bl.trackGreeter pid registers).held := by
  unfold BrokerLoop.trackGreeter
  split
  · refine (h.registered.perm ?_).of_eq rfl rfl
    simp only [BrokerLoop.held, registered_active, registered_pending, List.map_append,
      List.map_cons, List.map_nil, ← List.append_assoc]
    exact (List.perm_append_singleton _ _).symm
  · exact h

theorem firstFrameReady_holds (id : Nat) (recv : Except TransportError CompositorToBroker)
    (w : World) : Holds (bl.firstFrameReady id recv w).1 (bl.firstFrameReady id recv w).1.held := by
  unfold BrokerLoop.firstFrameReady
  cases hp : bl.pending.find? (·.id = id) with
  | none => exact h
  | some p =>
    dsimp only
    have htaken : Holds ({ bl with pending := bl.pending.eraseP (·.id = id) }.remove p.token)
        ({ bl with pending := bl.pending.eraseP (·.id = id) }.remove p.token).held := by
      obtain ⟨l₁, l₂, hsplit, herase⟩ := find?_split hp
      have hheld : bl.held.Perm
          (p.token :: { bl with pending := bl.pending.eraseP (·.id = id) }.held) := by
        simp only [BrokerLoop.held, herase]
        simp only [hsplit, List.map_append, List.map_cons, List.append_assoc, List.cons_append]
        rw [← List.append_assoc, ← List.append_assoc (bl.active.toList.flatMap Active.tokens)]
        exact List.perm_middle
      have hmoved : Holds { bl with pending := bl.pending.eraseP (·.id = id) } _ :=
        (h.perm hheld).of_eq rfl rfl
      exact hmoved.remove
    split
    · exact armIdleIfQuiet_holds (activate_holds htaken p.id p.puid w) w.now
    · exact armIdleIfQuiet_holds (trackGreeter_holds htaken _ _) w.now
    · exact armIdleIfQuiet_holds htaken w.now

theorem stepped_holds {α : Type} {a : Active} (ha : bl.active = some a) (st : Stepped α)
    (waits : Bool) :
    Holds (bl.stepped a st now waits).1 (bl.stepped a st now waits).1.held := by
  have hmoved : Holds { bl with active := some { a with relay := st.relay } }
      { bl with active := some { a with relay := st.relay } }.held := by
    have hheld : { bl with active := some { a with relay := st.relay } }.held = bl.held := by
      simp [BrokerLoop.held, ha, Active.tokens]
    rw [hheld]
    exact h.of_eq rfl rfl
  rcases stepped_cases bl a st now waits with heq | ⟨killed, heq⟩
  · rw [heq]
    exact hmoved
  · rw [heq]
    exact (dropActive_holds hmoved now).of_eq rfl rfl

theorem reapGreeter_holds (pid : Pid) : Holds (bl.reapGreeter pid) (bl.reapGreeter pid).held := by
  unfold BrokerLoop.reapGreeter
  cases hg : bl.greeters.find? (·.pid = pid) with
  | none => exact h
  | some g =>
    dsimp only
    obtain ⟨l₁, l₂, hsplit, herase⟩ := find?_split hg
    have hheld : bl.held.Perm
        (g.token :: { bl with greeters := bl.greeters.eraseP (·.pid = pid) }.held) := by
      simp only [BrokerLoop.held, herase]
      simp only [hsplit, List.map_append, List.map_cons, ← List.append_assoc]
      exact List.perm_middle
    have hmoved : Holds { bl with greeters := bl.greeters.eraseP (·.pid = pid) } _ :=
      (h.perm hheld).of_eq rfl rfl
    exact hmoved.remove

end

/-! ## Every callback -/

/-- The sources of a process. An idle exit comes only without a connection. -/
structure Sourced (s : BrokerProcess) : Prop where
  holds : Holds s.bl s.bl.held
  idle : s.exit = some .idle → s.bl.active = none ∧ s.bl.pending = []

/-- Nothing was there to accept. -/
theorem admitOne_false {bl bl' : BrokerLoop} {accepted : Accepted} {registers : Bool}
    {es : List LoopEvent} (h : bl.admitOne accepted registers = (bl', es, .ok false)) :
    bl' = bl := by
  unfold BrokerLoop.admitOne at h
  split at h
  · exact (Prod.mk.inj h).1.symm
  · cases h
  · cases h
  · split at h
    · cases h
    · dsimp only at h
      split at h <;> cases h

theorem turn_sourced {s : BrokerProcess} (h : Holds s.bl s.bl.held) (idleExit : Nat)
    (now : Instant) (accepted : Accepted) (registers : Bool) :
    Sourced (s.turn idleExit now accepted registers).1 := by
  have hover : ∀ bl : BrokerLoop, (if bl.running then none else some Exit.signalled)
      ≠ some .idle := by
    intro bl
    split <;> simp
  have hadm := admitOne_holds h accepted registers
  unfold BrokerProcess.turn
  dsimp only
  split
  · rename_i hquiet
    generalize heq : s.bl.admitOne accepted registers = r at hadm
    obtain ⟨bl, es, res⟩ := r
    rcases res with u | b
    · exact ⟨hadm, by simp⟩
    · cases b with
      | true => exact ⟨hadm, fun hidle => absurd hidle (hover bl)⟩
      | false =>
        refine ⟨hadm, fun _ => ?_⟩
        rw [admitOne_false heq]
        have hnone : s.bl.hasConnection = false := by
          simp only [shouldIdleExit, Bool.and_eq_true, Bool.not_eq_true'] at hquiet
          exact hquiet.1
        simpa [BrokerLoop.hasConnection] using hnone
  · exact ⟨h, fun hidle => absurd hidle (hover s.bl)⟩

theorem step_sourced {s : BrokerProcess} (h : Sourced s) (idleExit : Nat) (i : LoopInput) :
    Sourced (s.step idleExit i).1 := by
  unfold BrokerProcess.step
  dsimp only
  split
  · exact h
  rename_i hrun
  -- the process goes on, so it did not idle out
  have hgoes : ∀ bl : BrokerLoop, Holds bl bl.held → Sourced ⟨bl, s.exit⟩ := by
    intro bl hbl
    refine ⟨hbl, fun hidle => ?_⟩
    simp only at hidle
    rw [hidle] at hrun
    exact absurd rfl hrun
  cases i with
  | accept accepted registers => exact hgoes _ (admitOne_holds h.holds accepted registers)
  | firstFrame id recv w => exact hgoes _ (firstFrameReady_holds h.holds id recv w)
  | workerReadable recv kernel now waits =>
    unfold BrokerLoop.stepWorker
    cases ha : s.bl.active with
    | none => exact hgoes _ h.holds
    | some a => exact hgoes _ (stepped_holds h.holds now ha _ waits)
  | greeterReadable recv kernel now waits =>
    unfold BrokerLoop.stepGreeter
    cases ha : s.bl.active with
    | none => exact hgoes _ h.holds
    | some a => exact hgoes _ (stepped_holds h.holds now ha _ waits)
  | greeterExited pid => exact hgoes _ (reapGreeter_holds h.holds pid)
  | signal => exact hgoes _ (h.holds.of_eq rfl rfl)
  | turn now accepted registers => exact turn_sourced h.holds idleExit now accepted registers

end Halmasuit.Broker
