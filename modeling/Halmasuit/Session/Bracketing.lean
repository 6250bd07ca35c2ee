import Halmasuit.Session.RunSession

/-!
# What the session worker leaves open

A session that was opened is to be closed, credentials that were established are to be deleted, both
before `pam_end`, and a leader that was forked is to be waited for (`Bracketed`). `run_session` does
all of it in its last lines, and leaves by `?` before them: once the credentials are established,
any failure up to the end of `close_session` skips what is left. A uid that `validate` refuses is
one, after the session was opened (`refused_uid_keeps_session`).

- **`bracketed_iff`**: exactly which answers of the world keep the brackets.
-/

namespace Halmasuit.Session

open Halmasuit.Lib
open Halmasuit.SessionIpc
open Halmasuit.Broker (TransportError WorkerOutcome ParentMessage send)

/-! ## The brackets -/

def isClose : Act → Bool
  | .closeSession _ => true
  | _ => false

def isDelete : Act → Bool
  | .setCredDeleted _ => true
  | _ => false

/-- A call `p` is made exactly once, and before `pam_end`. -/
def Once (p : Act → Bool) (post : List Act) : Prop :=
  post.countP p = 1 ∧ (post.takeWhile (· ≠ .pamEnd)).countP p = 1

/-- What is asked of a run of the worker. -/
structure Bracketed (tr : List Act) : Prop where
  session : ∀ pre post, tr = pre ++ .openSession true :: post → Once isClose post
  credentials : ∀ pre post, tr = pre ++ .setCredEstablished true :: post → Once isDelete post
  leader : ∀ pre post pid, tr = pre ++ .spawned pid :: post → .waited pid ∈ post

/-- The identity the passwd database gives for the name PAM resolved. -/
def World.identity (w : World) : Option ResolvedIdentity :=
  match w.getUser with
  | .error _ => none
  | .ok resolved => (w.resolves resolved).map fun (uid, gid) => ⟨resolved, uid, gid⟩

/-- Everything up to `set_cred_established` succeeds. -/
structure World.Establishes (w : World) (service username : String) (id : ResolvedIdentity) :
    Prop where
  service : hasNul service = false
  username : hasNul username = false
  start : w.start = pamSuccess
  authenticate : w.authenticate.ok = true
  acctMgmt : w.acctMgmt.ok = true
  identity : w.identity = some id
  setCred : w.setCred.ok = true

/-- Everything from the `AuthOk` to `close_session` succeeds. -/
def World.Completes (w : World) (id : ResolvedIdentity) : Prop :=
  send w.sendAuthOk (WorkerOutcome.authOk id.username id.uid id.gid).toVec = .ok () ∧
  ∃ cmd env, w.recvSpec = .ok (.startSession cmd env) ∧
    (∀ kv ∈ env, hasNul (kv.1 ++ "=" ++ kv.2) = false ∧
      w.putEnv (kv.1 ++ "=" ++ kv.2) = pamSuccess) ∧
    w.openSession.ok = true ∧
    ∃ pamEnv, w.getEnvList = some pamEnv ∧
    ∃ spec, validate w.checks id cmd pamEnv = .ok spec ∧
    ∃ groups, userGroups w id.username id.gid = .ok groups ∧
    (w.spawnLeader spec groups).isSome = true ∧
    send w.sendOpened (WorkerOutcome.sessionOpened id.username id.uid id.gid).toVec = .ok () ∧
    w.wait.isSome = true ∧ w.closeSession.ok = true

/-! ## The frames on the channel -/

/-- A frame on the channel, which is no bracket. -/
def isWire : Act → Bool
  | .sent _ => true
  | .received _ => true
  | _ => false

/-- A frame of a conversation, or one that was read: a frame that reports nothing. -/
def isTalk : Act → Bool
  | .sent (.conv _) => true
  | .received _ => true
  | _ => false

theorem isWire_of_isTalk {a : Act} (h : isTalk a = true) : isWire a = true := by
  cases a <;> first | rfl | cases h

theorem talk_acts (c : PamCall) : ∀ a ∈ c.acts, isTalk a = true := by
  intro a ha
  obtain ⟨m, -, hm⟩ := List.mem_flatMap.mp ha
  unfold Conversed.acts at hm
  split at hm
  · cases hm
  · rename_i style message reply
    rcases List.mem_cons.mp hm with rfl | hm
    · rfl
    · cases reply with
      | none => cases hm
      | some f =>
        obtain rfl := List.mem_singleton.mp hm
        rfl
  · cases hm
  · obtain rfl := List.mem_singleton.mp hm
    rfl

theorem talk_readSpec (w : World) : ∀ a ∈ (readSpec w).events, isTalk a = true := by
  unfold readSpec
  split
  · intro a ha
    cases ha
  · refine Emit.forall_bind (by simp [isTalk]) fun _ => ?_
    split
    · refine Emit.forall_bind (by simp [putEnvs_events]) (by simp)
    · simp
    · simp

theorem talk_runAuthPhase (w : World) : ∀ a ∈ (runAuthPhase w).events, isTalk a = true := by
  unfold runAuthPhase
  refine Emit.forall_bind (talk_acts _) fun _ => Emit.forall_bind (talk_acts _) fun _ => ?_
  split
  · simp
  · split <;> simp

theorem wire_acts (c : PamCall) : ∀ a ∈ c.acts, isWire a = true :=
  fun a ha => isWire_of_isTalk (talk_acts c a ha)

theorem wire_readSpec (w : World) : ∀ a ∈ (readSpec w).events, isWire a = true :=
  fun a ha => isWire_of_isTalk (talk_readSpec w a ha)

theorem wire_runAuthPhase (w : World) : ∀ a ∈ (runAuthPhase w).events, isWire a = true :=
  fun a ha => isWire_of_isTalk (talk_runAuthPhase w a ha)

theorem wire_sendOutcome (kernel : Except TransportError Unit) (o : WorkerOutcome) :
    ∀ a ∈ (sendOutcome kernel o).events, isWire a = true := by
  intro a ha
  unfold sendOutcome at ha
  split at ha
  · obtain rfl := List.mem_singleton.mp ha
    rfl
  · cases ha

/-! ## When the steps succeed -/

theorem pamStep_ok {c : PamCall} {e : Int32 → SessionError} {u : Unit} :
    (pamStep c e).result = .ok u ↔ c.ok = true := by
  unfold pamStep
  cases c.ok <;> simp

theorem pamBracket_ok {c : PamCall} {act : Bool → Act} {e : Int32 → SessionError} {u : Unit} :
    (pamBracket c act e).result = .ok u ↔ c.ok = true := by
  unfold pamBracket
  cases c.ok <;> simp

theorem sendOutcome_ok {kernel : Except TransportError Unit} {o : WorkerOutcome} {u : Unit} :
    (sendOutcome kernel o).result = .ok u ↔ send kernel o.toVec = .ok () := by
  unfold sendOutcome
  cases send kernel o.toVec <;> simp

theorem runAuthPhase_ok {w : World} {id : ResolvedIdentity} :
    (runAuthPhase w).result = .ok id ↔
      w.authenticate.ok = true ∧ w.acctMgmt.ok = true ∧ w.identity = some id := by
  unfold runAuthPhase
  simp only [Emit.bind_result_ok, pamStep_ok, exists_and_left, exists_const]
  refine and_congr_right fun _ => and_congr_right fun _ => ?_
  unfold World.identity
  cases w.getUser with
  | error status => simp
  | ok resolved =>
    cases hr : w.resolves resolved with
    | none => simp [hr]
    | some ids =>
      obtain ⟨uid, gid⟩ := ids
      simp [hr]

theorem putEnvs_ok {w : World} {env : List (String × String)} {u : Unit} :
    (putEnvs w env).result = .ok u ↔ ∀ kv ∈ env, hasNul (kv.1 ++ "=" ++ kv.2) = false ∧
      w.putEnv (kv.1 ++ "=" ++ kv.2) = pamSuccess := by
  induction env with
  | nil => simp [putEnvs]
  | cons kv env ih =>
    obtain ⟨k, v⟩ := kv
    unfold putEnvs
    dsimp only
    simp only [List.forall_mem_cons, ← ih]
    cases hn : hasNul (k ++ "=" ++ v) with
    | true => simp
    | false =>
      by_cases hp : w.putEnv (k ++ "=" ++ v) = pamSuccess
      · simp [hp]
      · simp [hp]

theorem readSpec_ok {w : World} {cmd : List String} :
    (readSpec w).result = .ok cmd ↔ ∃ env, w.recvSpec = .ok (.startSession cmd env) ∧
      ∀ kv ∈ env, hasNul (kv.1 ++ "=" ++ kv.2) = false ∧
        w.putEnv (kv.1 ++ "=" ++ kv.2) = pamSuccess := by
  unfold readSpec
  cases hr : w.recvSpec with
  | error e => simp
  | ok frame =>
    simp only [Emit.bind_result_ok, Emit.tell_result, exists_const, true_and]
    cases frame with
    | startSession cmd' env =>
      simp only [Emit.bind_result_ok, putEnvs_ok, Emit.pure_result, Except.ok.injEq,
        CompositorToBroker.startSession.injEq, exists_const]
      constructor
      · rintro ⟨henv, rfl⟩
        exact ⟨env, ⟨rfl, rfl⟩, henv⟩
      · rintro ⟨env', ⟨rfl, rfl⟩, henv⟩
        exact ⟨henv, rfl⟩
    | beginAuth service username => simp
    | convResponse response => simp
    | cancel => simp
    | requestRootFd => simp
    | spawnGreeter => simp

theorem getEnv_ok {list : Option (List (String × String))} {env : List (String × String)} :
    (list.map Except.ok).getD (.error (SessionError.pam .getEnv)) = .ok env ↔
      list = some env := by
  cases list <;> simp

theorem mapError_ok {α : Type} {x : Except SpecError α} {a : α} :
    x.mapError SessionError.spec = .ok a ↔ x = .ok a := by
  cases x <;> simp [Except.mapError]

theorem runLeader_ok {w : World} {id : ResolvedIdentity} {spec : SessionSpec}
    {groups : List UInt32} {status : WaitStatus} :
    (runLeader w id spec groups).result = .ok status ↔
      (w.spawnLeader spec groups).isSome = true ∧
      send w.sendOpened (WorkerOutcome.sessionOpened id.username id.uid id.gid).toVec = .ok () ∧
      w.wait = some status := by
  unfold runLeader
  cases w.spawnLeader spec groups with
  | none => simp
  | some leader =>
    simp only [Emit.bind_result_ok, Emit.tell_result, exists_const, true_and, sendOutcome_ok,
      Option.isSome_some]
    refine and_congr_right fun _ => ?_
    cases w.wait with
    | none => simp
    | some status' => simp [Emit.bind_result_ok]

theorem runLogin_ok {w : World} {id : ResolvedIdentity} :
    (∃ status, (runLogin w id).result = .ok status) ↔ w.Completes id := by
  unfold runLogin World.Completes
  simp only [Emit.bind_result_ok, sendOutcome_ok, readSpec_ok, pamBracket_ok, Emit.lift_result,
    Emit.pure_result, runLeader_ok, getEnv_ok, mapError_ok, exists_const]
  constructor
  · rintro ⟨status, hsend, cmd, ⟨env, hrecv, henv⟩, hopen, pamEnv, hget, spec, hval, groups, hgr,
      status', ⟨hspawn, hopened, hwait⟩, hclose, -⟩
    exact ⟨hsend, cmd, env, hrecv, henv, hopen, pamEnv, hget, spec, hval, groups, hgr, hspawn,
      hopened, by simp [hwait], hclose⟩
  · rintro ⟨hsend, cmd, env, hrecv, henv, hopen, pamEnv, hget, spec, hval, groups, hgr, hspawn,
      hopened, hwait, hclose⟩
    obtain ⟨status, hstatus⟩ := Option.isSome_iff_exists.mp hwait
    exact ⟨status, hsend, cmd, ⟨env, hrecv, henv⟩, hopen, pamEnv, hget, spec, hval, groups, hgr,
      status, ⟨hspawn, hopened, hstatus⟩, hclose, rfl⟩

/-! ## What a login leaves -/

/-- A leader that was run: forked, announced, waited for. -/
theorem runLeader_events {w : World} {id : ResolvedIdentity} {spec : SessionSpec}
    {groups : List UInt32} {status : WaitStatus}
    (h : (runLeader w id spec groups).result = .ok status) :
    ∃ leader, (runLeader w id spec groups).events
      = .spawned leader :: (sendOutcome w.sendOpened
        (.sessionOpened id.username id.uid id.gid)).events ++ [.waited leader] := by
  obtain ⟨hspawn, hsend, hwait⟩ := runLeader_ok.mp h
  obtain ⟨leader, hspawn⟩ := Option.isSome_iff_exists.mp hspawn
  refine ⟨leader, ?_⟩
  unfold runLeader
  simp only [hspawn, hwait]
  rw [Emit.bind_of_ok rfl, Emit.bind_of_ok (sendOutcome_ok (u := ()) |>.mpr hsend),
    Emit.bind_of_ok rfl]
  simp

/-- Nothing a login does deletes the credentials. -/
theorem runLogin_keeps (w : World) (id : ResolvedIdentity) :
    ∀ a ∈ (runLogin w id).events, isDelete a = false := by
  have hwire : ∀ {acts : List Act}, (∀ a ∈ acts, isWire a = true) → ∀ a ∈ acts,
      isDelete a = false := by
    intro acts h a ha
    have hw := h a ha
    cases a <;> first | rfl | cases hw
  have hleader : ∀ spec groups, ∀ a ∈ (runLeader w id spec groups).events, isDelete a = false := by
    intro spec groups
    unfold runLeader
    split
    · simp
    · refine Emit.forall_bind (by simp [isDelete]) fun _ =>
        Emit.forall_bind (hwire (wire_sendOutcome _ _)) fun _ => ?_
      split
      · simp
      · exact Emit.forall_bind (by simp [isDelete]) (by simp)
  unfold runLogin
  refine Emit.forall_bind (hwire (wire_sendOutcome _ _)) fun _ =>
    Emit.forall_bind (hwire (wire_readSpec w)) fun cmd => Emit.forall_bind ?_ fun _ =>
    Emit.forall_bind (by simp) fun pamEnv => Emit.forall_bind (by simp) fun spec =>
    Emit.forall_bind (by simp) fun groups => Emit.forall_bind (hleader spec groups) fun status =>
    Emit.forall_bind ?_ (by simp)
  · intro a ha
    rcases List.mem_append.mp ha with ha | ha
    · exact hwire (wire_acts _) a ha
    · obtain rfl := List.mem_singleton.mp ha
      rfl
  · intro a ha
    rcases List.mem_append.mp ha with ha | ha
    · exact hwire (wire_acts _) a ha
    · obtain rfl := List.mem_singleton.mp ha
      rfl

/-- A login that completes: frames, the session opened, the leader forked and waited for, the
session closed. -/
theorem runLogin_shape {w : World} {id : ResolvedIdentity} {status : WaitStatus}
    (h : (runLogin w id).result = .ok status) :
    ∃ before during closing leader, (∀ a ∈ before ++ during ++ closing, isWire a = true) ∧
      (runLogin w id).events = before ++ Act.openSession true :: .spawned leader :: during ++
        .waited leader :: closing ++ [.closeSession true] := by
  unfold runLogin at h ⊢
  obtain ⟨u1, h1, h⟩ := Emit.bind_result_ok.mp h
  obtain ⟨cmd, h2, h⟩ := Emit.bind_result_ok.mp h
  obtain ⟨u3, h3, h⟩ := Emit.bind_result_ok.mp h
  obtain ⟨pamEnv, h4, h⟩ := Emit.bind_result_ok.mp h
  obtain ⟨spec, h5, h⟩ := Emit.bind_result_ok.mp h
  obtain ⟨groups, h6, h⟩ := Emit.bind_result_ok.mp h
  obtain ⟨status', h7, h⟩ := Emit.bind_result_ok.mp h
  obtain ⟨u8, h8, h⟩ := Emit.bind_result_ok.mp h
  have hopen := pamBracket_ok.mp h3
  have hclose := pamBracket_ok.mp h8
  obtain ⟨leader, hleader⟩ := runLeader_events h7
  rw [Emit.bind_of_ok h1, Emit.bind_of_ok h2, Emit.bind_of_ok h3, Emit.bind_of_ok h4,
    Emit.bind_of_ok h5, Emit.bind_of_ok h6, Emit.bind_of_ok h7, Emit.bind_of_ok h8]
  refine ⟨(sendOutcome w.sendAuthOk (.authOk id.username id.uid id.gid)).events
      ++ (readSpec w).events ++ w.openSession.acts, (sendOutcome w.sendOpened
        (.sessionOpened id.username id.uid id.gid)).events, w.closeSession.acts, leader, ?_, ?_⟩
  · intro a ha
    simp only [List.mem_append] at ha
    rcases ha with (((ha | ha) | ha) | ha) | ha
    · exact wire_sendOutcome _ _ a ha
    · exact wire_readSpec w a ha
    · exact wire_acts _ a ha
    · exact wire_sendOutcome _ _ a ha
    · exact wire_acts _ a ha
  · simp [hleader, pamBracket, hopen, hclose]

/-! ## The whole run -/

/-- An act that opens a bracket. -/
def isOpening : Act → Bool
  | .openSession true => true
  | .setCredEstablished true => true
  | .spawned _ => true
  | _ => false

/-- A run that opens nothing has nothing to close. -/
theorem bracketed_of_no_opening {tr : List Act} (h : ∀ a ∈ tr, isOpening a = false) :
    Bracketed tr := by
  constructor
  · rintro pre post rfl
    exact absurd (h (.openSession true) (by simp)) (by simp [isOpening])
  · rintro pre post rfl
    exact absurd (h (.setCredEstablished true) (by simp)) (by simp [isOpening])
  · rintro pre post pid rfl
    exact absurd (h (.spawned pid) (by simp)) (by simp [isOpening])

/-- A call made once, with `pam_end` last. -/
theorem once_of_split {p : Act → Bool} {a b : List Act} {x : Act} (hx : p x = true)
    (ha : ∀ y ∈ a, p y = false) (hb : ∀ y ∈ b, p y = false) (hp : p .pamEnd = false)
    (hend : Act.pamEnd ∉ a ++ x :: b) : Once p (a ++ x :: b ++ [Act.pamEnd]) := by
  have hcount : (a ++ x :: b).countP p = 1 := by
    rw [List.countP_append, List.countP_cons_of_pos hx, List.countP_eq_zero.mpr (by simpa using ha),
      List.countP_eq_zero.mpr (by simpa using hb)]
  constructor
  · rw [List.countP_append, hcount]
    simp [hp]
  · have htake : (a ++ x :: b ++ [Act.pamEnd]).takeWhile (· ≠ .pamEnd) = a ++ x :: b := by
      rw [List.takeWhile_append_of_pos]
      · simp
      · intro y hy
        have hne : y ≠ Act.pamEnd := fun heq => hend (heq ▸ hy)
        simpa using hne
    rw [htake, hcount]

/-- Where an act stands that occurs once. -/
theorem split_at {tr a b pre post : List Act} {x y : Act} (h : tr = a ++ x :: b) (ha : y ∉ a)
    (hb : y ∉ b) (h' : tr = pre ++ y :: post) : x = y ∧ b = post :=
  ((List.append_cons_inj_of_notMem ha hb).mp (h.symm.trans h')).2

/-- A run that completes: every bracket is closed once, in the order of the source. -/
theorem bracketed_of_shape {first before during closing deleting ended : List Act} {leader : Pid}
    {deleted : Bool}
    (hwire : ∀ a ∈ first ++ before ++ during ++ closing ++ deleting ++ ended, isWire a = true) :
    Bracketed (.pamStart :: (first ++ Act.setCredEstablished true ::
      (before ++ Act.openSession true :: .spawned leader :: (during ++ Act.waited leader ::
      (closing ++ Act.closeSession true ::
      (deleting ++ Act.setCredDeleted deleted :: (ended ++ [Act.pamEnd]))))))) := by
  -- the frames are none of the acts the brackets are about
  have hnot : ∀ {x : Act}, isWire x = false → x ∉ first ∧ x ∉ before ∧ x ∉ during ∧ x ∉ closing ∧
      x ∉ deleting ∧ x ∉ ended := by
    intro x hx
    have hmem : x ∉ first ++ before ++ during ++ closing ++ deleting ++ ended := by
      intro hm
      rw [hwire x hm] at hx
      cases hx
    simpa [not_or, and_assoc] using hmem
  have hkind : ∀ {p : Act → Bool}, (∀ f, p (.sent f) = false) → (∀ f, p (.received f) = false) →
      ∀ a ∈ first ++ before ++ during ++ closing ++ deleting ++ ended, p a = false := by
    intro p hs hr a ha
    have hw := hwire a ha
    cases a <;> first | exact hs _ | exact hr _ | cases hw
  constructor
  · intro pre post heq
    obtain ⟨h1, h2, h3, h4, h5, h6⟩ := hnot (x := .openSession true) rfl
    obtain ⟨-, rfl⟩ := split_at (a := .pamStart :: (first ++ Act.setCredEstablished true :: before))
      (x := .openSession true) (y := .openSession true) (by simp; rfl) (by simp [h1, h2])
      (by simp [h3, h4, h5, h6]) heq
    have hk := hkind (p := isClose) (fun _ => rfl) (fun _ => rfl)
    obtain ⟨e1, e2, e3, e4, e5, e6⟩ := hnot (x := .pamEnd) rfl
    have honce : Once isClose
        ((.spawned leader :: (during ++ Act.waited leader :: closing)) ++ .closeSession true ::
          (deleting ++ Act.setCredDeleted deleted :: ended) ++ [Act.pamEnd]) := by
      refine once_of_split rfl ?_ ?_ rfl (by simp [e3, e4, e5, e6])
      · simp only [List.mem_cons, List.mem_append]
        rintro y (rfl | hy | rfl | hy)
        · rfl
        · exact hk y (by simp [hy])
        · rfl
        · exact hk y (by simp [hy])
      · simp only [List.mem_cons, List.mem_append]
        rintro y (hy | rfl | hy)
        · exact hk y (by simp [hy])
        · rfl
        · exact hk y (by simp [hy])
    simpa using honce
  · intro pre post heq
    obtain ⟨h1, h2, h3, h4, h5, h6⟩ := hnot (x := .setCredEstablished true) rfl
    obtain ⟨-, rfl⟩ := split_at (a := .pamStart :: first) (x := .setCredEstablished true)
      (y := .setCredEstablished true) (by simp; rfl) (by simp [h1])
      (by simp [h2, h3, h4, h5, h6]) heq
    have hk := hkind (p := isDelete) (fun _ => rfl) (fun _ => rfl)
    obtain ⟨e1, e2, e3, e4, e5, e6⟩ := hnot (x := .pamEnd) rfl
    have honce : Once isDelete ((before ++ Act.openSession true :: .spawned leader :: (during ++
        .waited leader :: (closing ++ Act.closeSession true :: deleting))) ++
        .setCredDeleted deleted :: ended ++ [Act.pamEnd]) := by
      refine once_of_split rfl ?_ ?_ rfl (by simp [e2, e3, e4, e5, e6])
      · simp only [List.mem_cons, List.mem_append]
        rintro y (hy | rfl | rfl | hy | rfl | hy | rfl | hy)
        · exact hk y (by simp [hy])
        · rfl
        · rfl
        · exact hk y (by simp [hy])
        · rfl
        · exact hk y (by simp [hy])
        · rfl
        · exact hk y (by simp [hy])
      · exact fun y hy => hk y (by simp [hy])
    simpa using honce
  · intro pre post pid heq
    obtain ⟨h1, h2, h3, h4, h5, h6⟩ := hnot (x := .spawned pid) rfl
    obtain ⟨hp, rfl⟩ := split_at (a := .pamStart :: (first ++ Act.setCredEstablished true ::
      (before ++ [Act.openSession true]))) (x := .spawned leader) (y := .spawned pid)
      (by simp; rfl) (by simp [h1, h2]) (by simp [h3, h4, h5, h6]) heq
    obtain rfl : leader = pid := by simpa using hp
    simp

theorem isOpening_of_isWire {a : Act} (h : isWire a = true) : isOpening a = false := by
  cases a <;> first | rfl | cases h

/-- A handle whose credentials are not established opens nothing. -/
theorem runHandle_opens_nothing {w : World}
    (h : ∀ id, ¬ ((runAuthPhase w).result = .ok id ∧ w.setCred.ok = true)) :
    ∀ a ∈ (runHandle w).events, isOpening a = false := by
  unfold runHandle
  rcases Emit.bind_events (runAuthPhase w) _ with ⟨id, hid, heq⟩ | ⟨e, -, heq, -⟩
  · have hcred : w.setCred.ok = false := by
      cases hc : w.setCred.ok with
      | false => rfl
      | true => exact absurd ⟨hid, hc⟩ (h id)
    have herr : (pamBracket w.setCred .setCredEstablished fun status =>
        SessionError.pam (.setCred status)).result = .error (.pam (.setCred w.setCred.status)) := by
      simp [pamBracket, hcred]
    rw [heq, Emit.bind_of_error herr]
    intro a ha
    simp only [pamBracket, hcred, List.mem_append, List.mem_singleton] at ha
    rcases ha with ha | ha | rfl
    · exact isOpening_of_isWire (wire_runAuthPhase w a ha)
    · exact isOpening_of_isWire (wire_acts _ a ha)
    · rfl
  · rw [heq]
    exact fun a ha => isOpening_of_isWire (wire_runAuthPhase w a ha)

/-- The acts of a handle whose credentials are established. -/
theorem runHandle_established {w : World} {id : ResolvedIdentity}
    (hid : (runAuthPhase w).result = .ok id) (hcred : w.setCred.ok = true) :
    (runHandle w).events = (runAuthPhase w).events ++ w.setCred.acts ++
      .setCredEstablished true :: ((runLogin w id) >>= fun status => do
        pamBracket w.setCredDeleted .setCredDeleted fun status => .pam (.setCred status)
        sendOutcome w.sendEnded (.sessionEnded status.outcome)).events := by
  have hok : (pamBracket w.setCred .setCredEstablished fun status =>
      SessionError.pam (.setCred status)).result = .ok () := by
    simp [pamBracket, hcred]
  unfold runHandle
  rw [Emit.bind_of_ok hid, Emit.bind_of_ok hok]
  simp [pamBracket, hcred]

/-- The end of a handle, once the credentials are to be deleted. -/
theorem finish_events (w : World) (status : WaitStatus) :
    ∃ ended, (∀ a ∈ ended, isWire a = true) ∧
      (pamBracket w.setCredDeleted .setCredDeleted
        (fun status => SessionError.pam (.setCred status))
        >>= fun _ => sendOutcome w.sendEnded (.sessionEnded status.outcome)).events
      = w.setCredDeleted.acts ++ .setCredDeleted w.setCredDeleted.ok :: ended := by
  rcases Emit.bind_events (pamBracket w.setCredDeleted .setCredDeleted
    (fun status => SessionError.pam (.setCred status)))
    (fun _ => sendOutcome w.sendEnded (.sessionEnded status.outcome)) with
    ⟨u, -, heq⟩ | ⟨e, -, heq, -⟩
  · refine ⟨(sendOutcome w.sendEnded (.sessionEnded status.outcome)).events,
      wire_sendOutcome _ _, ?_⟩
    rw [heq]
    simp [pamBracket]
  · refine ⟨[], by simp, ?_⟩
    rw [heq]
    simp [pamBracket]

/-- **When the worker closes what it opened.** Every opened session is closed once, established
credentials are deleted once, both before `pam_end`, and every forked leader is waited for, if and
only if the credentials were not established, or everything from the `AuthOk` to the end of
`close_session` succeeded. -/
theorem bracketed_iff (w : World) (service username : String) :
    Bracketed (runSession w service username).events ↔
      ∀ id, w.Establishes service username id → w.Completes id := by
  unfold runSession
  by_cases hnul : (hasNul service || hasNul username) = true
  · rw [if_pos hnul]
    refine ⟨fun _ id h => ?_, fun _ => bracketed_of_no_opening (by simp)⟩
    rw [h.service, h.username] at hnul
    cases hnul
  rw [if_neg hnul]
  by_cases hstart : w.start = pamSuccess
  swap
  · rw [if_pos hstart]
    exact ⟨fun _ id h => absurd h.start hstart, fun _ => bracketed_of_no_opening (by simp)⟩
  rw [if_neg (by simpa using hstart)]
  by_cases hest : ∃ id, (runAuthPhase w).result = .ok id ∧ w.setCred.ok = true
  swap
  · -- nothing was established
    have hno := runHandle_opens_nothing (not_exists.mp hest)
    refine ⟨fun _ id h => ?_, fun _ => bracketed_of_no_opening fun a ha => ?_⟩
    · exact absurd ⟨id, runAuthPhase_ok.mpr ⟨h.authenticate, h.acctMgmt, h.identity⟩,
        h.setCred⟩ hest
    · simp only [List.cons_append, List.mem_cons, List.mem_append, List.not_mem_nil, or_false] at ha
      rcases ha with rfl | ha | rfl
      · rfl
      · exact hno a ha
      · rfl
  obtain ⟨id, hid, hcred⟩ := hest
  obtain ⟨hauth, hacct, hident⟩ := runAuthPhase_ok.mp hid
  have hnul' : hasNul service = false ∧ hasNul username = false := by simpa using hnul
  have hiff : (∀ id', w.Establishes service username id' → w.Completes id') ↔ w.Completes id := by
    refine ⟨fun h => h id ⟨hnul'.1, hnul'.2, hstart, hauth, hacct, hident, hcred⟩,
      fun h id' h' => ?_⟩
    obtain rfl : id = id' := Option.some.inj (hident.symm.trans h'.identity)
    exact h
  rw [hiff, ← runLogin_ok]
  dsimp only
  rw [runHandle_established hid hcred]
  cases hlogin : (runLogin w id).result with
  | error e =>
    -- the credentials stay
    rw [Emit.bind_of_error hlogin]
    refine ⟨fun h => ?_, fun ⟨status, hs⟩ => by cases hs⟩
    have hnone : ((runLogin w id).events ++ [Act.pamEnd]).countP isDelete = 0 := by
      rw [List.countP_eq_zero]
      intro a ha
      rcases List.mem_append.mp ha with ha | ha
      · simp [runLogin_keeps w id a ha]
      · obtain rfl := List.mem_singleton.mp ha
        simp [isDelete]
    have honce := h.credentials (.pamStart :: ((runAuthPhase w).events ++ w.setCred.acts))
      ((runLogin w id).events ++ [Act.pamEnd]) (by simp)
    rw [Once, hnone] at honce
    cases honce.1
  | ok status =>
    refine ⟨fun _ => ⟨status, rfl⟩, fun _ => ?_⟩
    obtain ⟨before, during, closing, leader, hwire, hev⟩ := runLogin_shape hlogin
    obtain ⟨ended, hended, hfin⟩ := finish_events w status
    rw [Emit.bind_of_ok hlogin, hev, hfin]
    have hall : ∀ a ∈ ((runAuthPhase w).events ++ w.setCred.acts) ++ before ++ during ++ closing ++
        w.setCredDeleted.acts ++ ended, isWire a = true := by
      simp only [List.mem_append] at hwire ⊢
      rintro a ((((((ha | ha) | ha) | ha) | ha) | ha) | ha)
      · exact wire_runAuthPhase w a ha
      · exact wire_acts _ a ha
      · exact hwire a (.inl (.inl ha))
      · exact hwire a (.inl (.inr ha))
      · exact hwire a (.inr ha)
      · exact wire_acts _ a ha
      · exact hended a ha
    have h := @bracketed_of_shape _ _ _ _ _ _ leader w.setCredDeleted.ok hall
    simpa using h

/-- A call that converses with nobody and succeeds. -/
def PamCall.silent : PamCall := ⟨[], pamSuccess⟩

/-- A login of the name with the uid, where nothing outside fails. -/
def loginWorld (name : String) (uid : UInt32) : World where
  start := pamSuccess
  authenticate := .silent
  acctMgmt := .silent
  getUser := .ok name
  resolves := fun _ => some (uid, uid)
  setCred := .silent
  sendAuthOk := .ok ()
  recvSpec := .ok (.startSession ["/bin/sh"] [])
  putEnv := fun _ => pamSuccess
  openSession := .silent
  getEnvList := some []
  checks := fun _ => some (uid, uid)
  lists := fun _ => some (uid, uid)
  getGroupList := fun _ gid => some [gid]
  spawnLeader := fun _ _ => some 4242
  sendOpened := .ok ()
  wait := some (.exited 0)
  closeSession := .silent
  setCredDeleted := .silent
  sendEnded := .ok ()

/-- `root` authenticates, and `validate` refuses its uid after the session was opened: neither the
session is closed nor are the credentials deleted. -/
theorem refused_uid_keeps_session :
    (runSession (loginWorld "root" 0) "halmasuit" "root").result = .error (.spec (.uidFloor 0)) ∧
      ¬ Bracketed (runSession (loginWorld "root" 0) "halmasuit" "root").events := by
  refine ⟨by decide +kernel, fun h => ?_⟩
  have hev : (runSession (loginWorld "root" 0) "halmasuit" "root").events
      = [Act.pamStart, .setCredEstablished true, .sent (.outcome (.authOk "root" 0 0)),
          .received (.startSession ["/bin/sh"] [])] ++ Act.openSession true :: [Act.pamEnd] := by
    decide +kernel
  have honce := h.session _ _ hev
  revert honce
  unfold Once
  decide +kernel

/-- The same login of a user keeps the brackets. -/
example : Bracketed (runSession (loginWorld "alice" 1000) "halmasuit" "alice").events := by
  have hev : (runSession (loginWorld "alice" 1000) "halmasuit" "alice").events
      = [.pamStart, .setCredEstablished true, .sent (.outcome (.authOk "alice" 1000 1000)),
          .received (.startSession ["/bin/sh"] []), .openSession true, .spawned 4242,
          .sent (.outcome (.sessionOpened "alice" 1000 1000)), .waited 4242, .closeSession true,
          .setCredDeleted true, .sent (.outcome (.sessionEnded (.exited 0))), .pamEnd] := by
    decide +kernel
  rw [hev]
  exact @bracketed_of_shape [] [.sent (.outcome (.authOk "alice" 1000 1000)),
    .received (.startSession ["/bin/sh"] [])] [.sent (.outcome (.sessionOpened "alice" 1000 1000))]
    [] [] [.sent (.outcome (.sessionEnded (.exited 0)))] 4242 true (by decide)

end Halmasuit.Session
