import RustSgx.Runner.Session

set_option autoImplicit false

/-!
# Runner: the order of a session's calls

This module states what a session is for, as an automaton over events, and
proves that the code keeps to it.  The automaton (`Phase.step`) is written
from the protocol, not from the code:

* the control stream is read only while the request is being read;
* only a request that decodes as `Request::Connect { addr }` is followed by a
  `connect` to exactly `addr`, then a `bind` of `127.0.0.1:0`;
* the listener's port and the control stream's `local()` and `peer()` are
  learnt, and one `write` on the control stream offers the encoding of
  `Response::Connected` built from exactly those three answers;
* one `accept`, after which only `select` and I/O on `proxy` and `remote`;
* after any failure, nothing but `shutdown(Shutdown::Both)` of the control
  stream.

`worker_follows_protocol` shows that every run of the worker, whatever the
world answers, is a path of this automaton, and that a worker that returns
has either shut the control stream down or left the relay.

The proofs use a small program logic over the automaton: `Follows p x Q`
says that every run of `x` started in phase `p` is a path, ending in a phase
that `Q` allows for how `x` ended.  It has one rule per way of composing code,
and the session's proof is assembled from one lemma per function.
-/

namespace RustSgx.Runner

/-- Where a session stands, as its events show it. -/
inductive Phase where
  /-- reading the request; `got` is what the control stream gave so far -/
  | request (got : Bytes)
  /-- connected to the remote end; the ephemeral listener is next -/
  | binding
  /-- the listener is bound; its port is next -/
  | naming
  /-- the port is known; the control stream's local name is next -/
  | localName (port : UInt16)
  /-- the local name is known; the peer name is next -/
  | peerName (port : UInt16) (localAddr : String)
  /-- everything the response needs is known; the response is next -/
  | responding (port : UInt16) (localAddr peerAddr : String)
  /-- the response has been written; the data connection is next -/
  | accepting
  /-- the data connection is up: relaying bytes -/
  | relaying
  /-- a call or the request failed; only the shutdown may follow -/
  | failed
  /-- the control stream has been shut down -/
  | closed
  deriving DecidableEq, Repr

/-- After a setup call: on `Ok`, the phase its value leads to; on `Err`,
`failed`. -/
def Phase.after {α : Type} (r : Except IoError α) (next : α → Phase) : Phase :=
  match r with
  | .ok a => next a
  | .error _ => .failed

/-- The calls of the relay: `select`, and reads and writes of `proxy` and
`remote`. -/
def Event.isRelay : Event → Bool
  | .select _ => true
  | .read .proxy _ | .read .remote _ => true
  | .write .proxy _ _ | .write .remote _ _ => true
  | _ => false

/-- The session protocol as a relation: one constructor per transition of
`Phase.step`, with the condition it checks. -/
inductive Phase.Step (codec : Codec) : Phase → Event → Phase → Prop
  | read (got bs : Bytes) :
      Phase.Step codec (.request got) (.read .enclave (.ok bs)) (.request (got ++ bs))
  | readFailed (got : Bytes) (err : IoError) :
      Phase.Step codec (.request got) (.read .enclave (.error err)) .failed
  | connect (got : Bytes) (addr : String) (r : Except IoError Fd) :
      codec.fromSlice got = .ok (.connect addr) →
      Phase.Step codec (.request got) (.connect addr r) (Phase.after r fun _ => .binding)
  | refuse (got : Bytes) :
      isErr (codec.fromSlice got) = true →
      Phase.Step codec (.request got) (.shutdown .enclave .both) .closed
  | bind (r : Except IoError Unit) :
      Phase.Step codec .binding (.bind "127.0.0.1:0" r) (Phase.after r fun _ => .naming)
  | localAddr (r : Except IoError UInt16) :
      Phase.Step codec .naming (.localAddr r) (Phase.after r .localName)
  | local_ (port : UInt16) (r : Except IoError String) :
      Phase.Step codec (.localName port) (.local_ r) (Phase.after r (.peerName port))
  | peer (port : UInt16) (localAddr : String) (r : Except IoError String) :
      Phase.Step codec (.peerName port localAddr) (.peer r)
        (Phase.after r (.responding port localAddr))
  | respond (port : UInt16) (localAddr peerAddr : String) (r : Except IoError Nat) :
      Phase.Step codec (.responding port localAddr peerAddr)
        (.write .enclave (codec.toVec (.connected port localAddr peerAddr)) r)
        (Phase.after r fun _ => .accepting)
  | accept (r : Except IoError Fd) :
      Phase.Step codec .accepting (.accept r) (Phase.after r fun _ => .relaying)
  | relay (e : Event) : e.isRelay = true → Phase.Step codec .relaying e .relaying
  | shutdown : Phase.Step codec .failed (.shutdown .enclave .both) .closed

section
variable (codec : Codec)

/-- The session protocol, one event at a time; `none` is an event the
protocol does not allow in that phase. -/
def Phase.step : Phase → Event → Option Phase
  | .request got, .read .enclave (.ok bs) => some (.request (got ++ bs))
  | .request _, .read .enclave (.error _) => some .failed
  | .request got, .connect addr r =>
    match codec.fromSlice got with
    | .ok (.connect a) => if a = addr then some (Phase.after r fun _ => .binding) else none
    | .error _ => none
  | .request got, .shutdown .enclave .both =>
    if isErr (codec.fromSlice got) then some .closed else none
  | .binding, .bind addr r =>
    if addr = "127.0.0.1:0" then some (Phase.after r fun _ => .naming) else none
  | .naming, .localAddr r => some (Phase.after r .localName)
  | .localName port, .local_ r => some (Phase.after r (.peerName port))
  | .peerName port localAddr, .peer r => some (Phase.after r (.responding port localAddr))
  | .responding port localAddr peerAddr, .write .enclave buf r =>
    if buf = codec.toVec (.connected port localAddr peerAddr) then
      some (Phase.after r fun _ => .accepting)
    else none
  | .accepting, .accept r => some (Phase.after r fun _ => .relaying)
  | .relaying, e => if e.isRelay then some .relaying else none
  | .failed, .shutdown .enclave .both => some .closed
  | _, _ => none

theorem Phase.step_relaying (e : Event) :
    Phase.step codec .relaying e = if e.isRelay then some .relaying else none := rfl

/-- The phase a sequence of events leads to, if the protocol allows it. -/
def Phase.run : Phase → List Event → Option Phase
  | p, [] => some p
  | p, e :: t => (p.step codec e).bind (Phase.run · t)

theorem Phase.run_append (p : Phase) (t u : List Event) :
    Phase.run codec p (t ++ u) = (Phase.run codec p t).bind (Phase.run codec · u) := by
  induction t generalizing p with
  | nil => rfl
  | cons e t ih =>
    simp only [List.cons_append, Phase.run]
    cases p.step codec e <;> simp [ih]

/-- A path through an event: the phase the path reaches before it, the step
the event makes from there, and the rest of the path. -/
theorem Phase.run_split {p q : Phase} {pre post : List Event} {e : Event}
    (h : Phase.run codec p (pre ++ e :: post) = some q) :
    ∃ p1 p2, Phase.run codec p pre = some p1 ∧ p1.step codec e = some p2 ∧
      Phase.run codec p2 post = some q := by
  rw [Phase.run_append] at h
  obtain ⟨p1, hpre, h⟩ := Option.bind_eq_some.mp h
  obtain ⟨p2, hstep, hpost⟩ := Option.bind_eq_some.mp h
  exact ⟨p1, p2, hpre, hstep, hpost⟩

theorem Phase.run_relaying {t : List Event} (h : ∀ e ∈ t, IsRelayEvent e) :
    Phase.run codec .relaying t = some .relaying := by
  induction t with
  | nil => rfl
  | cons e t ih =>
    have he : e.isRelay = true := by
      rcases h e (List.mem_cons_self e t) with ⟨r, rfl⟩ | ⟨⟨r, rfl⟩ | ⟨buf, r, rfl, -⟩⟩ |
        ⟨⟨r, rfl⟩ | ⟨buf, r, rfl, -⟩⟩ <;> rfl
    simp [Phase.run, Phase.step_relaying, he, ih fun e he => h e (List.mem_cons_of_mem _ he)]

/-! ## A program logic over the automaton -/

/-- Every run of `x` started in phase `p` is a path of the protocol, ending in
a phase `Q` allows for how `x` ended. -/
def Follows {α : Type} (p : Phase) (x : Sys α) (Q : Status α → Phase → Prop) : Prop :=
  ∀ env, ∃ q, Phase.run codec p (x env).events = some q ∧ Q (x env).status q

variable {codec}
variable {α β : Type} {p : Phase}

/-- `Phase.step` is the relation `Phase.Step`: every step the function takes
is one of its transitions, and every transition is a step. -/
theorem Phase.step_eq_some_iff {q : Phase} {e : Event} : p.step codec e = some q ↔ Phase.Step codec p e q := by
  constructor
  · intro h
    unfold Phase.step at h
    split at h
    case h_1 got bs => cases h; exact .read got bs
    case h_2 got err => cases h; exact .readFailed got err
    case h_3 got addr r =>
      split at h
      · rename_i a hdec
        split at h
        · rename_i ha
          cases h; subst ha; exact .connect got a r hdec
        · cases h
      · cases h
    case h_4 got =>
      split at h
      · cases h; exact .refuse got ‹_›
      · cases h
    case h_5 addr r =>
      split at h
      · cases h; subst_vars; exact .bind r
      · cases h
    case h_6 r => cases h; exact .localAddr r
    case h_7 port r => cases h; exact .local_ port r
    case h_8 port localAddr r => cases h; exact .peer port localAddr r
    case h_9 port localAddr peerAddr buf r =>
      split at h
      · cases h; subst_vars; exact .respond port localAddr peerAddr r
      · cases h
    case h_10 r => cases h; exact .accept r
    case h_11 =>
      split at h
      · rename_i he; cases h; exact .relay _ he
      · cases h
    case h_12 => cases h; exact .shutdown
    case h_13 => cases h
  · intro h
    cases h with
    | connect got addr r hdec =>
      show (match codec.fromSlice got with
        | .ok (.connect a) => if a = addr then some _ else none
        | .error _ => none) = _
      rw [hdec]
      exact if_pos rfl
    | refuse got herr => exact if_pos herr
    | relay e he => exact if_pos he
    | respond port localAddr peerAddr r => exact if_pos rfl
    | _ => rfl


theorem Follows.bind {x : Sys α} {f : α → Sys β} {Q : Status α → Phase → Prop}
    {R : Status β → Phase → Prop} (hx : Follows codec p x Q)
    (hf : ∀ a q, Q (.ret a) q → Follows codec q (f a) R)
    (hpanic : ∀ q, Q .panic q → R .panic q) (hwait : ∀ q, Q .pending q → R .pending q) :
    Follows codec p (x >>= f) R := by
  intro env
  obtain ⟨q, hrun, hq⟩ := hx env
  rcases hx' : x env with ⟨_ | _ | _, env', t⟩ <;> rw [hx'] at hrun hq
  · obtain ⟨q', hrun', hq'⟩ := hf _ q hq env'
    refine ⟨q', ?_, ?_⟩
    · rw [Sys.bind_ret hx', Phase.run_append, hrun]; exact hrun'
    · rw [Sys.bind_ret hx']; exact hq'
  · exact ⟨q, by rw [Sys.bind_panic hx']; exact hrun, by rw [Sys.bind_panic hx']; exact hpanic q hq⟩
  · exact ⟨q, by rw [Sys.bind_pending hx']; exact hrun,
      by rw [Sys.bind_pending hx']; exact hwait q hq⟩

theorem Follows.pure {a : α} {Q : Status α → Phase → Prop} (h : Q (.ret a) p) :
    Follows codec p (Pure.pure a : Sys α) Q :=
  fun _ => ⟨p, rfl, h⟩

theorem Follows.mono {x : Sys α} {Q R : Status α → Phase → Prop} (hx : Follows codec p x Q)
    (h : ∀ st q, Q st q → R st q) : Follows codec p x R := fun env =>
  (hx env).elim fun q hq => ⟨q, hq.1, h _ _ hq.2⟩

/-- One call, whose every answer the protocol allows in phase `p`. -/
theorem Follows.ofCall {c : Call} {ev : c.Reply → Event} {Q : Status c.Reply → Phase → Prop}
    (hstep : ∀ r, ∃ q, p.step codec (ev r) = some q ∧ Q (.ret r) q) (hwait : Q .pending p) :
    Follows codec p (RustSgx.Runner.call c ev) Q := by
  intro env
  rw [call_apply]
  split
  · exact ⟨p, rfl, hwait⟩
  · obtain ⟨q, h1, h2⟩ := hstep ‹_›
    exact ⟨q, by simp [Phase.run, h1], h2⟩

/-- One call whose answer `r` the protocol takes to phase `next r`. -/
theorem Follows.afterCall (c : Call) {ev : c.Reply → Event} (next : c.Reply → Phase)
    (hstep : ∀ r, p.step codec (ev r) = some (next r)) :
    Follows codec p (RustSgx.Runner.call c ev) fun st q => ∀ r, st = .ret r → q = next r :=
  Follows.ofCall (fun r => ⟨next r, hstep r, fun _ h => by cases h; rfl⟩) nofun

theorem Follows.stall {Q : Status α → Phase → Prop} (h : Q .pending p) :
    Follows codec p (stall : Sys α) Q :=
  fun _ => ⟨p, rfl, h⟩

/-- What a setup call leaves: the phase its answer leads to. -/
def AfterCall {α : Type} (next : α → Phase) (st : Status (Except IoError α)) (q : Phase) : Prop :=
  ∀ r, st = .ret r → q = Phase.after r next

/-- A setup call followed by `?`: on `Ok` the session goes on in the phase the
answer leads to, on `Err` it returns in `failed`. -/
theorem Follows.try {x : Sys (Except IoError α)} {f : α → ExceptT IoError Sys β}
    {R : Status (Except IoError β) → Phase → Prop} {next : α → Phase}
    (hx : Follows codec p x (AfterCall next))
    (hok : ∀ a, Follows codec (next a) (f a).run R)
    (herr : ∀ e, R (.ret (.error e)) .failed) (hpanic : ∀ q, R .panic q)
    (hwait : ∀ q, R .pending q) :
    Follows codec p (ExceptT.mk x >>= f).run R := by
  refine Follows.bind hx (fun r q hq => ?_) (fun q _ => hpanic q) (fun q _ => hwait q)
  rw [hq r rfl]
  rcases r with e | a
  · exact Follows.pure (herr e)
  · exact hok a

/-! ## Each function keeps to the protocol -/

/-- What reading the request leaves, from `request got`: the bytes it returns
extend `got`; an error leaves the session `failed`. -/
def ReadPost (got : Bytes) (st : Status (Except IoError Bytes)) (q : Phase) : Prop :=
  (∀ b, st = .ret (.ok b) → q = .request (got ++ b)) ∧
    (∀ e, st = .ret (.error e) → q = .failed)

theorem readFromStream_follows (fuel : Nat) (got : Bytes) :
    Follows codec (.request got) (readFromStream fuel) (ReadPost got) := by
  induction fuel generalizing got with
  | zero => exact Follows.stall ⟨nofun, nofun⟩
  | succ n ih =>
    unfold readFromStream readEnclave
    refine Follows.bind (Follows.afterCall .readEnclave
      (fun r : Except IoError (Chunk buffSize) =>
        Phase.after (r.map Chunk.bytes) fun bs => .request (got ++ bs))
      fun r => by cases r <;> rfl) (fun r q hq => ?_) (fun _ _ => ⟨nofun, nofun⟩)
      (fun _ _ => ⟨nofun, nofun⟩)
    rw [hq r rfl]
    rcases r with e | c
    · exact Follows.pure ⟨nofun, fun _ _ => rfl⟩
    · simp only [Phase.after, Except.map]
      split
      · refine Follows.bind (ih _) (fun v q hq => ?_) ?_ ?_
        · rcases v with e | bs
          · exact Follows.pure ⟨nofun, fun _ _ => hq.2 e rfl⟩
          · exact Follows.pure ⟨fun b hb => by cases hb; simp [hq.1 bs rfl], nofun⟩
        · exact fun _ _ => ⟨nofun, nofun⟩
        · exact fun _ _ => ⟨nofun, nofun⟩
      · exact Follows.pure ⟨fun b hb => by cases hb; rfl, nofun⟩

variable (codec)

/-- What reading a request leaves: a request decoded from exactly the bytes
read, or a phase from which the shutdown is allowed. -/
def RequestPost (st : Status (Except AbiError Request)) (q : Phase) : Prop :=
  (∀ req, st = .ret (.ok req) → ∃ got, q = .request got ∧ codec.fromSlice got = .ok req) ∧
    (∀ e, st = .ret (.error e) → q.step codec (.shutdown .enclave .both) = some .closed)

/-- What the setup and the relay leave: `Ok` only out of the relay, `Err`
only in `failed`. -/
def ConnectPost (st : Status (Except IoError Unit)) (q : Phase) : Prop :=
  (st = .ret (.ok ()) → q = .relaying) ∧ (∀ e, st = .ret (.error e) → q = .failed)

/-- What `handle_client` leaves: `Ok` only out of the relay; after `Err` the
shutdown is allowed. -/
def ClientPost (st : Status (Except IoError Unit)) (q : Phase) : Prop :=
  (st = .ret (.ok ()) → q = .relaying) ∧
    (∀ e, st = .ret (.error e) → q.step codec (.shutdown .enclave .both) = some .closed)

variable {codec}

theorem readRequest_follows (fuel : Nat) :
    Follows codec (.request []) (readRequest codec fuel) (RequestPost codec) := by
  unfold readRequest
  refine Follows.bind (readFromStream_follows fuel []) (fun v q hq => ?_)
    (fun _ _ => ⟨nofun, nofun⟩) (fun _ _ => ⟨nofun, nofun⟩)
  rcases v with e | b
  · exact Follows.pure ⟨nofun, fun _ _ => by rw [hq.2 e rfl]; rfl⟩
  · rw [hq.1 b rfl, List.nil_append]
    dsimp only
    rcases hdec : codec.fromSlice b with e | req
    · exact Follows.pure ⟨nofun, fun _ _ => by dsimp only [Phase.step]; rw [hdec]; rfl⟩
    · exact Follows.pure ⟨fun r hr => ⟨b, rfl, by cases hr; exact hdec⟩, nofun⟩

theorem relay_follows (fuel : Nat) (proxyFd remoteFd : Fd) :
    Follows codec .relaying (relay fuel proxyFd remoteFd) (ConnectPost) := by
  refine Follows.bind (Q := fun _ q => q = .relaying)
    (fun env => ⟨.relaying, Phase.run_relaying codec (relayLoop_emits _ _ _ _ env), rfl⟩)
    (fun b q hq => ?_) (fun _ _ => ⟨nofun, nofun⟩) (fun _ _ => ⟨nofun, nofun⟩)
  subst hq
  split
  · exact Follows.pure ⟨fun _ => rfl, nofun⟩
  · exact Follows.stall ⟨nofun, nofun⟩

theorem handleRequestConnect_follows (fuel : Nat) (addr : String) (got : Bytes)
    (hgot : codec.fromSlice got = .ok (.connect addr)) :
    Follows codec (.request got) (handleRequestConnect codec fuel addr).run (ConnectPost) := by
  have herr : ∀ e, ConnectPost (.ret (.error e)) .failed := fun _ => ⟨nofun, fun _ _ => rfl⟩
  have hpanic : ∀ q, ConnectPost .panic q := fun _ => ⟨nofun, nofun⟩
  have hwait : ∀ q, ConnectPost .pending q := fun _ => ⟨nofun, nofun⟩
  unfold handleRequestConnect
  refine Follows.try (Follows.afterCall .connect (fun r => Phase.after r fun _ => .binding)
    fun r => by dsimp only [Phase.step]; rw [hgot]; exact if_pos rfl) (fun remoteFd => ?_) herr hpanic hwait
  refine Follows.try (Follows.afterCall .bind (fun r => Phase.after r fun _ => .naming)
    fun r => by dsimp only [Phase.step]; exact if_pos rfl) (fun _ => ?_) herr hpanic hwait
  refine Follows.try (Follows.afterCall .localAddr (fun r => Phase.after r .localName)
    fun r => rfl) (fun port => ?_) herr hpanic hwait
  refine Follows.try (Follows.afterCall .local_ (fun r => Phase.after r (.peerName port))
    fun r => rfl) (fun localAddr => ?_) herr hpanic hwait
  refine Follows.try (Follows.afterCall .peer (fun r => Phase.after r (.responding port localAddr))
    fun r => rfl) (fun peerAddr => ?_) herr hpanic hwait
  refine Follows.try (Follows.afterCall (.write .enclave) (fun r => Phase.after r fun _ => .accepting)
    fun r => by dsimp only [Phase.step]; exact if_pos rfl) (fun _ => ?_) herr hpanic hwait
  exact Follows.try (Follows.afterCall .accept (fun r => Phase.after r fun _ => .relaying)
    fun r => rfl) (fun proxyFd => relay_follows fuel proxyFd remoteFd) herr hpanic hwait

theorem handleClient_follows (fuel : Nat) :
    Follows codec (.request []) (handleClient codec fuel) (ClientPost codec) := by
  unfold handleClient
  refine Follows.bind (readRequest_follows fuel) (fun v q hq => ?_)
    (fun _ _ => ⟨nofun, nofun⟩) (fun _ _ => ⟨nofun, nofun⟩)
  rcases v with e | ⟨⟨addr⟩⟩
  · exact Follows.pure ⟨nofun, fun _ _ => hq.2 e rfl⟩
  · obtain ⟨got, rfl, hgot⟩ := hq.1 _ rfl
    exact (handleRequestConnect_follows fuel addr got hgot).mono fun st q h =>
      ⟨h.1, fun e he => by rw [h.2 e he]; rfl⟩

/-- The worker keeps to the protocol, and returns only after the shutdown or
out of the relay. -/
theorem worker_follows (fuel : Nat) :
    Follows codec (.request []) (worker codec fuel)
      fun st q => st = .ret () → q = .closed ∨ q = .relaying := by
  refine Follows.bind (handleClient_follows fuel) (fun v q hq => ?_) (fun _ _ => nofun)
    (fun _ _ => nofun)
  rcases v with e | ⟨⟩
  · exact fun env => ⟨.closed, by simp [emit, Phase.run, hq.2 e rfl], fun _ => .inl rfl⟩
  · exact Follows.pure fun _ => .inr (hq.1 rfl)

end

end RustSgx.Runner
