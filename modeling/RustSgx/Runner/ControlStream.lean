import RustSgx.Runner.Protocol

set_option autoImplicit false

/-!
# Runner: the control stream and what the session does with it

The session protocol (`Phase.step`) allows one write on the control stream:
in `responding port localAddr peerAddr`, of the encoded `Connected` response
built from those three answers.  `Sent` is what that means for the bytes: an
invariant of every path of the protocol, proved once for a step
(`Sent.step`) and for a path (`Sent.run`).  With `worker_follows`, every run
of the worker is such a path, so `worker_sends_only_response` holds of the
code: the control stream is sent a prefix of one `Connected` response, whose
port, `local()` and `peer()` are answers the session got, and nothing else.

The other direction of the control stream is the request.
`Phase.step_request` says once what a step does with it, and two run lemmas
follow: while the request is read, the path holds exactly the bytes read
(`Phase.run_request`), and once it has been acted on, the control stream is
never read again and no second connection is opened (`Phase.run_started`).
`worker_connects_only_where_asked` reads off the code's runs that the one
outbound `connect` goes to exactly the address the bytes read decode to.

Last, the relay waits for the enclave's side of the setup: `Phase.Answered`
records the response write that went through and the accepted data
connection, and `worker_relays_after_response` shows that no `select` and no
byte on the proxy or remote socket comes before both.

Every invariant here is derived from `Phase.step_eq_some_iff`, which says once
what a step can do: the proofs are case analyses on `Phase.Step`.
-/
namespace RustSgx.Runner

/-- The answers a `Connected` response is built from, among the events of `t`:
the listener's port and the control stream's `local()` and `peer()`. -/
def Named (port : UInt16) (localAddr peerAddr : String) (t : List Event) : Prop :=
  Event.localAddr (.ok port) ∈ t ∧ Event.local_ (.ok localAddr) ∈ t ∧
    Event.peer (.ok peerAddr) ∈ t

theorem Named.append {port : UInt16} {localAddr peerAddr : String} {t : List Event}
    (h : Named port localAddr peerAddr t) (u : List Event) : Named port localAddr peerAddr (t ++ u) :=
  ⟨List.mem_append_left u h.1, List.mem_append_left u h.2.1, List.mem_append_left u h.2.2⟩

/-- The phases before the response: the control stream has been sent
nothing. -/
def Phase.beforeResponse : Phase → Bool
  | .request _ | .binding | .naming | .localName _ | .peerName _ _ | .responding _ _ _ => true
  | _ => false

/-- The answers a phase holds, as events of `t`. -/
def Phase.Shown : Phase → List Event → Prop
  | .localName port, t => Event.localAddr (.ok port) ∈ t
  | .peerName port localAddr, t =>
    Event.localAddr (.ok port) ∈ t ∧ Event.local_ (.ok localAddr) ∈ t
  | .responding port localAddr peerAddr, t => Named port localAddr peerAddr t
  | _, _ => True

/-- What the control stream has been sent after `t`, the session standing in
phase `p`: nothing before the response; afterwards a prefix of a `Connected`
response built from answers among the events. -/
structure Sent (codec : Codec) (p : Phase) (t : List Event) : Prop where
  shown : p.Shown t
  silent : p.beforeResponse → bytesWritten .enclave t = []
  response : bytesWritten .enclave t = [] ∨ ∃ port localAddr peerAddr,
    Named port localAddr peerAddr t ∧
      bytesWritten .enclave t <+: codec.toVec (.connected port localAddr peerAddr)

section
variable {codec : Codec} {p q : Phase} {t : List Event} {e : Event}

/-- A step that sends the control stream nothing keeps `Sent`, given what the
new phase holds and that it does not go back before the response. -/
theorem Sent.quiet (hs : Sent codec p t) (he : e.bytesWritten .enclave = [])
    (hshown : q.Shown (t ++ [e])) (hbefore : q.beforeResponse → p.beforeResponse) :
    Sent codec q (t ++ [e]) := by
  have hbw : bytesWritten .enclave (t ++ [e]) = bytesWritten .enclave t := by simp [he]
  refine ⟨hshown, fun h => hbw ▸ hs.silent (hbefore h), hbw ▸ ?_⟩
  rcases hs.response with h | ⟨port, localAddr, peerAddr, hn, hpre⟩
  · exact .inl h
  · exact .inr ⟨port, localAddr, peerAddr, hn.append _, hpre⟩

/-- The relay's calls send the control stream nothing. -/
theorem Event.bytesWritten_enclave_of_isRelay (h : e.isRelay = true) :
    e.bytesWritten .enclave = [] := by
  unfold Event.isRelay at h
  split at h
  · rfl
  · rfl
  · rfl
  · rename_i r; cases r <;> rfl
  · rename_i r; cases r <;> rfl
  · cases h

/-- The one step that sends the control stream something: the response, in
full or cut short. -/
theorem Sent.respond {port : UInt16} {localAddr peerAddr : String} {r : Except IoError Nat}
    (hs : Sent codec (.responding port localAddr peerAddr) t) :
    Sent codec (Phase.after r fun _ => .accepting)
      (t ++ [.write .enclave (codec.toVec (.connected port localAddr peerAddr)) r]) := by
  have hbw : bytesWritten .enclave
      (t ++ [.write .enclave (codec.toVec (.connected port localAddr peerAddr)) r]) <+:
        codec.toVec (.connected port localAddr peerAddr) := by
    rw [bytesWritten_append, hs.silent rfl, List.nil_append]
    rcases r with err | n
    · exact List.nil_prefix
    · simpa using List.take_prefix n _
  rcases r with err | n <;>
    exact ⟨trivial, (fun h => by cases h), .inr ⟨port, localAddr, peerAddr, hs.shown.append _, hbw⟩⟩

/-- The step lemma: every step of the protocol keeps `Sent`. -/
theorem Sent.step (h : p.step codec e = some q) (hs : Sent codec p t) :
    Sent codec q (t ++ [e]) := by
  have hnew : ∀ {e' : Event}, e' ∈ t ++ [e'] := List.mem_append_right _ (List.mem_singleton_self _)
  cases Phase.step_eq_some_iff.mp h with
  | read | readFailed | refuse => exact hs.quiet rfl trivial fun _ => rfl
  | connect _ _ r | bind r => rcases r with _ | _ <;> exact hs.quiet rfl trivial fun _ => rfl
  | localAddr r =>
    rcases r with _ | port
    · exact hs.quiet rfl trivial fun _ => rfl
    · exact hs.quiet rfl hnew fun _ => rfl
  | local_ port r =>
    rcases r with _ | localAddr
    · exact hs.quiet rfl trivial fun _ => rfl
    · exact hs.quiet rfl ⟨List.mem_append_left _ hs.shown, hnew⟩ fun _ => rfl
  | peer port localAddr r =>
    rcases r with _ | peerAddr
    · exact hs.quiet rfl trivial fun _ => rfl
    · exact hs.quiet rfl ⟨List.mem_append_left _ hs.shown.1, List.mem_append_left _ hs.shown.2,
        hnew⟩ fun _ => rfl
  | respond => exact hs.respond
  | accept r => rcases r with _ | _ <;> exact hs.quiet rfl trivial fun h => by cases h
  | relay e he => exact hs.quiet (Event.bytesWritten_enclave_of_isRelay he) trivial fun h => by cases h
  | shutdown => exact hs.quiet rfl trivial fun h => by cases h

theorem Sent.init : Sent codec (.request []) [] := ⟨trivial, fun _ => rfl, .inl rfl⟩

/-- The run lemma: every path of the protocol keeps `Sent`. -/
theorem Sent.run {u : List Event} (h : Phase.run codec p u = some q) (hs : Sent codec p t) :
    Sent codec q (t ++ u) := by
  induction u generalizing p t with
  | nil => cases h; simpa using hs
  | cons e u ih =>
    rcases hstep : p.step codec e with _ | p'
    · simp [Phase.run, hstep] at h
    · simp only [Phase.run, hstep, Option.some_bind] at h
      simpa using ih h (hs.step hstep)

end

/-- **The control stream is sent only the response.**  Whatever the world
answers, the bytes a session's worker sends on the control stream are
nothing, or a prefix of one `Connected` response whose port, `local()` and
`peer()` are answers the session got. -/
theorem worker_sends_only_response (codec : Codec) (fuel : Nat) (env : Env) :
    bytesWritten .enclave (worker codec fuel env).events = [] ∨
      ∃ port localAddr peerAddr, Named port localAddr peerAddr (worker codec fuel env).events ∧
        bytesWritten .enclave (worker codec fuel env).events <+:
          codec.toVec (.connected port localAddr peerAddr) := by
  obtain ⟨q, hrun, -⟩ := worker_follows fuel env
  simpa using (Sent.init.run hrun).response

/-! ## The request and the outbound connection -/

/-- The phases after the request: the session has acted on it, or given
up. -/
def Phase.started : Phase → Bool
  | .request _ => false
  | _ => true

section
variable {codec : Codec} {p q : Phase} {e : Event}

/-- What a step does with the request.  In `request got`, a successful read of
the control stream keeps the phase and adds its bytes; every other step
leaves the request phase for good.  A `connect` is taken only from
`request got`, with `got` decoding to `Connect` of its address, and the
control stream is read only before the request is acted on. -/
theorem Phase.step_request (h : p.step codec e = some q) :
    (∃ got bs, p = .request got ∧ e = .read .enclave (.ok bs) ∧ q = .request (got ++ bs)) ∨
      (q.started ∧
        (∀ addr r, e = .connect addr r →
          ∃ got, p = .request got ∧ codec.fromSlice got = .ok (.connect addr)) ∧
        ∀ r, e = .read .enclave r → p.started = false) := by
  cases Phase.step_eq_some_iff.mp h with
  | read got bs => exact .inl ⟨got, bs, rfl, rfl, rfl⟩
  | readFailed => exact .inr ⟨rfl, nofun, fun _ _ => rfl⟩
  | connect got addr r hdec =>
    refine .inr ⟨by cases r <;> rfl, fun addr' r' he => ?_, nofun⟩
    cases he
    exact ⟨got, rfl, hdec⟩
  | bind r | localAddr r | local_ _ r | peer _ _ r | respond _ _ _ r | accept r =>
    exact .inr ⟨by cases r <;> rfl, nofun, nofun⟩
  | relay e he =>
    refine .inr ⟨rfl, fun _ _ h => ?_, fun _ h => ?_⟩ <;> subst h <;> cases he
  | refuse | shutdown => exact .inr ⟨rfl, nofun, nofun⟩

/-- The run lemma after the request: once the request is acted on, the
session never connects again and never reads the control stream again. -/
theorem Phase.run_started {t : List Event} (hp : p.started = true)
    (h : Phase.run codec p t = some q) :
    q.started = true ∧ ∀ e ∈ t, (∀ addr r, e ≠ .connect addr r) ∧ ∀ r, e ≠ .read .enclave r := by
  induction t generalizing p with
  | nil => cases h; exact ⟨hp, fun e he => absurd he (List.not_mem_nil e)⟩
  | cons e t ih =>
    obtain ⟨p', hstep, h⟩ := Option.bind_eq_some.mp h
    rcases Phase.step_request hstep with ⟨got, bs, rfl, -, -⟩ | ⟨hp', hconn, hread⟩
    · cases hp
    obtain ⟨hq, hrest⟩ := ih hp' h
    refine ⟨hq, fun e' he' => ?_⟩
    rcases List.mem_cons.mp he' with rfl | he'
    · refine ⟨fun addr r he => ?_, fun r he => ?_⟩
      · obtain ⟨got, rfl, -⟩ := hconn addr r he
        cases hp
      · rw [hread r he] at hp
        cases hp
    · exact hrest e' he'

/-- The run lemma of the request: a path that is still reading the request
has only read the control stream, and holds all it read. -/
theorem Phase.run_request {t : List Event} {got g : Bytes}
    (h : Phase.run codec (.request got) t = some (.request g)) :
    g = got ++ bytesRead .enclave t ∧ ∀ e ∈ t, ∃ bs, e = .read .enclave (.ok bs) := by
  induction t generalizing got with
  | nil => cases h; exact ⟨by simp, fun e he => absurd he (List.not_mem_nil e)⟩
  | cons e t ih =>
    obtain ⟨p', hstep, h⟩ := Option.bind_eq_some.mp h
    rcases Phase.step_request hstep with ⟨_, bs, hp, rfl, rfl⟩ | ⟨hp', -, -⟩
    · cases hp
      obtain ⟨hg, hreads⟩ := ih h
      refine ⟨by simp [hg], fun e he => ?_⟩
      rcases List.mem_cons.mp he with rfl | he
      · exact ⟨bs, rfl⟩
      · exact hreads e he
    · cases (Phase.run_started hp' h).1

end

/-- **The session connects only where the enclave asked, and once.**  In
every run of a session's worker, whatever the world answers: a
`TcpStream::connect` comes only after the session has read the control
stream and done nothing else; it goes to exactly the address that the bytes
read decode to as `Request::Connect`; and after it the session neither
connects again nor reads the control stream again. -/
theorem worker_connects_only_where_asked (codec : Codec) (fuel : Nat) (env : Env)
    (pre post : List Event) (addr : String) (r : Except IoError Fd)
    (h : (worker codec fuel env).events = pre ++ .connect addr r :: post) :
    (∀ e ∈ pre, ∃ bs, e = .read .enclave (.ok bs)) ∧
      codec.fromSlice (bytesRead .enclave pre) = .ok (.connect addr) ∧
      ∀ e ∈ post, (∀ a r, e ≠ .connect a r) ∧ ∀ r, e ≠ .read .enclave r := by
  obtain ⟨q, hrun, -⟩ := @worker_follows codec fuel env
  rw [h] at hrun
  obtain ⟨p1, p2, hpre, hstep, hrun⟩ := Phase.run_split codec hrun
  rcases Phase.step_request hstep with ⟨_, _, -, hcon, -⟩ | ⟨hp2, hconn, -⟩
  · cases hcon
  obtain ⟨got, rfl, hdec⟩ := hconn addr r rfl
  obtain ⟨hg, hreads⟩ := Phase.run_request hpre
  refine ⟨hreads, ?_, (Phase.run_started hp2 hrun).2⟩
  rwa [hg, List.nil_append] at hdec

/-- A control stream that sends three bytes, and a `connect` that fails. -/
def connectFailsEnv : Env := fun c => match c with
  | .readEnclave => [Except.ok ⟨[1, 2, 3], by decide⟩]
  | .connect => [Except.error (.os .other)]
  | _ => []

theorem worker_connects_to_decoded_address :
    (worker constCodec 1 connectFailsEnv).events =
        [.read .enclave (.ok [1, 2, 3])] ++
          .connect "host:80" (.error (.os .other)) :: [.shutdown .enclave .both] ∧
      constCodec.fromSlice (bytesRead .enclave [.read .enclave (.ok [1, 2, 3])]) =
        .ok (.connect "host:80") :=
  have h : (worker constCodec 1 connectFailsEnv).events =
      [.read .enclave (.ok [1, 2, 3])] ++
        .connect "host:80" (.error (.os .other)) :: [.shutdown .enclave .both] := rfl
  ⟨h, (worker_connects_only_where_asked constCodec 1 connectFailsEnv _ _ _ _ h).2.1⟩

/-! ## The relay starts after the response -/

/-- What the events `t` show a phase to be past: the response write that went
through, and then the accepted data connection. -/
def Phase.Answered (codec : Codec) : Phase → List Event → Prop
  | .accepting, t => ∃ port localAddr peerAddr n,
    Event.write .enclave (codec.toVec (.connected port localAddr peerAddr)) (.ok n) ∈ t
  | .relaying, t => (∃ port localAddr peerAddr n,
    Event.write .enclave (codec.toVec (.connected port localAddr peerAddr)) (.ok n) ∈ t) ∧
      ∃ fd, Event.accept (.ok fd) ∈ t
  | _, _ => True

section
variable {codec : Codec} {p q : Phase} {t : List Event} {e : Event}

theorem Phase.Answered.append (h : p.Answered codec t) (u : List Event) :
    p.Answered codec (t ++ u) := by
  cases p <;> try trivial
  · obtain ⟨port, localAddr, peerAddr, n, hw⟩ := h
    exact ⟨port, localAddr, peerAddr, n, List.mem_append_left u hw⟩
  · obtain ⟨⟨port, localAddr, peerAddr, n, hw⟩, fd, ha⟩ := h
    exact ⟨⟨port, localAddr, peerAddr, n, List.mem_append_left u hw⟩, fd,
      List.mem_append_left u ha⟩

/-- The step lemma: every step keeps `Answered`. -/
theorem Phase.Answered.step (h : p.step codec e = some q) (ha : p.Answered codec t) :
    q.Answered codec (t ++ [e]) := by
  have hnew : ∀ {e' : Event}, e' ∈ t ++ [e'] := List.mem_append_right _ (List.mem_singleton_self _)
  cases Phase.step_eq_some_iff.mp h with
  | connect _ _ r | bind r | localAddr r | local_ _ r | peer _ _ r =>
    cases r <;> trivial
  | respond port localAddr peerAddr r =>
    rcases r with _ | n
    · trivial
    · exact ⟨port, localAddr, peerAddr, n, hnew⟩
  | accept r =>
    rcases r with _ | fd
    · trivial
    · exact ⟨ha.append _, fd, hnew⟩
  | relay => exact ha.append _
  | read | readFailed | refuse | shutdown => trivial

/-- The run lemma: every path keeps `Answered`. -/
theorem Phase.Answered.run {u : List Event} (h : Phase.run codec p u = some q)
    (ha : p.Answered codec t) : q.Answered codec (t ++ u) := by
  induction u generalizing p t with
  | nil => cases h; simpa using ha
  | cons e u ih =>
    obtain ⟨p', hstep, h⟩ := Option.bind_eq_some.mp h
    simpa using ih h (ha.step hstep)

/-- The relay's calls are taken only in the relaying phase. -/
theorem Phase.eq_relaying_of_isRelay (h : p.step codec e = some q) (he : e.isRelay = true) :
    p = .relaying := by
  cases Phase.step_eq_some_iff.mp h <;> first | rfl | cases he

end

/-- **Data moves only after the enclave has been answered.**  In every run of
a session's worker, whatever the world answers, every `select` and every
read or write on the proxy or remote socket comes after a write of a
`Connected` response to the control stream that went through, and after an
`accept` that gave the data connection. -/
theorem worker_relays_after_response (codec : Codec) (fuel : Nat) (env : Env)
    (pre post : List Event) (e : Event)
    (h : (worker codec fuel env).events = pre ++ e :: post) (he : e.isRelay = true) :
    (∃ port localAddr peerAddr n,
      Event.write .enclave (codec.toVec (.connected port localAddr peerAddr)) (.ok n) ∈ pre) ∧
      ∃ fd, Event.accept (.ok fd) ∈ pre := by
  obtain ⟨q, hrun, -⟩ := @worker_follows codec fuel env
  rw [h] at hrun
  obtain ⟨p1, p2, hpre, hstep, -⟩ := Phase.run_split codec hrun
  have ha := Phase.Answered.run (t := []) hpre trivial
  rwa [Phase.eq_relaying_of_isRelay hstep he] at ha

/-- A world in which the session is set up and `select` then reports the
proxy socket readable, before the proxy has sent anything. -/
def relayStartsEnv : Env := fun c => match c with
  | .readEnclave => [Except.ok ⟨[1, 2, 3], by decide⟩]
  | .connect => [Except.ok 5]
  | .bind => [Except.ok ()]
  | .localAddr => [Except.ok 4000]
  | .local_ => [Except.ok "127.0.0.1:3000"]
  | .peer => [Except.ok "127.0.0.1:4001"]
  | .write .enclave => [Except.ok 0]
  | .accept => [Except.ok 6]
  | .select => [Except.ok ⟨true, false⟩]
  | _ => []

/-- The session's calls in `relayStartsEnv` before its first `select`. -/
def relayStartsSetup : List Event :=
  [.read .enclave (.ok [1, 2, 3]), .connect "host:80" (.ok 5), .bind "127.0.0.1:0" (.ok ()),
    .localAddr (.ok 4000), .local_ (.ok "127.0.0.1:3000"), .peer (.ok "127.0.0.1:4001"),
    .write .enclave [] (.ok 0), .accept (.ok 6)]

theorem worker_selects_after_accept :
    (worker constCodec 2 relayStartsEnv).events =
        relayStartsSetup ++ .select (.ok ⟨true, false⟩) :: [] ∧
      (Event.select (.ok ⟨true, false⟩)).isRelay = true ∧
      (∃ port localAddr peerAddr n, Event.write .enclave
          (constCodec.toVec (.connected port localAddr peerAddr)) (.ok n) ∈ relayStartsSetup) ∧
        ∃ fd, Event.accept (.ok fd) ∈ relayStartsSetup :=
  have h : (worker constCodec 2 relayStartsEnv).events =
      relayStartsSetup ++ .select (.ok ⟨true, false⟩) :: [] := rfl
  ⟨h, rfl, worker_relays_after_response constCodec 2 relayStartsEnv _ _ _ h rfl⟩

end RustSgx.Runner
