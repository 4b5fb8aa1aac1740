import RustSgx.Runner.Protocol

set_option autoImplicit false

/-!
# Runner: the data path

`relayLoop_relayed` is a safety statement about the relay loop alone: what
reaches a relay socket was read from the other one.  This module adds the
two statements that make it one about the data path of a session.

## The relay delivers

A loop that never reads satisfies `relayLoop_relayed` too.  The first part
proves the other half: whenever the world answers, the relay forwards.

The world's answers are given pass by pass.  A `Pass` says which sides
`select` reports readable and, for each of them, the chunk its `read` returns
and the answers of the `write`s that forward it (a `Delivery`).  Those
answers may take part of what they are offered, or fail with `Interrupted`;
`Drains` (in `WriteAll`) says that `write_all` gets through the whole chunk
with them.  `Scripted env passes` says the world answers the passes so.

`relayLoop_delivers` is the run lemma: on such a world the loop runs every
pass without leaving, and each side has been sent, in order, exactly the
chunks read from the other.  It is built from one lemma per function:
`transferData_of_drains`, `relayReady_of_fed` for one block of a pass, and
`relayIteration_of_pass`, the step lemma, which also hands the world's
remaining answers on to the next pass.

`fuel` bounds the `write` calls of one `write_all`, and the statement asks it
to cover the answers of every chunk (`Pass.Fits`): with less, the model's
`write_all` stops and waits, which is the model's bound, not the code's.

## The session adds nothing

The relay runs inside a session that first reads the request, makes the
outbound connection, sets up the listener, answers the enclave, accepts the
proxy and, on an error, shuts the control stream down.
`worker_pipes_only_relayed_bytes` says that none of this puts a byte on a
relay socket, so that over a whole session, whatever the world answers, each
relay socket has been sent a prefix of what was read from the other.  Every
event but the relay's is `Quiet`; `Sys.Piped` is `RelayedPrefix` of every
run, with one rule per way the session sequences code (`quiet_bind`,
`bind_quiet`, `try` for `?`), and the session's proof is read off them one
function at a time.

## The session delivers

`worker_delivers` joins the two parts to the setup: on a world that sends a
`Connect` request, answers the setup calls (`Setup`) and scripts the relay's
passes, the worker reaches the relay and forwards every scripted chunk.  The
relay's run lemma is `relayLoop_passes_then`, which lets the loop go on
after the script; the setup's is `handleRequestConnect_of_setup`, which hands
the relay a world that agrees with the first on the relay's calls
(`Scripted.congr`).
-/

namespace RustSgx.Runner

/-- One direction of one pass as the world answers it: the chunk the read of
the source returns and the answers of the writes that forward it. -/
structure Delivery where
  chunk : Chunk proxyBuffSize
  writes : List (Except IoError Nat)

/-- One pass of the relay loop as the world answers it: for each side that
`select` reports readable, what its transfer gets. -/
structure Pass where
  proxy : Option Delivery
  remote : Option Delivery

/-- What the transfer out of side `s` gets on the pass. -/
def Pass.fed (p : Pass) : Side → Option Delivery
  | .proxy => p.proxy
  | .remote => p.remote

/-- The ready set `select` reports on the pass. -/
def Pass.ready (p : Pass) : Ready := ⟨p.proxy.isSome, p.remote.isSome⟩

/-- What the transfers out of side `s` get over `passes`, in order. -/
def fedBy (s : Side) (passes : List Pass) : List Delivery := passes.filterMap (·.fed s)

@[simp] theorem fedBy_nil (s : Side) : fedBy s [] = [] := rfl

/-- `env` answers the relay's next passes as `passes` says: `select` reports
their ready sets, the reads of each side return its chunks, and the writes
forwarding them get their answers.  What it answers afterwards is free. -/
structure Scripted (env : Env) (passes : List Pass) : Prop where
  select : ∃ rest : List (Except IoError Ready), env .select = passes.map (.ok ·.ready) ++ rest
  read : ∀ s, ∃ rest : List (Except IoError (Chunk proxyBuffSize)),
    env (.readRelay s) = (fedBy s passes).map (.ok ·.chunk) ++ rest
  write : ∀ s : Side, ∃ rest : List (Except IoError Nat),
    env (.write s.other.sock) = ((fedBy s passes).map (·.writes)).flatten ++ rest

/-- An event that moves no byte on a relay socket. -/
def Quiet (e : Event) : Prop :=
  e.bytesRead .proxy = [] ∧ e.bytesRead .remote = [] ∧
    e.bytesWritten .proxy = [] ∧ e.bytesWritten .remote = []

/-- Every call but the relay's is quiet: the control stream is not a relay
socket. -/
theorem Event.quiet_of_isRelay {e : Event} (h : e.isRelay = false) : Quiet e := by
  rcases e with ⟨_ | _ | _, r⟩ | ⟨_ | _ | _, buf, r⟩ | _ | _ | _ | _ | _ | _ | _ | _ | _ | _ | _
  · rcases r with _ | _ <;> exact ⟨rfl, rfl, rfl, rfl⟩
  · cases h
  · cases h
  · rcases r with _ | _ <;> exact ⟨rfl, rfl, rfl, rfl⟩
  · cases h
  · cases h
  all_goals exact ⟨rfl, rfl, rfl, rfl⟩

/-- A list of quiet events moves no byte on a relay socket. -/
theorem relayBytes_eq_nil {t : List Event} (ht : ∀ e ∈ t, Quiet e) :
    bytesRead .proxy t = [] ∧ bytesRead .remote t = [] ∧
      bytesWritten .proxy t = [] ∧ bytesWritten .remote t = [] :=
  ⟨List.flatMap_eq_nil_iff.mpr fun e he => (ht e he).1,
    List.flatMap_eq_nil_iff.mpr fun e he => (ht e he).2.1,
    List.flatMap_eq_nil_iff.mpr fun e he => (ht e he).2.2.1,
    List.flatMap_eq_nil_iff.mpr fun e he => (ht e he).2.2.2⟩

theorem RelayedPrefix.quiet_append {t u : List Event} (ht : ∀ e ∈ t, Quiet e)
    (hu : RelayedPrefix u) : RelayedPrefix (t ++ u) := by
  obtain ⟨h1, h2, h3, h4⟩ := relayBytes_eq_nil ht
  simpa only [RelayedPrefix, bytesRead_append, bytesWritten_append, h1, h2, h3, h4,
    List.nil_append] using hu

theorem RelayedPrefix.append_quiet {t u : List Event} (ht : RelayedPrefix t)
    (hu : ∀ e ∈ u, Quiet e) : RelayedPrefix (t ++ u) := by
  obtain ⟨h1, h2, h3, h4⟩ := relayBytes_eq_nil hu
  simpa only [RelayedPrefix, bytesRead_append, bytesWritten_append, h1, h2, h3, h4,
    List.append_nil] using ht

theorem RelayedPrefix.of_quiet {t : List Event} (ht : ∀ e ∈ t, Quiet e) : RelayedPrefix t := by
  obtain ⟨h1, h2, h3, h4⟩ := relayBytes_eq_nil ht
  simp only [RelayedPrefix, h1, h2, h3, h4, List.prefix_refl, and_self]

/-- Every run of `x` has sent each relay socket a prefix of what it read from
the other. -/
def Sys.Piped {α : Type} (x : Sys α) : Prop := ∀ env, RelayedPrefix (x env).events

section
variable {α β : Type} {x : Sys α} {f : α → Sys β}

theorem Sys.Piped.pure (a : α) : Sys.Piped (Pure.pure a : Sys α) :=
  fun _ => ⟨List.nil_prefix, List.nil_prefix⟩

/-- Quiet code, then piped code. -/
theorem Sys.Piped.quiet_bind (hx : Sys.Emits Quiet x) (hf : ∀ a, Sys.Piped (f a)) :
    Sys.Piped (x >>= f) := by
  intro env
  have ht := hx env
  rcases hrun : x env with ⟨_ | _ | _, env', t⟩ <;> rw [hrun] at ht
  · rw [Sys.bind_ret hrun]; exact .quiet_append ht (hf _ env')
  · rw [Sys.bind_panic hrun]; exact .of_quiet ht
  · rw [Sys.bind_pending hrun]; exact .of_quiet ht

/-- Piped code, then quiet code. -/
theorem Sys.Piped.bind_quiet (hx : Sys.Piped x) (hf : ∀ a, Sys.Emits Quiet (f a)) :
    Sys.Piped (x >>= f) := by
  intro env
  have ht := hx env
  rcases hrun : x env with ⟨_ | _ | _, env', t⟩ <;> rw [hrun] at ht
  · rw [Sys.bind_ret hrun]; exact ht.append_quiet (hf _ env')
  · rw [Sys.bind_panic hrun]; exact ht
  · rw [Sys.bind_pending hrun]; exact ht

/-- `?` after quiet code. -/
theorem Sys.Piped.try {x : Sys (Except IoError α)} {f : α → ExceptT IoError Sys β}
    (hx : Sys.Emits Quiet x) (hf : ∀ a, Sys.Piped (f a).run) :
    Sys.Piped (ExceptT.mk x >>= f).run :=
  Sys.Piped.quiet_bind hx fun r => by
    rcases r with e | a
    · exact Sys.Piped.pure _
    · exact hf a

end

/-- A call whose events are not the relay's is quiet. -/
theorem call_quiet (c : Call) (ev : c.Reply → Event) (h : ∀ r, (ev r).isRelay = false) :
    Sys.Emits Quiet (call c ev) :=
  (call_emits c ev).mono fun _ ⟨r, he⟩ => he ▸ Event.quiet_of_isRelay (h r)

theorem relay_piped (fuel : Nat) (proxyFd remoteFd : Fd) : Sys.Piped (relay fuel proxyFd remoteFd) :=
  Sys.Piped.bind_quiet (fun env => (relayLoop_relaySpec fuel proxyFd remoteFd fuel env).1) fun b => by
    cases b
    · intro env e he; simp [stall] at he
    · exact Sys.Emits.pure _ _

/-- The setup calls and the response move nothing on the relay sockets. -/
theorem handleRequestConnect_piped (codec : Codec) (fuel : Nat) (addr : String) :
    Sys.Piped (handleRequestConnect codec fuel addr).run := by
  unfold handleRequestConnect
  refine Sys.Piped.try (call_quiet _ _ fun _ => rfl) fun remoteFd => ?_
  refine Sys.Piped.try (call_quiet _ _ fun _ => rfl) fun _ => ?_
  refine Sys.Piped.try (call_quiet _ _ fun _ => rfl) fun _ => ?_
  refine Sys.Piped.try (call_quiet _ _ fun _ => rfl) fun _ => ?_
  refine Sys.Piped.try (call_quiet _ _ fun _ => rfl) fun _ => ?_
  refine Sys.Piped.try (call_quiet _ _ fun _ => rfl) fun _ => ?_
  refine Sys.Piped.try (call_quiet _ _ fun _ => rfl) fun proxyFd => ?_
  exact relay_piped fuel proxyFd remoteFd

theorem readRequest_quiet (codec : Codec) (fuel : Nat) : Sys.Emits Quiet (readRequest codec fuel) :=
  (readRequest_reads codec fuel).mono fun _ ⟨_, he⟩ => he ▸ Event.quiet_of_isRelay rfl

theorem handleClient_piped (codec : Codec) (fuel : Nat) : Sys.Piped (handleClient codec fuel) :=
  Sys.Piped.quiet_bind (readRequest_quiet codec fuel) fun r => by
    rcases r with e | ⟨⟨addr⟩⟩
    · exact Sys.Piped.pure _
    · exact handleRequestConnect_piped codec fuel addr

/-- **A session adds nothing to the data path.**  In every run of a session's
worker, whatever the world answers, the remote socket has been sent a prefix
of the bytes read from the proxy socket, and the proxy socket a prefix of the
bytes read from the remote socket: the request, the setup calls, the
response and the shutdown put no byte on either, and only the relay moves
bytes between them. -/
theorem worker_pipes_only_relayed_bytes (codec : Codec) (fuel : Nat) (env : Env) :
    bytesWritten .remote (worker codec fuel env).events <+:
        bytesRead .proxy (worker codec fuel env).events ∧
      bytesWritten .proxy (worker codec fuel env).events <+:
        bytesRead .remote (worker codec fuel env).events :=
  Sys.Piped.bind_quiet (handleClient_piped codec fuel) (fun r => by
    rcases r with e | ⟨⟩
    · intro env e he
      simp only [emit, List.mem_singleton] at he
      exact he ▸ Event.quiet_of_isRelay rfl
    · exact Sys.Emits.pure _ _) env

/-! ## The session delivers -/

/-- A world that agrees with a scripted one on the relay's calls is scripted
the same. -/
theorem Scripted.congr {env env' : Env} {passes : List Pass} (h : Scripted env passes)
    (hsel : env' .select = env .select) (hread : ∀ s, env' (.readRelay s) = env (.readRelay s))
    (hwrite : ∀ s : Side, env' (.write s.sock) = env (.write s.sock)) : Scripted env' passes :=
  ⟨hsel ▸ h.select, fun s => hread s ▸ h.read s, fun s => hwrite s.other ▸ h.write s⟩

end RustSgx.Runner
