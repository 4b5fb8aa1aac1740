import RustSgx.Runner.Sys

set_option autoImplicit false

/-!
# Runner: the control listener

`Server::run` (server.rs:211-225):

    let listener = T::bind(self.port)?;
    loop {
        let stream = T::incoming(&listener).unwrap();
        thread::Builder::new().spawn(move || { .. })?;
    }

The worker a pass spawns runs on a thread of its own: its calls are not the
listener's, and nothing it does comes back to this loop (a panic in it ends
that thread only).  What the loop sees of a worker is the answer of `spawn`.

`run_serves_until_incoming_or_spawn_fails` describes every run after a
successful bind: passes that accepted a connection and spawned its worker,
then a wait, a panic at the `unwrap` of a failed `T::incoming`, or a return of
the `Err` of a failed `spawn`.  A wait is tied to its cause (`AcceptEnd`): the
model's bound on passes, or a call the world has not answered yet, so a loop
that stopped calling `T::incoming` would not meet it.  With every accept and every spawn succeeding,
the loop never stops.  `run_panics_on_accept_error` is a world in which an
accept error ends the listener.
-/

namespace RustSgx.Runner

/-- `Server<T>`: the port of the control listener. -/
structure Server where
  port : UInt16

/-- `T::bind(port)`. -/
def serverBind (port : UInt16) : Sys (Except IoError Unit) :=
  call .serverBind (.serverBind port)

/-- `T::incoming(&listener)`: one accept on the control listener. -/
def incoming : Sys (Except IoError Unit) := call .incoming .incoming

/-- `thread::Builder::new().spawn(..)`. -/
def spawn : Sys (Except IoError Unit) := call .spawn .spawn

/-- The loop of `Server::run` (server.rs:216-223), for at most `iters`
passes. -/
def acceptLoop : Nat → Sys (Except IoError Unit)
  | 0 => stall
  | iters + 1 => do
    unwrap (← incoming)
    match ← spawn with
    | .error e => pure (.error e)
    | .ok () => acceptLoop iters

/-- `Server::run` (server.rs:211-225), for at most `iters` passes of its
loop. -/
def Server.run (server : Server) (iters : Nat) : Sys (Except IoError Unit) := do
  match ← serverBind server.port with
  | .error e => pure (.error e)
  | .ok () => acceptLoop iters

/-! ## One pass -/

section
variable {env : Env} {rs : List (Except IoError Unit)}

theorem acceptLoop_of_accept_nil (h : env .incoming = []) (n : Nat) :
    acceptLoop (n + 1) env = ⟨.pending, env, []⟩ := by
  simp [acceptLoop, incoming, Sys.bind_apply, Sys.bind, call_apply, h]

theorem acceptLoop_of_accept_error {e : IoError} (h : env .incoming = .error e :: rs) (n : Nat) :
    acceptLoop (n + 1) env =
      ⟨.panic, Function.update env .incoming rs, [.incoming (.error e)]⟩ := by
  simp [acceptLoop, incoming, Sys.bind_apply, Sys.bind, call_apply, h, unwrap, panic]

theorem acceptLoop_of_spawn_nil (h : env .incoming = .ok () :: rs) (hs : env .spawn = [])
    (n : Nat) :
    acceptLoop (n + 1) env =
      ⟨.pending, Function.update env .incoming rs, [.incoming (.ok ())]⟩ := by
  simp [acceptLoop, incoming, spawn, Sys.bind_apply, Sys.bind, call_apply, h, hs, unwrap,
    Sys.pure_apply]

theorem acceptLoop_of_spawn_error {e : IoError} {ss : List (Except IoError Unit)}
    (h : env .incoming = .ok () :: rs) (hs : env .spawn = .error e :: ss) (n : Nat) :
    acceptLoop (n + 1) env =
      ⟨.ret (.error e), Function.update (Function.update env .incoming rs) .spawn ss,
        [.incoming (.ok ()), .spawn (.error e)]⟩ := by
  simp [acceptLoop, incoming, spawn, Sys.bind_apply, Sys.bind, call_apply, h, hs, unwrap,
    Sys.pure_apply]

/-- A pass that accepted and spawned goes on to the next pass. -/
theorem acceptLoop_of_served {ss : List (Except IoError Unit)}
    (h : env .incoming = .ok () :: rs) (hs : env .spawn = .ok () :: ss) (n : Nat) :
    acceptLoop (n + 1) env =
      let r := acceptLoop n (Function.update (Function.update env .incoming rs) .spawn ss)
      ⟨r.status, r.env, [.incoming (.ok ()), .spawn (.ok ())] ++ r.events⟩ := by
  simp [acceptLoop, incoming, spawn, Sys.bind_apply, Sys.bind, call_apply, h, hs, unwrap,
    Sys.pure_apply]

end

/-! ## Every run -/

/-- `k` passes that accepted a connection and spawned its worker. -/
def servedEvents (k : Nat) : List Event :=
  (List.replicate k [Event.incoming (.ok ()), Event.spawn (.ok ())]).flatten

/-- How the accept loop, started on `env` with `iters` passes, stops after
`k` served passes, and its last calls.  It waits only where the model's
passes are used up or the world has not answered its next call: the next
`T::incoming`, or the `spawn` after an accepted connection.  It panics at a
failed accept, or it returns the `Err` of a failed spawn.  It never returns
`Ok`. -/
def AcceptEnd (env : Env) (iters k : Nat) (st : Status (Except IoError Unit))
    (last : List Event) : Prop :=
  (st = .pending ∧ ((last = [] ∧ (k = iters ∨ (env .incoming).length = k)) ∨
      (last = [.incoming (.ok ())] ∧ (env .spawn).length = k))) ∨
    (∃ e, st = .panic ∧ last = [.incoming (.error e)]) ∨
    (∃ e, st = .ret (.error e) ∧ last = [.incoming (.ok ()), .spawn (.error e)])

/-- One served pass more: one more pass, and one more answer of each call. -/
theorem AcceptEnd.succ {env env' : Env} {iters k : Nat} {st : Status (Except IoError Unit)}
    {last : List Event} (h : AcceptEnd env' iters k st last)
    (hi : (env .incoming).length = (env' .incoming).length + 1)
    (hs : (env .spawn).length = (env' .spawn).length + 1) :
    AcceptEnd env (iters + 1) (k + 1) st last := by
  rcases h with ⟨hst, ⟨hl, hk | hk⟩ | ⟨hl, hk⟩⟩ | h | h
  · exact .inl ⟨hst, .inl ⟨hl, .inl (by omega)⟩⟩
  · exact .inl ⟨hst, .inl ⟨hl, .inr (by omega)⟩⟩
  · exact .inl ⟨hst, .inr ⟨hl, by omega⟩⟩
  · exact .inr (.inl h)
  · exact .inr (.inr h)

/-- The run lemma: every run of the accept loop is some passes that served a
connection, then one of the ends `AcceptEnd` allows. -/
theorem acceptLoop_trace (iters : Nat) (env : Env) :
    ∃ k last, (acceptLoop iters env).events = servedEvents k ++ last ∧
      AcceptEnd env iters k (acceptLoop iters env).status last := by
  induction iters generalizing env with
  | zero => exact ⟨0, [], rfl, .inl ⟨rfl, .inl ⟨rfl, .inl rfl⟩⟩⟩
  | succ n ih =>
    rcases hi : env .incoming with _ | ⟨_ | ⟨⟩, rs⟩
    · rw [acceptLoop_of_accept_nil hi]
      exact ⟨0, [], rfl, .inl ⟨rfl, .inl ⟨rfl, .inr (by rw [hi]; rfl)⟩⟩⟩
    · rw [acceptLoop_of_accept_error hi]; exact ⟨0, _, rfl, .inr (.inl ⟨_, rfl, rfl⟩)⟩
    · rcases hs : env .spawn with _ | ⟨_ | ⟨⟩, ss⟩
      · rw [acceptLoop_of_spawn_nil hi hs]
        exact ⟨0, _, rfl, .inl ⟨rfl, .inr ⟨rfl, by rw [hs]; rfl⟩⟩⟩
      · rw [acceptLoop_of_spawn_error hi hs]; exact ⟨0, _, rfl, .inr (.inr ⟨_, rfl, rfl⟩)⟩
      · obtain ⟨k, last, hev, hend⟩ := ih (Function.update (Function.update env .incoming rs) .spawn ss)
        rw [acceptLoop_of_served hi hs]
        refine ⟨k + 1, last, by simp [hev, servedEvents, List.replicate_succ], hend.succ ?_ ?_⟩
        · rw [Function.update_noteq (by decide), Function.update_same, hi, List.length_cons]
        · rw [Function.update_same, hs, List.length_cons]

/-- With every accept and every spawn succeeding, the loop never stops: it
waits for the next connection, or runs out of passes. -/
theorem acceptLoop_pending (iters : Nat) (env : Env) (hi : ∀ r ∈ env .incoming, r = .ok ())
    (hs : ∀ r ∈ env .spawn, r = .ok ()) : (acceptLoop iters env).status = .pending := by
  induction iters generalizing env with
  | zero => rfl
  | succ n ih =>
    rcases hinc : env .incoming with _ | ⟨r, rs⟩
    · rw [acceptLoop_of_accept_nil hinc]
    · obtain rfl := hi r (hinc ▸ List.mem_cons_self _ _)
      rcases hsp : env .spawn with _ | ⟨r', ss⟩
      · rw [acceptLoop_of_spawn_nil hinc hsp]
      · obtain rfl := hs r' (hsp ▸ List.mem_cons_self _ _)
        rw [acceptLoop_of_served hinc hsp]
        refine ih _ (fun r hr => hi r ?_) (fun r hr => hs r ?_)
        · rw [Function.update_noteq (by decide), Function.update_same] at hr
          exact hinc ▸ List.mem_cons_of_mem _ hr
        · rw [Function.update_same] at hr
          exact hsp ▸ List.mem_cons_of_mem _ hr

/-! ## `Server::run` -/

theorem run_of_bind {server : Server} {env : Env} {rs : List (Except IoError Unit)}
    (hbind : env .serverBind = .ok () :: rs) (iters : Nat) :
    server.run iters env =
      let r := acceptLoop iters (Function.update env .serverBind rs)
      ⟨r.status, r.env, .serverBind server.port (.ok ()) :: r.events⟩ := by
  simp [Server.run, serverBind, Sys.bind_apply, Sys.bind, call_apply, hbind]

/-- **The listener serves until an accept or a spawn fails.**  After a
successful bind, every run of `Server::run` is the bind, some passes that
accepted a connection and spawned its worker, each followed by the next call
of `T::incoming`, and then one of: a wait, only once the model's passes are
used up or while the world has not answered the next `T::incoming` (or the
`spawn` after an accepted connection); a panic right after a failed
`T::incoming`; or a return of the `Err` of a failed `spawn`.  It never returns
`Ok`.  With every accept and every spawn succeeding, it never stops. -/
theorem run_serves_until_incoming_or_spawn_fails (server : Server) (iters : Nat) (env : Env)
    (rs : List (Except IoError Unit)) (hbind : env .serverBind = .ok () :: rs) :
    (∃ k last, (server.run iters env).events =
        .serverBind server.port (.ok ()) :: (servedEvents k ++ last) ∧
      AcceptEnd env iters k (server.run iters env).status last) ∧
    ((∀ r ∈ env .incoming, r = .ok ()) → (∀ r ∈ env .spawn, r = .ok ()) →
      (server.run iters env).status = .pending) := by
  rw [run_of_bind hbind]
  refine ⟨?_, fun hi hs => acceptLoop_pending iters _ (by simpa using hi) (by simpa using hs)⟩
  obtain ⟨k, last, hev, hend⟩ := acceptLoop_trace iters (Function.update env .serverBind rs)
  have hi : Function.update env .serverBind rs .incoming = env .incoming :=
    Function.update_noteq (by decide) _ _
  have hs : Function.update env .serverBind rs .spawn = env .spawn :=
    Function.update_noteq (by decide) _ _
  rw [AcceptEnd, hi, hs] at hend
  exact ⟨k, last, by rw [← hev], hend⟩

/-- A world in which the control listener binds, and accepts and spawns for
two connections. -/
def twoClientsEnv : Env := fun c => match c with
  | .serverBind => [Except.ok ()]
  | .incoming => [Except.ok (), Except.ok ()]
  | .spawn => [Except.ok (), Except.ok ()]
  | _ => []

theorem run_waits_after_two_clients :
    twoClientsEnv .serverBind = [.ok ()] ∧
      ((⟨3333⟩ : Server).run 3 twoClientsEnv).events =
        .serverBind 3333 (.ok ()) :: servedEvents 2 ∧
      ((⟨3333⟩ : Server).run 3 twoClientsEnv).status = .pending :=
  ⟨rfl, rfl, (run_serves_until_incoming_or_spawn_fails ⟨3333⟩ 3 twoClientsEnv [] rfl).2
    (by simp [twoClientsEnv]) (by simp [twoClientsEnv])⟩

/-- A world in which the control listener binds and its first accept fails. -/
def acceptFailsEnv : Env := fun c => match c with
  | .serverBind => [Except.ok ()]
  | .incoming => [Except.error (.os .other), Except.ok ()]
  | .spawn => [Except.ok ()]
  | _ => []

/-- An accept error ends the listener: `Server::run` panics right after the
failed `T::incoming`, and never calls it again. -/
theorem run_panics_on_accept_error :
    ((⟨3333⟩ : Server).run 2 acceptFailsEnv).status = .panic ∧
      ((⟨3333⟩ : Server).run 2 acceptFailsEnv).events =
        [.serverBind 3333 (.ok ()), .incoming (.error (.os .other))] := by
  constructor <;> rfl

end RustSgx.Runner
