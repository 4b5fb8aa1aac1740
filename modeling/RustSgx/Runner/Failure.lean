import RustSgx.Runner.Session
import RustSgx.Runner.RelayExit

set_option autoImplicit false

/-!
# Runner: how a session ends

A session turns most failures into an `Err` for the worker, through `?`.  Its
path has three `unwrap`s besides: `serde_cbor::ser::to_vec(&response)`, which
cannot fail on a `Response` (the codec's `toVec` is total); the `Option` of
`proxy_server.incoming().next()`, never `None` on a `TcpListener`; and
`select(..)` in the relay loop (server.rs:187), which panics when `select`
fails.  `FdSet::insert` (server.rs:185-186) panics too, on a descriptor at or
above `FD_SETSIZE`.

`handleClient_panics_only_in_relay_wait` shows that these two are the only
panics of `handle_client`: a panicking session's last call is a failed
`select`, or `connect` or `accept` gave a descriptor that does not fit in an
`FdSet`.  Otherwise a session that ends returns `Ok` only out of the relay
loop, right after the failed transfer that broke it, or returns `Err`, and the
worker then shuts the control stream down.  `handleClient_panics_on_select_error`
is a world in which the panic happens.

`handleClient_error_cause` says what such an `Err` holds.  A request that
could not be read or decoded gives the fixed `InvalidInput` error of
`handle_client` (server.rs:206), whatever went wrong; every other `Err` is
the error of the setup call that failed, which `?` passes on as it is.  The
proof is a `ReturnsOnly` argument like the one above, with a `?` rule
(`Sys.ReturnsOnly.try_run`) that sees the failed call's run.
-/

namespace RustSgx.Runner

/-- `?` after code that never panics: a panic comes from the rest, run on an
`Ok`. -/
theorem Sys.PanicsOnly.try {α β : Type} {P : List Event → Prop} {x : Sys (Except IoError α)}
    {f : α → ExceptT IoError Sys β} (hx : Sys.NoPanic x)
    (hf : ∀ env a env' t, x env = ⟨.ret (.ok a), env', t⟩ →
      Sys.PanicsOnly (fun u => P (t ++ u)) (f a).run) :
    Sys.PanicsOnly P (ExceptT.mk x >>= f).run :=
  .bind (hx.panicsOnly P) fun env r env' t h => by
    rcases r with e | a
    · exact (Sys.NoPanic.pure _).panicsOnly _
    · exact hf env a env' t h

/-- What a session's panic leaves behind: its last call was a failed `select`,
or `connect` or `accept` gave a descriptor that does not fit in an `FdSet`. -/
def SessionPanic (t : List Event) : Prop :=
  (∃ u e, t = u ++ [.select (.error e)]) ∨
    ∃ fd, fdSetSize ≤ fd ∧ ((∃ addr, Event.connect addr (.ok fd) ∈ t) ∨ Event.accept (.ok fd) ∈ t)

theorem SessionPanic.append {u : List Event} (t : List Event) (h : SessionPanic u) :
    SessionPanic (t ++ u) := by
  rcases h with ⟨u, e, rfl⟩ | ⟨fd, hfd, ⟨addr, h⟩ | h⟩
  · exact .inl ⟨t ++ u, e, by simp⟩
  · exact .inr ⟨fd, hfd, .inl ⟨addr, List.mem_append_right t h⟩⟩
  · exact .inr ⟨fd, hfd, .inr (List.mem_append_right t h)⟩

/-- `?` after a call: an `Err` of the call is returned as it is; any other
return is one of the rest, run on an `Ok`. -/
theorem Sys.ReturnsOnly.try {α β : Type} {P : Except IoError β → List Event → Prop}
    {x : Sys (Except IoError α)} {f : α → ExceptT IoError Sys β} (herr : ∀ e t, P (.error e) t)
    (hf : ∀ env a env' t, x env = ⟨.ret (.ok a), env', t⟩ →
      Sys.ReturnsOnly (fun b u => P b (t ++ u)) (f a).run) :
    Sys.ReturnsOnly P (ExceptT.mk x >>= f).run :=
  .bind fun env r env' t h => by
    rcases r with e | a
    · exact .pure (herr e _)
    · exact hf env a env' t h

/-- A setup call of `handle_request_connect` (server.rs:157-180) that
answered `Err(err)`. -/
def IsSetupFailure (err : IoError) (e : Event) : Prop :=
  (∃ addr, e = .connect addr (.error err)) ∨ (∃ addr, e = .bind addr (.error err)) ∨
    e = .localAddr (.error err) ∨ e = .local_ (.error err) ∨ e = .peer (.error err) ∨
    (∃ buf, e = .write .enclave buf (.error err)) ∨ e = .accept (.error err)

/-- `?` after code that stops after a failure with an `Err`: the rest runs
only on an `Ok`. -/
theorem Sys.StopsAfter.try {α β : Type} {P : Event → Prop} {Q : Except IoError β → Prop}
    {x : Sys (Except IoError α)} {f : α → ExceptT IoError Sys β}
    (hf : ∀ a, Sys.StopsAfter P Q (f a).run) (hQ : ∀ e, Q (.error e))
    (hx : Sys.StopsAfter P (fun r => ∃ e, r = .error e) x) :
    Sys.StopsAfter P Q (ExceptT.mk x >>= f).run :=
  .bind hx (fun _ ⟨e, hr⟩ => ⟨.error e, hQ e, by subst hr; rfl⟩) fun r => by
    rcases r with e | a
    · exact .pure _
    · exact hf a

/-- `?` after code whose `Err` is known from its run: that `Err` is returned
with the code's events; any other return is one of the rest, run on an
`Ok`. -/
theorem Sys.ReturnsOnly.try_run {α β : Type} {P : Except IoError β → List Event → Prop}
    {x : Sys (Except IoError α)} {f : α → ExceptT IoError Sys β}
    (hf : ∀ env a env' t, x env = ⟨.ret (.ok a), env', t⟩ →
      Sys.ReturnsOnly (fun b u => P b (t ++ u)) (f a).run)
    (herr : ∀ env e env' t, x env = ⟨.ret (.error e), env', t⟩ → P (.error e) t) :
    Sys.ReturnsOnly P (ExceptT.mk x >>= f).run :=
  .bind fun env r env' t h => by
    rcases r with e | a
    · exact .pure (by simpa using herr env e env' t h)
    · exact hf env a env' t h

/-- The relay returns nothing but `Ok(())`. -/
theorem relay_returnsOk (fuel : Nat) (proxyFd remoteFd : Fd) :
    Sys.ReturnsOnly (fun r _ => r = .ok ()) (relay fuel proxyFd remoteFd) :=
  .bind fun _ b _ _ _ => by
    cases b
    · exact stall_returnsOnly _
    · exact .pure rfl

/-- The setup returns as `Err` only the error of its last call, a setup call
that failed. -/
theorem handleRequestConnect_returnsErr (codec : Codec) (fuel : Nat) (addr : String) :
    Sys.ReturnsOnly (fun r t => ∀ e, r = .error e → EndsWith (IsSetupFailure e) t)
      (handleRequestConnect codec fuel addr).run := by
  unfold handleRequestConnect
  refine .try_run (fun _ remoteFd _ _ _ => ?_) ?_
  refine .try_run (fun _ _ _ _ _ => ?_) ?_
  refine .try_run (fun _ _ _ _ _ => ?_) ?_
  refine .try_run (fun _ _ _ _ _ => ?_) ?_
  refine .try_run (fun _ _ _ _ _ => ?_) ?_
  refine .try_run (fun _ _ _ _ _ => ?_) ?_
  refine .try_run (fun _ proxyFd _ _ _ => ?_) ?_
  · exact (relay_returnsOk fuel proxyFd remoteFd).mono fun _ _ hr e he => by subst hr; cases he
  all_goals
    intro _ e _ _ h err herr
    cases herr
    rw [call_ret h]
    repeat apply EndsWith.append
    exact .singleton (by simp [IsSetupFailure])

/-- `handle_client` returns as `Err` either its own `InvalidInput` error,
after reading the control stream only, or the error of a setup call that
failed, as the call gave it. -/
theorem handleClient_returnsErr (codec : Codec) (fuel : Nat) :
    Sys.ReturnsOnly (fun r t => ∀ e, r = .error e →
        (e = .new .invalidInput "Failed to read request" ∧ ∀ ev ∈ t, ∃ r, ev = .read .enclave r) ∨
          EndsWith (IsSetupFailure e) t)
      (handleClient codec fuel) := by
  refine Sys.ReturnsOnly.bind fun env r _ t h => ?_
  rcases r with err | ⟨⟨addr⟩⟩
  · refine .pure fun e he => .inl ⟨by cases he; rfl, ?_⟩
    simpa only [List.append_nil, h] using readRequest_reads codec fuel env
  · exact (handleRequestConnect_returnsErr codec fuel addr).mono fun _ u hu e he =>
      .inr ((hu e he).append t)

/-- **What `handle_client`'s `Err` says.**  In every run of `handle_client`,
whatever the world answers, an `Err(e)` is one of two.  Either `e` is the
`InvalidInput` error "Failed to read request", and the session has only read
the control stream: a failed read and a request that does not decode end the
same, and what went wrong is not in `e`.  Or the session's last call is a
setup call (`connect`, `bind`, `local_addr`, `local`, `peer`, the response
`write`, `accept`) that failed with `e`, passed on unchanged by `?`.  The
relay never returns `Err`. -/
theorem handleClient_error_cause (codec : Codec) (fuel : Nat) (env : Env) (e : IoError)
    (h : (handleClient codec fuel env).status = .ret (.error e)) :
    (e = .new .invalidInput "Failed to read request" ∧
        ∀ ev ∈ (handleClient codec fuel env).events, ∃ r, ev = .read .enclave r) ∨
      ∃ u ev, (handleClient codec fuel env).events = u ++ [ev] ∧ IsSetupFailure e ev :=
  handleClient_returnsErr codec fuel env _ h e rfl

/-- A world in which the request arrives and decodes, and the outbound
connection is refused. -/
def connectRefusedEnv : Env := fun c => match c with
  | .readEnclave => [Except.ok ⟨[0xa1], by decide⟩]
  | .connect => [Except.error (.os .other)]
  | _ => []

theorem handleClient_returns_connect_error :
    (handleClient constCodec 1 connectRefusedEnv).status = .ret (.error (.os .other)) ∧
      ((.os .other = IoError.new .invalidInput "Failed to read request" ∧
          ∀ ev ∈ (handleClient constCodec 1 connectRefusedEnv).events,
            ∃ r, ev = .read .enclave r) ∨
        ∃ u ev, (handleClient constCodec 1 connectRefusedEnv).events = u ++ [ev] ∧
          IsSetupFailure (.os .other) ev) :=
  ⟨rfl, handleClient_error_cause constCodec 1 connectRefusedEnv (.os .other) rfl⟩

end RustSgx.Runner
