import RustSgx.Runner.WriteAll

set_option autoImplicit false

/-!
# Runner: the data-plane relay loop

`Server::handle_request_connect` ends in a loop (server.rs:183-199) that pumps
bytes between the enclave's data connection (`proxy`) and the outbound
connection (`remote`):

    loop {
        let mut fd_set = FdSet::new();
        fd_set.insert(proxy.as_raw_fd());
        fd_set.insert(remote_socket.as_raw_fd());
        select(None, Some(&mut fd_set), None, None, None).unwrap();
        if fd_set.contains(proxy.as_raw_fd()) {
            if Self::transfer_data(&mut proxy, .., &mut remote_socket, ..).is_err() { break; }
        }
        if fd_set.contains(remote_socket.as_raw_fd()) {
            if Self::transfer_data(&mut remote_socket, .., &mut proxy, ..).is_err() { break; }
        }
    }

The loop is modelled pass by pass: `relayIteration` is one pass, and
`relayLoop fuel pfd rfd iters` makes at most `iters` passes.  It returns
`false` when the passes ran out at the top of the loop, so the runs of
`relayLoop` over all `iters` are exactly the states of the real loop at the end
of each completed pass.

The main result is `relayLoop_relayed`: at the end of every completed pass each
relay socket has been sent exactly the bytes read from the other, in order, and
at every other point a prefix of them.  The loop leaves only through `break`,
that is on an `Err`; a read of zero bytes is an `Ok(0)` and the loop goes on
(`relayLoop_spins_after_close`).
-/

namespace RustSgx.Runner

/-! ## `transfer_data` -/

/-- `Read::read` on a relay socket, into the `PROXY_BUFF_SIZE` buffer of
`transfer_data`. -/
def readSide (s : Side) : Sys (Except IoError (Chunk proxyBuffSize)) :=
  call (.readRelay s) (fun r => .read s.sock (r.map Chunk.bytes))

theorem readSide_emits (s : Sock) (side : Side) (h : side.sock = s) :
    Sys.Emits (fun e => ∃ r, e = .read s r) (readSide side) := by
  intro env e he
  obtain ⟨r, rfl⟩ := call_emits _ _ env e he
  exact ⟨_, by rw [h]⟩

theorem readSide_of_nil {s : Side} {env : Env} (h : env (.readRelay s) = []) :
    readSide s env = ⟨.pending, env, []⟩ := by
  simp only [readSide, call_apply, h]

theorem readSide_of_cons {s : Side} {env : Env} {r : Except IoError (Chunk proxyBuffSize)}
    {rs : List (Except IoError (Chunk proxyBuffSize))} (h : env (.readRelay s) = r :: rs) :
    readSide s env =
      ⟨.ret r, Function.update env (.readRelay s) rs, [.read s.sock (r.map Chunk.bytes)]⟩ := by
  simp only [readSide, call_apply, h]

/-- `Server::transfer_data` (server.rs:114-135): one `read` of at most
`PROXY_BUFF_SIZE` bytes from `src`; a non-empty chunk goes to `write_all` on
`dst`.  Returns the number of bytes read; `Ok(0)` when the peer closed. -/
def transferData (fuel : Nat) (src dst : Side) : Sys (Except IoError Nat) := do
  match ← readSide src with
  | .error e => pure (.error e)
  | .ok chunk =>
    if 0 < chunk.bytes.length then
      match ← writeAll dst.sock fuel chunk.bytes with
      | .error e => pure (.error e)
      | .ok () => pure (.ok chunk.bytes.length)
    else pure (.ok chunk.bytes.length)

/-- The events `transfer_data src dst` can produce: reads of `src` and writes
of a non-empty remainder on `dst`. -/
def IsTransferEvent (src dst : Sock) (e : Event) : Prop :=
  (∃ r, e = .read src r) ∨ IsWriteTo dst e

theorem IsTransferEvent.bytesRead {src dst s : Sock} {e : Event} (h : IsTransferEvent src dst e)
    (hs : s ≠ src) : e.bytesRead s = [] := by
  rcases h with ⟨r, rfl⟩ | ⟨buf, r, rfl, -⟩
  · rcases r with _ | bs <;> simp [Ne.symm hs]
  · simp

theorem IsTransferEvent.bytesWritten {src dst s : Sock} {e : Event}
    (h : IsTransferEvent src dst e) (hs : s ≠ dst) : e.bytesWritten s = [] := by
  rcases h with ⟨r, rfl⟩ | ⟨buf, r, rfl, -⟩
  · simp
  · rcases r with _ | n <;> simp [Ne.symm hs]

theorem transferData_emits (fuel : Nat) (src dst : Side) :
    Sys.Emits (IsTransferEvent src.sock dst.sock) (transferData fuel src dst) := by
  refine Sys.Emits.bind ((readSide_emits _ src rfl).mono fun e h => .inl h) fun r => ?_
  split
  · exact Sys.Emits.pure _ _
  · split
    · refine Sys.Emits.bind ((writeAll_emits _ _ _).mono fun e h => .inr h) fun r => ?_
      split <;> exact Sys.Emits.pure _ _
    · exact Sys.Emits.pure _ _

/-- One `transfer_data` hands `dst` a prefix of what it read from `src`, and
all of it when it returns `Ok`. -/
theorem transferData_moves (fuel : Nat) (src dst : Side) (env : Env) :
    bytesWritten dst.sock (transferData fuel src dst env).events <+:
        bytesRead src.sock (transferData fuel src dst env).events ∧
      (∀ n, (transferData fuel src dst env).status = .ret (.ok n) →
        bytesWritten dst.sock (transferData fuel src dst env).events =
          bytesRead src.sock (transferData fuel src dst env).events) := by
  rcases hq : env (.readRelay src) with _ | ⟨r, rs⟩
  · simp [transferData, Sys.bind_pending (readSide_of_nil hq)]
  rw [transferData, Sys.bind_ret (readSide_of_cons hq)]
  rcases r with e | ⟨bs, hbs⟩
  · simp [Sys.pure_apply, Except.map]
  simp only [Except.map]
  split
  · set env' := Function.update env (.readRelay src) rs
    have hread : bytesRead src.sock (writeAll dst.sock fuel bs env').events = [] :=
      (writeAll_emits _ _ _).bytesRead_eq_nil (fun e h => (h.elim fun _ h => h.elim
        fun _ h => by rw [h.1]; simp)) env'
    obtain ⟨hpre, hok⟩ := writeAll_written dst.sock fuel bs env'
    rcases hw : writeAll dst.sock fuel bs env' with ⟨(e | _) | _ | _, env'', t⟩
    · rw [Sys.bind_ret hw]; rw [hw] at hread hpre
      simpa [Sys.pure_apply, hread] using hpre
    · rw [Sys.bind_ret hw]; rw [hw] at hread hok
      simp [Sys.pure_apply, hread, hok rfl]
    · rw [Sys.bind_panic hw]; rw [hw] at hread hpre; simpa [hread] using hpre
    · rw [Sys.bind_pending hw]; rw [hw] at hread hpre; simpa [hread] using hpre
  · have : bs = [] := List.eq_nil_of_length_eq_zero (by omega)
    simp [Sys.pure_apply, this]

/-! ## One pass of the loop -/

/-- nix `select` on the read set `{proxy, remote}`, with no timeout. -/
def select : Sys (Except IoError Ready) := call .select .select

/-- `FdSet::insert(fd)`: the set is a fixed array of `FD_SETSIZE` bits, and a
descriptor outside it panics (nix asserts the range; the libc `FD_SET` it wraps
indexes the array with a bounds check). -/
def fdSetInsert (fd : Fd) : Sys Unit := if fd < fdSetSize then pure () else panic

/-- Lines 184-187: build the read set and wait in `select(..).unwrap()`. -/
def waitReady (proxyFd remoteFd : Fd) : Sys Ready := do
  fdSetInsert proxyFd
  fdSetInsert remoteFd
  unwrap (← select)

/-- `Result::is_err`. -/
def isErr {ε α : Type} : Except ε α → Bool
  | .error _ => true
  | .ok _ => false

/-- Lines 189-193 and 194-198, the two blocks of a pass, which differ only in
the direction: when `src` is in the ready set, `transfer_data(src, dst)`, and
`true` (the `break`) when it returned `Err`. -/
def relayReady (fuel : Nat) (ready : Bool) (src dst : Side) : Sys Bool :=
  if ready then do pure (isErr (← transferData fuel src dst)) else pure false

/-- One pass of the relay loop (server.rs:184-198); `true` when it breaks. -/
def relayIteration (fuel : Nat) (proxyFd remoteFd : Fd) : Sys Bool := do
  let ready ← waitReady proxyFd remoteFd
  if ← relayReady fuel ready.proxy .proxy .remote then pure true
  else relayReady fuel ready.remote .remote .proxy

/-- The relay loop (server.rs:183-199), for at most `iters` passes; `fuel`
bounds each `write_all`.  `true` when it left through a `break`; `false` when
the passes ran out at the top of the loop. -/
def relayLoop (fuel : Nat) (proxyFd remoteFd : Fd) : Nat → Sys Bool
  | 0 => pure false
  | iters + 1 => do
    if ← relayIteration fuel proxyFd remoteFd then pure true
    else relayLoop fuel proxyFd remoteFd iters

/-- A `select` event. -/
def IsSelect (e : Event) : Prop := ∃ r, e = .select r

theorem fdSetInsert_emits (P : Event → Prop) (fd : Fd) : Sys.Emits P (fdSetInsert fd) := by
  unfold fdSetInsert
  split
  · exact Sys.Emits.pure _ _
  · intro env e he; simp [panic] at he

theorem waitReady_emits (proxyFd remoteFd : Fd) :
    Sys.Emits IsSelect (waitReady proxyFd remoteFd) := by
  refine Sys.Emits.bind (fdSetInsert_emits _ _) fun _ =>
    Sys.Emits.bind (fdSetInsert_emits _ _) fun _ =>
      Sys.Emits.bind (call_emits _ _) fun r => ?_
  rcases r with _ | a
  · intro env e he; simp [unwrap, panic] at he
  · exact Sys.Emits.pure _ _

theorem relayReady_emits (fuel : Nat) (ready : Bool) (src dst : Side) :
    Sys.Emits (IsTransferEvent src.sock dst.sock) (relayReady fuel ready src dst) := by
  unfold relayReady
  split
  · exact Sys.Emits.bind (transferData_emits _ _ _) fun _ => Sys.Emits.pure _ _
  · exact Sys.Emits.pure _ _

/-- The calls the relay makes: `select`, reads of one relay socket and writes
of a non-empty remainder on the other. -/
def IsRelayEvent (e : Event) : Prop :=
  IsSelect e ∨ IsTransferEvent .proxy .remote e ∨ IsTransferEvent .remote .proxy e

theorem relayIteration_emits (fuel : Nat) (proxyFd remoteFd : Fd) :
    Sys.Emits IsRelayEvent (relayIteration fuel proxyFd remoteFd) := by
  refine Sys.Emits.bind ((waitReady_emits _ _).mono fun e h => .inl h) fun ready =>
    Sys.Emits.bind ((relayReady_emits _ _ _ _).mono fun e h => .inr (.inl h)) fun b => ?_
  split
  · exact Sys.Emits.pure _ _
  · exact (relayReady_emits _ _ _ _).mono fun e h => .inr (.inr h)

/-- The relay makes no call but `select` and I/O on `proxy` and `remote`, and
never offers an empty buffer to `write`. -/
theorem relayLoop_emits (fuel : Nat) (proxyFd remoteFd : Fd) (iters : Nat) :
    Sys.Emits IsRelayEvent (relayLoop fuel proxyFd remoteFd iters) := by
  induction iters with
  | zero => exact Sys.Emits.pure _ _
  | succ n ih =>
    refine Sys.Emits.bind (relayIteration_emits _ _ _) fun b => ?_
    split
    · exact Sys.Emits.pure _ _
    · exact ih

theorem IsRelayEvent.bytesWritten_enclave {e : Event} (h : IsRelayEvent e) :
    e.bytesWritten .enclave = [] := by
  rcases h with ⟨r, rfl⟩ | h | h
  · rfl
  · exact h.bytesWritten (by decide)
  · exact h.bytesWritten (by decide)

/-! ## Conservation -/

/-- After `t`, each relay socket has been sent exactly the bytes read from the
other, in the order they were read. -/
def Relayed (t : List Event) : Prop :=
  bytesWritten .remote t = bytesRead .proxy t ∧ bytesWritten .proxy t = bytesRead .remote t

/-- After `t`, each relay socket has been sent a prefix of the bytes read from
the other. -/
def RelayedPrefix (t : List Event) : Prop :=
  bytesWritten .remote t <+: bytesRead .proxy t ∧ bytesWritten .proxy t <+: bytesRead .remote t

/-- What a run of the relay owes: always a prefix, and everything when it
stands at the top of the loop (`ret false`). -/
def RelaySpec (r : Run Bool) : Prop :=
  RelayedPrefix r.events ∧ (r.status = .ret false → Relayed r.events)

theorem Relayed.toPrefix {t : List Event} (h : Relayed t) : RelayedPrefix t :=
  ⟨h.1 ▸ List.prefix_refl _, h.2 ▸ List.prefix_refl _⟩

theorem RelaySpec.of_relayed {r : Run Bool} (h : Relayed r.events) : RelaySpec r :=
  ⟨h.toPrefix, fun _ => h⟩

theorem RelaySpec.of_prefix {st : Status Bool} {env : Env} {t : List Event}
    (h : RelayedPrefix t) (hst : st ≠ .ret false) : RelaySpec ⟨st, env, t⟩ :=
  ⟨h, fun h' => absurd h' hst⟩

/-- A relayed segment followed by any run of the relay still meets the
relay's obligation. -/
theorem RelaySpec.append {t : List Event} {r : Run Bool} (ht : Relayed t) (hr : RelaySpec r) :
    RelaySpec ⟨r.status, r.env, t ++ r.events⟩ := by
  obtain ⟨⟨h1, h2⟩, hok⟩ := hr
  refine ⟨⟨?_, ?_⟩, fun h => ?_⟩
  · simpa [ht.1] using h1
  · simpa [ht.2] using h2
  · obtain ⟨e1, e2⟩ := hok h
    exact ⟨by simp [ht.1, e1], by simp [ht.2, e2]⟩

theorem relayed_of_selects {t : List Event} (h : ∀ e ∈ t, IsSelect e) : Relayed t := by
  have hr : ∀ s, bytesRead s t = [] := fun s =>
    List.flatMap_eq_nil_iff.mpr fun e he => by obtain ⟨r, rfl⟩ := h e he; rfl
  have hw : ∀ s, bytesWritten s t = [] := fun s =>
    List.flatMap_eq_nil_iff.mpr fun e he => by obtain ⟨r, rfl⟩ := h e he; rfl
  exact ⟨by rw [hr, hw], by rw [hr, hw]⟩

/-- One block of a pass, `src` to `src.other`, meets the relay's obligation. -/
theorem relayReady_relaySpec (fuel : Nat) (ready : Bool) (src : Side) (env : Env) :
    RelaySpec (relayReady fuel ready src src.other env) := by
  have hread : bytesRead src.other.sock (relayReady fuel ready src src.other env).events = [] :=
    (relayReady_emits _ _ _ _).bytesRead_eq_nil (fun e h => h.bytesRead src.sock_other_ne) env
  have hwritten : bytesWritten src.sock (relayReady fuel ready src src.other env).events = [] :=
    (relayReady_emits _ _ _ _).bytesWritten_eq_nil
      (fun e h => h.bytesWritten src.sock_other_ne.symm) env
  suffices h : bytesWritten src.other.sock (relayReady fuel ready src src.other env).events <+:
        bytesRead src.sock (relayReady fuel ready src src.other env).events ∧
      ((relayReady fuel ready src src.other env).status = .ret false →
        bytesWritten src.other.sock (relayReady fuel ready src src.other env).events =
          bytesRead src.sock (relayReady fuel ready src src.other env).events) by
    cases src <;> simp only [Side.sock, Side.other] at hread hwritten h ⊢ <;>
      exact ⟨⟨by simp [h.1, hread, hwritten], by simp [h.1, hread, hwritten]⟩,
        fun hs => ⟨by simp [h.2 hs, hread, hwritten], by simp [h.2 hs, hread, hwritten]⟩⟩
  unfold relayReady
  split
  · obtain ⟨hpre, hok⟩ := transferData_moves fuel src src.other env
    rcases ht : transferData fuel src src.other env with ⟨(e | n) | _ | _, env', t⟩ <;>
      rw [ht] at hpre hok
    · rw [Sys.bind_ret ht]; simpa [isErr, Sys.pure_apply] using hpre
    · rw [Sys.bind_ret ht]; simp [isErr, Sys.pure_apply, hok n rfl]
    · rw [Sys.bind_panic ht]; exact ⟨hpre, nofun⟩
    · rw [Sys.bind_pending ht]; exact ⟨hpre, nofun⟩
  · simp [Sys.pure_apply]

theorem relayIteration_relaySpec (fuel : Nat) (proxyFd remoteFd : Fd) (env : Env) :
    RelaySpec (relayIteration fuel proxyFd remoteFd env) := by
  have hsel := waitReady_emits proxyFd remoteFd env
  rcases hw : waitReady proxyFd remoteFd env with ⟨_ | _ | _, env1, tw⟩ <;> rw [hw] at hsel
  · rw [relayIteration, Sys.bind_ret hw]
    refine RelaySpec.append (relayed_of_selects hsel) ?_
    have h1 := relayReady_relaySpec fuel ‹Ready›.proxy .proxy env1
    rcases hr : relayReady fuel ‹Ready›.proxy .proxy .remote env1 with
      ⟨(_ | _) | _ | _, env2, t1⟩ <;> simp only [Side.other, hr] at h1
    · rw [Sys.bind_ret hr]
      exact RelaySpec.append (h1.2 rfl) (relayReady_relaySpec fuel _ .remote env2)
    · rw [Sys.bind_ret hr]; simpa [RelaySpec, Sys.pure_apply] using h1.1
    · rw [Sys.bind_panic hr]; exact RelaySpec.of_prefix h1.1 nofun
    · rw [Sys.bind_pending hr]; exact RelaySpec.of_prefix h1.1 nofun
  · rw [relayIteration, Sys.bind_panic hw]
    exact RelaySpec.of_prefix (relayed_of_selects hsel).toPrefix nofun
  · rw [relayIteration, Sys.bind_pending hw]
    exact RelaySpec.of_prefix (relayed_of_selects hsel).toPrefix nofun

/-- The run lemma: every run of the relay loop meets the relay's obligation. -/
theorem relayLoop_relaySpec (fuel : Nat) (proxyFd remoteFd : Fd) (iters : Nat) (env : Env) :
    RelaySpec (relayLoop fuel proxyFd remoteFd iters env) := by
  induction iters generalizing env with
  | zero => exact RelaySpec.of_relayed (by simp [relayLoop, Sys.pure_apply, Relayed])
  | succ n ih =>
    have h1 := relayIteration_relaySpec fuel proxyFd remoteFd env
    rcases hr : relayIteration fuel proxyFd remoteFd env with
      ⟨(_ | _) | _ | _, env1, t⟩ <;> rw [hr] at h1
    · rw [relayLoop, Sys.bind_ret hr]; exact RelaySpec.append (h1.2 rfl) (ih env1)
    · rw [relayLoop, Sys.bind_ret hr]; simpa [RelaySpec, Sys.pure_apply] using h1.1
    · rw [relayLoop, Sys.bind_panic hr]; exact RelaySpec.of_prefix h1.1 nofun
    · rw [relayLoop, Sys.bind_pending hr]; exact RelaySpec.of_prefix h1.1 nofun

/-- **The relay conserves bytes.**  Whatever `select` reports on each pass,
however each read chunks the data and whatever each `write` inside
`write_all` does: at the end of every completed pass (`relayLoop` stopping at
the top of the loop, `ret false`) `remote` has been sent exactly the bytes read
from `proxy` and `proxy` exactly the bytes read from `remote`, in order; and at
every point of every run, a `break` on an error included, a prefix of them. -/
theorem relayLoop_relayed (fuel : Nat) (proxyFd remoteFd : Fd) (iters : Nat) (env : Env) :
    (bytesWritten .remote (relayLoop fuel proxyFd remoteFd iters env).events <+:
        bytesRead .proxy (relayLoop fuel proxyFd remoteFd iters env).events ∧
      bytesWritten .proxy (relayLoop fuel proxyFd remoteFd iters env).events <+:
        bytesRead .remote (relayLoop fuel proxyFd remoteFd iters env).events) ∧
    ((relayLoop fuel proxyFd remoteFd iters env).status = .ret false →
      bytesWritten .remote (relayLoop fuel proxyFd remoteFd iters env).events =
          bytesRead .proxy (relayLoop fuel proxyFd remoteFd iters env).events ∧
        bytesWritten .proxy (relayLoop fuel proxyFd remoteFd iters env).events =
          bytesRead .remote (relayLoop fuel proxyFd remoteFd iters env).events) :=
  relayLoop_relaySpec fuel proxyFd remoteFd iters env

/-! ## A closed peer -/

/-- What a `read` returns once the peer has closed: no bytes, `Ok(0)`. -/
def eofChunk : Chunk proxyBuffSize := ⟨[], Nat.zero_le _⟩

theorem waitReady_of_select {proxyFd remoteFd : Fd} {env : Env} {ready : Ready}
    {rs : List (Except IoError Ready)} (hp : proxyFd < fdSetSize) (hr : remoteFd < fdSetSize)
    (h : env .select = .ok ready :: rs) :
    waitReady proxyFd remoteFd env =
      ⟨.ret ready, Function.update env .select rs, [.select (.ok ready)]⟩ := by
  simp [waitReady, fdSetInsert, hp, hr, select, call_apply, h, unwrap, Sys.bind_apply, Sys.bind,
    Sys.pure_apply]

theorem transferData_of_eof {fuel : Nat} {src dst : Side} {env : Env}
    {rs : List (Except IoError (Chunk proxyBuffSize))}
    (h : env (.readRelay src) = .ok eofChunk :: rs) :
    transferData fuel src dst env =
      ⟨.ret (.ok 0), Function.update env (.readRelay src) rs, [.read src.sock (.ok [])]⟩ := by
  rw [transferData, Sys.bind_ret (readSide_of_cons h)]
  simp [eofChunk, Except.map, Sys.pure_apply]

/-- A pass in which `select` reports `proxy` readable and its read returns
`Ok(0)` ends at the top of the loop, not in a `break`. -/
theorem relayIteration_after_close (fuel : Nat) {proxyFd remoteFd : Fd}
    (hp : proxyFd < fdSetSize) (hr : remoteFd < fdSetSize) {env : Env}
    {rs : List (Except IoError Ready)} {qs : List (Except IoError (Chunk proxyBuffSize))}
    (hsel : env .select = .ok ⟨true, false⟩ :: rs)
    (hread : env (.readRelay .proxy) = .ok eofChunk :: qs) :
    relayIteration fuel proxyFd remoteFd env =
      ⟨.ret false, Function.update (Function.update env .select rs) (.readRelay .proxy) qs,
        [.select (.ok ⟨true, false⟩), .read .proxy (.ok [])]⟩ := by
  have hread' : Function.update env .select rs (.readRelay .proxy) = .ok eofChunk :: qs := by
    rw [Function.update_noteq (by decide)]; exact hread
  have hproxy : relayReady fuel true .proxy .remote (Function.update env .select rs) =
      ⟨.ret false, Function.update (Function.update env .select rs) (.readRelay .proxy) qs,
        [.read .proxy (.ok [])]⟩ := by
    rw [relayReady, if_pos rfl, Sys.bind_ret (transferData_of_eof hread')]; rfl
  simp only [relayIteration, Sys.bind_ret (waitReady_of_select hp hr hsel)]
  rw [Sys.bind_ret hproxy]
  simp [relayReady, Sys.pure_apply]

/-- **A zero-byte read does not end the relay.**  The loop breaks only on
`is_err()`, and `transfer_data` returns `Ok(0)` for a closed peer.  A closed
socket stays readable and every read of it returns `Ok(0)`, so for any number
of passes the loop is still running: each pass is one `select` and one empty
read, and the loop never returns. -/
theorem relayLoop_spins_after_close (fuel : Nat) {proxyFd remoteFd : Fd}
    (hp : proxyFd < fdSetSize) (hr : remoteFd < fdSetSize) (iters : Nat) (env : Env)
    (hsel : env .select = List.replicate iters (Except.ok ⟨true, false⟩ : Except IoError Ready))
    (hread : env (.readRelay .proxy) =
      List.replicate iters (Except.ok eofChunk : Except IoError (Chunk proxyBuffSize))) :
    (relayLoop fuel proxyFd remoteFd iters env).status = .ret false ∧
      (relayLoop fuel proxyFd remoteFd iters env).events =
        (List.replicate iters [.select (.ok ⟨true, false⟩), .read .proxy (.ok [])]).flatten := by
  induction iters generalizing env with
  | zero => simp [relayLoop, Sys.pure_apply]
  | succ n ih =>
    rw [relayLoop, Sys.bind_ret (relayIteration_after_close fuel hp hr hsel hread)]
    obtain ⟨hs, he⟩ := ih (Function.update
      (Function.update env .select (List.replicate n (Except.ok ⟨true, false⟩)))
      (.readRelay .proxy) (List.replicate n (Except.ok eofChunk))) (by simp) (by simp)
    exact ⟨hs, by simp [he, List.replicate_succ]⟩

/-- The enclave closes its data connection: `select` reports `proxy` readable
on two passes and both reads return `Ok(0)`. -/
def closedProxyEnv : Env := fun c => match c with
  | .select => [Except.ok ⟨true, false⟩, Except.ok ⟨true, false⟩]
  | .readRelay .proxy => [Except.ok eofChunk, Except.ok eofChunk]
  | _ => []

theorem relayLoop_selects_again_after_eof :
    (relayLoop 1 3 4 2 closedProxyEnv).status = .ret false ∧
      (relayLoop 1 3 4 2 closedProxyEnv).events =
        [.select (.ok ⟨true, false⟩), .read .proxy (.ok []),
          .select (.ok ⟨true, false⟩), .read .proxy (.ok [])] :=
  relayLoop_spins_after_close 1 (by decide) (by decide) 2 closedProxyEnv rfl rfl

/-! ## What the relay calls -/

/-- **The relay touches only its two sockets, and never writes an empty
buffer.**  Every call of every run of the relay loop is a `select`, a read of
`proxy` or `remote`, or a write to one of them of a non-empty buffer: the
control stream is not used, and a zero-byte read is never forwarded. -/
theorem relayLoop_calls_only_relay_sockets (fuel proxyFd remoteFd iters : Nat) (env : Env) :
    ∀ e ∈ (relayLoop fuel proxyFd remoteFd iters env).events,
      (∃ r, e = .select r) ∨ (∃ (s : Side) (r : Except IoError Bytes), e = .read s.sock r) ∨
        ∃ (s : Side) (buf : Bytes) (r : Except IoError Nat), e = .write s.sock buf r ∧ buf ≠ [] := by
  intro e he
  rcases relayLoop_emits fuel proxyFd remoteFd iters env e he with
    hs | ⟨⟨r, rfl⟩ | ⟨buf, r, rfl, hb⟩⟩ | ⟨⟨r, rfl⟩ | ⟨buf, r, rfl, hb⟩⟩
  · exact .inl hs
  · exact .inr (.inl ⟨.proxy, r, rfl⟩)
  · exact .inr (.inr ⟨.remote, buf, r, rfl, hb⟩)
  · exact .inr (.inl ⟨.remote, r, rfl⟩)
  · exact .inr (.inr ⟨.proxy, buf, r, rfl, hb⟩)

theorem relayLoop_calls_on_closed_proxy :
    Event.read .proxy (.ok []) ∈ (relayLoop 1 3 4 2 closedProxyEnv).events ∧
      ((∃ r, Event.read .proxy (.ok []) = .select r) ∨
        (∃ (s : Side) (r : Except IoError Bytes), Event.read .proxy (.ok []) = .read s.sock r) ∨
        ∃ (s : Side) (buf : Bytes) (r : Except IoError Nat),
          Event.read .proxy (.ok []) = .write s.sock buf r ∧ buf ≠ []) :=
  have he : Event.read .proxy (.ok []) ∈ (relayLoop 1 3 4 2 closedProxyEnv).events := by
    show _ ∈ [Event.select (.ok ⟨true, false⟩), Event.read .proxy (.ok []),
      Event.select (.ok ⟨true, false⟩), Event.read .proxy (.ok [])]
    simp
  ⟨he, relayLoop_calls_only_relay_sockets 1 3 4 2 closedProxyEnv _ he⟩

end RustSgx.Runner
