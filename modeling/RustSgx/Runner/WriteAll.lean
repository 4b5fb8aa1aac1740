import RustSgx.Runner.Sys

set_option autoImplicit false

/-!
# Runner: `Write::write` and `Write::write_all`

`transfer_data` (server.rs:125) forwards a chunk with `dst.write_all(..)`, the
provided method of `std::io::Write`:

    while !buf.is_empty() {
        match self.write(buf) {
            Ok(0) => return Err(WriteZero, "failed to write whole buffer"),
            Ok(n) => buf = &buf[n..],
            Err(ref e) if e.is_interrupted() => {}
            Err(e) => return Err(e),
        }
    }
    Ok(())

Each `write` may take any prefix of what it is offered or fail; an
`Interrupted` failure is retried.  The retries make the loop unbounded, so
`writeAll` carries fuel: the number of `write` calls it may still make.

The result used by the relay is `writeAll_written`: whatever the writes do,
the bytes that reach the socket are a prefix of the buffer, and all of it when
`write_all` returns `Ok`.  `writeAll_emits` says it makes no call but writes
of a non-empty remainder on its own socket.  `writeAll_returns_iff_answers`
reads its outcome off the answers of its writes: `Ok` exactly when they drain
the buffer (`Drains`), retries and short writes included, and `Err` exactly
when they advance it part of the way (`Advances`) and then give up
(`GivesUpWith`).  Both directions rest on one run lemma,
`writeAll_of_advances`.
-/

namespace RustSgx.Runner

/-- `Write::write` on `s`, offering `buf`. -/
def write (s : Sock) (buf : Bytes) : Sys (Except IoError Nat) :=
  call (.write s) (.write s buf)

theorem write_emits (s : Sock) (buf : Bytes) :
    Sys.Emits (fun e => ∃ r, e = .write s buf r) (write s buf) :=
  call_emits _ _

theorem write_of_nil {s : Sock} {env : Env} (h : env (.write s) = []) (buf : Bytes) :
    write s buf env = ⟨.pending, env, []⟩ := by
  simp only [write, call_apply, h]

theorem write_of_cons {s : Sock} {env : Env} {r : Except IoError Nat}
    {rs : List (Except IoError Nat)} (h : env (.write s) = r :: rs) (buf : Bytes) :
    write s buf env = ⟨.ret r, Function.update env (.write s) rs, [.write s buf r]⟩ := by
  simp only [write, call_apply, h]

/-- `Write::write_all` on `s`, with at most `fuel` calls of `write`. -/
def writeAll (s : Sock) : Nat → Bytes → Sys (Except IoError Unit)
  | _, [] => pure (.ok ())
  | 0, _ :: _ => stall
  | fuel + 1, buf@(_ :: _) => do
    match ← write s buf with
    | .ok 0 => pure (.error writeZeroError)
    | .ok n => writeAll s fuel (buf.drop n)
    | .error e => if e.kind = .interrupted then writeAll s fuel buf else pure (.error e)

@[simp] theorem writeAll_nil (s : Sock) (fuel : Nat) :
    writeAll s fuel [] = pure (.ok ()) := by
  cases fuel <;> rfl

/-- The only events of `write_all`: writes on its socket of a non-empty
remainder. -/
def IsWriteTo (s : Sock) (e : Event) : Prop := ∃ buf r, e = .write s buf r ∧ buf ≠ []

theorem writeAll_emits (s : Sock) (fuel : Nat) (buf : Bytes) :
    Sys.Emits (IsWriteTo s) (writeAll s fuel buf) := by
  induction fuel generalizing buf with
  | zero => cases buf <;> simp [Sys.Emits, writeAll, stall, Sys.pure_apply]
  | succ n ih =>
    rcases buf with _ | ⟨b, bs⟩
    · simpa using Sys.Emits.pure (IsWriteTo s) (.ok () : Except IoError Unit)
    refine Sys.Emits.bind ?_ fun r => ?_
    · intro env e he
      obtain ⟨r, rfl⟩ := write_emits s _ env e he
      exact ⟨_, r, rfl, List.cons_ne_nil b bs⟩
    · split
      · exact Sys.Emits.pure _ _
      · exact ih _
      · split
        · exact ih _
        · exact Sys.Emits.pure _ _

/-- A `write` on `s` after which `write_all` gives up: an error other than
`Interrupted`, or a count of zero. -/
def IsWriteFailure (s : Sock) (e : Event) : Prop :=
  (∃ buf err, e = .write s buf (.error err) ∧ err.kind ≠ .interrupted) ∨
    ∃ buf, e = .write s buf (.ok 0)

/-- Whatever each `write` does, `write_all` delivers a prefix of its buffer to
the socket, and the whole buffer when it returns `Ok`. -/
theorem writeAll_written (s : Sock) (fuel : Nat) (buf : Bytes) (env : Env) :
    bytesWritten s (writeAll s fuel buf env).events <+: buf ∧
      ((writeAll s fuel buf env).status = .ret (.ok ()) →
        bytesWritten s (writeAll s fuel buf env).events = buf) := by
  induction fuel generalizing buf env with
  | zero => rcases buf with _ | ⟨b, bs⟩ <;> simp [writeAll, stall, Sys.pure_apply]
  | succ n ih =>
    rcases buf with _ | ⟨b, bs⟩
    · simp [Sys.pure_apply]
    rcases hq : env (.write s) with _ | ⟨r, rs⟩
    · simp only [writeAll, Sys.bind_pending (write_of_nil hq _)]
      simp
    simp only [writeAll, Sys.bind_ret (write_of_cons hq _)]
    rcases r with e | _ | k
    · simp only
      split
      · simpa using ih (b :: bs) _
      · simp [Sys.pure_apply]
    · simp [Sys.pure_apply]
    · obtain ⟨hpre, hok⟩ := ih ((b :: bs).drop (k + 1)) (Function.update env (.write s) rs)
      simp only [bytesWritten_append, bytesWritten_cons, Event.bytesWritten_write, if_true,
        bytesWritten_nil, List.append_nil]
      refine ⟨?_, fun h => by rw [hok h, List.take_append_drop]⟩
      calc List.take (k + 1) (b :: bs) ++ bytesWritten s _
          <+: List.take (k + 1) (b :: bs) ++ List.drop (k + 1) (b :: bs) :=
            (List.prefix_append_right_inj _).mpr hpre
        _ = b :: bs := List.take_append_drop _ _

/-! ## Answers that drain the buffer -/

/-- `ws` are the answers of the successive `write` calls with which
`write_all` gets through all of `buf`: each answers a non-empty remainder, an
`Ok(n)` with `n > 0` moves past `n` bytes, and an `Interrupted` error is
retried. -/
inductive Drains : Bytes → List (Except IoError Nat) → Prop
  | done : Drains [] []
  | interrupted {buf : Bytes} {ws : List (Except IoError Nat)} (e : IoError) :
      buf ≠ [] → e.kind = .interrupted → Drains buf ws → Drains buf (.error e :: ws)
  | wrote {buf : Bytes} {ws : List (Except IoError Nat)} (n : Nat) :
      buf ≠ [] → 0 < n → Drains (buf.drop n) ws → Drains buf (.ok n :: ws)

/-- `ws` are answers with which `write_all` gets from `buf` to `buf'` without
giving up: each answers a non-empty remainder, an `Ok(n)` with `n > 0` moves
past `n` bytes, and an `Interrupted` error is retried.  `Drains buf ws` is
the case `buf' = []`. -/
inductive Advances : Bytes → List (Except IoError Nat) → Bytes → Prop
  | nil (buf : Bytes) : Advances buf [] buf
  | interrupted {buf buf' : Bytes} {ws : List (Except IoError Nat)} (e : IoError) :
      buf ≠ [] → e.kind = .interrupted → Advances buf ws buf' → Advances buf (.error e :: ws) buf'
  | wrote {buf buf' : Bytes} {ws : List (Except IoError Nat)} (n : Nat) :
      buf ≠ [] → 0 < n → Advances (buf.drop n) ws buf' → Advances buf (.ok n :: ws) buf'

theorem Drains.advances {buf : Bytes} {ws : List (Except IoError Nat)} (h : Drains buf ws) :
    Advances buf ws [] := by
  induction h with
  | done => exact .nil []
  | interrupted e hne hk _ ih => exact .interrupted e hne hk ih
  | wrote n hne hn _ ih => exact .wrote n hne hn ih

/-- The answer on which `write_all` gives up, and the `Err` it returns for
it: `Ok(0)` becomes `WriteZero`, and an error other than `Interrupted` is
returned as it is. -/
def GivesUpWith (r : Except IoError Nat) (err : IoError) : Prop :=
  r = .ok 0 ∧ err = writeZeroError ∨ r = .error err ∧ err.kind ≠ .interrupted

/-- The run lemma: `write_all` on answers that advance its buffer from `buf`
to `buf'` goes on from `buf'` with the answers left, having used those
answers and as many of its `write` calls. -/
theorem writeAll_of_advances {s : Sock} {buf buf' : Bytes} {ws : List (Except IoError Nat)}
    (h : Advances buf ws buf') {fuel : Nat} (hfuel : ws.length ≤ fuel) {env : Env}
    {rest : List (Except IoError Nat)} (henv : env (.write s) = ws ++ rest) :
    ∃ t, writeAll s fuel buf env =
      ⟨(writeAll s (fuel - ws.length) buf' (Function.update env (.write s) rest)).status,
        (writeAll s (fuel - ws.length) buf' (Function.update env (.write s) rest)).env,
        t ++ (writeAll s (fuel - ws.length) buf' (Function.update env (.write s) rest)).events⟩ := by
  induction h generalizing fuel env with
  | nil buf =>
    rw [List.nil_append] at henv
    exact ⟨[], by rw [List.length_nil, Nat.sub_zero, ← henv, Function.update_eq_self]; rfl⟩
  | @interrupted buf buf' ws e hne hk _ ih =>
    obtain ⟨b, bs, rfl⟩ := List.exists_cons_of_ne_nil hne
    obtain ⟨f, rfl⟩ : ∃ f, fuel = f + 1 := ⟨fuel - 1, by simp at hfuel; omega⟩
    have henv' : env (.write s) = .error e :: (ws ++ rest) := henv
    obtain ⟨t, ht⟩ := ih (by simpa using hfuel) (Function.update_same _ _ env)
    rw [Function.update_idem] at ht
    refine ⟨[.write s (b :: bs) (.error e)] ++ t, ?_⟩
    rw [writeAll, Sys.bind_ret (write_of_cons henv' _)]
    simp only [hk, if_true, ht, List.length_cons, Nat.add_sub_add_right, List.append_assoc]
  | @wrote buf buf' ws n hne hn _ ih =>
    obtain ⟨b, bs, rfl⟩ := List.exists_cons_of_ne_nil hne
    obtain ⟨f, rfl⟩ : ∃ f, fuel = f + 1 := ⟨fuel - 1, by simp at hfuel; omega⟩
    obtain ⟨k, rfl⟩ : ∃ k, n = k + 1 := ⟨n - 1, by omega⟩
    have henv' : env (.write s) = .ok (k + 1) :: (ws ++ rest) := henv
    obtain ⟨t, ht⟩ := ih (by simpa using hfuel) (Function.update_same _ _ env)
    rw [Function.update_idem] at ht
    refine ⟨[.write s (b :: bs) (.ok (k + 1))] ++ t, ?_⟩
    rw [writeAll, Sys.bind_ret (write_of_cons henv' _)]
    simp only [ht, List.length_cons, Nat.add_sub_add_right, List.append_assoc]

/-- `write_all` on answers that drain its buffer returns `Ok(())`, having
used exactly those answers. -/
theorem writeAll_of_drains {s : Sock} {buf : Bytes} {ws : List (Except IoError Nat)}
    (h : Drains buf ws) {fuel : Nat} (hfuel : ws.length ≤ fuel) {env : Env}
    {rest : List (Except IoError Nat)} (henv : env (.write s) = ws ++ rest) :
    (writeAll s fuel buf env).status = .ret (.ok ()) ∧
      (writeAll s fuel buf env).env = Function.update env (.write s) rest := by
  obtain ⟨t, ht⟩ := writeAll_of_advances h.advances hfuel henv
  rw [ht, writeAll_nil]
  exact ⟨rfl, rfl⟩

/-- `write_all` on answers that advance its buffer to a non-empty remainder
and then give up returns that answer's `Err`. -/
theorem writeAll_of_givesUp {s : Sock} {buf buf' : Bytes} {ws : List (Except IoError Nat)}
    (h : Advances buf ws buf') (hne : buf' ≠ []) {fuel : Nat} (hfuel : ws.length < fuel)
    {env : Env} {r : Except IoError Nat} {rest : List (Except IoError Nat)}
    (henv : env (.write s) = ws ++ r :: rest) {err : IoError} (hr : GivesUpWith r err) :
    (writeAll s fuel buf env).status = .ret (.error err) := by
  obtain ⟨t, ht⟩ := writeAll_of_advances h hfuel.le henv
  obtain ⟨f, hf⟩ : ∃ f, fuel - ws.length = f + 1 := ⟨fuel - ws.length - 1, by omega⟩
  obtain ⟨b, bs, rfl⟩ := List.exists_cons_of_ne_nil hne
  rw [ht, hf, writeAll, Sys.bind_ret (write_of_cons (Function.update_same _ _ _) _)]
  rcases hr with ⟨rfl, rfl⟩ | ⟨rfl, hk⟩
  · rfl
  · simp only [hk, if_false]
    rfl

/-- One answer more: when the answers left after `r` drain `buf'` and `r`
takes `buf` to `buf'`, the answers from `r` on drain `buf`. -/
theorem Drains.cons_answers {s : Sock} {env : Env} {r : Except IoError Nat}
    {rs : List (Except IoError Nat)} {buf buf' : Bytes} {f : Nat}
    (h : ∃ ws rest, Function.update env (.write s) rs (.write s) = ws ++ rest ∧ Drains buf' ws ∧
      ws.length ≤ f)
    (hstep : ∀ {ws}, Drains buf' ws → Drains buf (r :: ws)) :
    ∃ ws rest, r :: rs = ws ++ rest ∧ Drains buf ws ∧ ws.length ≤ f + 1 := by
  obtain ⟨ws, rest, henv, hd, hfuel⟩ := h
  rw [Function.update_same] at henv
  exact ⟨r :: ws, rest, by rw [henv]; rfl, hstep hd, by simpa using hfuel⟩

/-- One answer more, on the way to giving up: when the answers left after `r`
advance `buf''` and then give up, and `r` takes `buf` to `buf''`, the answers
from `r` on advance `buf` and then give up. -/
theorem Advances.cons_answers {s : Sock} {env : Env} {r : Except IoError Nat}
    {rs : List (Except IoError Nat)} {buf buf'' : Bytes} {f : Nat} {err : IoError}
    (h : ∃ ws r' rest buf', Function.update env (.write s) rs (.write s) = ws ++ r' :: rest ∧
      Advances buf'' ws buf' ∧ buf' ≠ [] ∧ ws.length < f ∧ GivesUpWith r' err)
    (hstep : ∀ {ws buf'}, Advances buf'' ws buf' → Advances buf (r :: ws) buf') :
    ∃ ws r' rest buf', r :: rs = ws ++ r' :: rest ∧ Advances buf ws buf' ∧ buf' ≠ [] ∧
      ws.length < f + 1 ∧ GivesUpWith r' err := by
  obtain ⟨ws, r', rest, buf', henv, hadv, hne, hlt, hr⟩ := h
  rw [Function.update_same] at henv
  exact ⟨r :: ws, r', rest, buf', by rw [henv]; rfl, hstep hadv, hne, by simpa using hlt, hr⟩

/-- What a return of `write_all` says of the answers: an `Ok` that they
drain the buffer, an `Err` that they advance it and then give up. -/
theorem writeAll_answers_of_ret {s : Sock} {fuel : Nat} {buf : Bytes} {env : Env}
    {v : Except IoError Unit} (h : (writeAll s fuel buf env).status = .ret v) :
    (v = .ok () → ∃ ws rest, env (.write s) = ws ++ rest ∧ Drains buf ws ∧ ws.length ≤ fuel) ∧
      ∀ err, v = .error err → ∃ ws r rest buf', env (.write s) = ws ++ r :: rest ∧
        Advances buf ws buf' ∧ buf' ≠ [] ∧ ws.length < fuel ∧ GivesUpWith r err := by
  induction fuel generalizing buf env v with
  | zero =>
    rcases buf with _ | ⟨b, bs⟩
    · cases h
      exact ⟨fun _ => ⟨[], env (.write s), rfl, .done, le_rfl⟩, fun _ h => nomatch h⟩
    · cases h
  | succ f ih =>
    rcases buf with _ | ⟨b, bs⟩
    · rw [writeAll_nil] at h
      cases h
      exact ⟨fun _ => ⟨[], env (.write s), rfl, .done, Nat.zero_le _⟩, fun _ h => nomatch h⟩
    rcases hq : env (.write s) with _ | ⟨r, rs⟩
    · rw [writeAll, Sys.bind_pending (write_of_nil hq _)] at h; cases h
    rw [writeAll, Sys.bind_ret (write_of_cons hq _)] at h
    have hne := List.cons_ne_nil b bs
    rcases r with e | _ | k
    · by_cases hk : e.kind = .interrupted
      · simp only [hk, if_true] at h
        obtain ⟨hok, herr⟩ := ih h
        exact ⟨fun hv => Drains.cons_answers (hok hv) (.interrupted e hne hk),
          fun err hv => Advances.cons_answers (herr err hv) (.interrupted e hne hk)⟩
      · simp only [hk, if_false] at h
        cases h
        exact ⟨nofun, fun err hv => by
          cases hv; exact ⟨[], _, rs, _, rfl, .nil _, hne, Nat.succ_pos f, .inr ⟨rfl, hk⟩⟩⟩
    · cases h
      exact ⟨nofun, fun err hv => by
        cases hv; exact ⟨[], _, rs, _, rfl, .nil _, hne, Nat.succ_pos f, .inl ⟨rfl, rfl⟩⟩⟩
    · obtain ⟨hok, herr⟩ := ih h
      exact ⟨fun hv => Drains.cons_answers (hok hv) (.wrote (k + 1) hne (Nat.succ_pos k)),
        fun err hv => Advances.cons_answers (herr err hv) (.wrote (k + 1) hne (Nat.succ_pos k))⟩

/-- **What `write_all` returns is read off the answers.**  Whatever the
world answers, `write_all` on `s` returns `Ok(())` exactly when the answers
its `write` calls get begin with a sequence that drains the buffer:
`Interrupted` errors, which it retries, and writes of at least one byte,
which it moves past, until nothing is left.  It returns `Err(err)` exactly
when they begin with such a sequence that leaves part of the buffer, followed
by an answer it gives up on: an `Ok(0)`, with `err` the `WriteZero` error
"failed to write whole buffer", or an error `err` other than `Interrupted`.
(`fuel` bounds the `write` calls; past it the model waits.) -/
theorem writeAll_returns_iff_answers (s : Sock) (fuel : Nat) (buf : Bytes) (env : Env) :
    ((writeAll s fuel buf env).status = .ret (.ok ()) ↔
      ∃ ws rest, env (.write s) = ws ++ rest ∧ Drains buf ws ∧ ws.length ≤ fuel) ∧
    ∀ err, (writeAll s fuel buf env).status = .ret (.error err) ↔
      ∃ ws r rest buf', env (.write s) = ws ++ r :: rest ∧ Advances buf ws buf' ∧ buf' ≠ [] ∧
        ws.length < fuel ∧ GivesUpWith r err :=
  ⟨⟨fun h => (writeAll_answers_of_ret h).1 rfl,
      fun ⟨_, _, henv, hd, hfuel⟩ => (writeAll_of_drains hd hfuel henv).1⟩,
    fun err => ⟨fun h => (writeAll_answers_of_ret h).2 err rfl,
      fun ⟨_, _, _, _, henv, hadv, hne, hlt, hr⟩ => writeAll_of_givesUp hadv hne hlt henv hr⟩⟩

end RustSgx.Runner
