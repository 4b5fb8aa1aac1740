import RustSgx.Runner.Io
import Mathlib.Logic.Function.Basic

set_option autoImplicit false

/-!
# Runner: server code as a program over the world's answers

The server's code is sequential; all it does not decide itself is the answer
of each call it makes on the outside world.  A run is therefore fixed by the
answers, and we take them as data: `Env` holds, for every kind of call, the
answers its successive calls get.  The `k`-th `select` gets the `k`-th
`select` answer, and so on.  An empty queue is a call the world has not
answered: the program waits there.

Quantifying over every `Env` covers every behaviour of the world, adaptive
ones included: the program is deterministic, so any interleaving of answers
the world may choose is the run of the `Env` that lists exactly those answers.

`Sys α` runs code against an `Env`: it returns a value, panics (an `unwrap` on
an `Err`, an out-of-bounds index), or is `pending` (waiting on an unanswered
call, or out of the fuel of a loop).  In every case it reports the events it
produced and the answers it left unused.
-/

namespace RustSgx.Runner

/-- The two relay sockets `transfer_data` moves bytes between. -/
inductive Side where
  | proxy
  | remote
  deriving DecidableEq, Repr

/-- The socket a relay side is. -/
def Side.sock : Side → Sock
  | .proxy => .proxy
  | .remote => .remote

/-- The opposite side of the relay. -/
def Side.other : Side → Side
  | .proxy => .remote
  | .remote => .proxy

@[simp] theorem Side.other_other (s : Side) : s.other.other = s := by cases s <;> rfl

theorem Side.sock_other_ne (s : Side) : s.other.sock ≠ s.sock := by cases s <;> simp [sock, other]

/-- The kinds of call the server makes, each with its own queue of answers. -/
inductive Call where
  | readEnclave
  | readRelay (s : Side)
  | write (s : Sock)
  | connect
  | bind
  | localAddr
  | local_
  | peer
  | accept
  | select
  | serverBind
  | incoming
  | spawn
  deriving DecidableEq

/-- The answer a call of each kind gets.  Reads hand back at most the buffer
they were given: `BUFF_SIZE` on the control stream, `PROXY_BUFF_SIZE` in the
relay. -/
def Call.Reply : Call → Type
  | .readEnclave => Except IoError (Chunk buffSize)
  | .readRelay _ => Except IoError (Chunk proxyBuffSize)
  | .write _ => Except IoError Nat
  | .connect => Except IoError Fd
  | .bind => Except IoError Unit
  | .localAddr => Except IoError UInt16
  | .local_ => Except IoError String
  | .peer => Except IoError String
  | .accept => Except IoError Fd
  | .select => Except IoError Ready
  | .serverBind => Except IoError Unit
  | .incoming => Except IoError Unit
  | .spawn => Except IoError Unit

/-- The world's answers: for each kind of call, the answers its successive
calls get. -/
def Env : Type := (c : Call) → List c.Reply

/-- How a piece of code ended. -/
inductive Status (α : Type) where
  | ret (a : α)
  | panic
  | pending

/-- What running code against the world gives: how it ended, the answers it
left unused, and the events it produced, in order. -/
structure Run (α : Type) where
  status : Status α
  env : Env
  events : List Event

/-- Server code returning an `α`. -/
def Sys (α : Type) : Type := Env → Run α

namespace Sys

variable {α β : Type}

/-- Return without touching the world. -/
protected def pure (a : α) : Sys α := fun env => ⟨.ret a, env, []⟩

/-- Run `x`, then `f` on its value; a panic or a wait ends the run there. -/
protected def bind (x : Sys α) (f : α → Sys β) : Sys β := fun env =>
  match x env with
  | ⟨.ret a, env', t⟩ => let r := f a env'; ⟨r.status, r.env, t ++ r.events⟩
  | ⟨.panic, env', t⟩ => ⟨.panic, env', t⟩
  | ⟨.pending, env', t⟩ => ⟨.pending, env', t⟩

instance : Monad Sys where
  pure := Sys.pure
  bind := Sys.bind

theorem pure_apply (a : α) (env : Env) : (pure a : Sys α) env = ⟨.ret a, env, []⟩ := rfl

theorem bind_apply (x : Sys α) (f : α → Sys β) (env : Env) :
    (x >>= f) env = Sys.bind x f env := rfl

theorem bind_ret {x : Sys α} {env env' : Env} {a : α} {t : List Event}
    (h : x env = ⟨.ret a, env', t⟩) (f : α → Sys β) :
    (x >>= f) env = ⟨(f a env').status, (f a env').env, t ++ (f a env').events⟩ := by
  simp only [bind_apply, Sys.bind, h]

theorem bind_panic {x : Sys α} {env env' : Env} {t : List Event}
    (h : x env = ⟨.panic, env', t⟩) (f : α → Sys β) :
    (x >>= f) env = ⟨.panic, env', t⟩ := by
  simp only [bind_apply, Sys.bind, h]

theorem bind_pending {x : Sys α} {env env' : Env} {t : List Event}
    (h : x env = ⟨.pending, env', t⟩) (f : α → Sys β) :
    (x >>= f) env = ⟨.pending, env', t⟩ := by
  simp only [bind_apply, Sys.bind, h]

/-- Every run of `x` emits only events satisfying `P`. -/
def Emits (P : Event → Prop) (x : Sys α) : Prop := ∀ env, ∀ e ∈ (x env).events, P e

/-- `Emits` is preserved by sequencing: the one induction-free fact every
"only these calls happen" statement below is assembled from. -/
theorem Emits.bind {P : Event → Prop} {x : Sys α} {f : α → Sys β}
    (hx : Emits P x) (hf : ∀ a, Emits P (f a)) : Emits P (x >>= f) := by
  intro env e he
  rcases hrun : x env with ⟨_ | _ | _, env', t⟩
  · rw [bind_ret hrun] at he
    rcases List.mem_append.mp he with h | h
    · exact hx env e (by rw [hrun]; exact h)
    · exact hf _ env' e h
  · rw [bind_panic hrun] at he
    exact hx env e (by rw [hrun]; exact he)
  · rw [bind_pending hrun] at he
    exact hx env e (by rw [hrun]; exact he)

theorem Emits.pure (P : Event → Prop) (a : α) : Emits P (Pure.pure a : Sys α) := by
  intro env e he
  simp [pure_apply] at he

theorem Emits.mono {P Q : Event → Prop} {x : Sys α} (hx : Emits P x) (hPQ : ∀ e, P e → Q e) :
    Emits Q x :=
  fun env e he => hPQ e (hx env e he)

/-- Code whose events read nothing from `s` reads nothing from `s`. -/
theorem Emits.bytesRead_eq_nil {P : Event → Prop} {x : Sys α} (hx : Emits P x) {s : Sock}
    (hP : ∀ e, P e → e.bytesRead s = []) (env : Env) : bytesRead s (x env).events = [] :=
  List.flatMap_eq_nil_iff.mpr fun e he => hP e (hx env e he)

/-- Code whose events write nothing to `s` writes nothing to `s`. -/
theorem Emits.bytesWritten_eq_nil {P : Event → Prop} {x : Sys α} (hx : Emits P x) {s : Sock}
    (hP : ∀ e, P e → e.bytesWritten s = []) (env : Env) : bytesWritten s (x env).events = [] :=
  List.flatMap_eq_nil_iff.mpr fun e he => hP e (hx env e he)

/-- `x` never panics, whatever the world answers. -/
def NoPanic (x : Sys α) : Prop := ∀ env, (x env).status ≠ .panic

theorem NoPanic.bind {x : Sys α} {f : α → Sys β}
    (hx : NoPanic x) (hf : ∀ a, NoPanic (f a)) : NoPanic (x >>= f) := by
  intro env
  rcases hrun : x env with ⟨_ | _ | _, env', t⟩
  · rw [bind_ret hrun]; exact hf _ env'
  · exact absurd hrun (by intro h; exact hx env (by rw [h]))
  · rw [bind_pending hrun]; nofun

theorem NoPanic.pure (a : α) : NoPanic (Pure.pure a : Sys α) := by
  intro env; rw [pure_apply]; nofun

/-- Every run of `x` that panics leaves events satisfying `P`: where a panic
can come from, told by what was done before it. -/
def PanicsOnly (P : List Event → Prop) (x : Sys α) : Prop :=
  ∀ env, (x env).status = .panic → P (x env).events

/-- Sequencing: a panic of `x` must satisfy `P`; a panic of the rest must
satisfy `P` once what `x` did is put in front of it. -/
theorem PanicsOnly.bind {P : List Event → Prop} {x : Sys α} {f : α → Sys β}
    (hx : PanicsOnly P x)
    (hf : ∀ env a env' t, x env = ⟨.ret a, env', t⟩ → PanicsOnly (fun u => P (t ++ u)) (f a)) :
    PanicsOnly P (x >>= f) := by
  intro env h
  rcases hrun : x env with ⟨_ | _ | _, env', t⟩
  · rw [bind_ret hrun] at h ⊢; exact hf env _ env' t hrun env' h
  · rw [bind_panic hrun]; have := hx env; rw [hrun] at this; exact this rfl
  · rw [bind_pending hrun] at h; cases h

theorem PanicsOnly.mono {P Q : List Event → Prop} {x : Sys α} (hx : PanicsOnly P x)
    (hPQ : ∀ t, P t → Q t) : PanicsOnly Q x :=
  fun env h => hPQ _ (hx env h)

theorem NoPanic.panicsOnly {x : Sys α} (hx : NoPanic x) (P : List Event → Prop) :
    PanicsOnly P x :=
  fun env h => absurd h (hx env)

/-- Every run of `x` that returns `a` leaves events satisfying `P a`. -/
def ReturnsOnly (P : α → List Event → Prop) (x : Sys α) : Prop :=
  ∀ env a, (x env).status = .ret a → P a (x env).events

/-- Sequencing: `x >>= f` returns only through `f`, after what `x` did. -/
theorem ReturnsOnly.bind {P : β → List Event → Prop} {x : Sys α} {f : α → Sys β}
    (hf : ∀ env a env' t, x env = ⟨.ret a, env', t⟩ →
      ReturnsOnly (fun b u => P b (t ++ u)) (f a)) :
    ReturnsOnly P (x >>= f) := by
  intro env b h
  rcases hrun : x env with ⟨_ | _ | _, env', t⟩
  · rw [bind_ret hrun] at h ⊢; exact hf env _ env' t hrun env' b h
  · rw [bind_panic hrun] at h; cases h
  · rw [bind_pending hrun] at h; cases h

theorem ReturnsOnly.pure {P : α → List Event → Prop} {a : α} (h : P a []) :
    ReturnsOnly P (Pure.pure a : Sys α) := fun _ _ hb => by
  cases hb; exact h

/-- In every run of `x`, an event satisfying `P` is the last one, and `x`
then returns a value satisfying `Q`: the code stops right after such an
event. -/
def StopsAfter (P : Event → Prop) (Q : α → Prop) (x : Sys α) : Prop :=
  ∀ env t e u, (x env).events = t ++ e :: u → P e →
    u = [] ∧ ∃ a, (x env).status = .ret a ∧ Q a

/-- Code that never makes such an event stops after none. -/
theorem StopsAfter.of_emits {P : Event → Prop} {Q : α → Prop} {x : Sys α}
    (hx : Emits (fun e => ¬ P e) x) : StopsAfter P Q x :=
  fun env t e u h he => absurd he (hx env e (by rw [h]; simp))

theorem StopsAfter.pure {P : Event → Prop} {Q : α → Prop} (a : α) :
    StopsAfter P Q (Pure.pure a : Sys α) :=
  .of_emits fun _ e he => by simp [pure_apply] at he

/-- Sequencing: after such an event in `x`, the rest must return at once. -/
theorem StopsAfter.bind {P : Event → Prop} {Qx : α → Prop} {Q : β → Prop} {x : Sys α}
    {f : α → Sys β} (hx : StopsAfter P Qx x) (hstop : ∀ a, Qx a → ∃ b, Q b ∧ f a = Pure.pure b)
    (hf : ∀ a, StopsAfter P Q (f a)) : StopsAfter P Q (x >>= f) := by
  intro env t e u h he
  rcases hrun : x env with ⟨_ | _ | _, env', tx⟩
  · rw [bind_ret hrun] at h ⊢
    rcases List.append_eq_append_iff.mp h.symm with ⟨_ | ⟨e', v⟩, rfl, h2⟩ | ⟨c, rfl, h2⟩
    · exact hf _ env' [] e u (by simpa using h2.symm) he
    · obtain ⟨rfl, rfl⟩ := List.cons.inj h2
      obtain ⟨rfl, a, ha, hq⟩ := hx env t e v (by rw [hrun]) he
      rw [hrun] at ha
      cases ha
      obtain ⟨b, hb, hfb⟩ := hstop _ hq
      rw [hfb]
      exact ⟨by simp [pure_apply], b, rfl, hb⟩
    · exact hf _ env' c e u h2 he
  · rw [bind_panic hrun] at h
    obtain ⟨-, a, ha, -⟩ := hx env t e u (by rw [hrun]; exact h) he
    rw [hrun] at ha; cases ha
  · rw [bind_pending hrun] at h
    obtain ⟨-, a, ha, -⟩ := hx env t e u (by rw [hrun]; exact h) he
    rw [hrun] at ha; cases ha

theorem ReturnsOnly.mono {P Q : α → List Event → Prop} {x : Sys α} (hx : ReturnsOnly P x)
    (hPQ : ∀ a t, P a t → Q a t) : ReturnsOnly Q x :=
  fun env a h => hPQ _ _ (hx env a h)

end Sys

/-! ## Primitives -/

/-- One call of kind `c`: take the world's next answer to it and record it as
the event `ev answer`.  With no answer left the program waits. -/
def call (c : Call) (ev : c.Reply → Event) : Sys c.Reply := fun env =>
  match env c with
  | [] => ⟨.pending, env, []⟩
  | r :: rs => ⟨.ret r, Function.update env c rs, [ev r]⟩

/-- Code that never gets further: a loop that has used up its fuel. -/
def stall {α : Type} : Sys α := fun env => ⟨.pending, env, []⟩

/-- `panic!`, as `Option::unwrap` and `Result::unwrap` raise it. -/
def panic {α : Type} : Sys α := fun env => ⟨.panic, env, []⟩

/-- `Result::unwrap`: the value, or a panic. -/
def unwrap {α ε : Type} : Except ε α → Sys α
  | .ok a => pure a
  | .error _ => panic

/-- Record an event whose answer the code ignores (`let _ = ...`). -/
def emit (e : Event) : Sys Unit := fun env => ⟨.ret (), env, [e]⟩

theorem call_apply (c : Call) (ev : c.Reply → Event) (env : Env) :
    call c ev env = match env c with
      | [] => ⟨.pending, env, []⟩
      | r :: rs => ⟨.ret r, Function.update env c rs, [ev r]⟩ := rfl

theorem call_emits (c : Call) (ev : c.Reply → Event) : Sys.Emits (fun e => ∃ r, e = ev r) (call c ev) := by
  intro env e he
  rw [call_apply] at he
  split at he
  · simp at he
  · simp only [List.mem_singleton] at he; exact ⟨_, he⟩

/-- `t` ends with an event satisfying `P`. -/
def EndsWith (P : Event → Prop) (t : List Event) : Prop := ∃ u e, t = u ++ [e] ∧ P e

theorem EndsWith.singleton {P : Event → Prop} {e : Event} (h : P e) : EndsWith P [e] :=
  ⟨[], e, rfl, h⟩

theorem EndsWith.append {P : Event → Prop} {u : List Event} (t : List Event)
    (h : EndsWith P u) : EndsWith P (t ++ u) := by
  obtain ⟨u, e, rfl, he⟩ := h
  exact ⟨t ++ u, e, by simp, he⟩

theorem EndsWith.mono {P Q : Event → Prop} {t : List Event} (h : EndsWith P t)
    (hPQ : ∀ e, P e → Q e) : EndsWith Q t :=
  h.elim fun u ⟨e, ht, he⟩ => ⟨u, e, ht, hPQ e he⟩

theorem stall_returnsOnly {α : Type} (P : α → List Event → Prop) :
    Sys.ReturnsOnly P (stall : Sys α) := fun _ _ h => by cases h

theorem call_ret {c : Call} {ev : c.Reply → Event} {env env' : Env} {r : c.Reply}
    {t : List Event} (h : call c ev env = ⟨.ret r, env', t⟩) : t = [ev r] := by
  rw [call_apply] at h
  split at h
  · cases h
  · cases h; rfl

theorem call_stopsAfter {P : Event → Prop} {c : Call} {ev : c.Reply → Event} {Q : c.Reply → Prop}
    (h : ∀ r, P (ev r) → Q r) : Sys.StopsAfter P Q (call c ev) := by
  intro env t e u hev he
  rw [call_apply] at hev ⊢
  split at hev
  · simp at hev
  · rcases t with _ | ⟨_, t⟩
    · obtain ⟨rfl, rfl⟩ := List.cons.inj hev
      exact ⟨rfl, _, rfl, h _ he⟩
    · simp at hev

end RustSgx.Runner
