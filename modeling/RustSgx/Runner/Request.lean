import RustSgx.Runner.Sys

set_option autoImplicit false

/-!
# Runner: reading the one request of a control connection

The wire protocol has no length prefix.  `Server::read_from_stream`
(server.rs:83-92) reads the control stream in `BUFF_SIZE` chunks and stops at
the first read that returns fewer than `BUFF_SIZE` bytes:

    let n = stream.read(&mut buff)?;
    let mut buff = buff[0..n].to_vec();
    if n == BUFF_SIZE {
        buff.append(&mut Self::read_from_stream(stream)?);
    }
    Ok(buff)

`Server::read_request` (server.rs:101-112) then decodes the bytes with
`serde_cbor::from_slice`.  The codec belongs to `fortanix_vme_abi` and
`serde_cbor`, which are not part of this file: it is a parameter (`Codec`).

`readFromStream_reads_to_first_short` pins the reader down on every sequence
of read answers: the reads it makes, the answers it leaves, and its result.
-/

namespace RustSgx.Runner

/-- `fortanix_vme_abi::Request`: the one request kind of the protocol. -/
inductive Request where
  | connect (addr : String)
  deriving DecidableEq, Repr

/-- `fortanix_vme_abi::Response`: the one response kind of the protocol. -/
inductive Response where
  | connected (port : UInt16) (localAddr peerAddr : String)
  deriving DecidableEq, Repr

/-- `serde_cbor::Error`, which the code only carries along. -/
structure CborError where
  msg : String
  deriving DecidableEq, Repr

/-- `fortanix_vme_abi::Error` as `read_request` produces it: the conversion
from `io::Error` behind its `?`, and `DeserializationError`. -/
inductive AbiError where
  | io (e : IoError)
  | deserializationError (e : CborError)
  deriving DecidableEq, Repr

/-- The `serde_cbor` codec at the protocol's two message types.
`serde_cbor::ser::to_vec` cannot fail on a `Response`, so `toVec` is total. -/
structure Codec where
  fromSlice : Bytes → Except CborError Request
  toVec : Response → Bytes

/-- `Read::read` on the control stream, into the `BUFF_SIZE` buffer of
`read_from_stream`. -/
def readEnclave : Sys (Except IoError (Chunk buffSize)) :=
  call .readEnclave (fun r => .read .enclave (r.map Chunk.bytes))

theorem readEnclave_of_cons {env : Env} {r : Except IoError (Chunk buffSize)}
    {rs : List (Except IoError (Chunk buffSize))} (h : env .readEnclave = r :: rs) :
    readEnclave env =
      ⟨.ret r, Function.update env .readEnclave rs, [.read .enclave (r.map Chunk.bytes)]⟩ := by
  simp only [readEnclave, call_apply, h]

/-- `Server::read_from_stream` (server.rs:83-92), recursing at most `fuel`
deep. -/
def readFromStream : Nat → Sys (Except IoError Bytes)
  | 0 => stall
  | fuel + 1 => do
    match ← readEnclave with
    | .error e => pure (.error e)
    | .ok chunk =>
      if chunk.bytes.length = buffSize then
        match ← readFromStream fuel with
        | .error e => pure (.error e)
        | .ok rest => pure (.ok (chunk.bytes ++ rest))
      else pure (.ok chunk.bytes)

/-- `Server::read_request` (server.rs:101-112). -/
def readRequest (codec : Codec) (fuel : Nat) : Sys (Except AbiError Request) := do
  match ← readFromStream fuel with
  | .error e => pure (.error (.io e))
  | .ok buff => pure ((codec.fromSlice buff).mapError .deserializationError)

/-- The reader's only calls are reads of the control stream. -/
theorem readFromStream_reads (fuel : Nat) :
    Sys.Emits (fun e => ∃ r, e = .read .enclave r) (readFromStream fuel) := by
  induction fuel with
  | zero => intro env e he; simp [readFromStream, stall] at he
  | succ n ih =>
    refine Sys.Emits.bind ((call_emits _ _).mono fun _ ⟨_, he⟩ => ⟨_, he⟩) fun r => ?_
    split
    · exact Sys.Emits.pure _ _
    · split
      · exact Sys.Emits.bind ih fun r => by split <;> exact Sys.Emits.pure _ _
      · exact Sys.Emits.pure _ _

theorem readRequest_reads (codec : Codec) (fuel : Nat) :
    Sys.Emits (fun e => ∃ r, e = .read .enclave r) (readRequest codec fuel) :=
  Sys.Emits.bind (readFromStream_reads fuel) fun r => by cases r <;> exact Sys.Emits.pure _ _

/-- The step lemma of the reader: a first read that fills the buffer is
followed by the rest of the message. -/
theorem readFromStream_full {fuel : Nat} {env env' : Env} {c : Chunk buffSize}
    {rs : List (Except IoError (Chunk buffSize))} {v : Except IoError Bytes} {t : List Event}
    (hc : c.bytes.length = buffSize) (h : env .readEnclave = .ok c :: rs)
    (hrest : readFromStream fuel (Function.update env .readEnclave rs) = ⟨.ret v, env', t⟩) :
    readFromStream (fuel + 1) env =
      ⟨.ret (v.map (c.bytes ++ ·)), env', .read .enclave (.ok c.bytes) :: t⟩ := by
  rw [readFromStream, Sys.bind_ret (readEnclave_of_cons h)]
  simp only [hc, if_true, Except.map]
  rw [Sys.bind_ret hrest]
  rcases v with e | bs <;> simp [Sys.pure_apply]

/-- **What `read_from_stream` does on every sequence of read answers.**  Split
the answers at the first one that is an error or a chunk shorter than
`BUFF_SIZE`: before it, `fulls`, all full chunks; then `last`; then `rest`.
Given fuel for the reads, the reader makes exactly the reads answered by
`fulls` and `last`, in order, leaves `rest` unread, and returns the chunks
concatenated when `last` is a short chunk, and `last`'s error otherwise. -/
theorem readFromStream_reads_to_first_short (fulls : List (Chunk buffSize))
    (last : Except IoError (Chunk buffSize)) (rest : List (Except IoError (Chunk buffSize)))
    (hfull : ∀ c ∈ fulls, c.bytes.length = buffSize)
    (hlast : ∀ c, last = .ok c → c.bytes.length < buffSize)
    (fuel : Nat) (hfuel : fulls.length < fuel)
    (env : Env) (henv : env .readEnclave = fulls.map .ok ++ last :: rest) :
    readFromStream fuel env =
      ⟨.ret (last.map ((fulls.map Chunk.bytes).flatten ++ Chunk.bytes ·)),
        Function.update env .readEnclave rest,
        fulls.map (fun c => .read .enclave (.ok c.bytes)) ++
          [.read .enclave (last.map Chunk.bytes)]⟩ := by
  induction fulls generalizing fuel env with
  | nil =>
    obtain ⟨n, rfl⟩ : ∃ n, fuel = n + 1 := ⟨fuel - 1, by simp at hfuel; omega⟩
    rw [readFromStream, Sys.bind_ret (readEnclave_of_cons henv)]
    rcases last with e | c
    · rfl
    · have : c.bytes.length ≠ buffSize := Nat.ne_of_lt (hlast c rfl)
      simp [this, Except.map, Sys.pure_apply]
  | cons c cs ih =>
    obtain ⟨n, rfl⟩ : ∃ n, fuel = n + 1 := ⟨fuel - 1, by simp at hfuel; omega⟩
    rw [readFromStream_full (hfull c (List.mem_cons_self c cs)) henv
      (ih (fun c hc => hfull c (List.mem_cons_of_mem _ hc)) n (by simpa using hfuel) _
        (by simp))]
    rcases last with e | d <;> simp [Except.map]

/-- Full chunks carry `BUFF_SIZE` bytes each. -/
theorem length_flatten_full {fulls : List (Chunk buffSize)}
    (hfull : ∀ c ∈ fulls, c.bytes.length = buffSize) :
    ((fulls.map Chunk.bytes).flatten).length = fulls.length * buffSize := by
  induction fulls with
  | nil => rfl
  | cons c cs ih =>
    simp only [List.map_cons, List.flatten_cons, List.length_append, List.length_cons,
      hfull c (List.mem_cons_self c cs), ih fun d hd => hfull d (List.mem_cons_of_mem c hd)]
    rw [Nat.succ_mul, Nat.add_comm]

/-- **The framing of the control stream.**  First, on every sequence of read
answers, `read_from_stream` reads up to and including the first answer that is
an error or a chunk shorter than `BUFF_SIZE`, makes no read after it, and
returns the chunks read concatenated in order (short chunk) or the error,
dropping what it had read (error).  Second, `read_request` on a message `m`
delivered in full `BUFF_SIZE` reads and one short read decodes exactly `m`
after `|m| / BUFF_SIZE + 1` reads; when `|m|` is a positive multiple of
`BUFF_SIZE`, the full reads already carry all of `m` and the last read returns
nothing of it: it reads beyond the message. -/
theorem readFromStream_framing (codec : Codec) :
    (∀ (fulls : List (Chunk buffSize)) (last : Except IoError (Chunk buffSize))
        (rest : List (Except IoError (Chunk buffSize))),
        (∀ c ∈ fulls, c.bytes.length = buffSize) →
        (∀ c, last = .ok c → c.bytes.length < buffSize) →
        ∀ fuel, fulls.length < fuel →
        ∀ env : Env, env .readEnclave = fulls.map .ok ++ last :: rest →
        readFromStream fuel env =
          ⟨.ret (last.map ((fulls.map Chunk.bytes).flatten ++ Chunk.bytes ·)),
            Function.update env .readEnclave rest,
            fulls.map (fun c => .read .enclave (.ok c.bytes)) ++
              [.read .enclave (last.map Chunk.bytes)]⟩) ∧
    (∀ (m : Bytes) (fulls : List (Chunk buffSize)) (last : Chunk buffSize)
        (rest : List (Except IoError (Chunk buffSize))),
        (∀ c ∈ fulls, c.bytes.length = buffSize) → last.bytes.length < buffSize →
        (fulls.map Chunk.bytes).flatten ++ last.bytes = m →
        ∀ fuel, fulls.length < fuel →
        ∀ env : Env, env .readEnclave = fulls.map .ok ++ .ok last :: rest →
        (readRequest codec fuel env).status =
            .ret ((codec.fromSlice m).mapError .deserializationError) ∧
          (readRequest codec fuel env).env = Function.update env .readEnclave rest ∧
          (readRequest codec fuel env).events.length = m.length / buffSize + 1 ∧
          (0 < m.length → m.length % buffSize = 0 →
            (fulls.map Chunk.bytes).flatten = m ∧ last.bytes = [])) := by
  refine ⟨readFromStream_reads_to_first_short, ?_⟩
  rintro m fulls last rest hfull hlast rfl fuel hfuel env henv
  have hread := readFromStream_reads_to_first_short fulls (.ok last) rest hfull
    (fun c hc => by cases hc; exact hlast) fuel hfuel env henv
  have hlen := length_flatten_full hfull
  rw [readRequest, Sys.bind_ret hread]
  simp only [buffSize] at hlen hlast
  refine ⟨by simp [Except.map, Sys.pure_apply], by simp [Except.map, Sys.pure_apply], ?_,
    fun _ hmod => ?_⟩
  · simp [Except.map, Sys.pure_apply, buffSize, hlen]; omega
  · simp only [List.length_append, hlen, buffSize] at hmod
    have hnil : last.bytes = [] := List.eq_nil_of_length_eq_zero (by omega)
    simp [hnil]

/-- A control stream whose first read returns the three bytes `1 2 3`. -/
def threeByteEnv : Env := fun c => match c with
  | .readEnclave => [Except.ok ⟨[1, 2, 3], by decide⟩]
  | _ => []

/-- A codec that decodes every buffer to a request for `"host:80"`. -/
def constCodec : Codec := ⟨fun _ => .ok (.connect "host:80"), fun _ => []⟩

theorem readFromStream_framing_three_bytes :
    readFromStream 1 threeByteEnv =
        ⟨.ret (.ok [1, 2, 3]), Function.update threeByteEnv .readEnclave [],
          [.read .enclave (.ok [1, 2, 3])]⟩ ∧
      (readRequest constCodec 1 threeByteEnv).status = .ret (.ok (.connect "host:80")) := by
  have h := readFromStream_framing constCodec
  exact ⟨h.1 [] (.ok ⟨[1, 2, 3], by decide⟩) [] (by simp) (fun c hc => by cases hc; decide)
      1 (by decide) threeByteEnv rfl,
    (h.2 [1, 2, 3] [] ⟨[1, 2, 3], by decide⟩ [] (by simp) (by decide) rfl 1 (by decide)
      threeByteEnv rfl).1⟩

end RustSgx.Runner
