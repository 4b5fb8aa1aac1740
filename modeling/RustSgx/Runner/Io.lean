import Mathlib.Data.List.Basic

set_option autoImplicit false

/-!
# Runner: the vocabulary of the relay's outside world

`enclave-runner/src/server.rs` talks to the world only through a handful of
calls: `Read::read` and `Write::write` on three sockets, `TcpStream::connect`,
`TcpListener::bind` and its `local_addr`, the `StreamConnection` identity
queries `local()` and `peer()`, one `accept`, nix's `select`, `shutdown`, and
for the listener loop `ProxyConnection::bind`, `ProxyConnection::incoming` and
`thread::Builder::spawn`.

An `Event` records one such call together with the answer the program got.
Everything the later modules prove about the relay is a statement about the
list of events a run produces: which calls happen, in which order, and which
bytes cross each socket.  This module fixes that vocabulary and the two byte
accounts (`bytesRead`, `bytesWritten`) every conservation statement is made of.

Logging (`log_communication`, `println!`, `eprintln!`) and the identity queries
made only to feed it (`local_port`, `peer_port`, the `local_addr`/`peer_addr`
calls inside `transfer_data`) are not events: each is wrapped in
`unwrap_or_default` and never changes control flow.
-/

namespace RustSgx.Runner

/-- The bytes of a buffer, `[u8]`. -/
abbrev Bytes := List UInt8

/-- A raw file descriptor, as the OS numbers it. -/
abbrev Fd := Nat

/-- `BUFF_SIZE` (server.rs:9): the chunk size of the control-stream reader. -/
def buffSize : Nat := 1024

/-- `PROXY_BUFF_SIZE` (server.rs:10): the chunk size of the relay. -/
def proxyBuffSize : Nat := 4192

/-- `FD_SETSIZE` of Linux `select(2)`: `FdSet::insert` indexes a fixed bit
array of this many descriptors. -/
def fdSetSize : Nat := 1024

/-- The `std::io::ErrorKind`s the modelled code distinguishes. -/
inductive IoErrorKind where
  | interrupted
  | writeZero
  | invalidInput
  | other
  deriving DecidableEq, Repr

/-- `std::io::Error`: either reported by the OS, or built by the code with
`io::Error::new(kind, msg)`. -/
inductive IoError where
  | os (kind : IoErrorKind)
  | new (kind : IoErrorKind) (msg : String)
  deriving DecidableEq, Repr

/-- `io::Error::kind`. -/
def IoError.kind : IoError → IoErrorKind
  | .os kind => kind
  | .new kind _ => kind

/-- The error `write_all` returns when a `write` accepts nothing
(`ErrorKind::WriteZero`, "failed to write whole buffer"). -/
def writeZeroError : IoError := .new .writeZero "failed to write whole buffer"

/-- What one `read` into a buffer of `cap` bytes can hand back: at most `cap`
bytes, the `Read` contract that makes `buff[0..n]` in-bounds. -/
structure Chunk (cap : Nat) where
  bytes : Bytes
  length_le : bytes.length ≤ cap
  deriving DecidableEq

/-- The sockets of one session, named as in the diagram of server.rs:137-154:
`enclave` is the control stream, `remote` the outbound connection and `proxy`
the data connection the enclave opens to the ephemeral listener. -/
inductive Sock where
  | enclave
  | remote
  | proxy
  deriving DecidableEq, Repr

/-- `std::net::Shutdown`. -/
inductive Shutdown where
  | read
  | write
  | both
  deriving DecidableEq, Repr

/-- Which of the two descriptors `select` left in the read set. -/
structure Ready where
  proxy : Bool
  remote : Bool
  deriving DecidableEq, Repr

/-- One call on the outside world and the answer it got.  `write s buf r`
offers `buf`; `r = .ok n` means the socket took `n` bytes of it. -/
inductive Event where
  | read (s : Sock) (reply : Except IoError Bytes)
  | write (s : Sock) (buf : Bytes) (reply : Except IoError Nat)
  | shutdown (s : Sock) (how : Shutdown)
  | connect (addr : String) (reply : Except IoError Fd)
  | bind (addr : String) (reply : Except IoError Unit)
  | localAddr (reply : Except IoError UInt16)
  | local_ (reply : Except IoError String)
  | peer (reply : Except IoError String)
  | accept (reply : Except IoError Fd)
  | select (reply : Except IoError Ready)
  | serverBind (port : UInt16) (reply : Except IoError Unit)
  | incoming (reply : Except IoError Unit)
  | spawn (reply : Except IoError Unit)
  deriving Repr

/-! ## Byte accounts -/

/-- The bytes this event read from `s`. -/
def Event.bytesRead (s : Sock) : Event → Bytes
  | .read s' (.ok bs) => if s' = s then bs else []
  | _ => []

/-- The bytes this event delivered to `s`: the first `n` bytes of the buffer
offered, when the write took `n`.  A reply larger than the buffer (which the
`Write` contract rules out) delivers the whole buffer. -/
def Event.bytesWritten (s : Sock) : Event → Bytes
  | .write s' buf (.ok n) => if s' = s then buf.take n else []
  | _ => []

/-- Every byte read from `s` along a trace, in the order it was read. -/
def bytesRead (s : Sock) (t : List Event) : Bytes := t.flatMap (Event.bytesRead s)

/-- Every byte delivered to `s` along a trace, in the order it was sent. -/
def bytesWritten (s : Sock) (t : List Event) : Bytes := t.flatMap (Event.bytesWritten s)

@[simp] theorem bytesRead_nil (s : Sock) : bytesRead s [] = [] := rfl

@[simp] theorem bytesWritten_nil (s : Sock) : bytesWritten s [] = [] := rfl

@[simp] theorem bytesRead_cons (s : Sock) (e : Event) (t : List Event) :
    bytesRead s (e :: t) = e.bytesRead s ++ bytesRead s t := rfl

@[simp] theorem bytesWritten_cons (s : Sock) (e : Event) (t : List Event) :
    bytesWritten s (e :: t) = e.bytesWritten s ++ bytesWritten s t := rfl

@[simp] theorem bytesRead_append (s : Sock) (t u : List Event) :
    bytesRead s (t ++ u) = bytesRead s t ++ bytesRead s u := by
  simp [bytesRead]

@[simp] theorem bytesWritten_append (s : Sock) (t u : List Event) :
    bytesWritten s (t ++ u) = bytesWritten s t ++ bytesWritten s u := by
  simp [bytesWritten]

@[simp] theorem Event.bytesRead_read (s s' : Sock) (bs : Bytes) :
    (Event.read s' (.ok bs)).bytesRead s = if s' = s then bs else [] := rfl

@[simp] theorem Event.bytesRead_read_error (s s' : Sock) (e : IoError) :
    (Event.read s' (.error e)).bytesRead s = [] := rfl

@[simp] theorem Event.bytesWritten_write (s s' : Sock) (buf : Bytes) (n : Nat) :
    (Event.write s' buf (.ok n)).bytesWritten s = if s' = s then buf.take n else [] := rfl

@[simp] theorem Event.bytesWritten_write_error (s s' : Sock) (buf : Bytes) (e : IoError) :
    (Event.write s' buf (.error e)).bytesWritten s = [] := rfl

@[simp] theorem Event.bytesRead_write (s s' : Sock) (buf : Bytes) (r : Except IoError Nat) :
    (Event.write s' buf r).bytesRead s = [] := rfl

@[simp] theorem Event.bytesWritten_read (s s' : Sock) (r : Except IoError Bytes) :
    (Event.read s' r).bytesWritten s = [] := by
  cases r <;> rfl

@[simp] theorem Event.bytesRead_select (s : Sock) (r : Except IoError Ready) :
    (Event.select r).bytesRead s = [] := rfl

@[simp] theorem Event.bytesWritten_select (s : Sock) (r : Except IoError Ready) :
    (Event.select r).bytesWritten s = [] := rfl

end RustSgx.Runner
