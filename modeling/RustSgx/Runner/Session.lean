import RustSgx.Runner.Relay
import RustSgx.Runner.Request

set_option autoImplicit false

/-!
# Runner: one session, from the request to the relay

`Server::handle_client` (server.rs:203-209) reads one request and, for
`Request::Connect { addr }`, runs `Server::handle_request_connect`
(server.rs:155-201):

    let mut remote_socket = TcpStream::connect(remote_addr)?;
    let proxy_server = TcpListener::bind("127.0.0.1:0")?;
    let proxy_server_port = proxy_server.local_addr()?.port();
    let response = Response::Connected {
            port: proxy_server_port,
            local_addr: enclave.local()?,
            peer_addr: enclave.peer()?,
        };
    enclave.write(&serde_cbor::ser::to_vec(&response).unwrap())?;
    let mut proxy = proxy_server.incoming().next().unwrap()?;
    loop { .. }
    Ok(())

Rust's `?` is the bind of `ExceptT IoError Sys`.  `incoming().next()` on a
`TcpListener` never returns `None`, so its `unwrap` is an `accept`.  The worker
that `Server::run` spawns (server.rs:217-222) shuts the control stream down
when `handle_client` returns `Err`.

One line of the setup differs from the rest: the response goes out through a
single `Write::write` whose count is dropped, where `transfer_data` uses
`write_all`.  `handleRequestConnect_accepts_after_short_write` shows the
session going on to the `accept` after a short write.
-/

namespace RustSgx.Runner

/-! ## The setup calls -/

/-- `TcpStream::connect(addr)`: the descriptor of the new socket. -/
def connect (addr : String) : Sys (Except IoError Fd) := call .connect (.connect addr)

/-- `TcpListener::bind(addr)`. -/
def tcpBind (addr : String) : Sys (Except IoError Unit) := call .bind (.bind addr)

/-- `proxy_server.local_addr()?.port()`. -/
def localAddrPort : Sys (Except IoError UInt16) := call .localAddr .localAddr

/-- `StreamConnection::local` on the control stream. -/
def enclaveLocal : Sys (Except IoError String) := call .local_ .local_

/-- `StreamConnection::peer` on the control stream. -/
def enclavePeer : Sys (Except IoError String) := call .peer .peer

/-- `proxy_server.incoming().next().unwrap()`: one `accept`, the descriptor of
the accepted socket. -/
def accept : Sys (Except IoError Fd) := call .accept .accept

/-! ## The session -/

section
variable (codec : Codec) (fuel : Nat)

/-- The relay loop and the `Ok(())` after it (server.rs:183-200): it returns
only through a `break`. -/
def relay (proxyFd remoteFd : Fd) : Sys (Except IoError Unit) := do
  if ← relayLoop fuel proxyFd remoteFd fuel then pure (.ok ()) else stall

/-- `Server::handle_request_connect` (server.rs:155-201), on the control
stream `enclave`. -/
def handleRequestConnect (remoteAddr : String) : ExceptT IoError Sys Unit := do
  let remoteFd ← ExceptT.mk (connect remoteAddr)
  ExceptT.mk (tcpBind "127.0.0.1:0")
  let port ← ExceptT.mk localAddrPort
  let localAddr ← ExceptT.mk enclaveLocal
  let peerAddr ← ExceptT.mk enclavePeer
  let _ ← ExceptT.mk (write .enclave (codec.toVec (.connected port localAddr peerAddr)))
  let proxyFd ← ExceptT.mk accept
  ExceptT.mk (relay fuel proxyFd remoteFd)

/-- `Server::handle_client` (server.rs:203-209). -/
def handleClient : Sys (Except IoError Unit) := do
  match ← readRequest codec fuel with
  | .ok (.connect addr) => (handleRequestConnect codec fuel addr).run
  | .error _ => pure (.error (.new .invalidInput "Failed to read request"))

/-- The worker closure of `Server::run` (server.rs:217-222): on `Err` the
control stream is shut down, `let _ = stream.shutdown(Shutdown::Both)`. -/
def worker : Sys Unit := do
  match ← handleClient codec fuel with
  | .error _ => emit (.shutdown .enclave .both)
  | .ok () => pure ()

end

/-- A world in which every setup call succeeds: `connect` gives `remoteFd`,
the listener's port is `port`, the control stream's ends are named
`localAddr` and `peerAddr`, the response `write` takes `n` bytes and the
`accept` gives `proxyFd`. -/
def setupEnv (remoteFd : Fd) (port : UInt16) (localAddr peerAddr : String) (n : Nat)
    (proxyFd : Fd) : Env := fun c => match c with
  | .connect => [Except.ok remoteFd]
  | .bind => [Except.ok ()]
  | .localAddr => [Except.ok port]
  | .local_ => [Except.ok localAddr]
  | .peer => [Except.ok peerAddr]
  | .write .enclave => [Except.ok n]
  | .accept => [Except.ok proxyFd]
  | _ => []

/-- The events of the setup in `setupEnv`, up to the `accept`. -/
def setupEvents (addr : String) (remoteFd : Fd) (port : UInt16) (localAddr peerAddr : String)
    (buf : Bytes) (n : Nat) (proxyFd : Fd) : List Event :=
  [.connect addr (.ok remoteFd), .bind "127.0.0.1:0" (.ok ()), .localAddr (.ok port),
    .local_ (.ok localAddr), .peer (.ok peerAddr), .write .enclave buf (.ok n),
    .accept (.ok proxyFd)]

theorem handleRequestConnect_setupEnv (codec : Codec) (fuel : Nat) (addr : String)
    (remoteFd : Fd) (port : UInt16) (localAddr peerAddr : String) (n : Nat) (proxyFd : Fd) :
    ∃ env', (handleRequestConnect codec fuel addr).run
        (setupEnv remoteFd port localAddr peerAddr n proxyFd) =
      ⟨(relay fuel proxyFd remoteFd env').status, (relay fuel proxyFd remoteFd env').env,
        setupEvents addr remoteFd port localAddr peerAddr
            (codec.toVec (.connected port localAddr peerAddr)) n proxyFd ++
          (relay fuel proxyFd remoteFd env').events⟩ := by
  simp only [handleRequestConnect, ExceptT.run_bind, ExceptT.run_mk, Sys.bind_apply, Sys.bind,
    connect, tcpBind, localAddrPort, enclaveLocal, enclavePeer, accept, write, call_apply, setupEnv,
    ExceptT.bindCont, Function.update_same, ne_eq, reduceCtorEq, not_false_eq_true,
    Function.update_noteq]
  exact ⟨_, rfl⟩

theorem relay_emits (fuel : Nat) (proxyFd remoteFd : Fd) :
    Sys.Emits IsRelayEvent (relay fuel proxyFd remoteFd) :=
  Sys.Emits.bind (relayLoop_emits _ _ _ _) fun b => by
    split
    · exact Sys.Emits.pure _ _
    · intro env e he; simp [stall] at he

/-- **The response can reach the enclave cut short.**  The `Connected`
response is sent with one `Write::write` whose count is dropped.  For every
codec, every answer of the setup calls, and every `n` smaller than the
encoding, a `write` that takes only `n` bytes does not stop the session: it
goes on to the `accept` (and to the relay), and the enclave has received only
the proper prefix `take n` of the encoding. -/
theorem handleRequestConnect_accepts_after_short_write (codec : Codec) (fuel : Nat)
    (addr : String) (remoteFd : Fd) (port : UInt16) (localAddr peerAddr : String) (n : Nat)
    (proxyFd : Fd) (hn : n < (codec.toVec (.connected port localAddr peerAddr)).length) :
    (∃ t, ((handleRequestConnect codec fuel addr).run
        (setupEnv remoteFd port localAddr peerAddr n proxyFd)).events =
      setupEvents addr remoteFd port localAddr peerAddr
        (codec.toVec (.connected port localAddr peerAddr)) n proxyFd ++ t) ∧
    bytesWritten .enclave ((handleRequestConnect codec fuel addr).run
        (setupEnv remoteFd port localAddr peerAddr n proxyFd)).events =
      (codec.toVec (.connected port localAddr peerAddr)).take n ∧
    (codec.toVec (.connected port localAddr peerAddr)).take n ≠
      codec.toVec (.connected port localAddr peerAddr) := by
  obtain ⟨env', h⟩ := handleRequestConnect_setupEnv codec fuel addr remoteFd port localAddr
    peerAddr n proxyFd
  have hrelay := (relay_emits fuel proxyFd remoteFd).bytesWritten_eq_nil
    (fun e he => he.bytesWritten_enclave) env'
  refine ⟨⟨_, by rw [h]⟩, ?_, fun htake => ?_⟩
  · rw [h, bytesWritten_append, hrelay]; simp [setupEvents, Event.bytesWritten]
  · have := congrArg List.length htake
    rw [List.length_take] at this
    omega

/-- A codec whose `Connected` response encodes to three bytes. -/
def threeByteResponseCodec : Codec := ⟨fun _ => .error ⟨"unused"⟩, fun _ => [0xa1, 0x00, 0x01]⟩

theorem handleRequestConnect_accepts_after_one_byte :
    1 < (threeByteResponseCodec.toVec (.connected 4000 "127.0.0.1:3000" "127.0.0.1:4001")).length ∧
      bytesWritten .enclave ((handleRequestConnect threeByteResponseCodec 0 "example.com:443").run
          (setupEnv 7 4000 "127.0.0.1:3000" "127.0.0.1:4001" 1 8)).events = [0xa1] :=
  ⟨by decide, (handleRequestConnect_accepts_after_short_write threeByteResponseCodec 0
    "example.com:443" 7 4000 "127.0.0.1:3000" "127.0.0.1:4001" 1 8 (by decide)).2.1⟩

end RustSgx.Runner
