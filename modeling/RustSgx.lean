import RustSgx.Runner.Io
import RustSgx.Runner.Sys
import RustSgx.Runner.WriteAll
import RustSgx.Runner.Relay
import RustSgx.Runner.RelayExit
import RustSgx.Runner.Request
import RustSgx.Runner.Session
import RustSgx.Runner.Protocol
import RustSgx.Runner.Delivery
import RustSgx.Runner.ControlStream
import RustSgx.Runner.Failure
import RustSgx.Runner.Listener
import RustSgx.Aesm.KeyIds
import RustSgx.Aesm.Message
import RustSgx.Aesm.Quote
