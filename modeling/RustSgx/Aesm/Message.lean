import Mathlib.Logic.Basic

set_option autoImplicit false

/-!
# Aesm: the daemon's responses

`aesm-client` talks to the AESM daemon in protobuf messages.  The daemon's
reply is one `Response` message with an optional field per response kind.
`define_aesm_message!` (lib.rs:321-356) is applied to eight request/response
pairs (lib.rs:358-366), and for each it implements
`FromResponse::from_response`, which turns the decoded reply into the
response body or an `Error`:

    match res {
        Ok(ref mut res) if res.$has() => {
            let body = res.$take();
            match body.get_errorCode() {
                AESM_SUCCESS => Ok(body),
                code => Err(Error::aesm_code(code)),
            }
        }
        _ => Err(Error::aesm_bad_response(stringify!($response))),
    }

The eight implementations differ only in the `Response` field they read and
the name in the error.  `fromResponse` is the one definition, with those two
as parameters, and each member is `fromResponse` at its own pair.

The protobuf messages are generated at build time (`mod_aesm_proto.rs`) and
the crate's `Error` is in `error.rs`; neither is in the repository.  They are
modelled by what the code reads and builds: a body's `errorCode`, a field's
presence and value, and the variants of `Error` the modelled functions build.
-/

namespace RustSgx.Aesm

/-- `Error` (error.rs): the variants the modelled functions build, each
holding the value it is built from. -/
inductive Error where
  /-- `Error::InvalidQuoteType(v)`, built by `QuoteType::from_u32`. -/
  | invalidQuoteType (v : UInt32)
  /-- `Error::aesm_code(code)`: the daemon answered with an error code. -/
  | aesmCode (code : UInt32)
  /-- `Error::aesm_bad_response(name)`: the reply is not the response `name`. -/
  | aesmBadResponse (name : String)
  deriving DecidableEq, Repr

/-- `AESM_SUCCESS` (lib.rs:73-74). -/
def aesmSuccess : UInt32 := 0

/-- A response body as `from_response` reads it: `get_errorCode()`.  The
body's other fields go back to the caller untouched; no modelled function
reads them. -/
structure ResponseBody where
  errorCode : UInt32
  deriving DecidableEq, Repr

/-- The `Response` message, by the fields `define_aesm_message!` reads:
`has_…` is `isSome` of the field and `take_…` its body. -/
structure Response where
  getQuoteRes : Option ResponseBody
  initQuoteRes : Option ResponseBody
  getLicTokenRes : Option ResponseBody
  getQuoteExRes : Option ResponseBody
  initQuoteExRes : Option ResponseBody
  getQuoteSizeExRes : Option ResponseBody
  getSupportedAttKeyIDNumRes : Option ResponseBody
  getSupportedAttKeyIDsRes : Option ResponseBody
  deriving DecidableEq, Repr

/-- `FromResponse::from_response` as `define_aesm_message!` writes it, for
the response type `name` (`stringify!($response)`) held in the field `field`
(`$has`, `$take`).  `res` is the `ProtobufResult<Response>` of decoding the
reply; the decoding error is not read. -/
def fromResponse {ε : Type} (name : String) (field : Response → Option ResponseBody)
    (res : Except ε Response) : Except Error ResponseBody :=
  match res with
  | .ok res =>
    match field res with
    | some body =>
      if body.errorCode = aesmSuccess then .ok body else .error (.aesmCode body.errorCode)
    | none => .error (.aesmBadResponse name)
  | .error _ => .error (.aesmBadResponse name)

/-! ## The eight members (lib.rs:358-366) -/

/-- `FromResponse for Response_GetQuoteResponse` (lib.rs:358). -/
def Response_GetQuoteResponse.fromResponse {ε : Type} :
    Except ε Response → Except Error ResponseBody :=
  Aesm.fromResponse "Response_GetQuoteResponse" Response.getQuoteRes

/-- `FromResponse for Response_InitQuoteResponse` (lib.rs:359). -/
def Response_InitQuoteResponse.fromResponse {ε : Type} :
    Except ε Response → Except Error ResponseBody :=
  Aesm.fromResponse "Response_InitQuoteResponse" Response.initQuoteRes

/-- `FromResponse for Response_GetLaunchTokenResponse` (lib.rs:360). -/
def Response_GetLaunchTokenResponse.fromResponse {ε : Type} :
    Except ε Response → Except Error ResponseBody :=
  Aesm.fromResponse "Response_GetLaunchTokenResponse" Response.getLicTokenRes

/-- `FromResponse for Response_GetQuoteExResponse` (lib.rs:362). -/
def Response_GetQuoteExResponse.fromResponse {ε : Type} :
    Except ε Response → Except Error ResponseBody :=
  Aesm.fromResponse "Response_GetQuoteExResponse" Response.getQuoteExRes

/-- `FromResponse for Response_InitQuoteExResponse` (lib.rs:363). -/
def Response_InitQuoteExResponse.fromResponse {ε : Type} :
    Except ε Response → Except Error ResponseBody :=
  Aesm.fromResponse "Response_InitQuoteExResponse" Response.initQuoteExRes

/-- `FromResponse for Response_GetQuoteSizeExResponse` (lib.rs:364). -/
def Response_GetQuoteSizeExResponse.fromResponse {ε : Type} :
    Except ε Response → Except Error ResponseBody :=
  Aesm.fromResponse "Response_GetQuoteSizeExResponse" Response.getQuoteSizeExRes

/-- `FromResponse for Response_GetSupportedAttKeyIDNumResponse` (lib.rs:365). -/
def Response_GetSupportedAttKeyIDNumResponse.fromResponse {ε : Type} :
    Except ε Response → Except Error ResponseBody :=
  Aesm.fromResponse "Response_GetSupportedAttKeyIDNumResponse" Response.getSupportedAttKeyIDNumRes

/-- `FromResponse for Response_GetSupportedAttKeyIDsResponse` (lib.rs:366). -/
def Response_GetSupportedAttKeyIDsResponse.fromResponse {ε : Type} :
    Except ε Response → Except Error ResponseBody :=
  Aesm.fromResponse "Response_GetSupportedAttKeyIDsResponse" Response.getSupportedAttKeyIDsRes

end RustSgx.Aesm
