import RustProxy.Lib.Session
import RustProxy.Proxy.Handshake

/-!
# The node's connection handler

`node/src/handler.rs`, as a session whose front is the gateway and whose back is the target. The counts that a completed
relay adds to the metrics are the result.
-/

namespace RustProxy.Agent

open Lib Protocol Proxy

inductive NodeError
  | protocol (message : String)
  | timeout (message : String)
  | io (e : IoError)
  | relay (message : String)
  deriving DecidableEq, Repr

instance : SessionError NodeError := ⟨.protocol, .timeout, .io⟩

inductive Control
  | dial (targetAddr : String)
  deriving DecidableEq

abbrev Control.Ans : Control → Type
  | dial _ => Except IoFault Unit

abbrev Handler (α : Type) := Session Control.Ans NodeError α

/-- The reply to a target that could not be dialled. -/
def dialFailureCode (e : IoError) : UInt8 :=
  if e.kind = .connectionRefused then ReplyCode.connectionRefused else ReplyCode.networkUnreachable

/-- A relay that fails or idles is logged, and the session ends all the same. -/
def relay : Handler (Option (UInt64 × UInt64)) :=
  .op .relay fun
    | .ok stats => .ret (some stats)
    | .error _ => .ret none

/-- What follows the dialling of the target. -/
def established : Handler (Option (UInt64 × UInt64)) := do
  (writeAllTimeout (replyBytes ReplyCode.success)).embed .front
  relay

/-- What follows the handshake. -/
def serveRequest (request : Request) : Handler (Option (UInt64 × UInt64)) :=
  if request.command ≠ .connect then
    (refuse ReplyCode.commandNotSupported (.protocol "unsupported command (only CONNECT is supported)")).embed .front
  else
    .op (.ctl (.dial request.addr.display)) fun
      | .ok () => established
      | .error (.err e) => (refuse (dialFailureCode e) (.io e)).embed .front
      | .error .elapsed => (refuse ReplyCode.ttlExpired (.timeout "target connect timed out")).embed .front

def runWithCtx (auth : Option (String × String)) : Handler (Option (UInt64 × UInt64)) := do
  let request ← (handshake auth).embed .front
  serveRequest request

end RustProxy.Agent
