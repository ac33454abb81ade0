import RustProxy.Lib.Session
import RustProxy.Proxy.Handshake

/-!
# The gateway's connection handler

`gateway/src/handler.rs` and `gateway/src/relay.rs`, as a session whose front is the client and whose back is the
selected node. The deadlines of the context belong to the environment, which decides when they have passed; the counts
that a completed relay adds to the metrics are the result.

`chain_eq_ok` says which answers of the node `connect_and_chain` accepts, and how many bytes of them it consumes.
-/

namespace RustProxy.Gateway

open Lib Protocol Proxy

inductive GatewayError
  | protocol (message : String)
  | timeout (message : String)
  | noNode
  | io (e : IoError)
  | relay (message : String)
  deriving DecidableEq, Repr

instance : SessionError GatewayError := ⟨.protocol, .timeout, .io⟩

structure RemoteNode where
  id : String
  forwardAddress : String

inductive Control
  | selectNode
  | connect (nodeAddress : String)

namespace Control

/-- No answer to a selection means that the deadline has passed. -/
abbrev Ans : Control → Type
  | selectNode => Option (Except GatewayError RemoteNode)
  | connect _ => Except IoFault Unit

end Control

abbrev Handler (α : Type) := Session Control.Ans GatewayError α

/-- The length of what follows in the node's reply. For a name, whose length has been read already, one byte is counted
twice. -/
def nodeAddrLen (nodeAtyp : UInt8) : Wire GatewayError Nat :=
  if nodeAtyp = Atyp.ipv4 then .ret (4 + 2)
  else if nodeAtyp = Atyp.ipv6 then .ret (16 + 2)
  else if nodeAtyp = Atyp.domain then do
    let dlen ← readExactTimeout 1
    return 1 + (dlen.byte 0).toNat + 2
  else .fail (.protocol "unknown node reply ATYP")

def readNodeAddr (nodeAtyp : UInt8) : Wire GatewayError Unit := do
  let nodeAddrLen ← nodeAddrLen nodeAtyp
  let _nodeAddr ← readExactTimeout nodeAddrLen

def readNodeReply : Wire GatewayError Unit := do
  let replyBuf ← readExactTimeout 4
  require (replyBuf.byte 0 = version) "node reply version mismatch"
  readNodeAddr (replyBuf.byte 3)
  .ofExcept (ensure (replyBuf.byte 1 = ReplyCode.success)
    (.relay ("node CONNECT failed (reply " ++ hexByte (replyBuf.byte 1) ++ ")")))

/-- `connect_and_chain` on the connection to the node. -/
def chain (dest : SocksAddr) : Wire GatewayError Unit := do
  writeAllTimeout [version, 1, 0]
  let sel ← readExactTimeout 2
  require (sel.byte 0 = version) ("node selection version " ++ hexByte (sel.byte 0))
  require (sel.byte 1 = Method.noAuth) ("node rejected NO_AUTH (got " ++ hexByte (sel.byte 1) ++ ")")
  writeAllTimeout (Request.mk .connect dest).toBytes
  readNodeReply

def connectAndChain (nodeAddress : String) (dest : SocksAddr) : Handler Unit :=
  .op (.ctl (.connect nodeAddress)) fun a => do
    .ofExcept (checkFault ("node connect timed out (" ++ nodeAddress ++ ")") a)
    (chain dest).embed .back

def relay : Handler (UInt64 × UInt64) :=
  .op .relay fun
    | .ok stats => .ret stats
    | .error (.err e) => .fail (.relay e.message)
    | .error .elapsed => .fail (.timeout "relay idle timeout")

/-- What follows the selection of a node. -/
def forward (addr : SocksAddr) (node : RemoteNode) : Handler (UInt64 × UInt64) := do
  connectAndChain node.forwardAddress addr
  (writeAllTimeout (replyBytes ReplyCode.success)).embed .front
  relay

/-- What follows the handshake. -/
def serveRequest (request : Request) : Handler (UInt64 × UInt64) :=
  if request.command ≠ .connect then
    (refuse ReplyCode.commandNotSupported (.protocol "unsupported command (only CONNECT is supported)")).embed .front
  else
    .op (.ctl .selectNode) fun
      | none => (refuse ReplyCode.hostUnreachable (.timeout "select node timed out")).embed .front
      | some (.error e) => (refuse ReplyCode.hostUnreachable e).embed .front
      | some (.ok node) => forward request.addr node

def runWithCtx (auth : Option (String × String)) : Handler (UInt64 × UInt64) := do
  let request ← (handshake auth).embed .front
  serveRequest request

theorem strict_chain (dest : SocksAddr) : (chain dest).Strict := by
  have haddr (atyp : UInt8) : (nodeAddrLen atyp).Strict := by
    unfold nodeAddrLen
    split_ifs
    · trivial
    · trivial
    · exact .bind (strict_readExactTimeout _) fun _ => trivial
    · trivial
  exact .bind (strict_writeAllTimeout _) fun _ => .bind (strict_readExactTimeout _) fun _ =>
    .bind (Prog.strict_ofExcept _) fun _ => .bind (Prog.strict_ofExcept _) fun _ =>
      .bind (strict_writeAllTimeout _) fun _ => .bind (strict_readExactTimeout _) fun _ =>
        .bind (Prog.strict_ofExcept _) fun _ => .bind
          (.bind (haddr _) fun _ => .bind (strict_readExactTimeout _) fun _ => trivial) fun _ => Prog.strict_ofExcept _

/-! ## What the gateway asks of a node -/

/-- The bytes that the gateway takes for the address in a reply, which for a name are one more than there are. -/
def TakenAddr (atyp : UInt8) (addr : Bytes) : Prop :=
  (atyp = Atyp.ipv4 ∧ addr.length = 4 + 2) ∨ (atyp = Atyp.ipv6 ∧ addr.length = 16 + 2) ∨
    (atyp = Atyp.domain ∧ ∃ dlen tail, addr = dlen :: tail ∧ tail.length = 1 + dlen.toNat + 2)

section Chain

variable {p p' : Peer}

theorem nodeAddrLen_eq_ok {atyp : UInt8} {n : Nat} : (nodeAddrLen atyp).run Peer.serve p = (.ok n, p') ↔
    (atyp = Atyp.ipv4 ∧ n = 4 + 2 ∧ p' = p) ∨ (atyp = Atyp.ipv6 ∧ n = 16 + 2 ∧ p' = p) ∨
      (atyp = Atyp.domain ∧ ∃ (dlen : UInt8) (rest : Bytes), p.input = dlen :: rest ∧ n = 1 + dlen.toNat + 2 ∧
        p' = p.after rest []) := by
  constructor
  · intro h
    unfold nodeAddrLen at h
    split_ifs at h with h₄ h₆ hd
    · cases h
      exact .inl ⟨h₄, rfl, rfl⟩
    · cases h
      exact .inr (.inl ⟨h₆, rfl, rfl⟩)
    · simp only [Prog.bind_eq, Prog.run_bind_eq_ok, readExactTimeout_eq_ok] at h
      obtain ⟨dlen, _, ⟨rest, hin, rfl⟩, h⟩ := h
      cases h
      exact .inr (.inr ⟨hd, dlen.byte 0, rest, by rw [hin, toList_octets_one]; rfl, rfl, rfl⟩)
    · cases h
  · rintro (⟨rfl, rfl, rfl⟩ | ⟨rfl, rfl, rfl⟩ | ⟨rfl, dlen, rest, hin, rfl, rfl⟩)
    · rfl
    · rfl
    · exact Prog.run_bind_eq_ok.mpr ⟨⟨[dlen], rfl⟩, _, readExactTimeout_eq_ok.mpr ⟨rest, hin, rfl⟩, rfl⟩

theorem readNodeAddr_eq_ok {atyp : UInt8} {u : Unit} : (readNodeAddr atyp).run Peer.serve p = (.ok u, p') ↔
    ∃ addr rest, p.input = addr ++ rest ∧ TakenAddr atyp addr ∧ p' = p.after rest [] := by
  simp only [readNodeAddr, Prog.bind_eq, Prog.run_bind_eq_ok, nodeAddrLen_eq_ok, readExactTimeout_eq_ok, Prog.pure_eq,
    Prog.run_ret, Prod.mk.injEq]
  constructor
  · rintro ⟨n, p₁, (⟨h, rfl, rfl⟩ | ⟨h, rfl, rfl⟩ | ⟨h, dlen, t, ht, rfl, rfl⟩), bs, _, ⟨rest, hin, rfl⟩, -, rfl⟩
    · exact ⟨bs.toList, rest, hin, .inl ⟨h, bs.2⟩, rfl⟩
    · exact ⟨bs.toList, rest, hin, .inr (.inl ⟨h, bs.2⟩), rfl⟩
    · rw [Peer.after_input] at hin
      exact ⟨dlen :: bs.toList, rest, by rw [ht, hin]; rfl, .inr (.inr ⟨h, dlen, _, rfl, bs.2⟩), by simp⟩
  · rintro ⟨addr, rest, hin, (⟨h, hl⟩ | ⟨h, hl⟩ | ⟨h, dlen, tail, rfl, hl⟩), rfl⟩
    · exact ⟨_, p, .inl ⟨h, rfl, rfl⟩, ⟨addr, hl⟩, _, ⟨rest, hin, rfl⟩, trivial, rfl⟩
    · exact ⟨_, p, .inr (.inl ⟨h, rfl, rfl⟩), ⟨addr, hl⟩, _, ⟨rest, hin, rfl⟩, trivial, rfl⟩
    · exact ⟨_, _, .inr (.inr ⟨h, dlen, tail ++ rest, hin, rfl, rfl⟩), ⟨tail, hl⟩, _, ⟨rest, rfl, rfl⟩, trivial,
        by simp⟩

theorem readNodeReply_eq_ok {u : Unit} : readNodeReply.run Peer.serve p = (.ok u, p') ↔
    ∃ rsv atyp addr rest, p.input = [version, ReplyCode.success, rsv, atyp] ++ (addr ++ rest) ∧
      TakenAddr atyp addr ∧ p' = p.after rest [] := by
  simp only [readNodeReply, Prog.bind_eq, Prog.run_bind_eq_ok, readExactTimeout_eq_ok, require_eq_ok,
    readNodeAddr_eq_ok, Prog.run_ofExcept_eq_ok, ensure_eq_ok]
  constructor
  · rintro ⟨hdr, _, ⟨_, hin, rfl⟩, -, _, ⟨hver, rfl⟩, -, _, ⟨addr, rest, rfl, haddr, rfl⟩, hrep, rfl⟩
    refine ⟨hdr.byte 2, hdr.byte 3, addr, rest, ?_, haddr, by simp⟩
    rw [hin, toList_octets_four, hver, hrep]
  · rintro ⟨rsv, atyp, addr, rest, hin, haddr, rfl⟩
    exact ⟨⟨[version, ReplyCode.success, rsv, atyp], rfl⟩, _, ⟨_, hin, rfl⟩, (), _, ⟨rfl, rfl⟩, (), _,
      ⟨addr, rest, rfl, haddr, rfl⟩, rfl, by simp⟩

/-- What the gateway sends to a node. -/
def chainBytes (dest : SocksAddr) : Bytes := [version, 1, 0] ++ (Request.mk .connect dest).toBytes

/-- The chaining succeeds exactly if the node accepts what it is sent and answers with a method selection, a success
reply and as much of an address as the gateway takes. -/
theorem chain_eq_ok {dest : SocksAddr} {u : Unit} : (chain dest).run Peer.serve p = (.ok u, p') ↔
    p.refuses (p.output ++ [version, 1, 0]) = none ∧ p.refuses (p.output ++ chainBytes dest) = none ∧
      ∃ rsv atyp addr rest, p.input = [version, Method.noAuth] ++
          ([version, ReplyCode.success, rsv, atyp] ++ (addr ++ rest)) ∧
        TakenAddr atyp addr ∧ p' = p.after rest (chainBytes dest) := by
  simp only [chain, Prog.bind_eq, Prog.run_bind_eq_ok, readExactTimeout_eq_ok, require_eq_ok, writeAllTimeout_eq_ok,
    readNodeReply_eq_ok]
  constructor
  · rintro ⟨-, _, ⟨hw₁, rfl⟩, sel, _, ⟨_, hin, rfl⟩, -, _, ⟨hver, rfl⟩, -, _, ⟨hmethod, rfl⟩, -, _, ⟨hw₂, rfl⟩,
      rsv, atyp, addr, rest, rfl, haddr, rfl⟩
    refine ⟨hw₁, ?_, rsv, atyp, addr, rest, ?_, haddr, by simp [chainBytes]⟩
    · simpa [chainBytes] using hw₂
    · have hsel : p.input = sel.toList ++ _ := hin
      rw [hsel, toList_octets_two, hver, hmethod]
  · rintro ⟨hw₁, hw₂, rsv, atyp, addr, rest, hin, haddr, rfl⟩
    refine ⟨(), _, ⟨hw₁, rfl⟩, ⟨[version, Method.noAuth], rfl⟩, _, ⟨_, hin, rfl⟩, (), _, ⟨rfl, rfl⟩, (), _, ⟨rfl, rfl⟩,
      (), _, ⟨?_, rfl⟩, rsv, atyp, addr, rest, rfl, haddr, by simp [chainBytes]⟩
    simpa [chainBytes] using hw₂

end Chain

end RustProxy.Gateway
