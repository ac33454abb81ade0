import RustProxy.Gateway.Handler

/-!
# The replies of the gateway

Once it has read a CONNECT request, the gateway owes the client one reply, which reports success exactly if the node has
established the connection. It replies itself when no node is selected, and after `connect_and_chain` has succeeded; but
an error of `connect_and_chain` ends the session with no reply at all. So the obligation is met exactly if no node is
selected, or the selected one succeeds (`repliesOnce_iff`).
-/

namespace RustProxy.Gateway

open Lib Protocol Proxy

/-! ## What is owed -/

/-- The address and port of a reply, for the address type. -/
def ReplyAddr (atyp : UInt8) (addr : Bytes) : Prop :=
  (atyp = Atyp.ipv4 ∧ addr.length = 4 + 2) ∨ (atyp = Atyp.ipv6 ∧ addr.length = 16 + 2) ∨
    (atyp = Atyp.domain ∧ ∃ dlen tail, addr = dlen :: tail ∧ tail.length = dlen.toNat + 2)

/-- A node is selected and reached, accepts the bytes of the gateway, and answers them with a selection and a success
reply with an address of type `atyp`; `rest` follows. -/
structure Establishes (e : Env Control.Ans) (dest : SocksAddr) (atyp : UInt8) (rest : Bytes) : Prop where
  connected : ∃ node, e.answer .selectNode = some (.ok node) ∧ e.answer (.connect node.forwardAddress) = .ok ()
  greeted : (e.peer .back).refuses ((e.peer .back).output ++ [version, 1, 0]) = none
  requested : (e.peer .back).refuses ((e.peer .back).output ++ chainBytes dest) = none
  replied : ∃ rsv addr, (e.peer .back).input = [version, Method.noAuth] ++
    ([version, ReplyCode.success, rsv, atyp] ++ (addr ++ rest)) ∧ ReplyAddr atyp addr

/-- After the handshake the client is sent one reply, which reports success exactly if the node has established the
connection. -/
def RepliesOnce (auth : Option (String × String)) (dest : SocksAddr) (e : Env Control.Ans) : Prop :=
  ∃ r : Reply, (((runWithCtx auth).run Env.serve e).2.peer .front).output =
      (e.peer .front).output ++ (openingReply auth ++ r.toBytes) ∧
    (r.code = ReplyCode.success ↔ ∃ atyp rest, Establishes e dest atyp rest)

/-- For a name the gateway takes one byte too many, and so needs one to follow. -/
theorem exists_takenAddr_iff {atyp : UInt8} {bs : Bytes} : (∃ addr rest, bs = addr ++ rest ∧ TakenAddr atyp addr) ↔
    ∃ addr rest, bs = addr ++ rest ∧ ReplyAddr atyp addr ∧ (atyp = Atyp.domain → rest ≠ []) := by
  constructor
  · rintro ⟨addr, rest, rfl, (⟨rfl, hl⟩ | ⟨rfl, hl⟩ | ⟨rfl, dlen, tail, rfl, hl⟩)⟩
    · exact ⟨addr, rest, rfl, .inl ⟨rfl, hl⟩, by rintro ⟨⟩⟩
    · exact ⟨addr, rest, rfl, .inr (.inl ⟨rfl, hl⟩), by rintro ⟨⟩⟩
    · refine ⟨dlen :: tail.take (dlen.toNat + 2), tail.drop (dlen.toNat + 2) ++ rest, ?_,
        .inr (.inr ⟨rfl, dlen, _, rfl, List.length_take_of_le (by omega)⟩), fun _ h => ?_⟩
      · rw [List.cons_append, List.cons_append, ← List.append_assoc, List.take_append_drop]
      · have hdrop := congrArg List.length (List.append_eq_nil_iff.mp h).1
        rw [List.length_drop, hl, List.length_nil] at hdrop
        omega
  · rintro ⟨addr, rest, rfl, (⟨rfl, hl⟩ | ⟨rfl, hl⟩ | ⟨rfl, dlen, tail, rfl, hl⟩), hrest⟩
    · exact ⟨addr, rest, rfl, .inl ⟨rfl, hl⟩⟩
    · exact ⟨addr, rest, rfl, .inr (.inl ⟨rfl, hl⟩)⟩
    · obtain ⟨b, rest, rfl⟩ := List.exists_cons_of_ne_nil (hrest rfl)
      refine ⟨dlen :: (tail ++ [b]), rest, by simp, .inr (.inr ⟨rfl, dlen, _, rfl, ?_⟩)⟩
      rw [List.length_append, hl, List.length_singleton]
      omega

/-! ## What is sent -/

section Sent

variable {e : Env Control.Ans}

/-- What is done once it is known whether the node can be reached. -/
theorem run_connectAndChain (addr : String) (dest : SocksAddr) : (connectAndChain addr dest).run Env.serve e =
    ((Prog.ofExcept (checkFault ("node connect timed out (" ++ addr ++ ")") (e.answer (.connect addr)))).bind
      fun _ => (chain dest).embed .back : Handler Unit).run Env.serve e := rfl

theorem connectAndChain_eq_ok {addr : String} {dest : SocksAddr} {e' : Env Control.Ans} {u : Unit} :
    (connectAndChain addr dest).run Env.serve e = (.ok u, e') ↔ e.answer (.connect addr) = .ok () ∧
      ∃ p', (chain dest).run Peer.serve (e.peer .back) = (.ok (), p') ∧ e' = e.setPeer .back p' := by
  rw [run_connectAndChain]
  rcases e.answer (.connect addr) with (x | _) | ⟨⟩
  · simp [checkFault]
  · simp [checkFault]
  · simp only [checkFault, Prog.ofExcept_ok, Prog.ret_bind, run_embed, Prod.mk.injEq, true_and]
    rcases (chain dest).run Peer.serve (e.peer .back) with ⟨r, p'⟩
    constructor
    · rintro ⟨rfl, rfl⟩
      exact ⟨p', rfl, rfl⟩
    · rintro ⟨_, h, rfl⟩
      cases h
      exact ⟨rfl, rfl⟩

/-- The client does not hear from it. -/
theorem connectAndChain_front {addr : String} {dest : SocksAddr} {r : Except GatewayError Unit} {e' : Env Control.Ans}
    (h : (connectAndChain addr dest).run Env.serve e = (r, e')) : e'.peer .front = e.peer .front := by
  have he' : e' = ((connectAndChain addr dest).run Env.serve e).2 := by rw [h]
  rw [he', run_connectAndChain]
  rcases e.answer (.connect addr) with (x | _) | ⟨⟩
  · rfl
  · rfl
  · simp only [checkFault, Prog.ofExcept_ok, Prog.ret_bind, run_embed]
    exact Env.peer_setPeer_of_ne _ (by decide) _

theorem run_relay (e : Env Control.Ans) : (relay.run Env.serve e).2 = e := by
  rw [relay, Prog.run_op]
  rcases (Env.serve .relay e).1 with (x | _) | stats <;> rfl

/-- With the node's success, the client is told so. -/
theorem forward_of_ok {addr : SocksAddr} {node : RemoteNode} {e' : Env Control.Ans} (hp : (e.peer .front).Accepts)
    (h : (connectAndChain node.forwardAddress addr).run Env.serve e = (.ok (), e')) :
    (((forward addr node).run Env.serve e).2.peer .front).output =
      (e.peer .front).output ++ replyBytes ReplyCode.success := by
  have hfront := connectAndChain_front h
  have hwrite : ((writeAllTimeout (replyBytes ReplyCode.success)).embed .front : Handler Unit).run Env.serve e' =
      (.ok (), e'.setPeer .front ((e'.peer .front).after (e'.peer .front).input (replyBytes ReplyCode.success))) := by
    rw [run_embed, writeAllTimeout_run (hfront ▸ hp)]
  rw [forward, Prog.bind_eq, Prog.run_bind_ok h, Prog.bind_eq, Prog.run_bind_ok hwrite, run_relay, Env.peer_setPeer,
    Peer.after_output, hfront]

/-- Without it, the client is told nothing. -/
theorem forward_of_error {addr : SocksAddr} {node : RemoteNode} {e' : Env Control.Ans} {x : GatewayError}
    (h : (connectAndChain node.forwardAddress addr).run Env.serve e = (.error x, e')) :
    (((forward addr node).run Env.serve e).2.peer .front).output = (e.peer .front).output := by
  rw [forward, Prog.bind_eq, Prog.run_bind_error h, connectAndChain_front h]

/-- What follows the answer of the control plane. -/
theorem run_serveRequest {q : Request} (hq : q.command = .connect) : (serveRequest q).run Env.serve e =
    (match e.answer .selectNode with
      | none => (refuse ReplyCode.hostUnreachable (.timeout "select node timed out")).embed .front
      | some (.error x) => (refuse ReplyCode.hostUnreachable x).embed .front
      | some (.ok node) => forward q.addr node : Handler _).run Env.serve e := by
  rw [serveRequest, if_neg (not_not.mpr hq)]
  rfl

theorem serveRequest_unselected {q : Request} (hp : (e.peer .front).Accepts) (hq : q.command = .connect)
    (hsel : ∀ node, e.answer .selectNode ≠ some (.ok node)) :
    (((serveRequest q).run Env.serve e).2.peer .front).output =
      (e.peer .front).output ++ replyBytes ReplyCode.hostUnreachable := by
  rw [run_serveRequest hq]
  rcases h : e.answer .selectNode with _ | x | node
  · exact output_refuse hp
  · exact output_refuse hp
  · exact absurd h (hsel node)

theorem serveRequest_selected {q : Request} {node : RemoteNode} (hq : q.command = .connect)
    (hnode : e.answer .selectNode = some (.ok node)) :
    (serveRequest q).run Env.serve e = (forward q.addr node).run Env.serve e := by
  rw [run_serveRequest hq, hnode]

end Sent

/-! ## When it is what is owed -/

section Owed

variable {e : Env Control.Ans} {dest : SocksAddr}

/-- The selected node is chained to exactly if it establishes the connection, and sends one byte more after a name. -/
theorem chained_iff (dest : SocksAddr) {node : RemoteNode} (hnode : e.answer .selectNode = some (.ok node)) :
    (∃ e', (connectAndChain node.forwardAddress dest).run Env.serve e = (.ok (), e')) ↔
      ∃ atyp rest, Establishes e dest atyp rest ∧ (atyp = Atyp.domain → rest ≠ []) := by
  simp only [connectAndChain_eq_ok, chain_eq_ok]
  constructor
  · rintro ⟨_, hconn, _, ⟨hgreet, hreq, rsv, atyp, addr, rest, hin, haddr, rfl⟩, rfl⟩
    obtain ⟨addr', rest', hsplit, haddr', hrest'⟩ := exists_takenAddr_iff.mp ⟨addr, rest, rfl, haddr⟩
    exact ⟨atyp, rest', ⟨⟨node, hnode, hconn⟩, hgreet, hreq, rsv, addr', hsplit ▸ hin, haddr'⟩, hrest'⟩
  · rintro ⟨atyp, rest, ⟨⟨node', hnode', hconn⟩, hgreet, hreq, rsv, addr, hin, haddr⟩, hrest⟩
    obtain ⟨addr', rest', hsplit, haddr'⟩ := exists_takenAddr_iff.mpr ⟨addr, rest, rfl, haddr, hrest⟩
    obtain rfl : node = node' := by rw [hnode] at hnode'; cases hnode'; rfl
    exact ⟨_, hconn, _, ⟨hgreet, hreq, rsv, atyp, addr', rest', hsplit ▸ hin, haddr', rfl⟩, rfl⟩

/-- The client has no part in it. -/
theorem establishes_setPeer {p : Peer} {atyp : UInt8} {rest : Bytes} :
    Establishes (e.setPeer .front p) dest atyp rest ↔ Establishes e dest atyp rest := by
  have hback : (e.setPeer .front p).peer .back = e.peer .back := Env.peer_setPeer_of_ne e (by decide) p
  constructor
  · rintro ⟨hconn, hgreet, hreq, hin⟩
    rw [hback] at hgreet hreq hin
    exact ⟨hconn, hgreet, hreq, hin⟩
  · rintro ⟨hconn, hgreet, hreq, hin⟩
    rw [← hback] at hgreet hreq hin
    exact ⟨hconn, hgreet, hreq, hin⟩

/-- The same after the handshake. -/
theorem serveRequest_repliesOnce_iff {q : Request} (hp : (e.peer .front).Accepts) (hq : q.command = .connect) :
    (∃ r : Reply, (((serveRequest q).run Env.serve e).2.peer .front).output = (e.peer .front).output ++ r.toBytes ∧
      (r.code = ReplyCode.success ↔ ∃ atyp rest, Establishes e q.addr atyp rest)) ↔
      (∀ node, e.answer .selectNode ≠ some (.ok node)) ∨
        ∃ atyp rest, Establishes e q.addr atyp rest ∧ (atyp = Atyp.domain → rest ≠ []) := by
  by_cases hsel : ∃ node, e.answer .selectNode = some (.ok node)
  · obtain ⟨node, hnode⟩ := hsel
    have hiff := chained_iff q.addr hnode
    rw [serveRequest_selected hq hnode]
    rcases hchain : (connectAndChain node.forwardAddress q.addr).run Env.serve e with ⟨x | ⟨⟩, e'⟩
    · rw [forward_of_error hchain]
      constructor
      · rintro ⟨r, hr, -⟩
        have hlen := congrArg List.length hr
        simp only [List.length_append, Reply.toBytes, Reply.frame, List.length_cons] at hlen
        omega
      · rintro (hno | hest)
        · exact absurd hnode (hno node)
        · obtain ⟨e'', h⟩ := hiff.mpr hest
          cases hchain.symm.trans h
    · rw [forward_of_ok hp hchain]
      have hest := hiff.mp ⟨e', hchain⟩
      refine ⟨fun _ => .inr hest, fun _ => ⟨simpleReply _, rfl, fun _ => ?_, fun _ => rfl⟩⟩
      obtain ⟨atyp, rest, hest, -⟩ := hest
      exact ⟨atyp, rest, hest⟩
  · have hno : ∀ node, e.answer .selectNode ≠ some (.ok node) := fun node h => hsel ⟨node, h⟩
    rw [serveRequest_unselected hp hq hno]
    refine ⟨fun _ => .inl hno, fun _ => ⟨simpleReply _, rfl, by rintro ⟨⟩, ?_⟩⟩
    rintro ⟨_, _, ⟨node, h, -⟩, -⟩
    exact absurd h (hno node)

theorem runWithCtx_eq {auth : Option (String × String)} {bs rest : Bytes} {q : Request} (hp : (e.peer .front).Accepts)
    (hop : Opening auth bs q) (hin : (e.peer .front).input = bs ++ rest) : (runWithCtx auth).run Env.serve e =
      (serveRequest q).run Env.serve (e.setPeer .front ((e.peer .front).after rest (openingReply auth))) := by
  refine Prog.run_bind_ok ?_
  rw [run_embed, (handshake_eq_ok hp).mpr ⟨bs, rest, hop, hin, rfl⟩]

/-- **When a CONNECT is answered as it should be**: exactly if no node is selected, or the selected node establishes the
connection, and sends one byte more if its reply carries a name. -/
theorem repliesOnce_iff {auth : Option (String × String)} {bs rest : Bytes} {q : Request}
    (hp : (e.peer .front).Accepts) (hop : Opening auth bs q) (hq : q.command = .connect)
    (hin : (e.peer .front).input = bs ++ rest) :
    RepliesOnce auth q.addr e ↔ (∀ node, e.answer .selectNode ≠ some (.ok node)) ∨
      ∃ atyp rest, Establishes e q.addr atyp rest ∧ (atyp = Atyp.domain → rest ≠ []) := by
  have hiff := serveRequest_repliesOnce_iff (e := e.setPeer .front ((e.peer .front).after rest (openingReply auth)))
    (by rw [Env.peer_setPeer]; exact hp) hq
  simp only [establishes_setPeer, Env.peer_setPeer, Peer.after_output, List.append_assoc] at hiff
  rw [RepliesOnce, runWithCtx_eq hp hop hin]
  exact hiff

end Owed

/-! ## Concrete sessions -/

/-- A client that asks for a CONNECT, and a node that is selected and then sends `bytes` if it can be reached. -/
def exampleEnv (reached : Except IoFault Unit) (bytes : Bytes) : Env Control.Ans where
  peer
    | .front => .sending exampleOpening ⟨.unexpectedEof, "early eof"⟩
    | .back => .sending bytes ⟨.unexpectedEof, "early eof"⟩
  answer
    | .selectNode => some (.ok ⟨"n1", "10.0.0.9:1080"⟩)
    | .connect _ => reached
  relayed := .ok (0, 0)

/-- A node that answers with success. -/
theorem repliesOnce_success :
    RepliesOnce none exampleRequest.addr (exampleEnv (.ok ()) ([5, 0] ++ replyBytes ReplyCode.success)) :=
  (repliesOnce_iff (Peer.accepts_sending _ _) opening_example rfl (List.append_nil _).symm).mpr
    (.inr ⟨Atyp.ipv4, [], ⟨⟨_, rfl, rfl⟩, rfl, rfl, 0, List.replicate 6 0, rfl, .inl ⟨rfl, rfl⟩⟩, by decide⟩)

/-- A node that refuses the connection: the client is sent nothing after the handshake. -/
theorem not_repliesOnce_refused :
    let e := exampleEnv (.error (.err ⟨.connectionRefused, "connection refused"⟩)) []
    (e.peer .front).Accepts ∧ Opening none exampleOpening exampleRequest ∧ exampleRequest.command = .connect ∧
      (e.peer .front).input = exampleOpening ∧
      (((runWithCtx none).run Env.serve e).2.peer .front).output = openingReply none ∧
      ¬ RepliesOnce none exampleRequest.addr e := by
  intro e
  have hout : (((runWithCtx none).run Env.serve e).2.peer .front).output = openingReply none := by decide +kernel
  refine ⟨Peer.accepts_sending _ _, opening_example, rfl, rfl, hout, ?_⟩
  rintro ⟨r, hr, -⟩
  rw [hout] at hr
  have hlen := congrArg List.length hr
  simp only [List.length_append, Reply.toBytes, Reply.frame, List.length_cons] at hlen
  omega

end RustProxy.Gateway
