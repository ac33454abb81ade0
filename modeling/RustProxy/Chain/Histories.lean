import RustProxy.Agent.Handler
import RustProxy.Gateway.Handler

/-!
# What the handlers have done when

The histories of the two handlers as parties to a network. A gateway that relays has read an opening and a success reply
of the node, and has sent the opening's answers and a success reply to the client and a CONNECT for the same address to
the node (`gateway_relays`). A node that has sent a success reply, or that relays, has read an opening and dialled its
address (`node_history`).
-/

namespace RustProxy.Chain

open Lib Protocol Proxy

/-! ## Failures end the sessions -/

theorem brittle_forward (addr : SocksAddr) (node : Gateway.RemoteNode) : (Gateway.forward addr node).Brittle := by
  refine brittle_ctl fun a => ?_
  rcases a with (e | _) | ⟨⟩
  · trivial
  · trivial
  · refine (Gateway.strict_chain addr).brittle_bind fun _ => (strict_writeAllTimeout _).brittle_bind fun _ =>
      brittle_relay fun a => ?_
    rcases a with (e | _) | stats <;> trivial

theorem brittle_gateway (auth : Option (String × String)) : (Gateway.runWithCtx auth).Brittle := by
  refine (strict_handshake auth).brittle_bind fun q => ?_
  unfold Gateway.serveRequest
  split
  · exact (strict_refuse _ _).brittle
  · refine brittle_ctl fun a => ?_
    rcases a with _ | e | node
    · exact (strict_refuse _ _).brittle
    · exact (strict_refuse _ _).brittle
    · exact brittle_forward _ _

theorem brittle_node (auth : Option (String × String)) : (Agent.runWithCtx auth).Brittle := by
  refine (strict_handshake auth).brittle_bind fun q => ?_
  unfold Agent.serveRequest
  split
  · exact (strict_refuse _ _).brittle
  · refine brittle_ctl fun a => ?_
    rcases a with (e | _) | ⟨⟩
    · exact (strict_refuse _ _).brittle
    · exact (strict_refuse _ _).brittle
    · refine (strict_writeAllTimeout _).brittle_bind fun _ => brittle_relay fun a => ?_
      rcases a with e | stats <;> trivial

/-! ## Complete parts -/

section Complete

variable {fs : List StreamEvent}

theorem handshake_history {ε : Type} [SessionError ε] {auth : Option (String × String)} {q : Request}
    (h : (handshake auth : Wire ε _).Path fs (.ret q)) (hok : ∀ e ∈ fs, e.ok) :
    Opening auth (fs.flatMap StreamEvent.got) q ∧ fs.flatMap StreamEvent.put = openingReply auth := by
  have hrun := h.run_ret hok ⟨.other, ""⟩
  obtain ⟨bs, rest, hop, hin, hafter⟩ := (handshake_eq_ok (Peer.accepts_sending _ _)).mp hrun
  obtain rfl : [] = rest := congrArg Peer.input hafter
  refine ⟨?_, congrArg Peer.output hafter⟩
  rw [show fs.flatMap StreamEvent.got = bs from hin.trans (List.append_nil bs)]
  exact hop

theorem chain_history {dest : SocksAddr} (h : (Gateway.chain dest).Path fs (.ret ())) (hok : ∀ e ∈ fs, e.ok) :
    (∃ rsv atyp addr, fs.flatMap StreamEvent.got =
        [version, Method.noAuth] ++ ([version, ReplyCode.success, rsv, atyp] ++ addr) ∧ Gateway.TakenAddr atyp addr) ∧
      fs.flatMap StreamEvent.put = Gateway.chainBytes dest := by
  have hrun := h.run_ret hok ⟨.other, ""⟩
  obtain ⟨-, -, rsv, atyp, addr, rest, hin, haddr, hafter⟩ := Gateway.chain_eq_ok.mp hrun
  obtain rfl : [] = rest := congrArg Peer.input hafter
  rw [List.append_nil] at hin
  exact ⟨⟨rsv, atyp, addr, hin, haddr⟩, congrArg Peer.output hafter⟩

theorem writeAllTimeout_history {ε : Type} [SessionError ε] {data : Bytes} {u : Unit}
    (h : (writeAllTimeout data : Wire ε _).Path fs (.ret u)) (hok : ∀ e ∈ fs, e.ok) :
    fs.flatMap StreamEvent.got = [] ∧ fs.flatMap StreamEvent.put = data := by
  have hrun := h.run_ret hok ⟨.other, ""⟩
  obtain ⟨-, hafter⟩ := writeAllTimeout_eq_ok.mp hrun
  exact ⟨(congrArg Peer.input hafter).symm, congrArg Peer.output hafter⟩

end Complete

/-! ## A gateway that relays -/

section Gateway

variable {auth : Option (String × String)} {es : List (SessionEvent Gateway.Control.Ans)}

theorem forward_path_relay {addr : SocksAddr} {node : Gateway.RemoteNode}
    {k : SessionOp.relay.Ans Gateway.Control.Ans → Gateway.Handler (UInt64 × UInt64)}
    (h : (Gateway.forward addr node).Path es (.op .relay k)) :
    ∃ hs ws : List StreamEvent, (Gateway.chain addr).Path hs (.ret ()) ∧
      (writeAllTimeout (replyBytes ReplyCode.success) : Wire Gateway.GatewayError _).Path ws (.ret ()) ∧
      es = ⟨.ctl (.connect node.forwardAddress), .ok ()⟩ ::
        (hs.map (StreamEvent.on _ .back) ++ ws.map (StreamEvent.on _ .front)) := by
  rcases h.op_inv with ⟨-, ⟨⟩⟩ | ⟨a, es₁, rfl, h₁⟩
  rcases a with (e | _) | ⟨⟩
  · cases h₁.fail_inv.2
  · cases h₁.fail_inv.2
  · rcases h₁.embed_bind_inv with ⟨_, _, -, -, hne, heq⟩ | ⟨_, hs, es₂, rfl, hhs, h₂⟩
    · exact absurd heq.symm (embed_bind_ne_relay hne)
    · rcases h₂.embed_bind_inv with ⟨_, _, -, -, hne, heq⟩ | ⟨_, ws, es₃, rfl, hws, h₃⟩
      · exact absurd heq.symm (embed_bind_ne_relay hne)
      · rcases h₃.op_inv with ⟨rfl, -⟩ | ⟨a, es₄, rfl, h₄⟩
        · exact ⟨hs, ws, hhs, hws, by rw [List.append_nil]⟩
        · rcases a with (e | _) | stats
          · cases h₄.fail_inv.2
          · cases h₄.fail_inv.2
          · cases h₄.ret_inv.2

theorem gateway_path_relay {k : SessionOp.relay.Ans Gateway.Control.Ans → Gateway.Handler (UInt64 × UInt64)}
    (h : (Gateway.runWithCtx auth).Path es (.op .relay k)) :
    ∃ (q : Request) (node : Gateway.RemoteNode) (fs hs ws : List StreamEvent), q.command = .connect ∧
      (handshake auth : Wire Gateway.GatewayError _).Path fs (.ret q) ∧ (Gateway.chain q.addr).Path hs (.ret ()) ∧
      (writeAllTimeout (replyBytes ReplyCode.success) : Wire Gateway.GatewayError _).Path ws (.ret ()) ∧
      es = fs.map (StreamEvent.on _ .front) ++ (⟨.ctl .selectNode, some (.ok node)⟩ ::
        ⟨.ctl (.connect node.forwardAddress), .ok ()⟩ ::
          (hs.map (StreamEvent.on _ .back) ++ ws.map (StreamEvent.on _ .front))) := by
  rcases h.embed_bind_inv with ⟨_, _, -, -, hne, heq⟩ | ⟨q, fs, es₁, rfl, hfs, h₁⟩
  · exact absurd heq.symm (embed_bind_ne_relay hne)
  · unfold Gateway.serveRequest at h₁
    split at h₁
    · obtain ⟨_, _, -, -, heq⟩ := h₁.embed_inv
      exact absurd heq.symm embed_ne_relay
    · next hq =>
      rcases h₁.op_inv with ⟨-, ⟨⟩⟩ | ⟨a, es₂, rfl, h₂⟩
      rcases a with _ | e | node
      · obtain ⟨_, _, -, -, heq⟩ := h₂.embed_inv
        exact absurd heq.symm embed_ne_relay
      · obtain ⟨_, _, -, -, heq⟩ := h₂.embed_inv
        exact absurd heq.symm embed_ne_relay
      · obtain ⟨hs, ws, hhs, hws, rfl⟩ := forward_path_relay h₂
        exact ⟨q, node, fs, hs, ws, not_not.mp hq, hfs, hhs, hws, rfl⟩

/-- What a gateway that relays has got and put. -/
theorem gateway_relays {k : SessionOp.relay.Ans Gateway.Control.Ans → Gateway.Handler (UInt64 × UInt64)}
    (h : (Gateway.runWithCtx auth).Path es (.op .relay k)) (hok : ∀ e ∈ es, e.ok) :
    ∃ q rsv atyp addr, q.command = .connect ∧ Opening auth (es.flatMap (SessionEvent.got .front)) q ∧
      es.flatMap (SessionEvent.put .front) = openingReply auth ++ replyBytes ReplyCode.success ∧
      es.flatMap (SessionEvent.got .back) =
        [version, Method.noAuth] ++ ([version, ReplyCode.success, rsv, atyp] ++ addr) ∧
      Gateway.TakenAddr atyp addr ∧ es.flatMap (SessionEvent.put .back) = Gateway.chainBytes q.addr := by
  obtain ⟨q, node, fs, hs, ws, hq, hfs, hhs, hws, rfl⟩ := gateway_path_relay h
  simp only [List.mem_append, List.mem_cons, List.mem_map, or_imp, forall_and, forall_exists_index, and_imp,
    forall_apply_eq_imp_iff₂, ok_on] at hok
  obtain ⟨hokf, -, -, hokh, hokw⟩ := hok
  obtain ⟨hop, hput⟩ := handshake_history hfs hokf
  obtain ⟨⟨rsv, atyp, addr, hgot, haddr⟩, hchain⟩ := chain_history hhs hokh
  obtain ⟨hnil, hreply⟩ := writeAllTimeout_history hws hokw
  refine ⟨q, rsv, atyp, addr, hq, ?_, ?_, ?_, haddr, ?_⟩
  · simpa [hnil] using hop
  · simp [hput, hreply]
  · simp [hgot]
  · simp [hchain]

end Gateway

/-! ## A node without credentials -/

section Partial

variable {ε α : Type} {fs : List StreamEvent}

theorem refuse_history {code : UInt8} {e : ε} {p' : Wire ε α} (h : (refuse code e).Path fs p') :
    fs.flatMap StreamEvent.put <+: replyBytes code := by
  rcases Prog.Path.op_inv h with ⟨rfl, -⟩ | ⟨a, _, rfl, h₁⟩
  · exact List.nil_prefix
  · obtain ⟨rfl, -⟩ := h₁.fail_inv
    rcases a with f | ⟨⟩
    · exact List.nil_prefix
    · exact ⟨[], by simp [StreamEvent.put]⟩

variable [SessionError ε]

theorem writeAllTimeout_unfinished {data : Bytes} {p' : Wire ε Unit} (h : (writeAllTimeout data).Path fs p')
    (hok : ∀ e ∈ fs, e.ok) (hne : ∀ u, p' ≠ .ret u) : fs = [] := by
  rcases h.op_inv with ⟨rfl, -⟩ | ⟨a, _, rfl, h₁⟩
  · rfl
  · rcases a with f | ⟨⟩
    · cases hok _ List.mem_cons_self
    · exact absurd h₁.ret_inv.2 (hne _)

theorem authenticate_none (g : Greeting) {auth : Option (String × String)} (hauth : auth = none) :
    (authenticate auth (negotiate g auth.isSome auth.isNone) : Wire ε _) = .ret () := by
  subst hauth
  refine if_neg ?_
  rw [negotiate_eq]
  split
  · exact (by decide : Method.noAuth ≠ Method.userPass)
  · exact (by decide : Method.noAcceptable ≠ Method.userPass)

/-- Without credentials the handshake writes no more than the method selection. -/
theorem handshake_put_le {p' : Wire ε Request} (h : (handshake none).Path fs p') :
    (fs.flatMap StreamEvent.put).length ≤ 2 := by
  rcases Prog.Path.bind_inv h with ⟨_, h₁, -, rfl⟩ | ⟨g, fs₁, fs₂, rfl, h₁, h₂⟩
  · rw [h₁.put_eq_nil performs_readGreeting]
    exact Nat.zero_le _
  · rw [List.flatMap_append, h₁.put_eq_nil performs_readGreeting, List.nil_append]
    rcases h₂.op_inv with ⟨rfl, -⟩ | ⟨a, fs₃, rfl, h₃⟩
    · exact Nat.zero_le _
    · have hnil : fs₃.flatMap StreamEvent.put = [] := by
        refine h₃.put_eq_nil (.bind (Prog.respects_ofExcept _) fun _ => .bind (Prog.respects_ofExcept _) fun _ => ?_)
        exact .bind (by rw [authenticate_none g rfl]; trivial) fun _ => performs_readRequest
      rw [List.flatMap_cons, hnil]
      rcases a with f | ⟨⟩
      · exact Nat.zero_le _
      · exact le_rfl

end Partial

section Node

variable {es : List (SessionEvent Agent.Control.Ans)} {q : Agent.Handler (Option (UInt64 × UInt64))}

/-- Before it relays, a node has nothing to do with the target's stream. -/
theorem node_back (h : (Agent.runWithCtx none).Path es q) :
    es.flatMap (SessionEvent.got .back) = [] ∧ es.flatMap (SessionEvent.put .back) = [] := by
  have hio {α : Type} (p : Wire Agent.NodeError α) :
      (p.embed .front : Agent.Handler α).Performs fun i => ∀ o, i ≠ .io .back o :=
    (performs_embed .front p).mono (by rintro _ ⟨o, rfl⟩ _ ⟨⟩) fun _ _ h => h
  refine h.unused (.bind (hio _) fun r => ?_)
  unfold Agent.serveRequest
  split
  · exact hio _
  · refine ⟨by rintro _ ⟨⟩, fun a _ => ?_⟩
    rcases a with (e | _) | ⟨⟩
    · exact hio _
    · exact hio _
    · refine .bind (hio _) fun _ => ⟨by rintro _ ⟨⟩, fun a _ => ?_⟩
      rcases a with e | stats <;> trivial

theorem dialFailureCode_ne (e : IoError) : Agent.dialFailureCode e ≠ ReplyCode.success := by
  unfold Agent.dialFailureCode
  split <;> decide

/-- After the handshake: no success reply and no relay, or the address of the request has been dialled, and a success
reply sent. -/
theorem serveRequest_history {r : Request} (h : (Agent.serveRequest r).Path es q) (hok : ∀ e ∈ es, e.ok) :
    ((∀ k, q ≠ .op .relay k) ∧
        ∃ code ≠ ReplyCode.success, es.flatMap (SessionEvent.put .front) <+: replyBytes code) ∨
      (es.filterMap SessionEvent.ctl = [.dial r.addr.display] ∧ es.flatMap (SessionEvent.got .front) = [] ∧
        es.flatMap (SessionEvent.put .front) = replyBytes ReplyCode.success) := by
  have hrefuse {code : UInt8} {e : Agent.NodeError} {es₁ : List (SessionEvent Agent.Control.Ans)}
      (h₁ : ((refuse code e).embed .front : Agent.Handler (Option (UInt64 × UInt64))).Path es₁ q) :
      (∀ k, q ≠ .op .relay k) ∧ es₁.flatMap (SessionEvent.put .front) <+: replyBytes code := by
    obtain ⟨fs, p', rfl, hfs, rfl⟩ := h₁.embed_inv
    rw [flatMap_put_on, if_pos rfl]
    exact ⟨fun k => embed_ne_relay, refuse_history hfs⟩
  unfold Agent.serveRequest at h
  split at h
  · obtain ⟨hrelay, hput⟩ := hrefuse h
    exact .inl ⟨hrelay, _, by decide, hput⟩
  · rcases h.op_inv with ⟨rfl, rfl⟩ | ⟨a, es₁, rfl, h₁⟩
    · exact .inl ⟨by rintro _ ⟨⟩, ReplyCode.ttlExpired, by decide, List.nil_prefix⟩
    · rcases a with (e | _) | ⟨⟩
      · obtain ⟨hrelay, hput⟩ := hrefuse h₁
        exact .inl ⟨hrelay, _, dialFailureCode_ne e, hput⟩
      · obtain ⟨hrelay, hput⟩ := hrefuse h₁
        exact .inl ⟨hrelay, _, by decide, hput⟩
      · rw [List.forall_mem_cons] at hok
        rcases h₁.embed_bind_inv with ⟨fs, p', rfl, hfs, hne, rfl⟩ | ⟨_, ws, es₂, rfl, hws, h₂⟩
        · have hnil := writeAllTimeout_unfinished hfs (fun e he => hok.2 _ (List.mem_map_of_mem he)) hne
          subst hnil
          exact .inl ⟨fun k => embed_bind_ne_relay hne, ReplyCode.ttlExpired, by decide, List.nil_prefix⟩
        · obtain ⟨hgot, hput⟩ := writeAllTimeout_history hws fun e he =>
            hok.2 _ (List.mem_append_left _ (List.mem_map_of_mem he))
          refine .inr ?_
          rcases h₂.op_inv with ⟨rfl, -⟩ | ⟨a, es₃, rfl, h₃⟩
          · simp [hgot, hput]
          · obtain rfl : es₃ = [] := by
              rcases a with e | stats
              · exact h₃.ret_inv.1
              · exact h₃.ret_inv.1
            simp [hgot, hput]

/-- The beginning of what a node writes to accept a CONNECT. -/
def accepted : Bytes := [version, Method.noAuth, version, ReplyCode.success]

theorem not_accepted_of_refused {code : UInt8} {bs : Bytes} (hcode : code ≠ ReplyCode.success)
    (h : bs <+: replyBytes code) : ¬ accepted <+: openingReply none ++ bs := by
  intro hacc
  have hbs : [version, ReplyCode.success] <+: bs := (List.prefix_append_right_inj [version, Method.noAuth]).mp hacc
  obtain ⟨t, ht⟩ := hbs.trans h
  simp only [replyBytes_eq, List.cons_append, List.cons.injEq] at ht
  exact hcode ht.2.1.symm

/-- **The histories of a node.** It has not accepted, and does not relay, or it has read an opening, has dialled the
address of its request and no other, and has accepted. -/
theorem node_history (h : (Agent.runWithCtx none).Path es q) (hok : ∀ e ∈ es, e.ok) :
    ((∀ k, q ≠ .op .relay k) ∧ ¬ accepted <+: es.flatMap (SessionEvent.put .front)) ∨
      ∃ r : Request, Opening none (es.flatMap (SessionEvent.got .front)) r ∧
        es.filterMap SessionEvent.ctl = [.dial r.addr.display] ∧
        es.flatMap (SessionEvent.put .front) = openingReply none ++ replyBytes ReplyCode.success := by
  rcases h.embed_bind_inv with ⟨fs, p', rfl, hfs, hne, rfl⟩ | ⟨r, fs, es₁, rfl, hfs, h₁⟩
  · refine .inl ⟨fun k => embed_bind_ne_relay hne, fun hacc => ?_⟩
    rw [flatMap_put_on, if_pos rfl] at hacc
    exact absurd (hacc.length_le.trans (handshake_put_le hfs)) (by decide)
  · rw [List.forall_mem_append] at hok
    obtain ⟨hop, hput⟩ := handshake_history hfs fun e he => hok.1 _ (List.mem_map_of_mem he)
    simp only [List.flatMap_append, List.filterMap_append, flatMap_put_on, flatMap_got_on, filterMap_ctl_on, if_true,
      List.nil_append, hput]
    rcases serveRequest_history h₁ hok.2 with ⟨hrelay, code, hcode, hpre⟩ | ⟨hctl, hgot, hreply⟩
    · exact .inl ⟨hrelay, not_accepted_of_refused hcode hpre⟩
    · exact .inr ⟨r, by rw [hgot, List.append_nil]; exact hop, hctl, by rw [hreply]⟩

end Node

/-- A gateway takes the success reply of a node for what it is, and nothing of what follows. -/
theorem accepted_exact {rsv atyp : UInt8} {addr g n : Bytes} (haddr : Gateway.TakenAddr atyp addr)
    (h : [version, Method.noAuth] ++ ([version, ReplyCode.success, rsv, atyp] ++ addr) ++ g <+:
      openingReply none ++ replyBytes ReplyCode.success ++ n) :
    [version, Method.noAuth] ++ ([version, ReplyCode.success, rsv, atyp] ++ addr) =
      openingReply none ++ replyBytes ReplyCode.success := by
  obtain ⟨t, ht⟩ := h
  simp only [openingReply, selectedMethod, authVerdict, MethodSelection.toBytes, MethodSelection.noAuth, replyBytes_eq,
    List.cons_append, List.nil_append, List.append_assoc, List.cons.injEq, true_and] at ht
  obtain ⟨rfl, rfl, hrest⟩ := ht
  rcases haddr with ⟨-, hlen⟩ | ⟨h, -⟩ | ⟨h, -⟩
  · have hsplit : addr ++ (g ++ t) = [0, 0, 0, 0, hiByte 0, loByte 0] ++ n := hrest
    rw [(List.append_inj hsplit hlen).1]
    rfl
  · cases h
  · cases h

/-- What the gateway sends to a node is an opening. -/
theorem opening_chainBytes {dest : SocksAddr} (hs : dest.host.Sendable false) :
    Opening none (Gateway.chainBytes dest) ⟨.connect, dest⟩ :=
  ⟨⟨[Method.noAuth]⟩, [version, 1, 0], [], _, rfl, Greeting.isFrame_iff.mpr ⟨rfl, by decide, by decide⟩,
    ⟨List.mem_singleton_self _, rfl⟩, Request.isFrame_iff.mpr ⟨⟨0, rfl⟩, hs⟩⟩

end RustProxy.Chain
