import RustProxy.Lib.Cost
import RustProxy.Chain.Delivery

/-!
# Who may use the chain

The network of `Chain.Network`, with a client that sends anything at all: whatever the two handlers do, in whatever
order, and wherever they fail, the node dials nothing but the address of a CONNECT that the client has sent after the
greeting and the credentials that the gateway asks for; the target is sent nothing but what follows that request; and a
client that is told of success is told the truth (`Net.chain_authorised`).

A node has no credentials of its own, so that all this rests on what the gateway sends to it. `gateway_stages` lists
where a gateway can be, and what it has sent by then.
-/

namespace RustProxy.Chain

open Lib Protocol Proxy

/-! ## What the handshake can have written -/

section Handshake

variable {ε : Type} [SessionError ε]

/-- The bytes that an operation may write. -/
def writeSize : StreamOp → Nat
  | .read _ => 0
  | .write bs => bs.length

theorem length_put_le (fs : List StreamEvent) :
    (fs.flatMap StreamEvent.put).length ≤ (fs.map fun e => writeSize e.1).sum := by
  induction fs with
  | nil => exact le_rfl
  | cons e fs ih =>
    have hput : e.put.length ≤ writeSize e.1 := by
      obtain ⟨_ | bs, a⟩ := e
      · exact Nat.zero_le _
      · rcases a with f | ⟨⟩
        · exact Nat.zero_le _
        · exact le_rfl
    simp only [List.flatMap_cons, List.length_append, List.map_cons, List.sum_cons]
    omega

omit [SessionError ε] in
theorem writes_of_reads {α : Type} {p : Wire ε α} (h : p.Performs fun o => ∃ n, o = .read n) :
    p.Costs writeSize 0 :=
  h.costs (fun _ _ => trivial) (by rintro _ ⟨n, rfl⟩; rfl)

theorem writes_writeAllTimeout {data : Bytes} {n : Nat} (h : data.length = n) :
    (writeAllTimeout data : Wire ε _).Costs writeSize n :=
  h ▸ Prog.costs_op fun _ => Prog.costs_ofExcept _

theorem writes_handleUserPassAuth (auth : Option (String × String)) :
    (handleUserPassAuth auth : Wire ε _).Costs writeSize 2 := by
  have hread (n : Nat) : (readExactTimeout n : Wire ε _).Costs writeSize 0 :=
    writes_of_reads (performs_readExactTimeout n)
  refine Prog.Costs.mono (.bind (hread _) fun _ => .bind (Prog.costs_ofExcept _) fun _ => .bind (hread _) fun _ =>
    .bind (Prog.costs_ofExcept _) fun _ => .bind (hread _) fun _ => .bind (hread _) fun _ => .bind (hread _) fun _ =>
      .bind (Prog.costs_ofExcept _) fun _ => .bind (Prog.costs_ofExcept _) fun _ =>
        .bind (writes_writeAllTimeout (n := 2) rfl) fun _ => Prog.costs_ofExcept _) ?_
  exact le_rfl

/-- A handshake writes a method selection, and a verdict on the credentials. -/
theorem handshake_puts {auth : Option (String × String)} {fs : List StreamEvent} {p : Wire ε Request}
    (h : (handshake auth).Path fs p) : (fs.flatMap StreamEvent.put).length ≤ 4 := by
  have hauth (method : MethodSelection) : (authenticate auth method : Wire ε _).Costs writeSize 2 := by
    unfold authenticate
    split
    · exact writes_handleUserPassAuth auth
    · trivial
  have hcosts : (handshake auth : Wire ε _).Costs writeSize 4 := by
    refine Prog.Costs.mono (.bind (writes_of_reads performs_readGreeting) fun g =>
      .bind (writes_writeAllTimeout (n := 2) rfl) fun _ => .bind (Prog.costs_ofExcept _) fun _ =>
        .bind (hauth _) fun _ => writes_of_reads performs_readRequest) ?_
    exact le_rfl
  exact (length_put_le fs).trans (Prog.Costs.path h hcosts).1

end Handshake

/-! ## Where a gateway can be -/

section Gateway

variable {auth : Option (String × String)} {es : List (SessionEvent Gateway.Control.Ans)}
  {g : Gateway.Handler (UInt64 × UInt64)}

theorem refuse_stages {code : UInt8} {e : Gateway.GatewayError}
    (h : ((refuse code e).embed .front : Gateway.Handler (UInt64 × UInt64)).Path es g) :
    (∀ k, g ≠ .op .relay k) ∧ es.flatMap (SessionEvent.put .back) = [] ∧
      es.flatMap (SessionEvent.put .front) <+: replyBytes code := by
  obtain ⟨fs, p, rfl, hfs, rfl⟩ := h.embed_inv
  exact ⟨fun k => embed_ne_relay, by simp, by simpa using refuse_history hfs⟩

/-- The part of a gateway's history that follows the selection of a node. -/
theorem forward_stages {dest : SocksAddr} {node : Gateway.RemoteNode} (h : (Gateway.forward dest node).Path es g)
    (hok : ∀ e ∈ es, e.ok) : es.flatMap (SessionEvent.got .front) = [] ∧
      (((∀ k, g ≠ .op .relay k) ∧ es.flatMap (SessionEvent.put .front) = [] ∧
          es.flatMap (SessionEvent.put .back) <+: Gateway.chainBytes dest) ∨
        (accepted <+: es.flatMap (SessionEvent.got .back) ∧
          es.flatMap (SessionEvent.put .back) = Gateway.chainBytes dest)) := by
  rcases h.op_inv with ⟨rfl, rfl⟩ | ⟨a, es₁, rfl, h₁⟩
  · exact ⟨rfl, .inl ⟨by rintro _ ⟨⟩, rfl, List.nil_prefix⟩⟩
  rw [List.forall_mem_cons] at hok
  rcases a with (e | _) | ⟨⟩
  · obtain ⟨rfl, rfl⟩ := h₁.fail_inv
    exact ⟨rfl, .inl ⟨by rintro _ ⟨⟩, rfl, List.nil_prefix⟩⟩
  · obtain ⟨rfl, rfl⟩ := h₁.fail_inv
    exact ⟨rfl, .inl ⟨by rintro _ ⟨⟩, rfl, List.nil_prefix⟩⟩
  rcases h₁.embed_bind_inv with ⟨hs, p, rfl, hhs, hne, rfl⟩ | ⟨_, hs, es₂, rfl, hhs, h₂⟩
  · -- chaining
    have hput := chain_prefix_put hhs fun e he => hok.2 _ (List.mem_map_of_mem he)
    exact ⟨by simp, .inl ⟨fun k => embed_bind_ne_relay hne, by simp, by simpa using hput⟩⟩
  · rw [List.forall_mem_append] at hok
    obtain ⟨⟨rsv, atyp, addr, hgot, -⟩, hput⟩ := chain_history hhs fun e he => hok.2.1 _ (List.mem_map_of_mem he)
    rcases h₂.embed_bind_inv with ⟨ws, p, rfl, hws, hne, rfl⟩ | ⟨_, ws, es₃, rfl, hws, h₃⟩
    · -- the reply to the client
      have hnil := writeAllTimeout_unfinished hws (fun e he => hok.2.2 _ (List.mem_map_of_mem he)) hne
      subst hnil
      exact ⟨by simp, .inl ⟨fun k => embed_bind_ne_relay hne, by simp, by simp [hput]⟩⟩
    · -- the relay
      obtain ⟨hnil, -⟩ := writeAllTimeout_history hws fun e he =>
        hok.2.2 _ (List.mem_append_left _ (List.mem_map_of_mem he))
      have hrelay (s : Side) : es₃.flatMap (SessionEvent.got s) = [] ∧ es₃.flatMap (SessionEvent.put s) = [] := by
        rcases h₃.op_inv with ⟨rfl, -⟩ | ⟨a, es₄, rfl, h₄⟩
        · exact ⟨rfl, rfl⟩
        · rcases a with (e | _) | stats
          · rw [h₄.fail_inv.1]
            exact ⟨rfl, rfl⟩
          · rw [h₄.fail_inv.1]
            exact ⟨rfl, rfl⟩
          · rw [h₄.ret_inv.1]
            exact ⟨rfl, rfl⟩
      refine ⟨by simp [hnil, hrelay], .inr ⟨?_, by simp [hput, hrelay]⟩⟩
      simp [hgot, hrelay, accepted]

/-- Where a gateway can be, and what it has got and put by then. -/
inductive GatewayStage (auth : Option (String × String)) (es : List (SessionEvent Gateway.Control.Ans))
    (g : Gateway.Handler (UInt64 × UInt64)) : Prop
  /-- The handshake is not over. -/
  | opening : (∀ k, g ≠ .op .relay k) → es.flatMap (SessionEvent.put .back) = [] →
      (es.flatMap (SessionEvent.put .front)).length ≤ 4 → GatewayStage auth es g
  /-- The request is refused, or a node is selected for it. -/
  | asked {code : UInt8} : (∀ k, g ≠ .op .relay k) → es.flatMap (SessionEvent.put .back) = [] →
      code ≠ ReplyCode.success → es.flatMap (SessionEvent.put .front) <+: openingReply auth ++ replyBytes code →
      GatewayStage auth es g
  /-- The request is passed on to a node. -/
  | chaining {r : Request} : (∀ k, g ≠ .op .relay k) → Opening auth (es.flatMap (SessionEvent.got .front)) r →
      r.command = .connect → es.flatMap (SessionEvent.put .back) <+: Gateway.chainBytes r.addr →
      es.flatMap (SessionEvent.put .front) = openingReply auth → GatewayStage auth es g
  /-- The node has accepted, and the client been told. -/
  | chained {r : Request} : Opening auth (es.flatMap (SessionEvent.got .front)) r → r.command = .connect →
      es.flatMap (SessionEvent.put .back) = Gateway.chainBytes r.addr →
      accepted <+: es.flatMap (SessionEvent.got .back) → GatewayStage auth es g

/-- **The histories of a gateway.** -/
theorem gateway_stages (h : (Gateway.runWithCtx auth).Path es g) (hok : ∀ e ∈ es, e.ok) : GatewayStage auth es g := by
  rcases h.embed_bind_inv with ⟨fs, p, rfl, hfs, hne, rfl⟩ | ⟨r, fs, es₁, rfl, hfs, h₁⟩
  · exact .opening (fun k => embed_bind_ne_relay hne) (by simp) (by simpa using handshake_puts hfs)
  rw [List.forall_mem_append] at hok
  obtain ⟨hop, hput⟩ := handshake_history hfs fun e he => hok.1 _ (List.mem_map_of_mem he)
  unfold Gateway.serveRequest at h₁
  split at h₁
  · obtain ⟨hrelay, hback, hfront⟩ := refuse_stages h₁
    exact .asked hrelay (by simp [hback]) (by decide : ReplyCode.commandNotSupported ≠ _) (by simpa [hput] using hfront)
  · next hconnect =>
    rcases h₁.op_inv with ⟨rfl, rfl⟩ | ⟨a, es₂, rfl, h₂⟩
    · exact .asked (by rintro _ ⟨⟩) (by simp) (by decide : ReplyCode.hostUnreachable ≠ _) (by simp [hput])
    rw [List.forall_mem_cons] at hok
    rcases a with _ | e | node
    · obtain ⟨hrelay, hback, hfront⟩ := refuse_stages h₂
      exact .asked hrelay (by simp [hback]) (by decide : ReplyCode.hostUnreachable ≠ _) (by simpa [hput] using hfront)
    · obtain ⟨hrelay, hback, hfront⟩ := refuse_stages h₂
      exact .asked hrelay (by simp [hback]) (by decide : ReplyCode.hostUnreachable ≠ _) (by simpa [hput] using hfront)
    · obtain ⟨hnil, ⟨hrelay, hfront, hback⟩ | ⟨hgot, hback⟩⟩ := forward_stages h₂ hok.2.2
      · exact .chaining (r := r) hrelay (by simpa [hnil] using hop) (not_not.mp hconnect) (by simpa using hback)
          (by simp [hput, hfront])
      · exact .chained (r := r) (by simpa [hnil] using hop) (not_not.mp hconnect) (by simp [hback])
          (by simpa using hgot)

end Gateway

/-! ## What a node can have dialled -/

section Node

variable {es : List (SessionEvent Agent.Control.Ans)} {q : Agent.Handler (Option (UInt64 × UInt64))}

theorem refuse_got {ε α : Type} {code : UInt8} {e : ε} {fs : List StreamEvent} {p : Wire ε α}
    (h : (refuse code e).Path fs p) : fs.flatMap StreamEvent.got = [] := by
  rcases Prog.Path.op_inv h with ⟨rfl, -⟩ | ⟨a, _, rfl, h₁⟩
  · rfl
  · rw [h₁.fail_inv.1]
    rfl

/-- A node dials once at most, and after it has read a request for that address. -/
theorem node_dials (h : (Agent.runWithCtx none).Path es q) (hok : ∀ e ∈ es, e.ok) :
    (es.filterMap SessionEvent.ctl = [] ∧ ∀ k, q ≠ .op .relay k) ∨
      ∃ r : Request, Opening none (es.flatMap (SessionEvent.got .front)) r ∧ r.command = .connect ∧
        es.filterMap SessionEvent.ctl = [.dial r.addr.display] := by
  rcases h.embed_bind_inv with ⟨fs, p, rfl, hfs, hne, rfl⟩ | ⟨r, fs, es₁, rfl, hfs, h₁⟩
  · exact .inl ⟨by simp, fun k => embed_bind_ne_relay hne⟩
  rw [List.forall_mem_append] at hok
  obtain ⟨hop, -⟩ := handshake_history hfs fun e he => hok.1 _ (List.mem_map_of_mem he)
  unfold Agent.serveRequest at h₁
  split at h₁
  · obtain ⟨_, _, rfl, -, rfl⟩ := h₁.embed_inv
    exact .inl ⟨by simp, fun k => embed_ne_relay⟩
  next hconnect =>
  rcases h₁.op_inv with ⟨rfl, rfl⟩ | ⟨a, es₂, rfl, h₂⟩
  · exact .inl ⟨by simp, by rintro _ ⟨⟩⟩
  rw [List.forall_mem_cons] at hok
  -- the target has been dialled; nothing more is read, and nothing else is dialled
  have hquiet : es₂.flatMap (SessionEvent.got .front) = [] ∧ es₂.filterMap SessionEvent.ctl = [] := by
    rcases a with (e | _) | ⟨⟩
    · obtain ⟨_, _, rfl, hws, -⟩ := h₂.embed_inv
      exact ⟨by simpa using refuse_got hws, by simp⟩
    · obtain ⟨_, _, rfl, hws, -⟩ := h₂.embed_inv
      exact ⟨by simpa using refuse_got hws, by simp⟩
    · rcases h₂.embed_bind_inv with ⟨ws, p, rfl, hws, hne, -⟩ | ⟨_, ws, es₃, rfl, hws, h₃⟩
      · have hnil := writeAllTimeout_unfinished hws (fun e he => hok.2.2 _ (List.mem_map_of_mem he)) hne
        subst hnil
        exact ⟨rfl, rfl⟩
      · obtain ⟨hgot, -⟩ := writeAllTimeout_history hws fun e he =>
          hok.2.2 _ (List.mem_append_left _ (List.mem_map_of_mem he))
        rcases h₃.op_inv with ⟨rfl, -⟩ | ⟨a, es₄, rfl, h₄⟩
        · simp [hgot]
        · obtain rfl : es₄ = [] := by
            rcases a with e | stats
            · exact h₄.ret_inv.1
            · exact h₄.ret_inv.1
          simp [hgot]
  refine .inr ⟨r, by simpa [hquiet.1] using hop, not_not.mp hconnect, ?_⟩
  simp [hquiet.2]

end Node

/-! ## Authority -/

namespace Net

/-- The client has sent, after an opening that the gateway accepts, the CONNECT `r`; that is what the node has dialled,
and the target has been sent a part of what followed. -/
structure Authorised (auth : Option (String × String)) (s : Net) (r : Request) (opening rest : Bytes) : Prop where
  client : s.client = opening ++ rest
  opening : Opening auth opening r
  connect : r.command = .connect
  dialled : s.Dialled r.addr
  to_target : s.node.put .back <+: rest

section Authority

variable {auth : Option (String × String)} {client target : Bytes} {R : Prop} {s : Net}

/-- There is no opening without bytes. -/
theorem not_opening_nil {r : Request} : ¬ Opening none [] r := by
  intro h
  obtain ⟨-, hnil, -⟩ := h.unique opening_example (List.append_nil exampleOpening).symm
  cases hnil

/-- A node that has read an opening has read what the gateway sends for a request of the client. -/
theorem Inv.passed_on (h : s.Inv auth client target R) {ns : List (SessionEvent Agent.Control.Ans)}
    {q : Agent.Handler (Option (UInt64 × UInt64))} {nmoved : Side → Bytes}
    (hn : Party.History (Agent.runWithCtx none) s.node ns q nmoved) {r' : Request}
    (hop' : Opening none (ns.flatMap (SessionEvent.got .front)) r') :
    ∃ r opening rest, s.client = opening ++ rest ∧ Opening auth opening r ∧ r.command = .connect ∧
      r'.addr = r.addr ∧ nmoved .front <+: rest := by
  obtain ⟨gs, g, gmoved, hg, -⟩ := h.gateway_history
  have hgot : _ <+: gs.flatMap (SessionEvent.put .back) ++ gmoved .front :=
    ((hn.got .front).trans h.node_front).trans (hg.put .back)
  have hsilent (hrelay : ∀ k, g ≠ .op .relay k) (hput : gs.flatMap (SessionEvent.put .back) = []) : False := by
    rw [hput, hg.moved_eq_nil hrelay, List.append_nil, List.prefix_nil, List.append_eq_nil_iff] at hgot
    rw [hgot.1] at hop'
    exact not_opening_nil hop'
  -- the gateway has sent, or is sending, the CONNECT that it has read
  obtain ⟨r, hop, hconnect, hle⟩ : ∃ r : Request, Opening auth (gs.flatMap (SessionEvent.got .front)) r ∧
      r.command = .connect ∧
      ns.flatMap (SessionEvent.got .front) ++ nmoved .front <+: Gateway.chainBytes r.addr ++ gmoved .front := by
    cases gateway_stages hg.path hg.ok with
    | opening hrelay hput _ => exact (hsilent hrelay hput).elim
    | asked hrelay hput _ _ => exact (hsilent hrelay hput).elim
    | chaining hrelay hop hconnect hput _ =>
      rw [hg.moved_eq_nil hrelay, List.append_nil] at hgot
      exact ⟨_, hop, hconnect, (hgot.trans hput).trans (List.prefix_append _ _)⟩
    | chained hop hconnect hput _ => exact ⟨_, hop, hconnect, hput ▸ hgot⟩
  have hsend : r.addr.host.Sendable false := by
    obtain ⟨_, _, _, _, -, -, -, hframe⟩ := hop
    exact (Request.isFrame_iff.mp hframe).2
  obtain ⟨t, ht⟩ := hle
  rw [List.append_assoc] at ht
  obtain ⟨rfl, -, hmoved⟩ := hop'.unique (opening_chainBytes hsend) ht
  obtain ⟨rest, hrest⟩ := (hg.got .front).trans h.gateway_front
  refine ⟨r, _, gmoved .front ++ rest, ?_, hop, hconnect, rfl, ?_⟩
  · rw [← hrest, List.append_assoc]
  · rw [← hmoved, List.append_assoc]
    exact List.prefix_append _ _

/-- A client that is told of success has a node that has accepted. -/
theorem Inv.told (h : s.Inv auth client target R)
    (htold : openingReply auth ++ replyBytes ReplyCode.success <+: s.gateway.put .front) :
    s.node.ctls ≠ [] ∧ accepted <+: s.node.put .front := by
  obtain ⟨gs, g, gmoved, hg, -⟩ := h.gateway_history
  have hput : _ <+: gs.flatMap (SessionEvent.put .front) ++ gmoved .back := htold.trans (hg.put .front)
  have hlen := hput.length_le
  have hreply : (replyBytes ReplyCode.success).length = 10 := rfl
  cases gateway_stages hg.path hg.ok with
  | opening hrelay _ hfront =>
    rw [hg.moved_eq_nil hrelay] at hlen
    simp only [List.length_append, List.length_nil, hreply] at hlen
    omega
  | asked hrelay _ hcode hfront =>
    rw [hg.moved_eq_nil hrelay, List.append_nil] at hput
    obtain ⟨t, ht⟩ := (List.prefix_append_right_inj _).mp (hput.trans hfront)
    simp only [replyBytes_eq, List.cons_append, List.cons.injEq] at ht
    exact absurd ht.2.1.symm hcode
  | chaining hrelay _ _ _ hfront =>
    rw [hg.moved_eq_nil hrelay, hfront] at hlen
    simp only [List.length_append, List.length_nil, hreply] at hlen
    omega
  | chained _ _ _ hgot =>
    have hacc : accepted <+: s.node.put .front :=
      ((hgot.trans (List.prefix_append _ _)).trans (hg.got .back)).trans h.gateway_back
    refine ⟨?_, hacc⟩
    obtain ⟨ns, q, nmoved, hn⟩ := h.node_history
    rcases Chain.node_history hn.path hn.ok with ⟨hrelay, hno⟩ | ⟨r, -, hctls, -⟩
    · have hnput : accepted <+: ns.flatMap (SessionEvent.put .front) ++ nmoved .back := hacc.trans (hn.put .front)
      rw [hn.moved_eq_nil hrelay, List.append_nil] at hnput
      exact absurd hnput hno
    · rw [hn.ctls, hctls]
      exact List.cons_ne_nil _ _

/-- **Authority.** Whatever the client sends, and whatever fails: the node has dialled nothing and the target been sent
nothing, or the client has sent what the gateway asks for and then a CONNECT to the address that was dialled, and the
target has been sent a part of what followed. And where the client has been told of success, the node has dialled, and
has accepted. -/
theorem chain_authorised {acts : List Act} (hrun : Run Step (start auth client target) acts s) :
    ((s.node.ctls = [] ∧ s.node.put .back = []) ∨ ∃ r opening rest, s.Authorised auth r opening rest) ∧
      (openingReply auth ++ replyBytes ReplyCode.success <+: s.gateway.put .front →
        s.node.ctls ≠ [] ∧ accepted <+: s.node.put .front) := by
  have h := inv_run inv_start hrun
  refine ⟨?_, h.told⟩
  obtain ⟨ns, q, nmoved, hn⟩ := h.node_history
  have hput : s.node.put .back <+: nmoved .front := by
    have hback := hn.put .back
    rw [(node_back hn.path).2, List.nil_append] at hback
    exact hback
  rcases node_dials hn.path hn.ok with ⟨hctls, hrelay⟩ | ⟨r', hop', -, hctls⟩
  · refine .inl ⟨hn.ctls.trans hctls, ?_⟩
    rw [hn.moved_eq_nil hrelay, List.prefix_nil] at hput
    exact hput
  · obtain ⟨r, opening, rest, hclient, hop, hconnect, haddr, hmoved⟩ := h.passed_on hn hop'
    have hdialled : s.Dialled r.addr := dialled_of_ctls (by rw [hn.ctls, hctls, haddr])
    exact .inr ⟨r, opening, rest, hclient, hop, hconnect, hdialled, hput.trans hmoved⟩

end Authority

/-- A client that is told of success. -/
theorem chain_authorised_example : ∃ s : Net,
    Run Step (start none (exampleOpening ++ [1, 2, 3]) [9, 8]) exampleHandshake s ∧
      openingReply none ++ replyBytes ReplyCode.success <+: s.gateway.put .front ∧ accepted <+: s.node.put .front ∧
      ∃ r opening rest, s.Authorised none r opening rest := by
  have hrun : ((runActs exampleHandshake (start none (exampleOpening ++ [1, 2, 3]) [9, 8])).any fun s =>
      openingReply none ++ replyBytes ReplyCode.success <+: s.gateway.put .front) = true := by
    decide +kernel
  obtain ⟨s, hs, htold⟩ := (Option.any_eq_true _ _).mp hrun
  have htold := of_decide_eq_true htold
  obtain ⟨hauthority, htruth⟩ := chain_authorised (run_of_runActs hs)
  obtain ⟨hdialled, haccepted⟩ := htruth htold
  exact ⟨s, run_of_runActs hs, htold, haccepted, hauthority.resolve_left fun hno => hdialled hno.1⟩

end Net

end RustProxy.Chain
