import RustProxy.Lib.Interleave
import RustProxy.Protocol.AddressText
import RustProxy.Chain.Histories

/-!
# The chain from a client to its target

A gateway and the node it connects to, between a client and a target, joined by reliable byte channels. Bytes are
delivered in order, but at any time and in any portions, and the two handlers take their steps in any order; operations
may fail at any point.

Whatever the order, once the gateway relays, the node has dialled the address of the client's request, and the bytes
that reach the target and the client are those meant for them (`Net.transparency`). The handlers only meet in what the
one has sent and the other has got; so the result is that of the histories of each (`gateway_relays`, `node_history`),
and that frames are read in only one way (`Opening.unique`).
-/

namespace RustProxy.Chain

open Lib Protocol Proxy

inductive Channel
  | clientToGateway
  | gatewayToClient
  | gatewayToNode
  | nodeToGateway
  | nodeToTarget
  | targetToNode
  deriving DecidableEq, Repr

structure Net where
  /-- What the client sends. -/
  client : Bytes
  /-- What the target sends. -/
  target : Bytes
  gateway : Party Gateway.Control.Ans Gateway.GatewayError (UInt64 × UInt64)
  node : Party Agent.Control.Ans Agent.NodeError (Option (UInt64 × UInt64))
  /-- How many of the bytes sent have been delivered. -/
  arrived : Channel → Nat

/-- The operation opens the connection to a node. -/
def opensNode : Gateway.Control → Bool
  | .selectNode => false
  | .connect _ => true

namespace Net

def sent (s : Net) : Channel → Bytes
  | .clientToGateway => s.client
  | .gatewayToClient => s.gateway.put .front
  | .gatewayToNode => s.gateway.put .back
  | .nodeToGateway => s.node.put .front
  | .nodeToTarget => s.node.put .back
  | .targetToNode => s.target

def delivered (s : Net) (c : Channel) : Bytes := (s.sent c).take (s.arrived c)

theorem prefix_sent (s : Net) (c : Channel) : s.delivered c <+: s.sent c := List.take_prefix _ _

inductive Act
  | deliver (c : Channel) (n : Nat)
  | gateway (act : Party.Act Gateway.Control.Ans)
  | node (act : Party.Act Agent.Control.Ans)

/-- One step; a handler can only get what has been delivered to it, and the node's handler runs once the gateway has
dialled the node. -/
def exec (s : Net) : Act → Option Net
  | .deliver c n =>
    if s.arrived c + n ≤ (s.sent c).length then
      some { s with arrived := Function.update s.arrived c (s.arrived c + n) }
    else none
  | .gateway act => do
    let g ← s.gateway.exec act
    if g.got .front <+: s.delivered .clientToGateway ∧ g.got .back <+: s.delivered .nodeToGateway then
      some { s with gateway := g }
    else none
  | .node act => do
    let n ← s.node.exec act
    if s.gateway.ctls.any opensNode ∧ n.got .front <+: s.delivered .gatewayToNode ∧
        n.got .back <+: s.delivered .targetToNode then
      some { s with node := n }
    else none

def Step (s : Net) (act : Act) (s' : Net) : Prop := s.exec act = some s'

/-- Nothing has happened yet. The node runs without credentials, as `NodeServer::run` configures it. -/
def start (auth : Option (String × String)) (client target : Bytes) : Net where
  client := client
  target := target
  gateway := .start (Gateway.runWithCtx auth)
  node := .start (Agent.runWithCtx none)
  arrived _ := 0

/-- The session has reached the relay phase. -/
def Relaying (s : Net) : Prop := ∃ k, s.gateway.prog = .op .relay k

/-! ## What the handlers know of each other -/

/-- What one step can do. -/
theorem exec_cases {s s' : Net} {act : Act} (h : s.exec act = some s') :
    (∃ arrived, s' = { s with arrived := arrived }) ∨
    (∃ a g, s.gateway.exec a = some g ∧ g.got .front <+: s.client ∧ g.got .back <+: s.node.put .front ∧
      s' = { s with gateway := g }) ∨
    (∃ a n, s.node.exec a = some n ∧ n.got .front <+: s.gateway.put .back ∧ n.got .back <+: s.target ∧
      s' = { s with node := n }) := by
  cases act with
  | deliver c n =>
    simp only [exec] at h
    split at h
    · exact .inl ⟨_, (Option.some.inj h).symm⟩
    · cases h
  | gateway a =>
    obtain ⟨g, hg, h⟩ := Option.bind_eq_some_iff.mp h
    split at h
    · next hgot =>
      exact .inr (.inl ⟨a, g, hg, hgot.1.trans (s.prefix_sent _), hgot.2.trans (s.prefix_sent _),
        (Option.some.inj h).symm⟩)
    · cases h
  | node a =>
    obtain ⟨n, hn, h⟩ := Option.bind_eq_some_iff.mp h
    split at h
    · next hgot =>
      exact .inr (.inr ⟨a, n, hn, hgot.2.1.trans (s.prefix_sent _), hgot.2.2.trans (s.prefix_sent _),
        (Option.some.inj h).symm⟩)
    · cases h

/-- The handlers have their histories, and each has got a part of what the other has put; if `R`, the gateway has come
to its relay. -/
structure Inv (auth : Option (String × String)) (client target : Bytes) (R : Prop) (s : Net) : Prop where
  client_eq : s.client = client
  target_eq : s.target = target
  gateway_history : ∃ es q moved, Party.History (Gateway.runWithCtx auth) s.gateway es q moved ∧
    (R → ∃ k, q = .op .relay k)
  node_history : ∃ es q moved, Party.History (Agent.runWithCtx none) s.node es q moved
  gateway_front : s.gateway.got .front <+: s.client
  gateway_back : s.gateway.got .back <+: s.node.put .front
  node_front : s.node.got .front <+: s.gateway.put .back
  node_back : s.node.got .back <+: s.target

section Inv

variable {auth : Option (String × String)} {client target : Bytes} {R : Prop}

theorem inv_start : (start auth client target).Inv auth client target False where
  client_eq := rfl
  target_eq := rfl
  gateway_history := ⟨_, _, _, Party.history_start _, False.elim⟩
  node_history := ⟨_, _, _, Party.history_start _⟩
  gateway_front := List.nil_prefix
  gateway_back := List.nil_prefix
  node_front := List.nil_prefix
  node_back := List.nil_prefix

theorem inv_step {s s' : Net} {act : Act} (h : s.Inv auth client target R) (hstep : s.Step act s') :
    s'.Inv auth client target R := by
  rcases exec_cases hstep with ⟨arrived, rfl⟩ | ⟨a, g, hexec, hfront, hback, rfl⟩ | ⟨a, n, hexec, hfront, hback, rfl⟩
  · exact ⟨h.client_eq, h.target_eq, h.gateway_history, h.node_history, h.gateway_front, h.gateway_back, h.node_front,
      h.node_back⟩
  · obtain ⟨es, q, moved, hist, hR⟩ := h.gateway_history
    obtain ⟨es', q', moved', hist', hsame⟩ := Party.exec_history (brittle_gateway auth) hist hexec
    refine ⟨h.client_eq, h.target_eq, ⟨es', q', moved', hist', fun hr => ?_⟩, h.node_history, hfront, hback,
      h.node_front.trans (Party.put_prefix_exec hexec .back), h.node_back⟩
    obtain ⟨k, hk⟩ := hR hr
    exact ⟨k, (hsame k hk).2.trans hk⟩
  · obtain ⟨es, q, moved, hist⟩ := h.node_history
    obtain ⟨es', q', moved', hist', -⟩ := Party.exec_history (brittle_node none) hist hexec
    exact ⟨h.client_eq, h.target_eq, h.gateway_history, ⟨es', q', moved', hist'⟩, h.gateway_front,
      h.gateway_back.trans (Party.put_prefix_exec hexec .front), hfront, hback⟩

theorem inv_run {s s' : Net} {acts : List Act} (h : s.Inv auth client target R) (hrun : Run Step s acts s') :
    s'.Inv auth client target R :=
  hrun.inv (fun _ _ _ hs hstep => inv_step hs hstep) h

/-- A gateway that relays has come to its relay, and will have. -/
theorem Inv.relaying {s : Net} (h : s.Inv auth client target R) (hrelay : s.Relaying) :
    s.Inv auth client target True := by
  obtain ⟨k, hk⟩ := hrelay
  obtain ⟨es, q, moved, hist, -⟩ := h.gateway_history
  exact { h with gateway_history := ⟨es, q, moved, hist, fun _ => ⟨k, (hist.at_op hk).1⟩⟩ }

end Inv

/-! ## What has passed between them -/

/-- The histories `gs` and `ns` of a gateway that relays and of its node, as the frames that each has read and written,
and the bytes that their relays have moved. -/
structure Linked (auth : Option (String × String)) (opening : Bytes) (dest : SocksAddr) (s : Net)
    (gs : List (SessionEvent Gateway.Control.Ans)) (ns : List (SessionEvent Agent.Control.Ans))
    (gmoved nmoved : Side → Bytes) : Prop where
  gateway : ∃ k, Party.History (Gateway.runWithCtx auth) s.gateway gs (.op .relay k) gmoved
  node : ∃ q, Party.History (Agent.runWithCtx none) s.node ns q nmoved
  gateway_got_front : gs.flatMap (SessionEvent.got .front) = opening
  gateway_put_front : gs.flatMap (SessionEvent.put .front) = openingReply auth ++ replyBytes ReplyCode.success
  gateway_got_back : gs.flatMap (SessionEvent.got .back) = openingReply none ++ replyBytes ReplyCode.success
  gateway_put_back : gs.flatMap (SessionEvent.put .back) = Gateway.chainBytes dest
  node_got_front : ns.flatMap (SessionEvent.got .front) = Gateway.chainBytes dest
  node_put_front : ns.flatMap (SessionEvent.put .front) = openingReply none ++ replyBytes ReplyCode.success
  node_ctls : ns.filterMap SessionEvent.ctl = [.dial dest.display]

section Linked

variable {auth : Option (String × String)} {opening payload target : Bytes} {q : Request} {s : Net}

theorem Inv.linked (h : s.Inv auth (opening ++ payload) target True) (hop : Opening auth opening q) :
    ∃ gs ns gmoved nmoved, s.Linked auth opening q.addr gs ns gmoved nmoved := by
  obtain ⟨gs, _, gmoved, hg, hrelay⟩ := h.gateway_history
  obtain ⟨k, rfl⟩ := hrelay trivial
  obtain ⟨ns, qn, nmoved, hn⟩ := h.node_history
  obtain ⟨q', rsv, atyp, addr, hq', hop', hputF, hgotB, haddr, hputB⟩ := gateway_relays hg.path hg.ok
  -- the client's opening is the one that the gateway has read
  obtain ⟨t, ht⟩ := (hg.got .front).trans h.gateway_front
  rw [h.client_eq, List.append_assoc] at ht
  obtain ⟨rfl, hgotF, -⟩ := hop'.unique hop ht
  -- and the node's reply the one that the node has sent
  have hreply := ((hg.got .back).trans h.gateway_back).trans (hn.put .front)
  rw [hgotB] at hreply
  have hsend : q'.addr.host.Sendable false := by
    obtain ⟨_, _, _, _, -, -, -, hframe⟩ := hop
    exact (Request.isFrame_iff.mp hframe).2
  rcases Chain.node_history hn.path hn.ok with ⟨hno, hacc⟩ | ⟨r, hopn, hctl, hputn⟩
  · refine absurd ?_ hacc
    have hidle : nmoved .back = [] := by
      rcases hn.relaying with hidle | ⟨k', hk'⟩
      · exact (hidle .back).1
      · exact absurd hk' (hno k')
    rw [show Side.front.other = Side.back from rfl, hidle, List.append_nil] at hreply
    exact List.IsPrefix.trans ⟨[rsv, atyp] ++ addr ++ gmoved .back, by simp [accepted]⟩ hreply
  · rw [hputn] at hreply
    have hreq := (hn.got .front).trans (h.node_front.trans (hg.put .back))
    rw [hputB] at hreq
    obtain ⟨t', ht'⟩ := hreq
    rw [List.append_assoc] at ht'
    obtain ⟨rfl, hgotn, -⟩ := hopn.unique (opening_chainBytes hsend) ht'
    exact ⟨gs, ns, gmoved, nmoved, ⟨k, hg⟩, ⟨qn, hn⟩, hgotF, hputF, hgotB.trans (accepted_exact haddr hreply), hputB,
      hgotn, hputn, hctl⟩

variable {gs : List (SessionEvent Gateway.Control.Ans)} {ns : List (SessionEvent Agent.Control.Ans)}
variable {gmoved nmoved : Side → Bytes} {dest : SocksAddr}

/-- The payload goes through the gateway, and what has gone through it through the node. -/
theorem Linked.upstream (hl : s.Linked auth opening dest gs ns gmoved nmoved)
    (h : s.Inv auth (opening ++ payload) target True) :
    gmoved .front <+: payload ∧ nmoved .front <+: gmoved .front := by
  obtain ⟨k, hg⟩ := hl.gateway
  obtain ⟨qn, hn⟩ := hl.node
  have hclient := (hg.got .front).trans h.gateway_front
  rw [hl.gateway_got_front, h.client_eq, List.prefix_append_right_inj] at hclient
  have hreq := (hn.got .front).trans (h.node_front.trans (hg.put .back))
  rw [hl.node_got_front, hl.gateway_put_back, List.prefix_append_right_inj] at hreq
  exact ⟨hclient, hreq⟩

/-- And so do the bytes of the target, the other way. -/
theorem Linked.downstream (hl : s.Linked auth opening dest gs ns gmoved nmoved)
    (h : s.Inv auth (opening ++ payload) target True) : nmoved .back <+: target ∧ gmoved .back <+: nmoved .back := by
  obtain ⟨k, hg⟩ := hl.gateway
  obtain ⟨qn, hn⟩ := hl.node
  have htarget := (hn.got .back).trans h.node_back
  rw [(Chain.node_back hn.path).1, h.target_eq, List.nil_append] at htarget
  have hreply := (hg.got .back).trans (h.gateway_back.trans (hn.put .front))
  rw [hl.gateway_got_back, hl.node_put_front, List.prefix_append_right_inj] at hreply
  exact ⟨htarget, hreply⟩

end Linked

/-! ## Transparency -/

/-- The bytes on their way to the target, those that have been sent to it first. -/
def towardsTarget (s : Net) : Bytes :=
  s.node.put .back ++ (s.node.buf .front ++ ((s.gateway.put .back).drop (s.node.got .front).length ++
    (s.gateway.buf .front ++ s.client.drop (s.gateway.got .front).length)))

/-- The bytes on their way to the client. -/
def towardsClient (s : Net) : Bytes :=
  s.gateway.put .front ++ (s.gateway.buf .back ++ ((s.node.put .front).drop (s.gateway.got .back).length ++
    (s.node.buf .back ++ s.target.drop (s.node.got .back).length)))

/-- The node has dialled the address, under a text that names it, and nothing else. -/
def Dialled (s : Net) (a : SocksAddr) : Prop := s.node.ctls = [.dial a.display] ∧ a.NamedBy a.display

theorem dialled_of_ctls {s : Net} {a : SocksAddr} (h : s.node.ctls = [.dial a.display]) : s.Dialled a :=
  ⟨h, a.namedBy_display⟩

/-- What a session that relays owes to its ends. -/
structure Transparent (auth : Option (String × String)) (dest : SocksAddr) (payload target : Bytes) (s : Net) :
    Prop where
  dialled : s.Dialled dest
  to_target : s.delivered .nodeToTarget <+: payload
  to_client : s.delivered .gatewayToClient <+: openingReply auth ++ replyBytes ReplyCode.success ++ target
  /-- While both relays run, nothing is lost, and nothing of the handshakes is left. -/
  lossless : ∀ kg kn, s.gateway.prog = .op .relay kg → s.node.prog = .op .relay kn →
    s.towardsTarget = payload ∧ s.towardsClient = openingReply auth ++ replyBytes ReplyCode.success ++ target

section Transparent

variable {auth : Option (String × String)} {opening payload target : Bytes} {q : Request} {s : Net}

theorem Inv.transparent (h : s.Inv auth (opening ++ payload) target True) (hop : Opening auth opening q) :
    s.Transparent auth q.addr payload target := by
  obtain ⟨gs, ns, gmoved, nmoved, hl⟩ := h.linked hop
  obtain ⟨hgup, hnup⟩ := hl.upstream h
  obtain ⟨hndown, hgdown⟩ := hl.downstream h
  obtain ⟨k, hg⟩ := hl.gateway
  obtain ⟨qn, hn⟩ := hl.node
  have hnb := Chain.node_back hn.path
  refine ⟨dialled_of_ctls (hn.ctls.trans hl.node_ctls), ?_, ?_, ?_⟩
  · have hput := hn.put .back
    rw [hnb.2, List.nil_append] at hput
    exact (s.prefix_sent _).trans (hput.trans (hnup.trans hgup))
  · have hput := hg.put .front
    rw [hl.gateway_put_front] at hput
    refine (s.prefix_sent _).trans (hput.trans ?_)
    exact (List.prefix_append_right_inj _).mpr (hgdown.trans hndown)
  · intro kg kn hkg hkn
    obtain ⟨-, hggot, hgput⟩ := hg.at_op hkg
    obtain ⟨-, hngot, hnput⟩ := hn.at_op hkn
    have hnputB := hnput .back
    have hngotB := hngot .back
    rw [hnb.1] at hngotB
    rw [hnb.2] at hnputB
    exact ⟨relayed_twice h.client_eq h.gateway_front h.node_front (hl.gateway_got_front ▸ hggot .front)
        (hl.gateway_put_back ▸ hgput .back) (hl.node_got_front ▸ hngot .front) hnputB,
      relayed_twice (show s.target = [] ++ target from h.target_eq) h.node_back h.gateway_back hngotB
        (hl.node_put_front ▸ hnput .front) (hl.gateway_got_back ▸ hggot .back) (hl.gateway_put_front ▸ hgput .front)⟩

end Transparent

/-! ## A concrete session -/

/-- Steps one after the other. -/
def runActs : List Act → Net → Option Net
  | [], s => some s
  | act :: acts, s => (s.exec act).bind (runActs acts)

theorem run_of_runActs {acts : List Act} {s s' : Net} (h : runActs acts s = some s') : Run Step s acts s' := by
  induction acts generalizing s with
  | nil => cases h; exact .nil _
  | cons act acts ih =>
    obtain ⟨s₁, hexec, h⟩ := Option.bind_eq_some_iff.mp h
    exact .cons hexec (ih h)

/-- Whether the gateway relays. -/
def relays (s : Net) : Bool :=
  match s.gateway.prog with
  | .op .relay _ => true
  | _ => false

/-- Every handler finds the other side ready. -/
def exampleHandshake : List Act :=
  [.deliver .clientToGateway 16, .gateway (.read [5, 1]), .gateway (.read [0]), .gateway .write,
    .gateway (.read [5, 1, 0, 1]), .gateway (.read [10, 0, 0, 1, 0, 80]),
    .gateway (.answer fun | .selectNode => some (.ok ⟨"n1", "10.0.0.9:1080"⟩) | .connect _ => .ok ()),
    .gateway (.answer fun | .selectNode => none | .connect _ => .ok ()), .gateway .write,
    .deliver .gatewayToNode 3, .node (.read [5, 1]), .node (.read [0]), .node .write,
    .deliver .nodeToGateway 2, .gateway (.read [5, 0]), .gateway .write,
    .deliver .gatewayToNode 10, .node (.read [5, 1, 0, 1]), .node (.read [10, 0, 0, 1, 0, 80]),
    .node (.answer fun | .dial _ => .ok ()), .node .write,
    .deliver .nodeToGateway 10, .gateway (.read [5, 0, 0, 1]), .gateway (.read [0, 0, 0, 0, 0, 0]), .gateway .write]

end Net

end RustProxy.Chain
