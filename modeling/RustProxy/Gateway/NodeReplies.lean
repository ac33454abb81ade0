import RustProxy.Gateway.Replies

/-!
# What the gateway takes of a node's reply

`connect_and_chain` computes the length of the reply by hand. For a name it has read the length byte already and counts
it once more, so that it takes a byte of what the target sends, or waits for one (`takenAddr_iff`). It hands over the
stream right behind the reply exactly if the node reports an IP address (`hands_over_iff`).
-/

namespace RustProxy.Gateway

open Lib Protocol Proxy

/-- A node that is reached and answers with a selection, the reply and then `s` is chained to, and `s` is what is left
for the relay. -/
def HandsOver (nodeAddress : String) (dest : SocksAddr) (r : Reply) (s : Bytes) : Prop :=
  ∀ e : Env Control.Ans, e.answer (.connect nodeAddress) = .ok () → (e.peer .back).Accepts →
    (e.peer .back).input = [5, 0] ++ r.toBytes ++ s →
    ∃ e', (connectAndChain nodeAddress dest).run Env.serve e = (.ok (), e') ∧ (e'.peer .back).input = s

/-- An environment with such a node. -/
def replyingEnv (input : Bytes) : Env Control.Ans where
  peer _ := .sending input ⟨.unexpectedEof, "early eof"⟩
  answer
    | .selectNode => some (.ok ⟨"n1", "10.0.0.9:1080"⟩)
    | .connect _ => .ok ()
  relayed := .ok (0, 0)

/-- Of an IP address, the gateway takes what there is. -/
theorem takenAddr_ip {n : Nat} {atyp : UInt8} (hatyp : (atyp = Atyp.ipv4 ∧ n = 4) ∨ (atyp = Atyp.ipv6 ∧ n = 16))
    {o : Octets n} {port : UInt16} {s rest : Bytes} :
    (∃ addr, o.toList ++ [hiByte port, loByte port] ++ s = addr ++ rest ∧ TakenAddr atyp addr) ↔ s = rest := by
  have hlen : (o.toList ++ [hiByte port, loByte port]).length = n + 2 := by
    rw [List.length_append, o.toList_length]
    rfl
  have htaken (addr : Bytes) : TakenAddr atyp addr ↔ addr.length = n + 2 := by
    rcases hatyp with ⟨rfl, rfl⟩ | ⟨rfl, rfl⟩
    · exact ⟨by rintro (⟨-, h⟩ | ⟨⟨⟩, -⟩ | ⟨⟨⟩, -⟩); exact h, fun h => .inl ⟨rfl, h⟩⟩
    · exact ⟨by rintro (⟨⟨⟩, -⟩ | ⟨-, h⟩ | ⟨⟨⟩, -⟩); exact h, fun h => .inr (.inl ⟨rfl, h⟩)⟩
  constructor
  · rintro ⟨addr, heq, haddr⟩
    exact (List.append_inj heq (hlen.trans ((htaken addr).mp haddr).symm)).2
  · rintro rfl
    exact ⟨_, rfl, (htaken _).mpr hlen⟩

/-- Of a name, it takes one byte more than there are. -/
theorem takenAddr_name {name : String} (hname : (asBytes name).length ≤ 255) {port : UInt16} {s rest : Bytes} :
    (∃ addr, (Host.domain name).toVec ++ [hiByte port, loByte port] ++ s = addr ++ rest ∧
      TakenAddr Atyp.domain addr) ↔ ∃ b, s = b :: rest := by
  have hn := toNat_ofNat_length hname
  constructor
  · rintro ⟨_, heq, (⟨⟨⟩, -⟩ | ⟨⟨⟩, -⟩ | ⟨-, dlen, tail, rfl, htail⟩)⟩
    simp only [Host.toVec, List.cons_append, List.cons.injEq] at heq
    obtain ⟨rfl, heq⟩ := heq
    rw [hn] at htail
    -- the tail is the name, the port and one byte more
    have hsplit := (List.append_inj (heq.trans (by rw [← List.append_assoc, List.take_append_drop] :
      tail ++ rest = tail.take ((asBytes name).length + 2) ++ (tail.drop ((asBytes name).length + 2) ++ rest)))
      (by simp [htail])).2
    obtain ⟨b, hb⟩ := List.length_eq_one_iff.mp (by rw [List.length_drop, htail]; omega :
      (tail.drop ((asBytes name).length + 2)).length = 1)
    exact ⟨b, by rw [hsplit, hb]; rfl⟩
  · rintro ⟨b, rfl⟩
    refine ⟨UInt8.ofNat (asBytes name).length :: (asBytes name ++ [hiByte port, loByte port, b]),
      by simp [Host.toVec], .inr (.inr ⟨rfl, _, _, rfl, ?_⟩)⟩
    simp only [List.length_append, List.length_cons, List.length_nil, hn]
    omega

/-- How much of a reply and what follows it the gateway takes. -/
theorem takenAddr_iff {a : SocksAddr} (hs : a.host.Sendable true) {s rest : Bytes} :
    (∃ addr, a.toVec ++ s = addr ++ rest ∧ TakenAddr a.atyp addr) ↔
      match a.host with
      | .ip _ => s = rest
      | .domain _ => ∃ b, s = b :: rest := by
  obtain ⟨host, port⟩ := a
  rcases host with (o | o) | name
  · exact takenAddr_ip (.inl ⟨rfl, rfl⟩)
  · exact takenAddr_ip (.inr ⟨rfl, rfl⟩)
  · exact takenAddr_name hs.1

/-- Chaining to a node that answers with a success reply, and what it leaves. -/
theorem chain_reply_iff {dest : SocksAddr} {r : Reply} (hs : r.Sendable) (hcode : r.code = ReplyCode.success)
    {s rest : Bytes} {p : Peer} (hp : p.Accepts) (hin : p.input = [5, 0] ++ r.toBytes ++ s) :
    (∃ p', (chain dest).run Peer.serve p = (.ok (), p') ∧ p'.input = rest) ↔
      match r.bindAddr.host with
      | .ip _ => s = rest
      | .domain _ => ∃ b, s = b :: rest := by
  rw [← takenAddr_iff hs]
  simp only [chain_eq_ok, hp _, true_and]
  constructor
  · rintro ⟨_, ⟨rsv, atyp, addr, rest', hin', haddr, rfl⟩, rfl⟩
    rw [hin] at hin'
    simp only [Reply.toBytes, Reply.frame, List.cons_append, List.nil_append, List.cons.injEq, true_and] at hin'
    obtain ⟨-, -, rfl, heq⟩ := hin'
    exact ⟨addr, heq, haddr⟩
  · rintro ⟨addr, heq, haddr⟩
    refine ⟨_, ⟨0, r.bindAddr.atyp, addr, rest, ?_, haddr, rfl⟩, rfl⟩
    rw [hin, ← heq, ← hcode]
    rfl

/-- **The hand-over to the relay.** After a success reply, `connect_and_chain` succeeds and leaves exactly what follows
the reply if and only if the reply carries an IP address. -/
theorem hands_over_iff {r : Reply} (hs : r.Sendable) (hcode : r.code = ReplyCode.success) (nodeAddress : String)
    (dest : SocksAddr) (s : Bytes) : HandsOver nodeAddress dest r s ↔ ∃ addr, r.bindAddr.host = .ip addr := by
  constructor
  · intro h
    obtain ⟨e', hrun, hrest⟩ := h (replyingEnv ([5, 0] ++ r.toBytes ++ s)) rfl (Peer.accepts_sending _ _) rfl
    obtain ⟨-, p', hchain, rfl⟩ := connectAndChain_eq_ok.mp hrun
    rw [Env.peer_setPeer] at hrest
    have htaken := (chain_reply_iff hs hcode (Peer.accepts_sending _ _) rfl).mp ⟨p', hchain, hrest⟩
    cases hhost : r.bindAddr.host with
    | ip addr => exact ⟨addr, rfl⟩
    | domain name =>
      rw [hhost] at htaken
      obtain ⟨b, hb⟩ := htaken
      exact absurd (congrArg List.length hb) (by simp)
  · rintro ⟨addr, hhost⟩ e hconn hp hin
    have htaken : (∃ p', (chain dest).run Peer.serve (e.peer .back) = (.ok (), p') ∧ p'.input = s) ↔ _ :=
      chain_reply_iff hs hcode hp hin
    rw [hhost] at htaken
    obtain ⟨p', hchain, hrest⟩ := htaken.mpr rfl
    exact ⟨_, connectAndChain_eq_ok.mpr ⟨hconn, p', hchain, rfl⟩, by rwa [Env.peer_setPeer]⟩

/-- A node that reports 0.0.0.0:0, as those of this system do. -/
theorem hands_over_simple : (simpleReply ReplyCode.success).Sendable ∧
    HandsOver "10.0.0.9:1080" exampleRequest.addr (simpleReply ReplyCode.success) [72, 105] :=
  ⟨trivial, (hands_over_iff (r := simpleReply ReplyCode.success) trivial rfl _ _ _).mpr ⟨_, rfl⟩⟩

/-- A success reply that carries the name of the node. -/
def namedReply : Reply := ⟨ReplyCode.success, .domain "n1", 1080⟩

/-- The gateway chaining to a node that selects and then sends the bytes. -/
def chainedTo (bytes : Bytes) : Except GatewayError Unit × Env Control.Ans :=
  (connectAndChain "10.0.0.9:1080" exampleRequest.addr).run Env.serve (replyingEnv ([5, 0] ++ bytes))

/-- The first byte that the target sends is lost, and if it sends none the gateway gives up. -/
theorem named_reply_overread :
    namedReply.Sendable ∧ namedReply.code = ReplyCode.success ∧
      (chainedTo (namedReply.toBytes ++ [72, 105])).1 = .ok () ∧
      ((chainedTo (namedReply.toBytes ++ [72, 105])).2.peer .back).input = [105] ∧
      (chainedTo namedReply.toBytes).1 = .error (.io ⟨.unexpectedEof, "early eof"⟩) ∧
      ¬ HandsOver "10.0.0.9:1080" exampleRequest.addr namedReply [72, 105] := by
  have hleft : ((chainedTo (namedReply.toBytes ++ [72, 105])).2.peer .back).input = [105] := by decide +kernel
  refine ⟨⟨by decide +kernel, by rintro ⟨⟩⟩, rfl, by decide +kernel, hleft, by decide +kernel, fun h => ?_⟩
  obtain ⟨e', hrun, hrest⟩ := h (replyingEnv ([5, 0] ++ (namedReply.toBytes ++ [72, 105]))) rfl
    (Peer.accepts_sending _ _) rfl
  rw [chainedTo, hrun, hrest] at hleft
  cases hleft

end RustProxy.Gateway
