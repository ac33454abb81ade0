import RustProxy.Lib.Benign
import RustProxy.Lib.Cost
import RustProxy.Chain.Network
import RustProxy.Chain.Deadlines

/-!
# The chain delivers

What `Net.transparency` says of the bytes that get through holds of a chain that delivers nothing, too. Here nothing
fails: reads and writes succeed, the control plane names a node, and the node and the target can be dialled. Then,
whatever the order of the steps, the handlers are never both waiting for each other, and their steps and the deliveries
come to an end; and when they do, the target has got the payload of the client, and the client the bytes of the target
(`chain_delivers`).

The handlers wait for each other in two places. The gateway has sent all that the node reads before each of its writes,
and the node all that the gateway reads before each of its own (`chain_puts`, `handshake_at_read`).
-/

namespace RustProxy.Chain

open Lib Protocol Proxy

/-! ## The gateway and the node it connects to -/

section Chaining

variable {fs : List StreamEvent} {dest : SocksAddr} {p : Wire Gateway.GatewayError Unit}

theorem performs_readNodeReply : Gateway.readNodeReply.Performs fun o => ∃ n, o = .read n := by
  have hread (n : Nat) : (readExactTimeout n : Wire Gateway.GatewayError _).Performs fun o => ∃ n, o = .read n :=
    Prog.respects_opExcept ⟨n, rfl⟩
  have haddr (atyp : UInt8) : (Gateway.nodeAddrLen atyp).Performs fun o => ∃ n, o = .read n := by
    unfold Gateway.nodeAddrLen
    split_ifs
    · trivial
    · trivial
    · exact .bind (hread 1) fun _ => trivial
    · trivial
  exact .bind (hread 4) fun _ => .bind (Prog.respects_ofExcept _) fun _ =>
    .bind (.bind (haddr _) fun _ => .bind (hread _) fun _ => trivial) fun _ => Prog.respects_ofExcept _

/-- What has been sent to the node: the greeting at most, and where something is read then, all of the greeting; or the
request as well. -/
theorem chain_puts (h : (Gateway.chain dest).Path fs p) (hok : ∀ e ∈ fs, e.ok) :
    (fs.flatMap StreamEvent.put <+: [version, 1, 0] ∧ ∀ n k, p = .op (.read n) k →
        fs.flatMap StreamEvent.put = [version, 1, 0] ∧ fs.flatMap StreamEvent.got = [] ∧ n = 2) ∨
      fs.flatMap StreamEvent.put = Gateway.chainBytes dest := by
  rcases h.op_inv with ⟨rfl, rfl⟩ | ⟨a, fs₁, rfl, h₁⟩
  · exact .inl ⟨List.nil_prefix, by rintro _ _ ⟨⟩⟩
  rw [List.forall_mem_cons] at hok
  rcases a with f | ⟨⟩
  · cases hok.1
  rcases h₁.op_inv with ⟨rfl, rfl⟩ | ⟨a, fs₂, rfl, h₂⟩
  · refine .inl ⟨List.prefix_rfl, ?_⟩
    rintro n k hk
    injection hk with hn
    injection hn with hn
    exact ⟨rfl, rfl, hn.symm⟩
  rw [List.forall_mem_cons] at hok
  rcases a with f | sel
  · cases hok.2.1
  -- the checks read and write nothing
  rcases h₂.ofExcept_bind_inv with ⟨e, rfl, rfl⟩ | ⟨_, -, h₃⟩
  · exact .inl ⟨List.prefix_rfl, by rintro _ _ ⟨⟩⟩
  rcases h₃.ofExcept_bind_inv with ⟨e, rfl, rfl⟩ | ⟨_, -, h₃⟩
  · exact .inl ⟨List.prefix_rfl, by rintro _ _ ⟨⟩⟩
  rcases h₃.ofExcept_bind_inv with ⟨e, rfl, rfl⟩ | ⟨_, -, h₄⟩
  · exact .inl ⟨List.prefix_rfl, by rintro _ _ ⟨⟩⟩
  rcases h₄.op_inv with ⟨rfl, rfl⟩ | ⟨a, fs₃, rfl, h₅⟩
  · exact .inl ⟨List.prefix_rfl, by rintro _ _ ⟨⟩⟩
  rcases a with f | ⟨⟩
  · cases hok.2.2 _ List.mem_cons_self
  have hnil : fs₃.flatMap StreamEvent.put = [] := h₅.put_eq_nil performs_readNodeReply
  refine .inr ?_
  simp only [List.flatMap_cons, hnil, StreamEvent.put, Gateway.chainBytes, List.nil_append, List.append_nil]

theorem chain_prefix_put (h : (Gateway.chain dest).Path fs p) (hok : ∀ e ∈ fs, e.ok) :
    fs.flatMap StreamEvent.put <+: Gateway.chainBytes dest := by
  rcases chain_puts h hok with ⟨hput, -⟩ | hput
  · exact hput.trans (List.prefix_append _ _)
  · rw [hput]

/-- The node's answers to a CONNECT that it serves. -/
def nodeAnswers : Bytes := openingReply none ++ replyBytes ReplyCode.success

theorem chain_run (dest : SocksAddr) (more : Bytes) :
    (Gateway.chain dest).run Peer.serve (.sending (nodeAnswers ++ more) ⟨.other, ""⟩) =
      (.ok (), (Peer.sending (nodeAnswers ++ more) ⟨.other, ""⟩).after more (Gateway.chainBytes dest)) :=
  Gateway.chain_eq_ok.mpr ⟨rfl, rfl, 0, Atyp.ipv4, [0, 0, 0, 0, 0, 0], more, rfl, .inl ⟨rfl, rfl⟩, rfl⟩

/-- A gateway that is chaining, and has got nothing but what the node answers: it has not failed, and reads no more than
the node sends. -/
theorem chain_on_track (h : (Gateway.chain dest).Path fs p) (hok : ∀ e ∈ fs, e.ok) {more : Bytes}
    (hgot : fs.flatMap StreamEvent.got <+: nodeAnswers ++ more) :
    (∀ e, p ≠ .fail e) ∧ ∀ n k, p = .op (.read n) k →
      (fs.flatMap StreamEvent.got).length + n ≤ nodeAnswers.length := by
  obtain ⟨rest, hrest⟩ := hgot
  have hin : (Peer.sending (nodeAnswers ++ more) ⟨.other, ""⟩).input = fs.flatMap StreamEvent.got ++ rest := hrest.symm
  refine ⟨h.ne_fail hok (Peer.accepts_sending _ _) hin (chain_run dest more), ?_⟩
  rintro n k rfl
  have hle := h.read_le (Gateway.strict_chain dest) hok (Peer.accepts_sending _ _) hin (chain_run dest more)
  have hlen := congrArg List.length hrest
  simp only [List.length_append, Peer.after_input] at hlen hle
  omega

end Chaining

/-! ## The gateway -/

section Handshake

variable {ε : Type} [SessionError ε] {auth : Option (String × String)} {fs : List StreamEvent} {p : Wire ε Request}
variable {opening more : Bytes} {q : Request} {dest : SocksAddr}

theorem handshake_run (hop : Opening auth opening q) (more : Bytes) :
    (handshake auth : Wire ε _).run Peer.serve (.sending (opening ++ more) ⟨.other, ""⟩) =
      (.ok q, (Peer.sending (opening ++ more) ⟨.other, ""⟩).after more (openingReply auth)) :=
  (handshake_eq_ok (Peer.accepts_sending _ _)).mpr ⟨opening, more, hop, rfl, rfl⟩

/-- A handshake that has got the beginning of an opening: it has not failed, reads no more than the opening, and has
written the beginning of the answers to it. -/
theorem handshake_on_track (hop : Opening auth opening q) (h : (handshake auth).Path fs p) (hok : ∀ e ∈ fs, e.ok)
    (hgot : fs.flatMap StreamEvent.got <+: opening ++ more) :
    (∀ e, p ≠ .fail e) ∧ fs.flatMap StreamEvent.put <+: openingReply auth ∧ ∀ n k, p = .op (.read n) k →
      (fs.flatMap StreamEvent.got).length + n ≤ opening.length := by
  obtain ⟨rest, hrest⟩ := hgot
  have hin : (Peer.sending (opening ++ more) ⟨.other, ""⟩).input = fs.flatMap StreamEvent.got ++ rest := hrest.symm
  refine ⟨h.ne_fail hok (Peer.accepts_sending _ _) hin (handshake_run hop more), ?_, ?_⟩
  · exact h.prefix_put hok (Peer.accepts_sending _ _) hin (handshake_run hop more)
  · rintro n k rfl
    have hle := h.read_le (strict_handshake auth) hok (Peer.accepts_sending _ _) hin (handshake_run hop more)
    have hlen := congrArg List.length hrest
    simp only [List.length_append, Peer.after_input] at hlen hle
    omega

/-- A handshake that has come to its end has read the opening and no more. -/
theorem handshake_ended {q' : Request} (hop : Opening auth opening q)
    (h : (handshake auth : Wire ε _).Path fs (.ret q')) (hok : ∀ e ∈ fs, e.ok)
    (hgot : fs.flatMap StreamEvent.got <+: opening ++ more) :
    q' = q ∧ fs.flatMap StreamEvent.got = opening ∧ fs.flatMap StreamEvent.put = openingReply auth := by
  obtain ⟨hop', hput⟩ := handshake_history h hok
  obtain ⟨rest, hrest⟩ := hgot
  obtain ⟨hq, hbytes, -⟩ := hop'.unique hop hrest
  exact ⟨hq, hbytes, hput⟩

theorem readGreeting_run (dest : SocksAddr) (more : Bytes) :
    (readGreeting : Wire ε _).run Peer.serve (.sending (Gateway.chainBytes dest ++ more) ⟨.other, ""⟩) =
      (.ok ⟨[Method.noAuth]⟩, (Peer.sending (Gateway.chainBytes dest ++ more) ⟨.other, ""⟩).after
        ((Request.mk .connect dest).toBytes ++ more) []) :=
  readGreeting_eq_ok.mpr ⟨_, by simp [Peer.sending, Gateway.chainBytes, Greeting.frame], ⟨by decide, by decide⟩, rfl⟩

/-- As long as the greeting is not answered, no more than the greeting is read. -/
theorem handshake_at_read {n : Nat} {k : (StreamOp.read n).Ans → Wire ε Request}
    (h : (handshake none).Path fs (.op (.read n) k))
    (hok : ∀ e ∈ fs, e.ok) (hgot : fs.flatMap StreamEvent.got <+: Gateway.chainBytes dest ++ more)
    (hput : (fs.flatMap StreamEvent.put).length < 2) : (fs.flatMap StreamEvent.got).length + n ≤ 3 := by
  rcases Prog.Path.bind_inv h with ⟨p, hp, hne, hq⟩ | ⟨_, fs₁, fs₂, rfl, h₁, h₂⟩
  · obtain ⟨rest, hrest⟩ := hgot
    obtain ⟨k', rfl⟩ : ∃ k', p = .op (.read n) k' := by
      cases p with
      | ret a => exact absurd rfl (hne a)
      | fail e => cases hq
      | op o k' =>
        injection hq with ho
        subst ho
        exact ⟨k', rfl⟩
    have hle := hp.read_le strict_readGreeting hok (Peer.accepts_sending _ _) hrest.symm (readGreeting_run dest more)
    have hlen := congrArg List.length hrest
    simp only [Gateway.chainBytes, List.length_append, Peer.after_input, List.length_cons, List.length_nil] at hlen hle
    omega
  · rw [List.forall_mem_append] at hok
    rcases h₂.op_inv with ⟨-, hq⟩ | ⟨a, fs₃, rfl, -⟩
    · cases hq
    · rcases a with f | ⟨⟩
      · cases hok.2 _ List.mem_cons_self
      · simp only [List.flatMap_append, List.flatMap_cons, List.length_append] at hput
        simp only [StreamEvent.put, MethodSelection.toBytes, List.length_cons, List.length_nil] at hput
        omega

end Handshake

section Gateway

variable {auth : Option (String × String)} {opening more more' : Bytes} {q : Request} {dest : SocksAddr}
variable {gs es : List (SessionEvent Gateway.Control.Ans)} {g : Gateway.Handler (UInt64 × UInt64)}

/-- The control plane names a node, which can be dialled. -/
def goodGateway : (c : Gateway.Control) → c.Ans → Prop
  | .selectNode, a => ∃ node, a = some (.ok node)
  | .connect _, a => a = .ok ()

/-- Where a gateway can be that has done the operations `gs`: it has written no more than it is to write; and if it has
got nothing but what the node answers, then it has not ended, and reads no more than it is to read, having told the node
what that needs for its answer. -/
structure GatewayOnTrack (auth : Option (String × String)) (opening : Bytes) (dest : SocksAddr)
    (gs : List (SessionEvent Gateway.Control.Ans)) (g : Gateway.Handler (UInt64 × UInt64)) : Prop where
  put_front : gs.flatMap (SessionEvent.put .front) <+: openingReply auth ++ replyBytes ReplyCode.success
  put_back : gs.flatMap (SessionEvent.put .back) <+: Gateway.chainBytes dest
  relays : ∀ k, g = .op .relay k → (gs.filterMap SessionEvent.ctl).any opensNode ∧
    gs.flatMap (SessionEvent.put .back) = Gateway.chainBytes dest
  running : ∀ more, gs.flatMap (SessionEvent.got .back) <+: nodeAnswers ++ more → ¬ g.Final
  read_front : ∀ n k, g = .op (.io .front (.read n)) k →
    (gs.flatMap (SessionEvent.got .front)).length + n ≤ opening.length
  read_back : ∀ more, gs.flatMap (SessionEvent.got .back) <+: nodeAnswers ++ more →
    ∀ n k, g = .op (.io .back (.read n)) k → (gs.filterMap SessionEvent.ctl).any opensNode ∧
      (gs.flatMap (SessionEvent.got .back)).length + n ≤ nodeAnswers.length ∧
        ((gs.flatMap (SessionEvent.put .back) = [version, 1, 0] ∧ gs.flatMap (SessionEvent.got .back) = [] ∧ n = 2) ∨
          gs.flatMap (SessionEvent.put .back) = Gateway.chainBytes dest)

/-- A gateway that is about to perform something other than a read or the relay. -/
theorem onTrack_idle (hput : es.flatMap (SessionEvent.put .front) <+: openingReply auth ++ replyBytes ReplyCode.success)
    (hback : es.flatMap (SessionEvent.put .back) <+: Gateway.chainBytes dest) (hrunning : ¬ g.Final)
    (hread : ∀ s n k, g ≠ .op (.io s (.read n)) k) (hrelay : ∀ k, g ≠ .op .relay k) :
    GatewayOnTrack auth opening dest es g :=
  ⟨hput, hback, fun k hk => absurd hk (hrelay k), fun _ _ => hrunning, fun n k hk => absurd hk (hread _ n k),
    fun _ _ n k hk => absurd hk (hread _ n k)⟩

/-- After the handshake, in which `fs` was read and written. -/
theorem serveRequest_on_track {fs : List StreamEvent} (hput : fs.flatMap StreamEvent.put = openingReply auth)
    (h : (Gateway.serveRequest ⟨.connect, dest⟩).Path es g) (hok : ∀ e ∈ es, e.ok)
    (hgood : ∀ c a, ⟨.ctl c, a⟩ ∈ es → goodGateway c a) (hunrelayed : ∀ r, ⟨.relay, r⟩ ∉ es) :
    GatewayOnTrack auth opening dest (fs.map (StreamEvent.on _ .front) ++ es) g := by
  rw [Gateway.serveRequest, if_neg (by simp)] at h
  rcases h.op_inv with ⟨rfl, rfl⟩ | ⟨a, es₁, rfl, h₁⟩
  · exact onTrack_idle (by simp [hput]) (by simp) (fun h => h) (by rintro _ _ _ ⟨⟩) (by rintro _ ⟨⟩)
  obtain ⟨node, rfl⟩ := hgood .selectNode a List.mem_cons_self
  rcases h₁.op_inv with ⟨rfl, rfl⟩ | ⟨a, es₂, rfl, h₂⟩
  · exact onTrack_idle (by simp [hput]) (by simp) (fun h => h) (by rintro _ _ _ ⟨⟩) (by rintro _ ⟨⟩)
  obtain rfl := hgood (.connect _) a (List.mem_cons_of_mem _ List.mem_cons_self)
  rw [List.forall_mem_cons, List.forall_mem_cons] at hok
  rcases h₂.embed_bind_inv with ⟨hs, p, rfl, hhs, hne, rfl⟩ | ⟨_, hs, es₃, rfl, hhs, h₃⟩
  · -- chaining
    have hok' : ∀ e ∈ hs, StreamEvent.ok e := fun e he => hok.2.2 _ (List.mem_map_of_mem he)
    refine ⟨by simp [hput], by simpa using chain_prefix_put hhs hok', fun k hk => absurd hk (embed_bind_ne_relay hne),
      fun more hback => ?_, fun n k hk => ?_, fun more hback n k hk => ?_⟩
    · obtain ⟨hfail, -⟩ := chain_on_track hhs hok' (by simpa using hback)
      exact (embed_bind_next (A := Gateway.Control.Ans) (s := .back) hne hfail).1
    · cases p with
      | ret a => exact absurd rfl (hne a)
      | fail e => cases hk
      | op o k => cases hk
    · obtain ⟨hfail, hread⟩ := chain_on_track hhs hok' (by simpa using hback)
      obtain ⟨-, k', rfl⟩ := (embed_bind_next (A := Gateway.Control.Ans) (s := .back) hne hfail).2 _ n k hk
      refine ⟨by simp [opensNode], by simpa using hread n k' rfl, ?_⟩
      rcases chain_puts hhs hok' with ⟨-, hputs⟩ | hputs
      · exact .inl (by simpa using hputs n k' rfl)
      · exact .inr (by simpa using hputs)
  · -- the reply to the client, and the relay
    rw [List.forall_mem_append] at hok
    obtain ⟨-, hchain⟩ := chain_history hhs fun e he => hok.2.2.1 _ (List.mem_map_of_mem he)
    rcases h₃.op_inv with ⟨rfl, rfl⟩ | ⟨a, es₄, rfl, h₄⟩
    · exact onTrack_idle (by simp [hput]) (by simp [hchain]) (fun h => h) (by rintro _ _ _ ⟨⟩) (by rintro _ ⟨⟩)
    rcases a with f | ⟨⟩
    · cases hok.2.2.2 _ List.mem_cons_self
    rcases h₄.op_inv with ⟨rfl, rfl⟩ | ⟨r, es₅, rfl, -⟩
    · refine ⟨by simp [hput, SessionEvent.put, StreamEvent.put], by simp [hchain, SessionEvent.put],
        fun _ _ => ⟨by simp [opensNode], by simp [hchain, SessionEvent.put]⟩, fun _ _ h => h, ?_, ?_⟩
      · rintro _ _ ⟨⟩
      · rintro _ _ _ _ ⟨⟩
    · exact absurd (by simp) (hunrelayed r)

theorem gateway_on_track (hop : Opening auth opening ⟨.connect, dest⟩) (h : (Gateway.runWithCtx auth).Path gs g)
    (hok : ∀ e ∈ gs, e.ok) (hgood : ∀ c a, ⟨.ctl c, a⟩ ∈ gs → goodGateway c a) (hunrelayed : ∀ r, ⟨.relay, r⟩ ∉ gs)
    (hfront : gs.flatMap (SessionEvent.got .front) <+: opening ++ more) : GatewayOnTrack auth opening dest gs g := by
  rcases h.embed_bind_inv with ⟨fs, p, rfl, hfs, hne, rfl⟩ | ⟨q, fs, es, rfl, hfs, hes⟩
  · have hok' : ∀ e ∈ fs, StreamEvent.ok e := fun e he => hok _ (List.mem_map_of_mem he)
    rw [flatMap_got_on, if_pos rfl] at hfront
    obtain ⟨hfail, hput, hread⟩ := handshake_on_track hop hfs hok' hfront
    obtain ⟨hrunning, hnext⟩ := embed_bind_next (A := Gateway.Control.Ans) (s := .front)
      (f := Gateway.serveRequest) hne hfail
    refine ⟨?_, by simp, fun k hk => absurd hk (embed_bind_ne_relay hne), fun _ _ => hrunning, fun n k hk => ?_,
      fun _ _ n k hk => ?_⟩
    · rw [flatMap_put_on, if_pos rfl]
      exact hput.trans (List.prefix_append _ _)
    · obtain ⟨-, k', hp⟩ := hnext _ n k hk
      rw [flatMap_got_on, if_pos rfl]
      exact hread n k' hp
    · exact absurd (hnext _ n k hk).1 (by decide)
  · rw [List.forall_mem_append] at hok
    have hok' : ∀ e ∈ fs, StreamEvent.ok e := fun e he => hok.1 _ (List.mem_map_of_mem he)
    have hgot : fs.flatMap StreamEvent.got <+: opening ++ more := by
      refine List.IsPrefix.trans ?_ hfront
      rw [List.flatMap_append, flatMap_got_on, if_pos rfl]
      exact List.prefix_append _ _
    obtain ⟨rfl, -, hput⟩ := handshake_ended hop hfs hok' hgot
    exact serveRequest_on_track hput hes hok.2 (fun c a hmem => hgood c a (List.mem_append_right _ hmem))
      (fun r hmem => hunrelayed r (List.mem_append_right _ hmem))

end Gateway

/-! ## The node -/

section Node

variable {more : Bytes} {dest : SocksAddr} {ns es : List (SessionEvent Agent.Control.Ans)}
variable {g : Agent.Handler (Option (UInt64 × UInt64))}

/-- The target can be dialled. -/
def goodNode : (c : Agent.Control) → Agent.Control.Ans c → Prop
  | .dial _, a => a = .ok ()

/-- Where a node can be that has done the operations `ns`: it has not ended, has written no more than its answers, and
reads no more than the gateway sends, nor more than the greeting before it has answered that. -/
structure NodeOnTrack (dest : SocksAddr) (ns : List (SessionEvent Agent.Control.Ans))
    (g : Agent.Handler (Option (UInt64 × UInt64))) : Prop where
  running : ¬ g.Final
  put_front : ns.flatMap (SessionEvent.put .front) <+: nodeAnswers
  relays : ∀ k, g = .op .relay k → ns.flatMap (SessionEvent.put .front) = nodeAnswers
  reads : ∀ s n k, g = .op (.io s (.read n)) k → s = .front ∧
    (ns.flatMap (SessionEvent.got .front)).length + n ≤ (Gateway.chainBytes dest).length ∧
      ((ns.flatMap (SessionEvent.put .front)).length < 2 → (ns.flatMap (SessionEvent.got .front)).length + n ≤ 3)

theorem node_on_track (hop : Opening none (Gateway.chainBytes dest) ⟨.connect, dest⟩)
    (h : (Agent.runWithCtx none).Path ns g) (hok : ∀ e ∈ ns, e.ok)
    (hgood : ∀ c a, ⟨.ctl c, a⟩ ∈ ns → goodNode c a) (hunrelayed : ∀ r, ⟨.relay, r⟩ ∉ ns)
    (hfront : ns.flatMap (SessionEvent.got .front) <+: Gateway.chainBytes dest ++ more) : NodeOnTrack dest ns g := by
  rcases h.embed_bind_inv with ⟨fs, p, rfl, hfs, hne, rfl⟩ | ⟨q, fs, es, rfl, hfs, hes⟩
  · have hok' : ∀ e ∈ fs, StreamEvent.ok e := fun e he => hok _ (List.mem_map_of_mem he)
    rw [flatMap_got_on, if_pos rfl] at hfront
    obtain ⟨hfail, hput, hread⟩ := handshake_on_track hop hfs hok' hfront
    obtain ⟨hrunning, hnext⟩ := embed_bind_next (A := Agent.Control.Ans) (s := .front)
      (f := Agent.serveRequest) hne hfail
    refine ⟨hrunning, ?_, fun k hk => absurd hk (embed_bind_ne_relay hne), fun s n k hk => ?_⟩
    · rw [flatMap_put_on, if_pos rfl]
      exact hput.trans (List.prefix_append _ _)
    · obtain ⟨rfl, k', rfl⟩ := hnext _ n k hk
      rw [flatMap_got_on, flatMap_put_on, if_pos rfl, if_pos rfl]
      exact ⟨rfl, hread n k' rfl, handshake_at_read hfs hok' hfront⟩
  · rw [List.forall_mem_append] at hok
    have hok' : ∀ e ∈ fs, StreamEvent.ok e := fun e he => hok.1 _ (List.mem_map_of_mem he)
    have hgot : fs.flatMap StreamEvent.got <+: Gateway.chainBytes dest ++ more := by
      refine List.IsPrefix.trans ?_ hfront
      rw [List.flatMap_append, flatMap_got_on, if_pos rfl]
      exact List.prefix_append _ _
    obtain ⟨rfl, -, hput⟩ := handshake_ended hop hfs hok' hgot
    -- the request has been read: what is left is the dialling, the reply and the relay
    rw [Agent.serveRequest, if_neg (by simp)] at hes
    rcases hes.op_inv with ⟨rfl, rfl⟩ | ⟨a, es₁, rfl, h₁⟩
    · exact ⟨fun h => h, by simp [hput, nodeAnswers], by rintro _ ⟨⟩, by rintro _ _ _ ⟨⟩⟩
    obtain rfl := hgood (.dial _) a (List.mem_append_right _ List.mem_cons_self)
    rcases h₁.op_inv with ⟨rfl, rfl⟩ | ⟨a, es₂, rfl, h₂⟩
    · exact ⟨fun h => h, by simp [hput, nodeAnswers], by rintro _ ⟨⟩, by rintro _ _ _ ⟨⟩⟩
    rcases a with f | ⟨⟩
    · cases hok.2 _ (List.mem_cons_of_mem _ List.mem_cons_self)
    rcases h₂.op_inv with ⟨rfl, rfl⟩ | ⟨r, es₃, rfl, -⟩
    · refine ⟨fun h => h, ?_, fun _ _ => ?_, by rintro _ _ _ ⟨⟩⟩
      · simp [hput, nodeAnswers, SessionEvent.put, StreamEvent.put]
      · simp [hput, nodeAnswers, SessionEvent.put, StreamEvent.put]
    · exact absurd (by simp) (hunrelayed r)

end Node

/-! ## The network -/

namespace Net

/-- Nothing fails, and something happens. -/
def Benign (s : Net) : Act → Prop
  | .deliver _ n => 0 < n
  | .gateway act => s.gateway.Benign goodGateway act
  | .node act => s.node.Benign goodNode act

def BenignStep (s : Net) (act : Act) (s' : Net) : Prop := s.Benign act ∧ s.Step act s'

/-- The number of bytes that have been delivered. -/
def arrivals (s : Net) : Nat :=
  s.arrived .clientToGateway + s.arrived .gatewayToClient + s.arrived .gatewayToNode + s.arrived .nodeToGateway +
    s.arrived .nodeToTarget + s.arrived .targetToNode

/-- What the two handlers have done. -/
structure Intact (auth : Option (String × String)) (client target : Bytes)
    (gs : List (SessionEvent Gateway.Control.Ans)) (gmoved : Side → Bytes)
    (ns : List (SessionEvent Agent.Control.Ans)) (nmoved : Side → Bytes) (s : Net) : Prop where
  inv : s.Inv auth client target False
  gateway : Party.Intact goodGateway (Gateway.runWithCtx auth) s.gateway gs gmoved
  node : Party.Intact goodNode (Agent.runWithCtx none) s.node ns nmoved
  arrived : ∀ c, s.arrived c ≤ (s.sent c).length

section Intact

variable {auth : Option (String × String)} {client target : Bytes} {s s' : Net} {act : Act}
variable {gs : List (SessionEvent Gateway.Control.Ans)} {ns : List (SessionEvent Agent.Control.Ans)}
variable {gmoved nmoved : Side → Bytes}

theorem intact_start : (start auth client target).Intact auth client target [] (fun _ => []) [] fun _ => [] :=
  ⟨inv_start, Party.intact_start _, Party.intact_start _, fun _ => Nat.zero_le _⟩

/-- What has been sent stays. -/
theorem sent_le (h : s.Step act s') (c : Channel) : (s.sent c).length ≤ (s'.sent c).length := by
  rcases exec_cases h with ⟨arrived, rfl⟩ | ⟨a, g, hexec, -, -, rfl⟩ | ⟨a, n, hexec, -, -, rfl⟩
  · exact le_rfl
  · cases c with
    | gatewayToClient => exact (Party.put_prefix_exec hexec .front).length_le
    | gatewayToNode => exact (Party.put_prefix_exec hexec .back).length_le
    | _ => exact le_rfl
  · cases c with
    | nodeToGateway => exact (Party.put_prefix_exec hexec .front).length_le
    | nodeToTarget => exact (Party.put_prefix_exec hexec .back).length_le
    | _ => exact le_rfl

/-- **One step** adds to what has been done, or delivered. -/
theorem Intact.step (h : s.Intact auth client target gs gmoved ns nmoved) (hst : s.BenignStep act s') :
    ∃ gs' gmoved' ns' nmoved', s'.Intact auth client target gs' gmoved' ns' nmoved' ∧
      s.gateway.work gs + s.node.work ns + s.arrivals < s'.gateway.work gs' + s'.node.work ns' + s'.arrivals := by
  obtain ⟨hbenign, hstep⟩ := hst
  have hinv := inv_step h.inv hstep
  have hsent := sent_le hstep
  cases act with
  | deliver c n =>
    simp only [Step, exec] at hstep
    split at hstep
    · next hle =>
      cases hstep
      refine ⟨gs, gmoved, ns, nmoved, ⟨hinv, h.gateway, h.node, fun c' => ?_⟩, ?_⟩
      · change Function.update s.arrived c (s.arrived c + n) c' ≤ (s.sent c').length
        by_cases hc : c' = c
        · subst hc
          simpa using hle
        · simpa [hc] using h.arrived c'
      · have hpos : 0 < n := hbenign
        cases c <;> simp [arrivals] <;> omega
    · cases hstep
  | gateway a =>
    obtain ⟨g, hg, hstep⟩ := Option.bind_eq_some_iff.mp hstep
    split at hstep
    · cases hstep
      obtain ⟨gs', gmoved', hgateway, hwork⟩ := h.gateway.exec hbenign hg
      refine ⟨gs', gmoved', ns, nmoved, ⟨hinv, hgateway, h.node, fun c => (h.arrived c).trans (hsent c)⟩, ?_⟩
      simp only [arrivals]
      omega
    · cases hstep
  | node a =>
    obtain ⟨n, hn, hstep⟩ := Option.bind_eq_some_iff.mp hstep
    split at hstep
    · cases hstep
      obtain ⟨ns', nmoved', hnode, hwork⟩ := h.node.exec hbenign hn
      refine ⟨gs, gmoved, ns', nmoved', ⟨hinv, h.gateway, hnode, fun c => (h.arrived c).trans (hsent c)⟩, ?_⟩
      simp only [arrivals]
      omega
    · cases hstep

theorem intact_run {acts : List Act} (h : Run BenignStep (start auth client target) acts s) :
    ∃ gs gmoved ns nmoved, s.Intact auth client target gs gmoved ns nmoved ∧
      acts.length ≤ s.gateway.work gs + s.node.work ns + s.arrivals := by
  refine h.snoc_induction (P := fun acts s => ∃ gs gmoved ns nmoved, s.Intact auth client target gs gmoved ns nmoved ∧
      acts.length ≤ s.gateway.work gs + s.node.work ns + s.arrivals) ?_ ?_
  · exact ⟨[], _, [], _, intact_start, Nat.zero_le _⟩
  · rintro acts s act s' - ⟨gs, gmoved, ns, nmoved, hs, hle⟩ hst
    obtain ⟨gs', gmoved', ns', nmoved', hs', hlt⟩ := hs.step hst
    refine ⟨gs', gmoved', ns', nmoved', hs', ?_⟩
    rw [List.length_append, List.length_singleton]
    omega

end Intact

/-! ## Where the handlers are -/

section OnTrack

variable {auth : Option (String × String)} {client opening payload target : Bytes} {dest : SocksAddr} {s : Net}
variable {gs : List (SessionEvent Gateway.Control.Ans)} {ns : List (SessionEvent Agent.Control.Ans)}
variable {gmoved nmoved : Side → Bytes}

theorem Intact.gateway_on_track (h : s.Intact auth (opening ++ payload) target gs gmoved ns nmoved)
    (hop : Opening auth opening ⟨.connect, dest⟩) : GatewayOnTrack auth opening dest gs s.gateway.prog := by
  have hfront : gs.flatMap (SessionEvent.got .front) <+: opening ++ payload :=
    h.inv.client_eq ▸ (h.gateway.prefix_got .front).trans h.inv.gateway_front
  exact Chain.gateway_on_track hop h.gateway.path h.gateway.ok h.gateway.good h.gateway.unrelayed hfront

/-- What has been sent to the node. -/
theorem Intact.put_back (h : s.Intact auth (opening ++ payload) target gs gmoved ns nmoved)
    (hop : Opening auth opening ⟨.connect, dest⟩) : s.gateway.put .back <+: Gateway.chainBytes dest ++ gmoved .front :=
  h.gateway.prefix_put (h.gateway_on_track hop).put_back fun k hk => ((h.gateway_on_track hop).relays k hk).2

theorem Intact.node_on_track (h : s.Intact auth (opening ++ payload) target gs gmoved ns nmoved)
    (hop : Opening auth opening ⟨.connect, dest⟩) : NodeOnTrack dest ns s.node.prog := by
  have hsend : dest.host.Sendable false := by
    obtain ⟨_, _, _, _, -, -, -, hframe⟩ := hop
    exact (Request.isFrame_iff.mp hframe).2
  have hfront := (h.node.prefix_got .front).trans (h.inv.node_front.trans (h.put_back hop))
  exact Chain.node_on_track (opening_chainBytes hsend) h.node.path h.node.ok h.node.good h.node.unrelayed hfront

/-- What the node has sent to the gateway. -/
theorem Intact.put_front (h : s.Intact auth (opening ++ payload) target gs gmoved ns nmoved)
    (hop : Opening auth opening ⟨.connect, dest⟩) : s.node.put .front <+: nodeAnswers ++ nmoved .back :=
  h.node.prefix_put (h.node_on_track hop).put_front (h.node_on_track hop).relays

theorem Intact.got_back (h : s.Intact auth (opening ++ payload) target gs gmoved ns nmoved)
    (hop : Opening auth opening ⟨.connect, dest⟩) :
    gs.flatMap (SessionEvent.got .back) <+: nodeAnswers ++ nmoved .back :=
  (h.gateway.prefix_got .back).trans (h.inv.gateway_back.trans (h.put_front hop))

/-- An upper bound on the number of steps. -/
def mostSteps (auth : Option (String × String)) (dest : SocksAddr) (client target : Bytes) : Nat :=
  25 + authOps auth + 7 * client.length + 7 * target.length +
    2 * (openingReply auth ++ replyBytes ReplyCode.success).length + 5 * nodeAnswers.length +
      5 * (Gateway.chainBytes dest).length

theorem Intact.work_le (h : s.Intact auth (opening ++ payload) target gs gmoved ns nmoved)
    (hop : Opening auth opening ⟨.connect, dest⟩) :
    s.gateway.work gs + s.node.work ns + s.arrivals ≤ mostSteps auth dest (opening ++ payload) target := by
  have hgs : gs.length ≤ (14 + authOps auth) * 1 + min 1 requestTimeout + 1 :=
    (costs_gateway auth).length_le limit_one h.gateway.path
  have hns : ns.length ≤ (8 + authOps none) * 1 + 1 :=
    (costs_node none).length_le (by rintro (_ | _ | _) <;> rfl) h.node.path
  -- what is got was put by the other side, and what is put is an answer or was got
  have hclient := congrArg List.length h.inv.client_eq
  have htarget := congrArg List.length h.inv.target_eq
  have hgotF := h.inv.gateway_front.length_le
  have hgotB := h.inv.gateway_back.length_le
  have hngotF := h.inv.node_front.length_le
  have hngotB := h.inv.node_back.length_le
  have hmovedF := h.gateway.moved_le .front
  have hmovedB := h.gateway.moved_le .back
  have hnmovedF := h.node.moved_le .front
  have hnmovedB := h.node.moved_le .back
  have hputF : (s.gateway.put .front).length ≤
      (openingReply auth ++ replyBytes ReplyCode.success).length + (gmoved .back).length := by
    rw [h.gateway.put, List.length_append]
    exact Nat.add_le_add_right (h.gateway_on_track hop).put_front.length_le _
  have hputB := (h.put_back hop).length_le
  have hnputF := (h.put_front hop).length_le
  have hnputB : (s.node.put .back).length = (nmoved .front).length := by
    rw [h.node.put, (Chain.node_back h.node.path).2]
    rfl
  rw [List.length_append] at hputB hnputF
  have harrived : s.arrivals ≤ s.client.length + (s.gateway.put .front).length + (s.gateway.put .back).length +
      (s.node.put .front).length + (s.node.put .back).length + s.target.length := by
    have h₁ := h.arrived .clientToGateway
    have h₂ := h.arrived .gatewayToClient
    have h₃ := h.arrived .gatewayToNode
    have h₄ := h.arrived .nodeToGateway
    have h₅ := h.arrived .nodeToTarget
    have h₆ := h.arrived .targetToNode
    simp only [arrivals, sent] at *
    omega
  have hnone : authOps none = 0 := rfl
  simp only [Party.work, mostSteps]
  omega

/-! ## Where the chain comes to rest -/

/-- Nothing is left to do, unless something fails or ends. -/
def Quiet (s : Net) : Prop := ∀ act s', ¬ s.BenignStep act s'

/-- In a quiet network everything has been delivered. -/
theorem Quiet.delivered (hq : s.Quiet) (h : s.Intact auth client target gs gmoved ns nmoved)
    (c : Channel) : s.delivered c = s.sent c := by
  by_contra hne
  refine hq (.deliver c 1) { s with arrived := Function.update s.arrived c (s.arrived c + 1) } ⟨Nat.one_pos, ?_⟩
  have hle := h.arrived c
  have hlt : s.arrived c + 1 ≤ (s.sent c).length := by
    by_contra hlt
    exact hne (List.take_of_length_le (by omega))
  simp only [Step, exec, if_pos hlt]

/-- A node that can be dialled. -/
def anyNode : (c : Gateway.Control) → c.Ans
  | .selectNode => some (.ok ⟨"", ""⟩)
  | .connect _ => .ok ()

theorem goodGateway_anyNode (c : Gateway.Control) : goodGateway c (anyNode c) := by
  cases c with
  | selectNode => exact ⟨_, rfl⟩
  | connect a => rfl

/-- A target that can be dialled. -/
def anyTarget : (c : Agent.Control) → Agent.Control.Ans c
  | .dial _ => .ok ()

theorem goodNode_anyTarget (c : Agent.Control) : goodNode c (anyTarget c) := by
  cases c
  rfl

/-- What the two sides of the gateway have sent to it. -/
def gatewaySource (s : Net) : Side → Bytes
  | .front => s.client
  | .back => s.node.put .front

def nodeSource (s : Net) : Side → Bytes
  | .front => s.gateway.put .back
  | .back => s.target

/-- In a quiet network, the gateway has ended, waits for bytes that have not been sent, or has relayed all there is. -/
theorem Quiet.gateway_cases (hq : s.Quiet) (h : s.Intact auth client target gs gmoved ns nmoved) :
    s.gateway.prog.Final ∨
      (∃ t n k, s.gateway.prog = .op (.io t (.read n)) k ∧
        (s.gatewaySource t).length < (s.gateway.got t).length + n) ∨
      (∃ k, s.gateway.prog = .op .relay k) ∧ ∀ t, s.gateway.got t = s.gatewaySource t ∧ s.gateway.buf t = [] := by
  have hsource (t : Side) : s.gateway.got t <+: s.gatewaySource t := by
    cases t with
    | front => exact h.inv.gateway_front
    | back => exact h.inv.gateway_back
  rcases Party.exists_benign hsource goodGateway_anyNode with hfinal | hread | hdone | ⟨act, g, hact, hexec, hgot⟩
  · exact .inl hfinal
  · exact .inr (.inl hread)
  · exact .inr (.inr hdone)
  · refine absurd ⟨hact, ?_⟩ (hq (.gateway act) { s with gateway := g })
    simp only [Step, exec, hexec, Option.bind_eq_bind, Option.bind_some, hq.delivered h]
    exact if_pos ⟨hgot .front, hgot .back⟩

/-- If the client has sent its opening, the gateway waits for the node, or has relayed all there is. -/
theorem Quiet.gateway (hq : s.Quiet) (h : s.Intact auth (opening ++ payload) target gs gmoved ns nmoved)
    (hop : Opening auth opening ⟨.connect, dest⟩) :
    (∃ n k, s.gateway.prog = .op (.io .back (.read n)) k ∧
        (s.node.put .front).length < (s.gateway.got .back).length + n) ∨
      (∃ k, s.gateway.prog = .op .relay k) ∧ ∀ t, s.gateway.got t = s.gatewaySource t ∧ s.gateway.buf t = [] := by
  have htrack := h.gateway_on_track hop
  rcases hq.gateway_cases h with hfinal | ⟨t, n, k, hk, hlt⟩ | hdone
  · exact absurd hfinal (htrack.running _ (h.got_back hop))
  · cases t with
    | front =>
      have hle := htrack.read_front n k hk
      rw [← (h.gateway.at_io hk .front).1] at hle
      simp only [gatewaySource, h.inv.client_eq, List.length_append] at hlt
      omega
    | back => exact .inl ⟨n, k, hk, hlt⟩
  · exact .inr hdone

/-- And the node, once it has been dialled, waits for the gateway, or has relayed all there is. -/
theorem Quiet.node (hq : s.Quiet) (h : s.Intact auth (opening ++ payload) target gs gmoved ns nmoved)
    (hop : Opening auth opening ⟨.connect, dest⟩) (hopen : s.gateway.ctls.any opensNode) :
    (∃ n k, s.node.prog = .op (.io .front (.read n)) k ∧
        (s.gateway.put .back).length < (s.node.got .front).length + n) ∨
      (∃ k, s.node.prog = .op .relay k) ∧ ∀ t, s.node.got t = s.nodeSource t ∧ s.node.buf t = [] := by
  have hsource (t : Side) : s.node.got t <+: s.nodeSource t := by
    cases t with
    | front => exact h.inv.node_front
    | back => exact h.inv.node_back
  have htrack := h.node_on_track hop
  rcases Party.exists_benign hsource goodNode_anyTarget with
    hfinal | ⟨t, n, k, hk, hlt⟩ | hdone | ⟨act, n, hact, hexec, hgot⟩
  · exact absurd hfinal htrack.running
  · obtain ⟨rfl, -⟩ := htrack.reads t n k hk
    exact .inl ⟨n, k, hk, hlt⟩
  · exact .inr hdone
  · refine absurd ⟨hact, ?_⟩ (hq (.node act) { s with node := n })
    simp only [Step, exec, hexec, Option.bind_eq_bind, Option.bind_some, hq.delivered h]
    exact if_pos ⟨hopen, hgot .front, hgot .back⟩

/-- **The handlers do not wait for each other.** -/
theorem Quiet.relayed (hq : s.Quiet) (h : s.Intact auth (opening ++ payload) target gs gmoved ns nmoved)
    (hop : Opening auth opening ⟨.connect, dest⟩) :
    ((∃ k, s.gateway.prog = .op .relay k) ∧ ∀ t, s.gateway.got t = s.gatewaySource t ∧ s.gateway.buf t = []) ∧
      (∃ k, s.node.prog = .op .relay k) ∧ ∀ t, s.node.got t = s.nodeSource t ∧ s.node.buf t = [] := by
  have htrack := h.gateway_on_track hop
  rcases hq.gateway h hop with ⟨n, k, hk, hlt⟩ | hdone
  · -- a node that waits as well has got all it needs for its answer, and one that relays has answered
    obtain ⟨hopen, hle, hput⟩ := htrack.read_back _ (h.got_back hop) n k hk
    rw [(h.gateway.at_io hk .back).1] at hlt
    rcases hq.node h hop (h.gateway.ctls ▸ hopen) with ⟨m, k', hk', hlt'⟩ | ⟨⟨k', hk'⟩, -⟩
    · obtain ⟨-, hreq, hgreeting⟩ := (h.node_on_track hop).reads _ m k' hk'
      rw [(h.gateway.at_io hk .back).2, (h.node.at_io hk' .front).1] at hlt'
      rw [(h.node.at_io hk' .front).2] at hlt
      rcases hput with ⟨hput, hgot, rfl⟩ | hput
      · rw [hgot] at hlt
        rw [hput] at hlt'
        exact absurd (hgreeting (by simpa using hlt)) (by simpa using hlt')
      · rw [hput] at hlt'
        omega
    · rw [h.node.put, (h.node_on_track hop).relays k' hk', List.length_append] at hlt
      omega
  · obtain ⟨k, hk⟩ := hdone.1
    obtain ⟨hopen, hput⟩ := htrack.relays k hk
    rcases hq.node h hop (h.gateway.ctls ▸ hopen) with ⟨m, k', hk', hlt'⟩ | hdone'
    · obtain ⟨-, hreq, -⟩ := (h.node_on_track hop).reads _ m k' hk'
      rw [(h.node.at_io hk' .front).1, h.gateway.put, hput, List.length_append] at hlt'
      omega
    · exact ⟨hdone, hdone'⟩

/-- A quiet network has delivered what it owes to its ends. -/
theorem Quiet.served (hq : s.Quiet) (h : s.Intact auth (opening ++ payload) target gs gmoved ns nmoved)
    (hop : Opening auth opening ⟨.connect, dest⟩) :
    s.Dialled dest ∧ s.delivered .nodeToTarget = payload ∧
      s.delivered .gatewayToClient = openingReply auth ++ replyBytes ReplyCode.success ++ target := by
  obtain ⟨⟨⟨k, hk⟩, hgateway⟩, ⟨k', hk'⟩, hnode⟩ := hq.relayed h hop
  have htransparent := (h.inv.relaying ⟨k, hk⟩).transparent hop
  obtain ⟨htarget, hclient⟩ := htransparent.lossless k k' hk hk'
  refine ⟨htransparent.dialled, ?_, ?_⟩
  · rw [hq.delivered h, ← htarget, towardsTarget, (hgateway .front).1, (hgateway .front).2, (hnode .front).1,
      (hnode .front).2]
    simp [sent, gatewaySource, nodeSource]
  · rw [hq.delivered h, ← hclient, towardsClient, (hgateway .back).1, (hgateway .back).2, (hnode .back).1,
      (hnode .back).2]
    simp [sent, gatewaySource, nodeSource]

end OnTrack

/-- **The chain delivers.** A client opens a session and sends a payload, a target sends its answer, and nothing fails.
Then the session takes boundedly many steps, in any order; it can always go on to where nothing is left to do; and there
the node has dialled the destination of the client, the target has got the payload, and the client the answers to its
opening and the bytes of the target. -/
theorem chain_delivers {auth : Option (String × String)} {opening payload target : Bytes} {dest : SocksAddr}
    (hop : Opening auth opening ⟨.connect, dest⟩) {acts : List Act} {s : Net}
    (hrun : Run BenignStep (start auth (opening ++ payload) target) acts s) :
    acts.length ≤ mostSteps auth dest (opening ++ payload) target ∧
      (∃ acts' s', Run BenignStep s acts' s' ∧ s'.Quiet) ∧
      (s.Quiet → s.Dialled dest ∧ s.delivered .nodeToTarget = payload ∧
        s.delivered .gatewayToClient = openingReply auth ++ replyBytes ReplyCode.success ++ target) := by
  have hbound (acts : List Act) (s : Net) (hrun : Run BenignStep (start auth (opening ++ payload) target) acts s) :
      acts.length ≤ mostSteps auth dest (opening ++ payload) target := by
    obtain ⟨gs, gmoved, ns, nmoved, h, hle⟩ := intact_run hrun
    exact hle.trans (h.work_le hop)
  refine ⟨hbound acts s hrun, hrun.exists_stuck hbound, fun hq => ?_⟩
  obtain ⟨gs, gmoved, ns, nmoved, h, -⟩ := intact_run hrun
  exact hq.served h hop

theorem chain_delivers_example : ∃ acts s, Run BenignStep (start none (exampleOpening ++ [1, 2, 3]) [9, 8]) acts s ∧
    acts.length ≤ 300 ∧ s.delivered .nodeToTarget = [1, 2, 3] ∧
      s.delivered .gatewayToClient = [5, 0] ++ replyBytes ReplyCode.success ++ [9, 8] := by
  have hnil : Run BenignStep (start none (exampleOpening ++ [1, 2, 3]) [9, 8]) [] _ := .nil _
  obtain ⟨-, ⟨acts, s, hrun, hq⟩, -⟩ := chain_delivers opening_example hnil
  obtain ⟨hle, -, hserved⟩ := chain_delivers opening_example hrun
  exact ⟨acts, s, hrun, hle.trans (by decide), (hserved hq).2⟩

end Net

end RustProxy.Chain
