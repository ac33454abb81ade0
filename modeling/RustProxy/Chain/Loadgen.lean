import RustProxy.Chain.Delivery

/-!
# A client that waits for its answers

`Net.chain_delivers` is about a client that sends all it has at once. The load generator sends its greeting and waits
for the selection, sends its request and waits for the reply, and only then sends its payload. As it sends nothing that
it would not send anyway, a session with it is one with a client that has sent a part of that so far (`Run.sending`);
the new danger is that everyone waits. They do not: whatever the order of the steps, the load generator gets its answers
and the target its payload (`loadgen_served`).
-/

namespace RustProxy.Chain

open Lib Protocol Proxy

/-! ## The load generator -/

namespace Loadgen

/-- How a session of the load generator fails. -/
inductive Failure
  | io (fault : IoFault)
  /-- An `assert_eq!` on the method selection. -/
  | panicked
  deriving DecidableEq

def writeAll (bs : Bytes) : Wire Failure Unit := .op (.write bs) fun a => .ofExcept (a.mapError Failure.io)

def readExact (n : Nat) : Wire Failure (Octets n) := .op (.read n) fun a => .ofExcept (a.mapError Failure.io)

def assertEq (a b : UInt8) : Wire Failure Unit := .ofExcept (ensure (a = b) .panicked)

/-- The reply is taken to have ten bytes. -/
def connectThroughProxy (ip : IpAddr) (port : UInt16) : Wire Failure Unit := do
  writeAll [version, 1, Method.noAuth]
  let sel ← readExact 2
  assertEq (sel.byte 0) version
  assertEq (sel.byte 1) Method.noAuth
  writeAll (Request.mk .connect ⟨.ip ip, port⟩).toBytes
  let reply ← readExact 10
  .ofExcept (ensure (reply.byte 1 = ReplyCode.success)
    (.io (.err ⟨.other, "proxy CONNECT failed (reply " ++ hexByte (reply.byte 1) ++ ")"⟩)))

/-- The clock leaves time for `rounds` more writes. -/
def pump (payload : Bytes) : Nat → UInt64 → Wire Failure UInt64
  | 0, bytes => pure bytes
  | rounds + 1, bytes => do
    writeAll payload
    pump payload rounds (bytes + UInt64.ofNat payload.length)

/-- One of the sessions that `main` spawns. -/
def session (ip : IpAddr) (port : UInt16) (payload : Bytes) (rounds : Nat) : Wire Failure UInt64 := do
  connectThroughProxy ip port
  pump payload rounds 0

section Session

variable {ip : IpAddr} {port : UInt16} {payload : Bytes} {rounds : Nat}

theorem writeAll_run (bs : Bytes) {p : Peer} (hp : p.Accepts) :
    (writeAll bs).run Peer.serve p = (.ok (), p.after p.input bs) := by
  rw [writeAll, Prog.run_op, Peer.serve_write hp]
  rfl

theorem readExact_run {n : Nat} (bs : Octets n) (rest : Bytes) {p : Peer} (h : p.input = bs.toList ++ rest) :
    (readExact n).run Peer.serve p = (.ok bs, p.after rest []) := by
  rw [readExact, Prog.run_op, Peer.serve_read_append bs rest h]
  rfl

/-- What it counts is what it has written, as far as the counter goes. -/
theorem pump_run (payload : Bytes) (rounds : Nat) (bytes : UInt64) {p : Peer} (hp : p.Accepts) :
    (pump payload rounds bytes).run Peer.serve p = (.ok (bytes + UInt64.ofNat (rounds * payload.length)),
      p.after p.input (List.replicate rounds payload).flatten) := by
  induction rounds generalizing bytes p with
  | zero => simp [pump]
  | succ rounds ih =>
    rw [pump, Prog.bind_eq, Prog.run_bind_ok (writeAll_run payload hp), ih _ (hp.after _ _), Nat.succ_mul, Nat.add_comm,
      UInt64.ofNat_add, ← UInt64.add_assoc]
    simp [List.replicate_succ]

/-- What a proxy sends to a client whose session has been set up. -/
def welcome : Bytes := openingReply none ++ replyBytes ReplyCode.success

/-- All that the session sends. -/
def stream (ip : IpAddr) (port : UInt16) (payload : Bytes) (rounds : Nat) : Bytes :=
  Gateway.chainBytes ⟨.ip ip, port⟩ ++ (List.replicate rounds payload).flatten

theorem session_run (ip : IpAddr) (port : UInt16) (payload : Bytes) (rounds : Nat) (more : Bytes) :
    (session ip port payload rounds).run Peer.serve (.sending (welcome ++ more) ⟨.other, ""⟩) =
      (.ok (UInt64.ofNat (rounds * payload.length)),
        (Peer.sending (welcome ++ more) ⟨.other, ""⟩).after more (stream ip port payload rounds)) := by
  have hconnect : (connectThroughProxy ip port).run Peer.serve (.sending (welcome ++ more) ⟨.other, ""⟩) =
      (.ok (), (Peer.sending (welcome ++ more) ⟨.other, ""⟩).after more (Gateway.chainBytes ⟨.ip ip, port⟩)) := by
    have hp := Peer.accepts_sending (welcome ++ more) ⟨.other, ""⟩
    exact Prog.run_bind_eq_ok.mpr ⟨(), _, writeAll_run _ hp, Prog.run_bind_eq_ok.mpr
      ⟨⟨[version, Method.noAuth], rfl⟩, _, readExact_run _ (replyBytes ReplyCode.success ++ more) rfl,
        Prog.run_bind_eq_ok.mpr ⟨(), _, rfl, Prog.run_bind_eq_ok.mpr ⟨(), _, rfl,
          Prog.run_bind_eq_ok.mpr ⟨(), _, writeAll_run _ ((hp.after _ _).after _ _), Prog.run_bind_eq_ok.mpr
            ⟨⟨replyBytes ReplyCode.success, rfl⟩, _, readExact_run _ more rfl,
              Prog.run_ofExcept_eq_ok.mpr ⟨ensure_eq_ok.mpr rfl, by simp [Gateway.chainBytes]⟩⟩⟩⟩⟩⟩⟩
  rw [session, Prog.bind_eq, Prog.run_bind_ok hconnect, pump_run _ _ _ ((Peer.accepts_sending _ _).after _ _)]
  simp [stream]

/-- Where it waits: for the selection, having sent the greeting, or for the reply, having sent the request. -/
theorem connect_at_read {fs : List StreamEvent} {n : Nat} {k : (StreamOp.read n).Ans → Wire Failure Unit}
    (h : (connectThroughProxy ip port).Path fs (.op (.read n) k)) (hok : ∀ e ∈ fs, e.ok) :
    (fs.flatMap StreamEvent.put = [version, 1, 0] ∧ fs.flatMap StreamEvent.got = [] ∧ n = 2) ∨
      (fs.flatMap StreamEvent.put = Gateway.chainBytes ⟨.ip ip, port⟩ ∧ (fs.flatMap StreamEvent.got).length = 2 ∧
        n = 10) := by
  rcases h.op_inv with ⟨-, hq⟩ | ⟨a, fs₁, rfl, h₁⟩
  · cases hq
  rw [List.forall_mem_cons] at hok
  rcases a with f | ⟨⟩
  · cases hok.1
  rcases h₁.op_inv with ⟨rfl, hq⟩ | ⟨a, fs₂, rfl, h₂⟩
  · injection hq with hn
    injection hn with hn
    exact .inl ⟨rfl, rfl, hn⟩
  rw [List.forall_mem_cons] at hok
  rcases a with f | sel
  · cases hok.2.1
  -- the checks read and write nothing
  rcases h₂.ofExcept_bind_inv with ⟨e, -, hq⟩ | ⟨_, -, h₃⟩
  · cases hq
  rcases h₃.ofExcept_bind_inv with ⟨e, -, hq⟩ | ⟨_, -, h₃⟩
  · cases hq
  rcases h₃.ofExcept_bind_inv with ⟨e, -, hq⟩ | ⟨_, -, h₄⟩
  · cases hq
  rcases h₄.op_inv with ⟨-, hq⟩ | ⟨a, fs₃, rfl, h₅⟩
  · cases hq
  rcases a with f | ⟨⟩
  · cases hok.2.2 _ List.mem_cons_self
  rcases h₅.op_inv with ⟨rfl, hq⟩ | ⟨a, fs₄, rfl, h₆⟩
  · injection hq with hn
    injection hn with hn
    exact .inr ⟨by simp [StreamEvent.put, Gateway.chainBytes], by simp [StreamEvent.got], hn⟩
  -- what is left is the check of the reply
  rcases a with f | reply
  · cases hok.2.2 _ (List.mem_cons_of_mem _ List.mem_cons_self)
  rcases h₆.ofExcept_bind_inv with ⟨e, -, hq⟩ | ⟨_, -, h₇⟩
  · cases hq
  exact (h₇.performs (G := fun _ => False) (Prog.respects_ofExcept _)).1.elim

theorem performs_pump (payload : Bytes) (rounds : Nat) (bytes : UInt64) :
    (pump payload rounds bytes).Performs fun o => o = .write payload := by
  induction rounds generalizing bytes with
  | zero => trivial
  | succ rounds ih => exact .bind (Prog.respects_opExcept rfl) fun _ => ih _

/-- Where the session waits: for the selection, having sent the greeting, or for the reply, having sent the request. -/
theorem session_at_read {fs : List StreamEvent} {n : Nat} {k : (StreamOp.read n).Ans → Wire Failure UInt64}
    (h : (session ip port payload rounds).Path fs (.op (.read n) k)) (hok : ∀ e ∈ fs, e.ok) :
    (fs.flatMap StreamEvent.put = [version, 1, 0] ∧ fs.flatMap StreamEvent.got = [] ∧ n = 2) ∨
      (fs.flatMap StreamEvent.put = Gateway.chainBytes ⟨.ip ip, port⟩ ∧ (fs.flatMap StreamEvent.got).length = 2 ∧
        n = 10) := by
  rcases Prog.Path.bind_inv h with ⟨p, hp, hne, hq⟩ | ⟨_, fs₁, fs₂, rfl, -, h₂⟩
  · cases p with
    | ret a => exact absurd rfl (hne a)
    | fail e => cases hq
    | op o k' =>
      injection hq with ho
      subst ho
      exact connect_at_read hp hok
  · cases (h₂.performs (performs_pump _ _ _)).1

end Session

end Loadgen

/-! ## The network with the load generator -/

namespace Net

/-- The network as it is if the client sends `client`. -/
def sending (s : Net) (client : Bytes) : Net := { s with client := client }

section Sending

variable {s s' : Net} {act : Act} {full : Bytes}

theorem delivered_sending (hle : s.arrived .clientToGateway ≤ s.client.length) (hfull : s.client <+: full)
    (c : Channel) : (s.sending full).delivered c = s.delivered c := by
  cases c with
  | clientToGateway =>
    obtain ⟨t, rfl⟩ := hfull
    exact List.take_append_of_le_length hle
  | _ => rfl

/-- A step is one also if the client is to send more. -/
theorem BenignStep.sending (h : s.BenignStep act s') (hle : s.arrived .clientToGateway ≤ s.client.length)
    (hfull : s.client <+: full) : (s.sending full).BenignStep act (s'.sending full) := by
  obtain ⟨hbenign, hstep⟩ := h
  cases act with
  | deliver c n =>
    refine ⟨hbenign, ?_⟩
    simp only [Step, exec] at hstep ⊢
    split at hstep
    · next hn =>
      cases hstep
      have hmore : (s.sent c).length ≤ ((s.sending full).sent c).length := by
        cases c with
        | clientToGateway => exact hfull.length_le
        | _ => exact le_rfl
      exact if_pos (hn.trans hmore)
    · cases hstep
  | gateway a =>
    refine ⟨hbenign, ?_⟩
    obtain ⟨g, hg, hstep⟩ := Option.bind_eq_some_iff.mp hstep
    split at hstep
    · next hgot =>
      cases hstep
      refine Option.bind_eq_some_iff.mpr ⟨g, hg, if_pos ?_⟩
      rwa [delivered_sending hle hfull, delivered_sending hle hfull]
    · cases hstep
  | node a =>
    refine ⟨hbenign, ?_⟩
    obtain ⟨n, hn, hstep⟩ := Option.bind_eq_some_iff.mp hstep
    split at hstep
    · next hgot =>
      cases hstep
      refine Option.bind_eq_some_iff.mpr ⟨n, hn, if_pos ?_⟩
      rwa [delivered_sending hle hfull, delivered_sending hle hfull]
    · cases hstep

theorem client_of_step (h : s.Step act s') : s'.client = s.client := by
  rcases exec_cases h with ⟨_, rfl⟩ | ⟨_, _, -, -, -, rfl⟩ | ⟨_, _, -, -, -, rfl⟩ <;> rfl

theorem put_prefix_step (h : s.Step act s') (t : Side) : s.gateway.put t <+: s'.gateway.put t := by
  rcases exec_cases h with ⟨_, rfl⟩ | ⟨_, _, hexec, -, -, rfl⟩ | ⟨_, _, -, -, -, rfl⟩
  · exact List.prefix_rfl
  · exact Party.put_prefix_exec hexec t
  · exact List.prefix_rfl

end Sending

section Answers

variable {auth : Option (String × String)} {opening payload target : Bytes} {dest : SocksAddr} {s : Net}
variable {gs : List (SessionEvent Gateway.Control.Ans)} {ns : List (SessionEvent Agent.Control.Ans)}
variable {gmoved nmoved : Side → Bytes}

/-- What the gateway sends to a client that it serves. -/
theorem Intact.put_client (h : s.Intact auth (opening ++ payload) target gs gmoved ns nmoved)
    (hop : Opening auth opening ⟨.connect, dest⟩) :
    s.gateway.put .front <+: openingReply auth ++ replyBytes ReplyCode.success ++ target := by
  rcases h.gateway.relaying with hidle | ⟨k, hk⟩
  · rw [h.gateway.put, (hidle _).1, List.append_nil]
    exact (h.gateway_on_track hop).put_front.trans (List.prefix_append _ _)
  · have hinv := h.inv.relaying ⟨k, hk⟩
    obtain ⟨gs, ns, gmoved, nmoved, hl⟩ := hinv.linked hop
    obtain ⟨hndown, hgdown⟩ := hl.downstream hinv
    obtain ⟨k, hg⟩ := hl.gateway
    have hput := hg.put .front
    rw [hl.gateway_put_front] at hput
    exact hput.trans ((List.prefix_append_right_inj _).mpr (hgdown.trans hndown))

/-- A gateway that has not answered the greeting is in its handshake, and waits for no more than the greeting. -/
theorem gateway_unanswered {g : Gateway.Handler (UInt64 × UInt64)} {more : Bytes}
    (hop : Opening none (Gateway.chainBytes dest) ⟨.connect, dest⟩) (h : (Gateway.runWithCtx none).Path gs g)
    (hok : ∀ e ∈ gs, e.ok) (hfront : gs.flatMap (SessionEvent.got .front) <+: Gateway.chainBytes dest ++ more)
    (hput : (gs.flatMap (SessionEvent.put .front)).length < 2) :
    ¬ g.Final ∧ (∀ k, g ≠ .op .relay k) ∧ ∀ t n k, g = .op (.io t (.read n)) k →
      t = .front ∧ (gs.flatMap (SessionEvent.got .front)).length + n ≤ 3 := by
  rcases h.embed_bind_inv with ⟨fs, p, rfl, hfs, hne, rfl⟩ | ⟨q, fs, es, rfl, hfs, -⟩
  · have hok' : ∀ e ∈ fs, StreamEvent.ok e := fun e he => hok _ (List.mem_map_of_mem he)
    rw [flatMap_got_on, if_pos rfl] at hfront
    rw [flatMap_put_on, if_pos rfl] at hput
    obtain ⟨hfail, -, -⟩ := handshake_on_track hop hfs hok' hfront
    obtain ⟨hrunning, hnext⟩ := embed_bind_next (A := Gateway.Control.Ans) (s := .front)
      (f := Gateway.serveRequest) hne hfail
    refine ⟨hrunning, fun k => embed_bind_ne_relay hne, fun t n k hk => ?_⟩
    obtain ⟨rfl, k', rfl⟩ := hnext t n k hk
    rw [flatMap_got_on, if_pos rfl]
    exact ⟨rfl, handshake_at_read hfs hok' hfront hput⟩
  · -- the handshake has ended, and has been answered
    rw [List.forall_mem_append] at hok
    obtain ⟨-, hanswer⟩ := handshake_history hfs fun e he => hok.1 _ (List.mem_map_of_mem he)
    have hlen : (openingReply none).length = 2 := rfl
    rw [List.flatMap_append, flatMap_put_on, if_pos rfl, hanswer, List.length_append, hlen] at hput
    omega

end Answers

end Net

/-- The load generator has no control operations. -/
def noControl : Empty → Type := fun _ => Unit

/-- So nothing can be answered badly. -/
def goodControl (c : Empty) (_ : noControl c) : Prop := True

structure LoadNet where
  client : Party noControl Loadgen.Failure UInt64
  /-- The network; what its client has sent is what the load generator has. -/
  net : Net

namespace LoadNet

inductive Act
  | client (act : Party.Act noControl)
  | net (act : Net.Act)

def exec (s : LoadNet) : Act → Option LoadNet
  | .client act => do
    let c ← s.client.exec act
    if c.got .front <+: s.net.delivered .gatewayToClient then some ⟨c, s.net.sending (c.put .front)⟩ else none
  | .net act => do
    let n ← s.net.exec act
    some { s with net := n }

/-- Nothing fails, and something happens. -/
def Benign (s : LoadNet) : Act → Prop
  | .client act => s.client.Benign goodControl act
  | .net act => s.net.Benign act

def BenignStep (s : LoadNet) (act : Act) (s' : LoadNet) : Prop := s.Benign act ∧ s.exec act = some s'

/-- Nothing is left to do. -/
def Quiet (s : LoadNet) : Prop := ∀ act s', ¬ s.BenignStep act s'

/-- Nothing has happened yet. The gateway asks for no credentials. -/
def start (ip : IpAddr) (port : UInt16) (payload : Bytes) (rounds : Nat) (target : Bytes) : LoadNet where
  client := .start ((Loadgen.session ip port payload rounds).embed .front)
  net := .start none [] target

/-! ## What has happened -/

/-- After `steps` steps, in which the load generator has done the operations `fs`: it sends its stream, and the network
is where it can be with a client that sends what it has sent, or anything that begins with that. -/
structure Sound (ip : IpAddr) (port : UInt16) (payload : Bytes) (rounds : Nat) (target : Bytes) (steps : Nat)
    (fs : List StreamEvent) (s : LoadNet) : Prop where
  intact : Party.Intact goodControl ((Loadgen.session ip port payload rounds).embed .front) s.client
    (fs.map (StreamEvent.on noControl .front)) fun _ => []
  path : ∃ p, (Loadgen.session ip port payload rounds).Path fs p ∧ s.client.prog = p.embed .front
  sends : s.net.client = s.client.put .front
  within : s.client.put .front <+: Loadgen.stream ip port payload rounds
  got : s.client.got .front <+: s.net.gateway.put .front
  runs : ∀ full, s.net.client <+: full → ∃ acts,
    Run Net.BenignStep (.start none full target) acts (s.net.sending full) ∧
    steps ≤ s.client.work (fs.map (StreamEvent.on noControl .front)) + acts.length

section Sound

variable {ip : IpAddr} {port : UInt16} {payload target : Bytes} {rounds steps : Nat} {fs : List StreamEvent}
variable {s s' : LoadNet} {act : Act}

/-- An address can be sent. -/
theorem opening_ip (ip : IpAddr) (port : UInt16) :
    Opening none (Gateway.chainBytes ⟨.ip ip, port⟩) ⟨.connect, ⟨.ip ip, port⟩⟩ := opening_chainBytes trivial

/-- What the load generator has got and put is what its operations have. -/
theorem Sound.streams (h : s.Sound ip port payload rounds target steps fs) :
    s.client.got .front = fs.flatMap StreamEvent.got ∧ s.client.put .front = fs.flatMap StreamEvent.put ∧
      s.client.got .back = [] ∧ s.client.put .back = [] := by
  obtain ⟨p, -, hprog⟩ := h.path
  have hidle := h.intact.idle fun k hk => embed_ne_relay (hprog.symm.trans hk)
  refine ⟨?_, ?_, ?_, ?_⟩
  · rw [h.intact.got, (hidle .front).2, flatMap_got_on, if_pos rfl]
    simp
  · rw [h.intact.put, flatMap_put_on, if_pos rfl]
    simp
  · rw [h.intact.got, (hidle .back).2, flatMap_got_on, if_neg (by decide)]
    rfl
  · rw [h.intact.put, flatMap_put_on, if_neg (by decide)]
    rfl

theorem Sound.net_intact (h : s.Sound ip port payload rounds target steps fs) {full : Bytes}
    (hfull : s.net.client <+: full) :
    ∃ gs gmoved ns nmoved, (s.net.sending full).Intact none full target gs gmoved ns nmoved := by
  obtain ⟨acts, hrun, -⟩ := h.runs full hfull
  obtain ⟨gs, gmoved, ns, nmoved, hintact, -⟩ := Net.intact_run hrun
  exact ⟨gs, gmoved, ns, nmoved, hintact⟩

/-- What it gets is the beginning of a welcome, and of what the target sends. -/
theorem Sound.welcomed (h : s.Sound ip port payload rounds target steps fs) :
    s.net.gateway.put .front <+: Loadgen.welcome ++ target := by
  have hfull : s.net.client <+: Loadgen.stream ip port payload rounds := h.sends ▸ h.within
  obtain ⟨gs, gmoved, ns, nmoved, hintact⟩ := h.net_intact hfull
  exact hintact.put_client (opening_ip ip port)

/-- A step of the load generator. -/
theorem Sound.client_step (h : s.Sound ip port payload rounds target steps fs) {a : Party.Act noControl}
    {c : Party noControl Loadgen.Failure UInt64} (hact : s.client.Benign goodControl a)
    (hexec : s.client.exec a = some c) (hgot : c.got .front <+: s.net.delivered .gatewayToClient) :
    ∃ fs', Sound ip port payload rounds target (steps + 1) fs' ⟨c, s.net.sending (c.put .front)⟩ := by
  obtain ⟨es, moved, hintact, hwork⟩ := h.intact.exec hact hexec
  obtain ⟨fs', p, rfl, hp, hprog⟩ := hintact.path.embed_inv
  have hidle := hintact.idle fun k hk => embed_ne_relay (hprog.symm.trans hk)
  obtain rfl : moved = fun _ => [] := funext fun t => (hidle t).1
  have hgot' : fs'.flatMap StreamEvent.got = c.got .front := by
    rw [hintact.got, (hidle .front).2, flatMap_got_on, if_pos rfl]
    simp
  have hput' : fs'.flatMap StreamEvent.put = c.put .front := by
    rw [hintact.put, flatMap_put_on, if_pos rfl]
    simp
  have hsent : c.got .front <+: s.net.gateway.put .front := hgot.trans (s.net.prefix_sent _)
  have hok : ∀ e ∈ fs', StreamEvent.ok e := fun e he => hintact.ok _ (List.mem_map_of_mem he)
  refine ⟨fs', hintact, ⟨p, hp, hprog⟩, rfl, ?_, hsent, fun full hfull => ?_⟩
  · obtain ⟨rest, hrest⟩ := hsent.trans h.welcomed
    rw [← hgot'] at hrest
    have hput := hp.prefix_put hok (Peer.accepts_sending _ _) hrest.symm (Loadgen.session_run _ _ _ _ _)
    simpa [Peer.sending, hput'] using hput
  · have hold : s.net.client <+: full := h.sends ▸ (Party.put_prefix_exec hexec .front).trans hfull
    obtain ⟨acts, hrun, hle⟩ := h.runs full hold
    refine ⟨acts, hrun, ?_⟩
    change steps + 1 ≤ c.work _ + acts.length
    omega

/-- A step of the network. -/
theorem Sound.net_step (h : s.Sound ip port payload rounds target steps fs) {a : Net.Act} {n : Net}
    (hst : s.net.BenignStep a n) : Sound ip port payload rounds target (steps + 1) fs { s with net := n } := by
  have hclient := Net.client_of_step hst.2
  obtain ⟨gs, gmoved, ns, nmoved, hself⟩ := h.net_intact List.prefix_rfl
  refine ⟨h.intact, h.path, hclient.trans h.sends, h.within, h.got.trans (Net.put_prefix_step hst.2 _),
    fun full hfull => ?_⟩
  have hold : s.net.client <+: full := hclient ▸ hfull
  obtain ⟨acts, hrun, hle⟩ := h.runs full hold
  refine ⟨acts ++ [a], hrun.snoc (hst.sending (hself.arrived .clientToGateway) hold), ?_⟩
  change steps + 1 ≤ s.client.work _ + (acts ++ [a]).length
  rw [List.length_append, List.length_singleton]
  omega

theorem Sound.step (h : s.Sound ip port payload rounds target steps fs) (hst : s.BenignStep act s') :
    ∃ fs', s'.Sound ip port payload rounds target (steps + 1) fs' := by
  obtain ⟨hbenign, hexec⟩ := hst
  cases act with
  | client a =>
    obtain ⟨c, hc, hexec⟩ := Option.bind_eq_some_iff.mp hexec
    split at hexec
    · next hgot =>
      cases hexec
      exact h.client_step hbenign hc hgot
    · cases hexec
  | net a =>
    obtain ⟨n, hn, hexec⟩ := Option.bind_eq_some_iff.mp hexec
    cases hexec
    exact ⟨fs, h.net_step ⟨hbenign, hn⟩⟩

/-- An upper bound on the number of steps. -/
def mostSteps (ip : IpAddr) (port : UInt16) (payload : Bytes) (rounds : Nat) (target : Bytes) : Nat :=
  4 + rounds + (Loadgen.welcome ++ target).length + (Loadgen.stream ip port payload rounds).length +
    Net.mostSteps none ⟨.ip ip, port⟩ (Loadgen.stream ip port payload rounds) target

theorem Quiet.net (hq : s.Quiet) : s.net.Quiet := by
  intro a n hst
  have hn : s.net.exec a = some n := hst.2
  refine hq (.net a) { s with net := n } ⟨hst.1, ?_⟩
  simp only [exec, hn, Option.bind_eq_bind, Option.bind_some]

/-- What the two sides have sent to the load generator; there is only one. -/
def clientSource (s : LoadNet) : Side → Bytes
  | .front => s.net.gateway.put .front
  | .back => []

/-- The load generator does not wait for a selection. -/
theorem Quiet.selected (hq : s.Quiet) (h : s.Sound ip port payload rounds target steps fs)
    (hclient : s.net.client = [version, 1, 0]) : 2 ≤ (s.net.gateway.put .front).length := by
  by_contra hlt
  obtain ⟨gs, gmoved, ns, nmoved, hintact⟩ := h.net_intact List.prefix_rfl
  have hgateway : Party.Intact goodGateway (Gateway.runWithCtx none) s.net.gateway gs gmoved := hintact.gateway
  have hfront : gs.flatMap (SessionEvent.got .front) <+: Gateway.chainBytes ⟨.ip ip, port⟩ ++ [] := by
    refine ((hgateway.prefix_got .front).trans hintact.inv.gateway_front).trans ?_
    rw [show (s.net.sending s.net.client).client = s.net.client from rfl, hclient, List.append_nil]
    exact List.prefix_append _ _
  have hput : (gs.flatMap (SessionEvent.put .front)).length < 2 := by
    rw [hgateway.put, List.length_append] at hlt
    omega
  obtain ⟨hrunning, hrelay, hread⟩ :=
    Net.gateway_unanswered (opening_ip ip port) hgateway.path hgateway.ok hfront hput
  rcases hq.net.gateway_cases hintact with hfinal | ⟨t, n, k, hk, hlt'⟩ | ⟨⟨k, hk⟩, -⟩
  · exact hrunning hfinal
  · obtain ⟨rfl, hle⟩ := hread t n k hk
    rw [(hgateway.at_io hk .front).1] at hlt'
    simp only [Net.gatewaySource, hclient, List.length_cons, List.length_nil] at hlt'
    omega
  · exact hrelay k hk

/-- Nor for a reply. -/
theorem Quiet.replied (hq : s.Quiet) (h : s.Sound ip port payload rounds target steps fs)
    (hclient : s.net.client = Gateway.chainBytes ⟨.ip ip, port⟩) : 12 ≤ (s.net.gateway.put .front).length := by
  have hfull : s.net.client <+: Gateway.chainBytes ⟨.ip ip, port⟩ ++ [] := by rw [hclient, List.append_nil]
  obtain ⟨gs, gmoved, ns, nmoved, hintact⟩ := h.net_intact hfull
  have hsame : s.net.sending (Gateway.chainBytes ⟨.ip ip, port⟩ ++ []) = s.net := by
    rw [List.append_nil, ← hclient]
    rfl
  rw [hsame] at hintact
  obtain ⟨-, -, hdelivered⟩ := hq.net.served hintact (opening_ip ip port)
  rw [hq.net.delivered hintact] at hdelivered
  have hlen : (openingReply none ++ replyBytes ReplyCode.success).length = 12 := rfl
  have hput := congrArg List.length hdelivered
  rw [List.length_append, hlen] at hput
  change (s.net.gateway.put .front).length = _ at hput
  omega

/-- **Nobody waits.** In a quiet network the load generator has come to its end. -/
theorem Quiet.ended (hq : s.Quiet) (h : s.Sound ip port payload rounds target steps fs) :
    ∃ total, s.client.prog = .ret total ∧ (Loadgen.session ip port payload rounds).Path fs (.ret total) := by
  obtain ⟨p, hp, hprog⟩ := h.path
  obtain ⟨hgot, hput, hgotB, -⟩ := h.streams
  have hok : ∀ e ∈ fs, StreamEvent.ok e := fun e he => h.intact.ok _ (List.mem_map_of_mem he)
  have hsource (t : Side) : s.client.got t <+: s.clientSource t := by
    cases t with
    | front => exact h.got
    | back => rw [hgotB]; exact List.nil_prefix
  obtain ⟨gs, gmoved, ns, nmoved, hintact⟩ := h.net_intact List.prefix_rfl
  have hans (c : Empty) : goodControl c () := trivial
  rcases Party.exists_benign hsource hans with
    hfinal | ⟨t, n, k, hk, hlt⟩ | ⟨⟨k, hk⟩, -⟩ | ⟨a, c, hact, hexec, hgot'⟩
  · cases p with
    | ret total => exact ⟨total, hprog, hp⟩
    | fail e =>
      obtain ⟨rest, hrest⟩ := h.got.trans h.welcomed
      rw [hgot] at hrest
      exact absurd rfl
        (hp.ne_fail hok (Peer.accepts_sending _ _) hrest.symm (Loadgen.session_run ip port payload rounds target) e)
    | op o k =>
      rw [hprog] at hfinal
      exact hfinal.elim
  · -- it would have been answered
    rw [hprog] at hk
    obtain ⟨rfl, k', rfl⟩ : t = .front ∧ ∃ k', p = .op (.read n) k' := by
      cases p with
      | ret a => cases hk
      | fail e => cases hk
      | op o k' =>
        injection hk with hio
        injection hio with ht ho
        subst ht ho
        exact ⟨rfl, k', rfl⟩
    rw [hgot] at hlt
    change (s.net.gateway.put .front).length < _ at hlt
    have hclient := h.sends.trans hput
    rcases Loadgen.session_at_read hp hok with ⟨hsent, hnone, rfl⟩ | ⟨hsent, htwo, rfl⟩
    · have hle := hq.selected h (hclient.trans hsent)
      rw [hnone] at hlt
      exact absurd hlt (Nat.not_lt.mpr hle)
    · have hle := hq.replied h (hclient.trans hsent)
      omega
  · exact absurd (hprog.symm.trans hk) embed_ne_relay
  · refine absurd ⟨hact, ?_⟩ (hq (.client a) ⟨c, s.net.sending (c.put .front)⟩)
    have hall : c.got .front <+: s.net.delivered .gatewayToClient := by
      rw [hq.net.delivered hintact]
      exact hgot' .front
    simp only [exec, hexec, Option.bind_eq_bind, Option.bind_some]
    exact if_pos hall

/-- A quiet network has served the load generator. -/
theorem Quiet.served (hq : s.Quiet) (h : s.Sound ip port payload rounds target steps fs) :
    s.client.prog = .ret (UInt64.ofNat (rounds * payload.length)) ∧
      s.net.Dialled ⟨.ip ip, port⟩ ∧
      s.net.delivered .nodeToTarget = (List.replicate rounds payload).flatten ∧
      s.net.delivered .gatewayToClient = s.client.got .front ++ target := by
  obtain ⟨total, hprog, hp⟩ := hq.ended h
  obtain ⟨hgot, hput, -, -⟩ := h.streams
  have hok : ∀ e ∈ fs, StreamEvent.ok e := fun e he => h.intact.ok _ (List.mem_map_of_mem he)
  -- the operations are those of a run on what the gateway sends
  obtain ⟨rest, hrest⟩ := h.got.trans h.welcomed
  rw [hgot] at hrest
  have hrun := Loadgen.session_run ip port payload rounds target
  rw [hp.run_stream hok (Peer.accepts_sending _ _) hrest.symm, Prog.run_ret, Prod.mk.injEq] at hrun
  obtain ⟨htotal, hpeer⟩ := hrun
  obtain rfl : rest = target := congrArg Peer.input hpeer
  have hstream : s.net.client = Loadgen.stream ip port payload rounds := by
    rw [h.sends, hput]
    simpa [Peer.after, Peer.sending] using congrArg Peer.output hpeer
  obtain ⟨gs, gmoved, ns, nmoved, hintact⟩ := h.net_intact List.prefix_rfl
  rw [hstream] at hintact
  have hsame : s.net.sending (Loadgen.stream ip port payload rounds) = s.net := by
    rw [← hstream]
    rfl
  rw [hsame] at hintact
  obtain ⟨hctls, htarget, hclient⟩ := hq.net.served hintact (opening_ip ip port)
  refine ⟨?_, hctls, htarget, ?_⟩
  · rw [hprog]
    injection htotal with htotal
    rw [htotal]
  · rw [hclient, hgot]
    exact hrest.symm

end Sound

end LoadNet

end RustProxy.Chain
