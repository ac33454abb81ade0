import RustProxy.Proxy.Gate

/-!
# Requests that are not supported

A client that is let in and asks for another command than CONNECT, or for an address of an unknown type, is owed an
error reply. The command is looked at in two places, and only one of them replies: a request that the parser accepts is
refused by the handler, but a command or an address type that the parser does not know ends the session with no reply at
all (`unsupported_refused_iff`). No node and no target is reached for either.
-/

namespace RustProxy.Proxy

open Lib Protocol

/-! ## What is owed -/

def KnownAtyp (atyp : UInt8) : Prop := atyp = Atyp.ipv4 ∨ atyp = Atyp.domain ∨ atyp = Atyp.ipv6

theorem knownAtyp_atyp (a : SocksAddr) : KnownAtyp a.atyp := by
  rcases a with ⟨(o | o) | name, port⟩
  · exact .inl rfl
  · exact .inr (.inr rfl)
  · exact .inr (.inl rfl)

/-- The header of a request that is not a CONNECT to an address of a known type. -/
def Unsupported (cmd atyp : UInt8) : Prop := cmd ≠ Command.connect.toU8 ∨ ¬ KnownAtyp atyp

/-- The reply to such a header. -/
def OwedReply (cmd atyp : UInt8) (r : Reply) : Prop :=
  (cmd ≠ Command.connect.toU8 ∧ r.code = ReplyCode.commandNotSupported) ∨
    (¬ KnownAtyp atyp ∧ r.code = ReplyCode.addressTypeNotSupported)

/-- What a client sends before its request: a greeting, and credentials where they are asked for. -/
def Preface (auth : Option (String × String)) (bs : Bytes) : Prop :=
  ∃ (g : Greeting) (gb a : Bytes), bs = gb ++ a ∧ g.IsFrame gb ∧ Authenticates auth g a

section Sessions

variable {κ : Type} {A : κ → Type} {ε α : Type}

/-- After the answers to the opening, the client is sent the reply that is owed, and nothing else. -/
def Refuses (auth : Option (String × String)) (cmd atyp : UInt8) (session : Session A ε α) (e : Env A) : Prop :=
  ∃ r : Reply, OwedReply cmd atyp r ∧ ((session.run Env.serve e).2.peer .front).output =
    (e.peer .front).output ++ (openingReply auth ++ r.toBytes)

/-- No node is selected and no target is dialled: only the client's stream is used. -/
def KeepsToClient (session : Session A ε α) (e : Env A) : Prop :=
  ∀ x ∈ session.trace Env.serve e, ∃ o, x.1 = .io .front o

end Sessions

/-! ## Up to the request -/

section Outcome

variable (ε : Type) [SessionError ε] {auth : Option (String × String)} {p : Peer}

/-- After the preface, the handshake is the reading of the request. -/
theorem handshake_of_preface {bs rest : Bytes} (hpre : Preface auth bs) (hp : p.Accepts) (hin : p.input = bs ++ rest) :
    (handshake auth : Wire ε _).run Peer.serve p = readRequest.run Peer.serve (p.after rest (openingReply auth)) := by
  obtain ⟨g, gb, a, rfl, hg, hoff, ha⟩ := hpre
  obtain ⟨rfl, hgs⟩ := Greeting.isFrame_iff.mp hg
  rw [List.append_assoc] at hin
  have hgreet : (readGreeting : Wire ε _).run Peer.serve p = (.ok g, p.after (a ++ rest) []) :=
    readGreeting_eq_ok.mpr ⟨a ++ rest, hin, hgs, rfl⟩
  have hwrite : (writeAllTimeout (selectedMethod auth).toBytes : Wire ε _).run Peer.serve (p.after (a ++ rest) []) =
      (.ok (), p.after (a ++ rest) (selectedMethod auth).toBytes) := by
    rw [writeAllTimeout_run (hp.after _ _), Peer.after_input, Peer.after_after, List.nil_append]
  have hmethod : (require ((selectedMethod auth).method ≠ Method.noAcceptable)
      "no acceptable authentication method" : Wire ε _).run Peer.serve
        (p.after (a ++ rest) (selectedMethod auth).toBytes) =
      (.ok (), p.after (a ++ rest) (selectedMethod auth).toBytes) :=
    require_eq_ok.mpr ⟨selectedMethod_ne auth, rfl⟩
  have hauth : (authenticate auth (selectedMethod auth) : Wire ε _).run Peer.serve
      (p.after (a ++ rest) (selectedMethod auth).toBytes) = (.ok (), p.after rest (openingReply auth)) :=
    (authenticate_eq_ok (hp.after _ _)).mpr ⟨a, rest, ha, rfl, by simp [openingReply]⟩
  simp only [handshake, Prog.bind_eq]
  rw [Prog.run_bind_ok hgreet, negotiate_eq, if_pos hoff, Prog.run_bind_ok hwrite, Prog.run_bind_ok hmethod,
    Prog.run_bind_ok hauth]

/-- Reading a request writes nothing. -/
theorem output_readRequest (p : Peer) : ((readRequest : Wire ε _).run Peer.serve p).2.output = p.output := by
  refine Prog.Respects.run_inv (I := fun p' : Peer => p'.output = p.output) ?_ performs_readRequest rfl
  rintro _ p' ⟨n, rfl⟩ hp'
  refine ⟨trivial, ?_⟩
  rw [← hp', Peer.serve]
  split
  · rfl
  · rfl

/-- What becomes of a request that is not supported: it is read and is no CONNECT, or it is not read, for which the
parser would not accept it either. -/
theorem handshake_of_unsupported {bs tail : Bytes} {cmd rsv atyp : UInt8} (hpre : Preface auth bs)
    (hbad : Unsupported cmd atyp) (hp : p.Accepts) (hin : p.input = bs ++ version :: cmd :: rsv :: atyp :: tail) :
    (∃ q rest, (handshake auth : Wire ε _).run Peer.serve p = (.ok q, p.after rest (openingReply auth)) ∧
        q.command ≠ .connect ∧ cmd ≠ Command.connect.toU8 ∧
        ∃ n, Request.parse (version :: cmd :: rsv :: atyp :: tail) = .ok (q, n)) ∨
      ∃ x p', (handshake auth : Wire ε _).run Peer.serve p = (.error x, p') ∧
        p'.output = p.output ++ openingReply auth ∧
        ¬ ∃ q n, Request.parse (version :: cmd :: rsv :: atyp :: tail) = .ok (q, n) := by
  rw [handshake_of_preface ε hpre hp hin]
  rcases hrun : (readRequest : Wire ε _).run Peer.serve
    (p.after (version :: cmd :: rsv :: atyp :: tail) (openingReply auth)) with ⟨x | q, p'⟩
  · have hout := output_readRequest ε (p.after (version :: cmd :: rsv :: atyp :: tail) (openingReply auth))
    rw [hrun] at hout
    refine .inr ⟨x, p', rfl, hout, ?_⟩
    rintro ⟨q, n, hparse⟩
    obtain ⟨rsv', rest, hframe, -, hs⟩ := Request.parse_eq_ok.mp hparse
    cases hrun.symm.trans (readRequest_eq_ok.mpr ⟨rsv', rest, hframe, hs, rfl⟩)
  · obtain ⟨rsv', rest, hframe, hs, rfl⟩ := readRequest_eq_ok.mp hrun
    have hparse : Request.parse (version :: cmd :: rsv :: atyp :: tail) = .ok (q, (q.frame rsv').length) :=
      Request.parse_eq_ok.mpr ⟨rsv', rest, hframe, rfl, hs⟩
    simp only [Peer.after_input, Request.frame, List.cons_append, List.cons.injEq] at hframe
    obtain ⟨-, rfl, -, rfl, -⟩ := hframe
    have hcmd : q.command.toU8 ≠ Command.connect.toU8 := hbad.resolve_right (not_not.mpr (knownAtyp_atyp q.addr))
    exact .inl ⟨q, rest, by simp, fun h => hcmd (congrArg Command.toU8 h), hcmd, _, hparse⟩

end Outcome

/-! ## What is sent -/

/-- A reply is not nothing. -/
theorem ne_append_reply {bs : Bytes} (r : Reply) : bs ≠ bs ++ r.toBytes := by
  intro h
  have hlen := congrArg List.length h
  simp only [List.length_append, Reply.toBytes, Reply.frame, List.length_cons] at hlen
  omega

section Refusal

variable {κ : Type} {A : κ → Type} {ε α : Type} [SessionError ε] {auth : Option (String × String)} {e : Env A}

/-- A session that begins with the handshake and refuses other commands, on a request that is not supported. -/
theorem unsupported_session {body : Request → Session A ε α}
    (hother : ∀ q : Request, q.command ≠ .connect →
      ∃ x, body q = (refuse ReplyCode.commandNotSupported x).embed .front)
    {bs tail : Bytes} {cmd rsv atyp : UInt8} (hpre : Preface auth bs) (hbad : Unsupported cmd atyp)
    (hp : (e.peer .front).Accepts) (hin : (e.peer .front).input = bs ++ version :: cmd :: rsv :: atyp :: tail) :
    KeepsToClient (((handshake auth).embed .front).bind body) e ∧
      (Refuses auth cmd atyp (((handshake auth).embed .front).bind body) e ↔
        ∃ q n, Request.parse (version :: cmd :: rsv :: atyp :: tail) = .ok (q, n)) := by
  have hembed := run_embed (A := A) .front (handshake auth : Wire ε _) e
  rcases handshake_of_unsupported ε hpre hbad hp hin with
    ⟨q, rest, hrun, hq, hcmd, n, hparse⟩ | ⟨x, p', hrun, hout, hparse⟩
  · rw [hrun] at hembed
    obtain ⟨x, hbody⟩ := hother q hq
    constructor
    · intro y hy
      rw [Prog.trace_bind_ok hembed, hbody, List.mem_append] at hy
      rcases hy with hy | hy
      · exact (performs_embed .front _).trace e y hy
      · exact (performs_embed .front _).trace _ y hy
    · refine iff_of_true ⟨simpleReply ReplyCode.commandNotSupported, .inl ⟨hcmd, rfl⟩, ?_⟩ ⟨q, n, hparse⟩
      rw [Prog.run_bind_ok hembed, hbody, output_refuse (by rw [Env.peer_setPeer]; exact hp.after _ _),
        Env.peer_setPeer, Peer.after_output, List.append_assoc]
      rfl
  · rw [hrun] at hembed
    constructor
    · intro y hy
      rw [Prog.trace_bind, hembed, List.append_nil] at hy
      exact (performs_embed .front _).trace e y hy
    · refine iff_of_false ?_ hparse
      rintro ⟨r, -, hr⟩
      rw [Prog.run_bind_error hembed, Env.peer_setPeer, hout] at hr
      exact ne_append_reply r (List.append_cancel_left hr)

end Refusal

/-- **Unsupported requests.** A client is let in and sends the header of a request that is no CONNECT, or that has an
address of an unknown type. Neither handler then selects a node or dials a target; and each of them sends the error
reply that is owed, and nothing else, if and only if the parser accepts the request. -/
theorem unsupported_refused_iff {auth : Option (String × String)} {bs : Bytes} (cmd rsv atyp : UInt8) (tail : Bytes)
    (hpre : Preface auth bs) (hbad : Unsupported cmd atyp) (atEnd : IoError) (eg : Env Gateway.Control.Ans)
    (en : Env Agent.Control.Ans) :
    let client := Peer.sending (bs ++ version :: cmd :: rsv :: atyp :: tail) atEnd
    (KeepsToClient (Gateway.runWithCtx auth) (eg.setPeer .front client) ∧
      KeepsToClient (Agent.runWithCtx auth) (en.setPeer .front client)) ∧
    (Refuses auth cmd atyp (Gateway.runWithCtx auth) (eg.setPeer .front client) ↔
      ∃ q n, Request.parse (version :: cmd :: rsv :: atyp :: tail) = .ok (q, n)) ∧
    (Refuses auth cmd atyp (Agent.runWithCtx auth) (en.setPeer .front client) ↔
      ∃ q n, Request.parse (version :: cmd :: rsv :: atyp :: tail) = .ok (q, n)) := by
  intro client
  have hgateway : KeepsToClient (Gateway.runWithCtx auth) (eg.setPeer .front client) ∧ (_ ↔ _) :=
    unsupported_session (fun q hq => ⟨_, if_pos hq⟩) hpre hbad
      (by rw [Env.peer_setPeer]; exact Peer.accepts_sending _ _) (by rw [Env.peer_setPeer]; rfl)
  have hnode : KeepsToClient (Agent.runWithCtx auth) (en.setPeer .front client) ∧ (_ ↔ _) :=
    unsupported_session (fun q hq => ⟨_, if_pos hq⟩) hpre hbad
      (by rw [Env.peer_setPeer]; exact Peer.accepts_sending _ _) (by rw [Env.peer_setPeer]; rfl)
  exact ⟨⟨hgateway.1, hnode.1⟩, hgateway.2, hnode.2⟩

/-! ## Concrete sessions -/

/-- A gateway and a node whose surroundings never answer. -/
def silentGateway : Env Gateway.Control.Ans where
  peer _ := .sending [] ⟨.unexpectedEof, "early eof"⟩
  answer
    | .selectNode => none
    | .connect _ => .error .elapsed
  relayed := .error .elapsed

@[inherit_doc silentGateway] def silentNode : Env Agent.Control.Ans where
  peer _ := .sending [] ⟨.unexpectedEof, "early eof"⟩
  answer
    | .dial _ => .error .elapsed
  relayed := .error .elapsed

/-- A client that needs no credentials and sends the request. -/
def requesting (request : Bytes) : Peer := .sending ([5, 1, 0] ++ request) ⟨.unexpectedEof, "early eof"⟩

theorem preface_example : Preface none [5, 1, 0] :=
  ⟨⟨[0]⟩, [5, 1, 0], [], rfl, Greeting.isFrame_iff.mpr ⟨rfl, by decide, by decide⟩, by decide, rfl⟩

/-- A BIND to 10.0.0.1:80 is refused. -/
theorem bind_refused :
    Refuses none 2 Atyp.ipv4 (Gateway.runWithCtx none)
        (silentGateway.setPeer .front (requesting [5, 2, 0, 1, 10, 0, 0, 1, 0, 80])) ∧
      Refuses none 2 Atyp.ipv4 (Agent.runWithCtx none)
        (silentNode.setPeer .front (requesting [5, 2, 0, 1, 10, 0, 0, 1, 0, 80])) := by
  have hiff := unsupported_refused_iff 2 0 Atyp.ipv4 [10, 0, 0, 1, 0, 80] preface_example (.inl (by decide))
    ⟨.unexpectedEof, "early eof"⟩ silentGateway silentNode
  have hparse : ∃ q n, Request.parse [5, 2, 0, 1, 10, 0, 0, 1, 0, 80] = .ok (q, n) :=
    ⟨⟨.bind, .ip (.v4 ⟨[10, 0, 0, 1], rfl⟩), 80⟩, 10, Request.parse_eq_ok.mpr ⟨0, [], rfl, rfl, trivial⟩⟩
  exact ⟨hiff.2.1.mpr hparse, hiff.2.2.mpr hparse⟩

/-- The session on that client, for its result and for what the client has been sent. -/
def gatewayOn (request : Bytes) : Except Gateway.GatewayError (UInt64 × UInt64) × Bytes :=
  let run := (Gateway.runWithCtx none).run Env.serve (silentGateway.setPeer .front (requesting request))
  (run.1, (run.2.peer .front).output)

@[inherit_doc gatewayOn]
def nodeOn (request : Bytes) : Except Agent.NodeError (Option (UInt64 × UInt64)) × Bytes :=
  let run := (Agent.runWithCtx none).run Env.serve (silentNode.setPeer .front (requesting request))
  (run.1, (run.2.peer .front).output)

/-- A command or an address type that the parser does not know: all that the handler waits for is there, and the client
is sent the method selection only. -/
theorem unknown_codes_unanswered :
    Preface none [5, 1, 0] ∧ Unsupported 9 Atyp.ipv4 ∧ Unsupported Command.connect.toU8 2 ∧
      gatewayOn [5, 9, 0, 1, 10, 0, 0, 1, 0, 80] = (.error (.protocol "unsupported code 0x09"), openingReply none) ∧
      nodeOn [5, 9, 0, 1, 10, 0, 0, 1, 0, 80] = (.error (.protocol "unsupported code 0x09"), openingReply none) ∧
      gatewayOn [5, 1, 0, 2] = (.error (.protocol "unsupported code 0x02"), openingReply none) ∧
      nodeOn [5, 1, 0, 2] = (.error (.protocol "unsupported code 0x02"), openingReply none) ∧
      ¬ Refuses none 9 Atyp.ipv4 (Gateway.runWithCtx none)
        (silentGateway.setPeer .front (requesting [5, 9, 0, 1, 10, 0, 0, 1, 0, 80])) := by
  have hcommand : gatewayOn [5, 9, 0, 1, 10, 0, 0, 1, 0, 80] =
      (.error (.protocol "unsupported code 0x09"), openingReply none) := by decide +kernel
  refine ⟨preface_example, .inl (by decide), .inr ?_, hcommand, by decide +kernel, by decide +kernel,
    by decide +kernel, ?_⟩
  · rintro (h | h | h) <;> cases h
  · rintro ⟨r, -, hr⟩
    have hout : openingReply none = openingReply none ++ r.toBytes := (congrArg Prod.snd hcommand).symm.trans hr
    exact ne_append_reply r hout

end RustProxy.Proxy
