import RustProxy.Lib.Session
import RustProxy.Protocol.Negotiation
import RustProxy.Protocol.Request

/-!
# The server's half of the handshake

The reading of greeting, credentials and request, which `gateway/src/handler.rs` and `node/src/handler.rs` have in
common up to their error types. Against a peer that accepts what is written to it, each reader succeeds exactly if the
input begins with the frame it is for, and consumes that frame and nothing else (`readGreeting_eq_ok`,
`handleUserPassAuth_eq_ok`, `readRequest_eq_ok`); so does the whole (`handshake_eq_ok`).
-/

namespace RustProxy.Proxy

open Lib Protocol

/-- The errors that both handlers report. -/
class SessionError (ε : Type) where
  protocol : String → ε
  timeout : String → ε
  io : IoError → ε

/-- Whether these are the credentials that the context asks for. -/
def credentialsOk (auth : Option (String × String)) (username password : String) : Bool :=
  match auth with
  | some (expectedUser, expectedPass) => username == expectedUser && password == expectedPass
  | none => false

theorem credentialsOk_iff {auth : Option (String × String)} {username password : String} :
    credentialsOk auth username password ↔ auth = some (username, password) := by
  rcases auth with _ | ⟨u, p⟩
  · simp [credentialsOk]
  · simp only [credentialsOk, Bool.and_eq_true, beq_iff_eq, Option.some.injEq, Prod.mk.injEq]
    exact and_congr eq_comm eq_comm

/-- What a handler does on one of its streams. -/
abbrev Wire (ε α : Type) := Prog StreamOp StreamOp.Ans ε α

section Programs

variable {ε α : Type} [SessionError ε]

/-- The answer to an operation under a deadline. -/
def checkFault (onTimeout : String) : Except IoFault α → Except ε α
  | .ok a => .ok a
  | .error .elapsed => .error (SessionError.timeout onTimeout)
  | .error (.err e) => .error (SessionError.io e)

def readExactTimeout (n : Nat) : Wire ε (Octets n) :=
  .op (.read n) fun a => .ofExcept (checkFault "handshake read timed out" a)

def writeAllTimeout (data : Bytes) : Wire ε Unit :=
  .op (.write data) fun a => .ofExcept (checkFault "handshake write timed out" a)

def replyBytes (code : UInt8) : Bytes := (simpleReply code).toBytes

theorem replyBytes_eq (code : UInt8) :
    replyBytes code = [version, code, 0, Atyp.ipv4] ++ [0, 0, 0, 0, hiByte 0, loByte 0] := rfl

def tryReply (code : UInt8) : Wire ε Unit := .op (.write (replyBytes code)) fun _ => .ret ()

/-- An error reply, and the error. -/
def refuse (code : UInt8) (e : ε) : Wire ε α := do
  tryReply code
  .fail e

/-- A protocol violation unless `c`. -/
def require (c : Prop) [Decidable c] (message : String) : Wire ε Unit :=
  .ofExcept (ensure c (SessionError.protocol message))

/-- The result of a parser, whose error is a protocol violation. -/
def parsed (r : Except ProtocolError α) : Wire ε α :=
  .ofExcept (r.mapError fun e => SessionError.protocol e.message)

def readGreeting : Wire ε Greeting := do
  let hdr ← readExactTimeout greetingHeaderLen
  let nmethods := (hdr.byte 1).toNat
  require (nmethods ≠ 0) "greeting: no methods"
  let methods ← readExactTimeout nmethods
  parsed (Greeting.parse (hdr.toList ++ methods.toList))

def handleUserPassAuth (auth : Option (String × String)) : Wire ε Unit := do
  let ver ← readExactTimeout 1
  require (ver.byte 0 = authVersion)
    ("auth frame version " ++ hexByte (ver.byte 0) ++ ", expected " ++ hexByte authVersion)
  let ulen ← readExactTimeout 1
  require (ulen.byte 0 ≠ 0) "invalid username length"
  let uname ← readExactTimeout (ulen.byte 0).toNat
  let plen ← readExactTimeout 1
  let passwd ← readExactTimeout (plen.byte 0).toNat
  let username ← .ofExcept (okOr (SessionError.protocol "invalid utf-8 in username") (fromUtf8 uname.toList))
  let password ← .ofExcept (okOr (SessionError.protocol "invalid utf-8 in password") (fromUtf8 passwd.toList))
  let ok := credentialsOk auth username password
  writeAllTimeout (authReplyBytes (if ok then AuthStatus.success else AuthStatus.failure))
  require ok "authentication failed"

/-- The request of a complete frame. -/
def parseRequest (full : Bytes) : Wire ε Request := parsed ((Request.parse full).map Prod.fst)

def readRequest : Wire ε Request := do
  let hdr ← readExactTimeout requestHeaderLen
  let atyp := hdr.byte 3
  if atyp = Atyp.domain then
    let lenByte ← readExactTimeout 1
    let total ← parsed (addrLen atyp (some (lenByte.byte 0)))
    let addrBuf ← readExactTimeout (total - 1)
    parseRequest (hdr.toList ++ (lenByte.toList ++ addrBuf.toList))
  else
    let total ← parsed (addrLen atyp none)
    let addrBuf ← readExactTimeout total
    parseRequest (hdr.toList ++ addrBuf.toList)

/-- The authentication that the selected method asks for. -/
def authenticate (auth : Option (String × String)) (method : MethodSelection) : Wire ε Unit :=
  if method.method = Method.userPass then handleUserPassAuth auth else .ret ()

/-- `run_with_ctx` up to the request. -/
def handshake (auth : Option (String × String)) : Wire ε Request := do
  let greeting ← readGreeting
  let method := negotiate greeting auth.isSome auth.isNone
  writeAllTimeout method.toBytes
  require (method.method ≠ Method.noAcceptable) "no acceptable authentication method"
  authenticate auth method
  readRequest

end Programs

/-! ## Failures end the handshake -/

section Strict

variable {ε α : Type}

theorem strict_refuse (code : UInt8) (e : ε) : (refuse code e : Wire ε α).Strict :=
  ⟨fun _ _ => trivial, fun _ _ => ⟨e, rfl⟩⟩

variable [SessionError ε]

theorem strict_checkFault {o : StreamOp} {f : o.Ans → Except IoFault α} (hf : ∀ a, o.isOk a = (f a).isOk)
    (onTimeout : String) : (.op o fun a => .ofExcept (checkFault onTimeout (f a)) : Wire ε α).Strict := by
  refine ⟨fun a _ => Prog.strict_ofExcept _, fun a ha => ?_⟩
  rw [hf] at ha
  rcases hr : f a with (e | _) | x
  · exact ⟨_, congrArg (fun r => Prog.ofExcept (checkFault onTimeout r)) hr⟩
  · exact ⟨_, congrArg (fun r => Prog.ofExcept (checkFault onTimeout r)) hr⟩
  · rw [hr] at ha
    cases ha

theorem strict_readExactTimeout (n : Nat) : (readExactTimeout n : Wire ε _).Strict :=
  strict_checkFault (o := .read n) (fun _ => rfl) _

theorem strict_writeAllTimeout (data : Bytes) : (writeAllTimeout data : Wire ε _).Strict :=
  strict_checkFault (o := .write data) (fun _ => rfl) _

theorem strict_readGreeting : (readGreeting : Wire ε _).Strict :=
  .bind (strict_readExactTimeout _) fun _ => .bind (Prog.strict_ofExcept _) fun _ =>
    .bind (strict_readExactTimeout _) fun _ => Prog.strict_ofExcept _

theorem strict_handleUserPassAuth (auth : Option (String × String)) : (handleUserPassAuth auth : Wire ε _).Strict :=
  .bind (strict_readExactTimeout _) fun _ => .bind (Prog.strict_ofExcept _) fun _ =>
    .bind (strict_readExactTimeout _) fun _ => .bind (Prog.strict_ofExcept _) fun _ =>
      .bind (strict_readExactTimeout _) fun _ => .bind (strict_readExactTimeout _) fun _ =>
        .bind (strict_readExactTimeout _) fun _ => .bind (Prog.strict_ofExcept _) fun _ =>
          .bind (Prog.strict_ofExcept _) fun _ => .bind (strict_writeAllTimeout _) fun _ => Prog.strict_ofExcept _

theorem strict_readRequest : (readRequest : Wire ε _).Strict := by
  refine .bind (strict_readExactTimeout _) fun hdr => ?_
  dsimp only
  split
  · exact .bind (strict_readExactTimeout _) fun _ => .bind (Prog.strict_ofExcept _) fun _ =>
      .bind (strict_readExactTimeout _) fun _ => Prog.strict_ofExcept _
  · exact .bind (Prog.strict_ofExcept _) fun _ => .bind (strict_readExactTimeout _) fun _ => Prog.strict_ofExcept _

theorem strict_handshake (auth : Option (String × String)) : (handshake auth : Wire ε _).Strict := by
  refine .bind strict_readGreeting fun g => .bind (strict_writeAllTimeout _) fun _ =>
    .bind (Prog.strict_ofExcept _) fun _ => .bind ?_ fun _ => strict_readRequest
  unfold authenticate
  split
  · exact strict_handleUserPassAuth auth
  · trivial

end Strict

/-! ## Reading only -/

section ReadOnly

variable {ε : Type} [SessionError ε]

theorem performs_readExactTimeout (n : Nat) : (readExactTimeout n : Wire ε _).Performs fun o => ∃ n, o = .read n :=
  Prog.respects_opExcept ⟨n, rfl⟩

theorem performs_readGreeting : (readGreeting : Wire ε _).Performs fun o => ∃ n, o = .read n :=
  .bind (performs_readExactTimeout _) fun _ => .bind (Prog.respects_ofExcept _) fun _ =>
    .bind (performs_readExactTimeout _) fun _ => Prog.respects_ofExcept _

theorem performs_readRequest : (readRequest : Wire ε _).Performs fun o => ∃ n, o = .read n := by
  refine .bind (performs_readExactTimeout _) fun hdr => ?_
  dsimp only
  split
  · exact .bind (performs_readExactTimeout _) fun _ => .bind (Prog.respects_ofExcept _) fun _ =>
      .bind (performs_readExactTimeout _) fun _ => Prog.respects_ofExcept _
  · exact .bind (Prog.respects_ofExcept _) fun _ => .bind (performs_readExactTimeout _) fun _ =>
      Prog.respects_ofExcept _

end ReadOnly

/-! ## What the readers accept -/

section Readers

variable {ε α : Type} [SessionError ε] {p p' : Peer}

theorem run_checkFault {o : StreamOp} {onTimeout : String} {a : α} (f : o.Ans → Except IoFault α) :
    (Prog.op o fun x => Prog.ofExcept (checkFault onTimeout (f x)) : Wire ε α).run Peer.serve p = (.ok a, p') ↔
      f (Peer.serve o p).1 = .ok a ∧ p' = (Peer.serve o p).2 := by
  rw [Prog.run_op]
  generalize f (Peer.serve o p).1 = r
  rcases r with (e | _) | b
  · simp [checkFault]
  · simp [checkFault]
  · simp [checkFault, eq_comm]

theorem readExactTimeout_eq_ok {n : Nat} {bs : Octets n} :
    (readExactTimeout n : Wire ε _).run Peer.serve p = (.ok bs, p') ↔
      ∃ rest, p.input = bs.toList ++ rest ∧ p' = p.after rest [] := by
  rw [← Peer.serve_read_eq_ok]
  refine (run_checkFault (o := .read n) id).trans ?_
  rw [Prod.ext_iff]
  exact and_congr_right fun _ => eq_comm

theorem writeAllTimeout_eq_ok {data : Bytes} {u : Unit} :
    (writeAllTimeout data : Wire ε _).run Peer.serve p = (.ok u, p') ↔
      p.refuses (p.output ++ data) = none ∧ p' = p.after p.input data := by
  rw [← Peer.serve_write_eq_ok (u := u)]
  refine (run_checkFault (o := .write data) id).trans ?_
  rw [Prod.ext_iff]
  exact and_congr_right fun _ => eq_comm

theorem writeAllTimeout_run (hp : p.Accepts) (data : Bytes) :
    (writeAllTimeout data : Wire ε _).run Peer.serve p = (.ok (), p.after p.input data) := by
  refine (run_checkFault (o := .write data) id).mpr ?_
  rw [Peer.serve_write hp]
  exact ⟨rfl, rfl⟩

omit [SessionError ε] in
/-- A session that refuses sends the reply, and nothing else. -/
theorem output_refuse {κ : Type} {A : κ → Type} {e : Env A} {code : UInt8} {x : ε} (hp : (e.peer .front).Accepts) :
    ((((refuse code x : Wire ε α).embed .front : Session A ε α).run Env.serve e).2.peer .front).output =
      (e.peer .front).output ++ replyBytes code := by
  rw [run_embed, Env.peer_setPeer]
  simp only [refuse, tryReply, Prog.bind_eq, Prog.op_bind, Prog.ret_bind, Prog.run_op, Peer.serve_write hp,
    Prog.run_fail, Peer.after_output]

theorem require_eq_ok {c : Prop} [Decidable c] {message : String} {u : Unit} :
    (require c message : Wire ε _).run Peer.serve p = (.ok u, p') ↔ c ∧ p' = p := by
  rw [require, Prog.run_ofExcept_eq_ok, ensure_eq_ok]

theorem parsed_eq_ok {r : Except ProtocolError α} {a : α} :
    (parsed r : Wire ε _).run Peer.serve p = (.ok a, p') ↔ r = .ok a ∧ p' = p := by
  rw [parsed, Prog.run_ofExcept_eq_ok]
  cases r <;> simp [Except.mapError]

theorem toList_octets_one (o : Octets 1) : o.toList = [o.byte 0] := by
  obtain ⟨l, hl⟩ := o
  obtain ⟨a, rfl⟩ := List.length_eq_one_iff.mp hl
  rfl

theorem toList_octets_two (o : Octets 2) : o.toList = [o.byte 0, o.byte 1] := by
  obtain ⟨l, hl⟩ := o
  obtain ⟨a, b, rfl⟩ := List.length_eq_two.mp hl
  rfl

theorem toList_octets_four (o : Octets 4) : o.toList = [o.byte 0, o.byte 1, o.byte 2, o.byte 3] := by
  obtain ⟨l, hl⟩ := o
  match l, hl with
  | [a, b, c, d], _ => rfl

/-- A greeting is read exactly if the input begins with its frame. -/
theorem readGreeting_eq_ok {g : Greeting} : (readGreeting : Wire ε _).run Peer.serve p = (.ok g, p') ↔
    ∃ rest, p.input = g.frame ++ rest ∧ g.Sendable ∧ p' = p.after rest [] := by
  simp only [readGreeting, Prog.bind_eq, Prog.run_bind_eq_ok, readExactTimeout_eq_ok, require_eq_ok, parsed_eq_ok]
  constructor
  · rintro ⟨hdr, _, ⟨_, hin, rfl⟩, -, _, ⟨-, rfl⟩, ms, _, ⟨rest, rfl, rfl⟩, hparse, rfl⟩
    have hlen : Greeting.frameLen (hdr.toList ++ ms.toList) = .ok (hdr.toList ++ ms.toList).length := by
      have hms : ms.toList.length = (hdr.byte 1).toNat := ms.2
      rw [toList_octets_two, List.length_append, hms]
      rfl
    obtain ⟨hframe, hs⟩ := Greeting.isFrame_iff.mp ⟨hparse, hlen⟩
    exact ⟨rest, by rw [hin, ← List.append_assoc, hframe], hs, by simp⟩
  · rintro ⟨rest, hin, hs, rfl⟩
    have hn := toNat_ofNat_length hs.2
    refine ⟨⟨[version, UInt8.ofNat g.methods.length], rfl⟩, _, ⟨g.methods ++ rest, hin, rfl⟩, (), _, ⟨?_, rfl⟩,
      ⟨g.methods, hn.symm⟩, _, ⟨rest, rfl, rfl⟩, ?_, by simp⟩
    · change (UInt8.ofNat g.methods.length).toNat ≠ 0
      rw [hn]
      exact fun h => hs.1 (List.length_eq_zero_iff.mp h)
    · exact (Greeting.isFrame_iff.mpr ⟨rfl, hs⟩).1

/-- Credentials are accepted exactly if the input begins with the frame of those asked for. -/
theorem handleUserPassAuth_eq_ok {auth : Option (String × String)} {u : Unit} (hp : p.Accepts) :
    (handleUserPassAuth auth : Wire ε _).run Peer.serve p = (.ok u, p') ↔
      ∃ (c : UsernamePassword) (rest : Bytes), auth = some (c.username, c.password) ∧ p.input = c.toVec ++ rest ∧
        c.Sendable ∧ p' = p.after rest (authReplyBytes AuthStatus.success) := by
  simp only [handleUserPassAuth, Prog.bind_eq, Prog.run_bind_eq_ok, readExactTimeout_eq_ok, require_eq_ok,
    Prog.run_ofExcept_eq_ok, okOr_eq_ok, fromUtf8_eq_some, credentialsOk_iff]
  constructor
  · rintro ⟨ver, p₁, ⟨t₁, h₁, hp₁⟩, -, p₂, ⟨hver, hp₂⟩, ulen, p₃, ⟨t₂, h₂, hp₃⟩, -, p₄, ⟨hulen, hp₄⟩, us, p₅,
      ⟨t₃, h₃, hp₅⟩, plen, p₆, ⟨t₄, h₄, hp₆⟩, ps, p₇, ⟨rest, h₅, hp₇⟩, u, p₈, ⟨hu, hp₈⟩, pw, p₉, ⟨hpw, hp₉⟩, _, p₁₀,
      hwrite, hok, hp'⟩
    subst hp₁ hp₂ hp₃ hp₄ hp₅ hp₆ hp₇ hp₈ hp₉ hp'
    simp only [Peer.after_input] at h₂ h₃ h₄ h₅
    subst h₂ h₃ h₄ h₅
    have hus : (asBytes u).length = (ulen.byte 0).toNat := hu ▸ us.2
    have hps : (asBytes pw).length = (plen.byte 0).toNat := hpw ▸ ps.2
    rw [writeAllTimeout_run (by exact hp), if_pos hok] at hwrite
    cases hwrite
    refine ⟨⟨u, pw⟩, rest, hok, ?_, ⟨?_, ?_, ?_⟩, by simp⟩
    · rw [UsernamePassword.toVec, ofNat_length hus, ofNat_length hps, h₁, toList_octets_one, hver, toList_octets_one,
        toList_octets_one, hu, hpw]
      simp
    · exact fun h => hulen (UInt8.toNat_inj.mp (hus.symm.trans h))
    · exact hus ▸ Nat.le_of_lt_succ (ulen.byte 0).toNat_lt
    · exact hps ▸ Nat.le_of_lt_succ (plen.byte 0).toNat_lt
  · rintro ⟨c, rest, rfl, hin, ⟨hu₀, hu, hpw⟩, rfl⟩
    have hn := toNat_ofNat_length hu
    have hm := toNat_ofNat_length hpw
    refine ⟨⟨[authVersion], rfl⟩, _, ⟨_, hin, rfl⟩, (), _, ⟨rfl, rfl⟩,
      ⟨[UInt8.ofNat (asBytes c.username).length], rfl⟩, _, ⟨_, rfl, rfl⟩, (), _, ⟨?_, rfl⟩,
      ⟨asBytes c.username, hn.symm⟩, _, ⟨_, List.append_assoc _ _ _, rfl⟩,
      ⟨[UInt8.ofNat (asBytes c.password).length], rfl⟩, _, ⟨_, rfl, rfl⟩,
      ⟨asBytes c.password, hm.symm⟩, _, ⟨rest, rfl, rfl⟩, c.username, _, ⟨rfl, rfl⟩, c.password, _, ⟨rfl, rfl⟩,
      (), _, writeAllTimeout_run (by exact hp) _, rfl, ?_⟩
    · exact fun h => hu₀ (by rw [← hn]; exact congrArg UInt8.toNat h)
    · rw [if_pos rfl]
      simp

theorem parseRequest_eq_ok {full : Bytes} {q : Request} :
    (parseRequest full : Wire ε _).run Peer.serve p = (.ok q, p') ↔
      (∃ n, Request.parse full = .ok (q, n)) ∧ p' = p := by
  rw [parseRequest, parsed_eq_ok]
  refine and_congr_left' ?_
  cases Request.parse full with
  | error e => simp [Except.map]
  | ok r => simp [Except.map, Prod.ext_iff]

/-- A request is read exactly if the input begins with its frame. -/
theorem readRequest_eq_ok {q : Request} : (readRequest : Wire ε _).run Peer.serve p = (.ok q, p') ↔
    ∃ rsv rest, p.input = q.frame rsv ++ rest ∧ q.Sendable ∧ p' = p.after rest [] := by
  simp only [readRequest, Prog.bind_eq, Prog.run_bind_eq_ok, readExactTimeout_eq_ok]
  constructor
  · rintro ⟨hdr, _, ⟨_, hin, rfl⟩, hrun⟩
    have hh := toList_octets_four hdr
    split_ifs at hrun with hd
    · simp only [Prog.run_bind_eq_ok, readExactTimeout_eq_ok, parsed_eq_ok, parseRequest_eq_ok] at hrun
      obtain ⟨len, _, ⟨_, rfl, rfl⟩, total, _, ⟨htotal, rfl⟩, buf, _, ⟨rest, rfl, rfl⟩, ⟨n, hparse⟩, rfl⟩ := hrun
      have hbuf : (len.byte 0 :: buf.toList).length = total := by
        have hpos := addrLen_pos htotal
        have hlen : buf.toList.length = total - 1 := buf.2
        rw [List.length_cons, hlen]
        omega
      rw [toList_octets_one, hh] at hparse
      have hframe := Request.isFrame_of_parse hparse (by rw [if_pos hd]; exact htotal) hbuf
      obtain ⟨⟨rsv, hfull⟩, hs⟩ := Request.isFrame_iff.mp hframe
      refine ⟨rsv, rest, ?_, hs, by simp⟩
      rw [hin, hh, toList_octets_one, ← hfull]
      simp
    · simp only [Prog.run_bind_eq_ok, readExactTimeout_eq_ok, parsed_eq_ok, parseRequest_eq_ok] at hrun
      obtain ⟨total, _, ⟨htotal, rfl⟩, buf, _, ⟨rest, rfl, rfl⟩, ⟨n, hparse⟩, rfl⟩ := hrun
      rw [hh] at hparse
      have hframe := Request.isFrame_of_parse hparse (by rw [if_neg hd]; exact htotal) buf.2
      obtain ⟨⟨rsv, hfull⟩, hs⟩ := Request.isFrame_iff.mp hframe
      refine ⟨rsv, rest, ?_, hs, by simp⟩
      rw [hin, hh, ← hfull]
      simp
  · rintro ⟨rsv, rest, hin, hs, rfl⟩
    have hlen := addrLen_atyp hs []
    have hvec := SocksAddr.length_toVec q.addr
    have hparse := Request.isFrame_iff.mpr ⟨⟨rsv, rfl⟩, hs⟩
    refine ⟨⟨[version, q.command.toU8, rsv, q.addr.atyp], rfl⟩, _, ⟨q.addr.toVec ++ rest, hin, rfl⟩, ?_⟩
    change (if q.addr.atyp = Atyp.domain then _ else _ : Wire ε Request).run _ _ = _
    rw [List.append_nil] at hlen
    split_ifs at hlen ⊢ with hd
    · cases hq : q.addr.toVec with
      | nil => rw [hq] at hlen; cases hd ▸ hlen
      | cons len tail =>
        rw [hq] at hlen hvec
        simp only [Prog.run_bind_eq_ok, readExactTimeout_eq_ok, parsed_eq_ok, parseRequest_eq_ok]
        exact ⟨⟨[len], rfl⟩, _, ⟨tail ++ rest, rfl, rfl⟩, q.addr.wireLen, _, ⟨hlen, rfl⟩,
          ⟨tail, by rw [← hvec]; rfl⟩, _, ⟨rest, rfl, rfl⟩, ⟨_, by rw [← hparse, Request.frame, hq]; rfl⟩, by simp⟩
    · simp only [Prog.run_bind_eq_ok, readExactTimeout_eq_ok, parsed_eq_ok, parseRequest_eq_ok]
      exact ⟨q.addr.wireLen, _, ⟨hlen, rfl⟩, ⟨q.addr.toVec, hvec⟩, _, ⟨rest, rfl, rfl⟩, ⟨_, hparse⟩, by simp⟩

end Readers

/-! ## What the handshake accepts -/

/-- The method that the context allows. -/
def selectedMethod : Option (String × String) → MethodSelection
  | none => .noAuth
  | some _ => .userPass

/-- The verdict on the right credentials, where they are asked for. -/
def authVerdict : Option (String × String) → Bytes
  | none => []
  | some _ => authReplyBytes AuthStatus.success

/-- What a client that is let in has been sent by the time its request is read. -/
def openingReply (auth : Option (String × String)) : Bytes := (selectedMethod auth).toBytes ++ authVerdict auth

/-- The authentication bytes of a client that sent the greeting. -/
def Authenticates (auth : Option (String × String)) (g : Greeting) (a : Bytes) : Prop :=
  (selectedMethod auth).method ∈ g.methods ∧
    match auth with
    | none => a = []
    | some (username, password) => (UsernamePassword.mk username password).IsFrame a

/-- What a client sends to be let in, with the request that it ends with. -/
def Opening (auth : Option (String × String)) (bs : Bytes) (q : Request) : Prop :=
  ∃ (g : Greeting) (gb a qb : Bytes), bs = gb ++ (a ++ qb) ∧ g.IsFrame gb ∧ Authenticates auth g a ∧ q.IsFrame qb

theorem negotiate_eq (auth : Option (String × String)) (g : Greeting) :
    negotiate g auth.isSome auth.isNone =
      if (selectedMethod auth).method ∈ g.methods then selectedMethod auth else .noAcceptableMethod := by
  cases auth with
  | none =>
    by_cases h : Method.noAuth ∈ g.methods
    · simp [negotiate, selectedMethod, MethodSelection.noAuth, h]
    · simp [negotiate, selectedMethod, MethodSelection.noAuth, h]
  | some _ =>
    by_cases h : Method.userPass ∈ g.methods
    · simp [negotiate, selectedMethod, MethodSelection.userPass, h]
    · simp [negotiate, selectedMethod, MethodSelection.userPass, h]

theorem selectedMethod_ne (auth : Option (String × String)) : (selectedMethod auth).method ≠ Method.noAcceptable := by
  cases auth with
  | none => exact (by decide : Method.noAuth ≠ Method.noAcceptable)
  | some _ => exact (by decide : Method.userPass ≠ Method.noAcceptable)

section Accepts

variable {ε : Type} [SessionError ε] {p p' : Peer} {auth : Option (String × String)}

theorem authenticate_eq_ok {u : Unit} (hp : p.Accepts) :
    (authenticate auth (selectedMethod auth) : Wire ε _).run Peer.serve p = (.ok u, p') ↔
      ∃ a rest, (match auth with
          | none => a = []
          | some (username, password) => (UsernamePassword.mk username password).IsFrame a) ∧
        p.input = a ++ rest ∧ p' = p.after rest (authVerdict auth) := by
  rcases auth with _ | ⟨username, password⟩
  · have hrun : (authenticate none (selectedMethod none) : Wire ε Unit) = .ret () := rfl
    rw [hrun, Prog.run_ret]
    constructor
    · intro h
      cases h
      exact ⟨[], p.input, rfl, rfl, by simp [authVerdict]⟩
    · rintro ⟨_, rest, rfl, hin, rfl⟩
      obtain rfl : p.input = rest := hin
      simp [authVerdict]
  · have hrun : (authenticate (some (username, password)) (selectedMethod (some (username, password))) : Wire ε Unit) =
        handleUserPassAuth (some (username, password)) := rfl
    rw [hrun, handleUserPassAuth_eq_ok hp]
    simp only [UsernamePassword.isFrame_iff]
    constructor
    · rintro ⟨c, rest, hc, hin, hs, rfl⟩
      cases hc
      exact ⟨_, rest, ⟨rfl, hs⟩, hin, rfl⟩
    · rintro ⟨_, rest, ⟨rfl, hs⟩, hin, rfl⟩
      exact ⟨_, rest, rfl, hin, hs, rfl⟩

/-- **The handshake** ends in a request exactly if the input begins with an opening, and consumes just that. -/
theorem handshake_eq_ok {q : Request} (hp : p.Accepts) :
    (handshake auth : Wire ε _).run Peer.serve p = (.ok q, p') ↔
      ∃ bs rest, Opening auth bs q ∧ p.input = bs ++ rest ∧ p' = p.after rest (openingReply auth) := by
  simp only [handshake, Prog.bind_eq, Prog.run_bind_eq_ok, readGreeting_eq_ok, require_eq_ok, readRequest_eq_ok]
  constructor
  · rintro ⟨g, _, ⟨_, hin, hg, rfl⟩, _, _, hwrite, _, _, ⟨hm, rfl⟩, _, _, hauth, rsv, rest, hrest, hq, rfl⟩
    rw [writeAllTimeout_run (by exact hp)] at hwrite
    cases hwrite
    have hoff : (selectedMethod auth).method ∈ g.methods := by
      by_contra hno
      rw [negotiate_eq, if_neg hno] at hm
      exact hm rfl
    rw [negotiate_eq, if_pos hoff] at hauth
    obtain ⟨a, rest', ha, hin', rfl⟩ := (authenticate_eq_ok (by exact hp)).mp hauth
    rw [Peer.after_input] at hin' hrest
    refine ⟨_, rest, ⟨g, _, a, _, rfl, Greeting.isFrame_iff.mpr ⟨rfl, hg⟩, ⟨hoff, ha⟩,
      Request.isFrame_iff.mpr ⟨⟨rsv, rfl⟩, hq⟩⟩, ?_, by simp [openingReply]⟩
    rw [hin, List.append_assoc, List.append_assoc, ← hrest]
    exact congrArg (g.frame ++ ·) hin'
  · rintro ⟨_, rest, ⟨g, _, a, _, rfl, hg, ⟨hoff, ha⟩, hq⟩, hin, rfl⟩
    obtain ⟨rfl, hgs⟩ := Greeting.isFrame_iff.mp hg
    obtain ⟨⟨rsv, rfl⟩, hqs⟩ := Request.isFrame_iff.mp hq
    rw [List.append_assoc, List.append_assoc] at hin
    refine ⟨g, _, ⟨_, hin, hgs, rfl⟩, ?_⟩
    rw [negotiate_eq, if_pos hoff]
    refine ⟨(), _, writeAllTimeout_run (by exact hp) _, (), _, ⟨?_, rfl⟩, (), _,
      (authenticate_eq_ok (by exact hp)).mpr ⟨a, _, ha, rfl, rfl⟩, rsv, rest, rfl, hqs, by simp [openingReply]⟩
    exact selectedMethod_ne auth

end Accepts

/-- An opening can be read in only one way. -/
theorem Opening.unique {auth : Option (String × String)} {bs bs' t t' : Bytes} {q q' : Request} (h : Opening auth bs q)
    (h' : Opening auth bs' q') (heq : bs ++ t = bs' ++ t') : q = q' ∧ bs = bs' ∧ t = t' := by
  -- the handshake is a function of the input
  let _ : SessionError String := ⟨id, id, IoError.message⟩
  let p := Peer.sending (bs ++ t) ⟨.other, ""⟩
  have hp : p.Accepts := Peer.accepts_sending _ _
  have hrun : (handshake auth : Wire String _).run Peer.serve p = (.ok q, p.after t (openingReply auth)) :=
    (handshake_eq_ok hp).mpr ⟨bs, t, h, rfl, rfl⟩
  have hrun' : (handshake auth : Wire String _).run Peer.serve p = (.ok q', p.after t' (openingReply auth)) :=
    (handshake_eq_ok hp).mpr ⟨bs', t', h', heq, rfl⟩
  rw [hrun, Prod.mk.injEq, Except.ok.injEq] at hrun'
  obtain rfl : t = t' := congrArg Peer.input hrun'.2
  exact ⟨hrun'.1, List.append_cancel_right heq, rfl⟩

/-- A CONNECT to 10.0.0.1:80. -/
def exampleRequest : Request := ⟨.connect, .ip (.v4 ⟨[10, 0, 0, 1], rfl⟩), 80⟩

/-- A client that asks for it without credentials. -/
def exampleOpening : Bytes := [5, 1, 0] ++ exampleRequest.toBytes

theorem opening_example : Opening none exampleOpening exampleRequest :=
  ⟨⟨[0]⟩, [5, 1, 0], [], exampleRequest.toBytes, rfl, Greeting.isFrame_iff.mpr ⟨rfl, by decide, by decide⟩,
    ⟨by decide, rfl⟩, Request.isFrame_iff.mpr ⟨⟨0, rfl⟩, trivial⟩⟩

end RustProxy.Proxy
