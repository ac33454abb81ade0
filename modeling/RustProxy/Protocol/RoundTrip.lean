import RustProxy.Protocol.Negotiation
import RustProxy.Protocol.Request

/-!
# Frames, there and back

`Request` and `Reply` are written by one encoder each and read by two separate decoders, and the length of an address is
computed three times: by `wire_len` for the buffer, by `addr_len` for the reader of the stream, and by what the parser
takes. They all agree.

* `SocksAddr.write_eq`: a buffer that is long enough begins with the bytes of the address; a zeroed buffer of `wire_len`
  bytes is filled with them, no zero left (`SocksAddr.toVec_eq_write`).
* `addrLen_domainLen`: the length announced by the address type and the length of the name.
* `address_frames_round_trip`: parsing what was written, before any further bytes, and writing what was parsed.
* `credential_frames_round_trip`: the same for credentials, which have two lengths of which the first says where the
  second one is.
-/

namespace RustProxy.Protocol

open Lib

/-! ## Writing an address into a buffer -/

/-- Overwrites `out` from `pos` on. -/
def copyAt (out : Bytes) (pos : Nat) (src : Bytes) : Bytes := out.take pos ++ src ++ out.drop (pos + src.length)

namespace SocksAddr

/-- The host, then the port behind it; the number of bytes is returned. A buffer that is too short is not written. -/
def write (a : SocksAddr) (out : Bytes) : Option (Bytes × Nat) :=
  if a.wireLen ≤ out.length then
    let (out, pos) :=
      match a.host with
      | .ip (.v4 o) => (copyAt out 0 o.toList, 4)
      | .ip (.v6 o) => (copyAt out 0 o.toList, 16)
      | .domain name =>
        (copyAt (copyAt out 0 [UInt8.ofNat (asBytes name).length]) 1 (asBytes name), 1 + (asBytes name).length)
    some (copyAt (copyAt out pos [hiByte a.port]) (pos + 1) [loByte a.port], a.wireLen)
  else none

theorem copyAt_append (pre rest src : Bytes) :
    copyAt (pre ++ rest) pre.length src = pre ++ src ++ rest.drop src.length := by
  simp [copyAt, List.drop_append]

/-- The port, behind a host of `n` bytes. -/
theorem copyAt_port {pre : Bytes} {n : Nat} (hn : pre.length = n) (rest : Bytes) (port : UInt16) :
    copyAt (copyAt (pre ++ rest) n [hiByte port]) (n + 1) [loByte port] =
      pre ++ [hiByte port, loByte port] ++ rest.drop 2 := by
  subst hn
  rw [copyAt_append]
  have h := copyAt_append (pre ++ [hiByte port]) (rest.drop 1) [loByte port]
  simpa using h

/-- The octets of an address, then the port. -/
theorem copyAt_octets {n : Nat} (o : Octets n) (out : Bytes) (port : UInt16) :
    copyAt (copyAt (copyAt out 0 o.toList) n [hiByte port]) (n + 1) [loByte port] =
      o.toList ++ [hiByte port, loByte port] ++ out.drop (n + 2) := by
  have hl : o.toList.length = n := o.2
  have hhost : copyAt out 0 o.toList = o.toList ++ out.drop n := by simpa [hl] using copyAt_append [] out o.toList
  rw [hhost, copyAt_port hl, List.drop_drop]

/-- The length of a name, the name, then the port. -/
theorem copyAt_name (len : UInt8) (name out : Bytes) (port : UInt16) :
    copyAt (copyAt (copyAt (copyAt out 0 [len]) 1 name) (1 + name.length) [hiByte port]) (1 + name.length + 1)
      [loByte port] = len :: name ++ [hiByte port, loByte port] ++ out.drop (1 + name.length + 2) := by
  have hlen : copyAt out 0 [len] = [len] ++ out.drop 1 := copyAt_append [] out [len]
  have hname : copyAt ([len] ++ out.drop 1) 1 name = len :: name ++ out.drop (1 + name.length) := by
    have h := copyAt_append [len] (out.drop 1) name
    rwa [List.length_singleton, List.drop_drop] at h
  rw [hlen, hname, copyAt_port (by simp; omega), List.drop_drop]

/-- A buffer that is long enough begins with the address, and is otherwise left as it was. -/
theorem write_eq (a : SocksAddr) {out : Bytes} (h : a.wireLen ≤ out.length) :
    a.write out = some (a.toVec ++ out.drop a.wireLen, a.wireLen) := by
  unfold write
  rw [if_pos h]
  rcases a with ⟨(o | o) | name, port⟩
  · exact congrArg some (congrArg₂ Prod.mk (copyAt_octets o out port) rfl)
  · exact congrArg some (congrArg₂ Prod.mk (copyAt_octets o out port) rfl)
  · exact congrArg some (congrArg₂ Prod.mk (copyAt_name _ (asBytes name) out port) rfl)

/-- `to_vec`: a zeroed buffer of the announced length is filled to its end. -/
theorem toVec_eq_write (a : SocksAddr) :
    a.write (List.replicate a.wireLen 0) = some (a.toVec, a.wireLen) := by
  rw [write_eq a (by simp)]
  simp

end SocksAddr

/-! ## Announced lengths -/

/-- The length byte before a name; other hosts have none. -/
def Host.domainLen : Host → Option UInt8
  | .ip _ => none
  | .domain name => some (UInt8.ofNat (asBytes name).length)

theorem addrLen_domainLen {a : SocksAddr} (hs : a.host.Sendable false) :
    addrLen a.atyp a.host.domainLen = .ok a.wireLen := by
  have h := addrLen_atyp hs []
  rcases a with ⟨(o | o) | name, port⟩
  · exact h
  · exact h
  · exact h

theorem Request.length_toBytes (q : Request) : q.toBytes.length = 4 + q.addr.wireLen := by
  simp only [toBytes, frame, List.length_cons, SocksAddr.length_toVec]
  omega

/-! ## There and back -/

theorem Request.parse_toBytes {q : Request} (hs : q.Sendable) (s : Bytes) :
    parse (q.toBytes ++ s) = .ok (q, q.toBytes.length) :=
  parse_eq_ok.mpr ⟨0, s, rfl, rfl, hs⟩

theorem Reply.parse_toBytes {p : Reply} (hs : p.Sendable) (s : Bytes) : parse (p.toBytes ++ s) = .ok p :=
  parse_eq_ok.mpr ⟨⟨0, s, rfl⟩, hs⟩

/-- Whatever reserved byte was received, zero is written in its place. -/
theorem Request.toBytes_of_parse {q : Request} {b : Bytes} {n : Nat} (h : parse b = .ok (q, n)) :
    q.toBytes = (b.take q.toBytes.length).set 2 0 := by
  obtain ⟨rsv, t, rfl, -, -⟩ := parse_eq_ok.mp h
  have hl : q.toBytes.length = (q.frame rsv).length := rfl
  rw [hl, List.take_left']
  · rfl
  · rfl

theorem Reply.toBytes_of_parse {p : Reply} {b : Bytes} (h : parse b = .ok p) :
    p.toBytes = (b.take p.toBytes.length).set 2 0 := by
  obtain ⟨⟨rsv, t, rfl⟩, -⟩ := parse_eq_ok.mp h
  have hl : p.toBytes.length = (p.frame rsv).length := rfl
  rw [hl, List.take_left']
  · rfl
  · rfl

/-- **Round trip.** What is written is read back before any further bytes, with the lengths that `wire_len` and
`addr_len` announce; what is read is written again as it was, with the reserved byte zero. -/
theorem address_frames_round_trip :
    (∀ (q : Request) (s : Bytes), q.Sendable →
      Request.parse (q.toBytes ++ s) = .ok (q, q.toBytes.length) ∧ q.toBytes.length = 4 + q.addr.wireLen ∧
        addrLen q.addr.atyp q.addr.host.domainLen = .ok q.addr.wireLen) ∧
    (∀ (p : Reply) (s : Bytes), p.Sendable → Reply.parse (p.toBytes ++ s) = .ok p) ∧
    (∀ (b : Bytes) (q : Request) (n : Nat), Request.parse b = .ok (q, n) →
      q.toBytes = (b.take q.toBytes.length).set 2 0) ∧
    (∀ (b : Bytes) (p : Reply), Reply.parse b = .ok p → p.toBytes = (b.take p.toBytes.length).set 2 0) := by
  refine ⟨?_, ?_, ?_, ?_⟩
  · intro q s hs
    exact ⟨Request.parse_toBytes hs s, q.length_toBytes, addrLen_domainLen hs⟩
  · intro p s hs
    exact Reply.parse_toBytes hs s
  · intro b q n h
    exact Request.toBytes_of_parse h
  · intro b p h
    exact Reply.toBytes_of_parse h

/-- **Round trip of credentials.** Credentials that fit a frame are written in `wire_len` bytes and read back before any
further bytes; what is read was written in the first `wire_len` bytes. -/
theorem credential_frames_round_trip :
    (∀ (c : UsernamePassword) (s : Bytes), 1 ≤ (asBytes c.username).length → (asBytes c.username).length ≤ 255 →
      (asBytes c.password).length ≤ 255 →
      c.toVec.length = c.wireLen ∧ UsernamePassword.parse (c.toVec ++ s) = .ok c) ∧
    (∀ (b : Bytes) (c : UsernamePassword), UsernamePassword.parse b = .ok c →
      c.wireLen ≤ b.length ∧ c.toVec = b.take c.wireLen) := by
  refine ⟨?_, ?_⟩
  · intro c s hpos husername hpassword
    have hs : c.Sendable := ⟨Nat.one_le_iff_ne_zero.mp hpos, husername, hpassword⟩
    exact ⟨c.length_toVec, UsernamePassword.parse_eq_ok.mpr ⟨⟨s, rfl⟩, hs⟩⟩
  · intro b c h
    obtain ⟨⟨t, rfl⟩, -⟩ := UsernamePassword.parse_eq_ok.mp h
    have hl := c.length_toVec
    refine ⟨by rw [List.length_append]; omega, ?_⟩
    rw [List.take_left' hl]

end RustProxy.Protocol
