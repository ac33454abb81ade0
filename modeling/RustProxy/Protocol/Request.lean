import RustProxy.Protocol.Reader

/-!
# Addresses, requests and replies

`protocol/src/{host,request,reply}.rs`. As for the frames of the negotiation, a parser accepts exactly the buffers that
begin with the frame of the value it returns, whatever the reserved byte (`Request.parse_eq_ok`, `Reply.parse_eq_ok`).
-/

namespace RustProxy.Protocol

open Lib

/-! ## Addresses -/

inductive IpAddr
  | v4 (octets : Octets 4)
  | v6 (octets : Octets 16)
  deriving DecidableEq

inductive Host
  | ip (addr : IpAddr)
  | domain (name : String)
  deriving DecidableEq

structure SocksAddr where
  host : Host
  port : UInt16
  deriving DecidableEq

namespace Host

def atyp : Host → UInt8
  | ip (.v4 _) => Atyp.ipv4
  | ip (.v6 _) => Atyp.ipv6
  | domain _ => Atyp.domain

/-- The bytes of the host, after the address type and before the port. -/
def toVec : Host → Bytes
  | ip (.v4 o) => o.toList
  | ip (.v6 o) => o.toList
  | domain name => UInt8.ofNat (asBytes name).length :: asBytes name

/-- A host that fits a frame; whether a name may be empty depends on the frame. -/
def Sendable (emptyName : Bool) : Host → Prop
  | ip _ => True
  | domain name => (asBytes name).length ≤ 255 ∧ (emptyName = false → (asBytes name).length ≠ 0)

end Host

namespace SocksAddr

def atyp (a : SocksAddr) : UInt8 := a.host.atyp

def wireLen (a : SocksAddr) : Nat :=
  match a.host with
  | .ip (.v4 _) => 4 + 2
  | .ip (.v6 _) => 16 + 2
  | .domain name => 1 + (asBytes name).length + 2

def toVec (a : SocksAddr) : Bytes := a.host.toVec ++ [hiByte a.port, loByte a.port]

theorem length_toVec (a : SocksAddr) : a.toVec.length = a.wireLen := by
  obtain ⟨host, port⟩ := a
  rcases host with (⟨o, ho⟩ | ⟨o, ho⟩) | name
  · simp [toVec, Host.toVec, wireLen, ho]
  · simp [toVec, Host.toVec, wireLen, ho]
  · simp only [toVec, Host.toVec, wireLen, List.length_append, List.length_cons, List.length_nil]
    omega

end SocksAddr

/-! ## Addresses as text -/

/-- A run of zero segments. -/
structure ZeroSpan where
  start : Nat
  len : Nat

/-- The first longest run of zeros, having read `i` segments. -/
def longestZeros : Nat → ZeroSpan → ZeroSpan → List UInt16 → ZeroSpan
  | _, _, longest, [] => longest
  | i, current, longest, seg :: segs =>
    if seg = 0 then
      let current : ZeroSpan := ⟨if current.len = 0 then i else current.start, current.len + 1⟩
      longestZeros (i + 1) current (if current.len > longest.len then current else longest) segs
    else longestZeros (i + 1) ⟨0, 0⟩ longest segs

def segments : Bytes → List UInt16
  | hi :: lo :: rest => be16 hi lo :: segments rest
  | _ => []

def colonHex (segs : List UInt16) : String :=
  ":".intercalate (segs.map fun seg => String.ofList (Nat.toDigits 16 seg.toNat))

def dotted (octets : Bytes) : String := ".".intercalate (octets.map fun b => toString b.toNat)

/-- As the standard library prints addresses. -/
def IpAddr.display : IpAddr → String
  | v4 o => dotted o.toList
  | v6 o =>
    if o.toList.take 12 = List.replicate 10 0 ++ [0xff, 0xff] then "::ffff:" ++ dotted (o.toList.drop 12)
    else
      let segs := segments o.toList
      let zeroes := longestZeros 0 ⟨0, 0⟩ ⟨0, 0⟩ segs
      if zeroes.len > 1 then
        colonHex (segs.take zeroes.start) ++ "::" ++ colonHex (segs.drop (zeroes.start + zeroes.len))
      else colonHex segs

def Host.display : Host → String
  | ip addr => addr.display
  | domain name => name

def SocksAddr.display (a : SocksAddr) : String := a.host.display ++ ":" ++ toString a.port.toNat

/-! ## Reading an address -/

def Reader.readIp (n : Nat) (ip : Octets n → IpAddr) (r : Reader) : Except ProtocolError (Host × Reader) := do
  let (b, r) ← r.readBytes n
  return (.ip (ip b), r)

/-- Of the two parsers, only that of replies accepts an empty name. -/
def Reader.readDomain (emptyName : Bool) (r : Reader) : Except ProtocolError (Host × Reader) := do
  let (len, r) ← r.readU8
  ensure (emptyName ∨ len ≠ 0) (.unsupported Atyp.domain)
  let (bs, r) ← r.readBytes len.toNat
  let name ← okOr (.unsupported Atyp.domain) (fromUtf8 bs.toList)
  return (.domain name, r)

def Reader.readHost (emptyName : Bool) (atyp : UInt8) (r : Reader) : Except ProtocolError (Host × Reader) :=
  if atyp = Atyp.ipv4 then r.readIp 4 .v4
  else if atyp = Atyp.ipv6 then r.readIp 16 .v6
  else if atyp = Atyp.domain then r.readDomain emptyName
  else .error (.unsupported atyp)

section Address

variable {emptyName : Bool} {r r' : Reader} {h : Host}

theorem readIp_eq_ok {n : Nat} {ip : Octets n → IpAddr} : r.readIp n ip = .ok (h, r') ↔
    ∃ o, h = .ip (ip o) ∧ r.rest = o.toList ++ r'.rest ∧ r'.pos = r.pos + n := by
  simp only [Reader.readIp, bind_eq_ok, Prod.exists, Reader.readBytes_eq_ok, pure, Except.pure, Except.ok.injEq,
    Prod.mk.injEq]
  constructor
  · rintro ⟨o, _, ho, rfl, rfl⟩
    exact ⟨o, rfl, ho⟩
  · rintro ⟨o, rfl, ho⟩
    exact ⟨o, r', ho, rfl, rfl⟩

theorem readDomain_eq_ok : r.readDomain emptyName = .ok (h, r') ↔
    ∃ name, h = .domain name ∧ r.rest = h.toVec ++ r'.rest ∧ r'.pos = r.pos + h.toVec.length ∧
      h.Sendable emptyName := by
  simp only [Reader.readDomain, bind_eq_ok, Prod.exists, Reader.readU8_eq_ok, Reader.readBytes_eq_ok, ensure_eq_ok,
    okOr_eq_ok, fromUtf8_eq_some, pure, Except.pure, Except.ok.injEq, Prod.mk.injEq]
  constructor
  · rintro ⟨len, r₁, ⟨h₁, hp₁⟩, -, hlen, bs, r₂, ⟨h₂, hp₂⟩, name, hname, rfl, rfl⟩
    have hn : (asBytes name).length = len.toNat := hname ▸ bs.2
    refine ⟨name, rfl, ?_, ?_, ?_, ?_⟩
    · rw [Host.toVec, ofNat_length hn, List.cons_append, ← hname, ← h₂, ← h₁]
    · rw [Host.toVec, List.length_cons, hn]
      omega
    · rw [hn]
      exact Nat.le_of_lt_succ len.toNat_lt
    · rintro rfl h₀
      exact hlen.elim (fun h => by cases h) fun h => h (UInt8.toNat_inj.mp (hn.symm.trans h₀))
  · rintro ⟨name, rfl, hr, hp, hle, hne⟩
    have hn := toNat_ofNat_length hle
    refine ⟨_, ⟨_, _⟩, ⟨hr, rfl⟩, (), ?_, ⟨asBytes name, hn.symm⟩, r', ⟨rfl, ?_⟩, name, rfl, rfl, rfl⟩
    · cases emptyName with
      | true => exact .inl rfl
      | false => exact .inr fun h₀ => hne rfl (by rw [← hn, h₀]; rfl)
    · change r'.pos = r.pos + 1 + _
      rw [hp, hn, Host.toVec, List.length_cons]
      omega

/-- An address is read exactly where the bytes of one begin, of the type announced. -/
theorem readHost_eq_ok {atyp : UInt8} : r.readHost emptyName atyp = .ok (h, r') ↔
    atyp = h.atyp ∧ r.rest = h.toVec ++ r'.rest ∧ r'.pos = r.pos + h.toVec.length ∧ h.Sendable emptyName := by
  constructor
  · intro hr
    unfold Reader.readHost at hr
    split_ifs at hr with h₄ h₆ hd
    · obtain ⟨o, rfl, ho, hp⟩ := readIp_eq_ok.mp hr
      exact ⟨h₄, ho, hp.trans (congrArg _ o.2.symm), trivial⟩
    · obtain ⟨o, rfl, ho, hp⟩ := readIp_eq_ok.mp hr
      exact ⟨h₆, ho, hp.trans (congrArg _ o.2.symm), trivial⟩
    · obtain ⟨name, rfl, hrest⟩ := readDomain_eq_ok.mp hr
      exact ⟨hd, hrest⟩
  · rintro ⟨rfl, hr, hp, hs⟩
    rcases h with (o | o) | name
    · exact readIp_eq_ok.mpr ⟨o, rfl, hr, hp.trans (congrArg _ o.2)⟩
    · exact readIp_eq_ok.mpr ⟨o, rfl, hr, hp.trans (congrArg _ o.2)⟩
    · exact readDomain_eq_ok.mpr ⟨name, rfl, hr, hp, hs⟩

end Address

/-! ## Requests -/

inductive Command
  | connect
  | bind
  | udpAssociate
  deriving DecidableEq, Repr

namespace Command

def toU8 : Command → UInt8
  | connect => 0x01
  | bind => 0x02
  | udpAssociate => 0x03

def fromU8 : UInt8 → Except ProtocolError Command
  | 0x01 => .ok connect
  | 0x02 => .ok bind
  | 0x03 => .ok udpAssociate
  | other => .error (.unsupported other)

theorem fromU8_eq_ok {v : UInt8} {c : Command} : fromU8 v = .ok c ↔ v = c.toU8 := by
  constructor
  · unfold fromU8
    split <;> intro h <;> cases h <;> rfl
  · rintro rfl
    cases c <;> rfl

end Command

structure Request where
  command : Command
  addr : SocksAddr
  deriving DecidableEq

namespace Request

/-- The request, and the number of bytes that it takes. -/
def parse (buf : Bytes) : Except ProtocolError (Request × Nat) := do
  let (ver, r) ← (Reader.new buf).readU8
  ensure (ver = version) (.badVersion ver)
  let (cmd, r) ← r.readU8
  let command ← Command.fromU8 cmd
  let (_rsv, r) ← r.readU8
  let (atyp, r) ← r.readU8
  let (host, r) ← r.readHost false atyp
  let (port, r) ← r.readU16
  return (⟨command, ⟨host, port⟩⟩, r.position)

/-- The bytes of a request with the given reserved byte. -/
def frame (rsv : UInt8) (q : Request) : Bytes := version :: q.command.toU8 :: rsv :: q.addr.atyp :: q.addr.toVec

def toBytes (q : Request) : Bytes := q.frame 0x00

def Sendable (q : Request) : Prop := q.addr.host.Sendable false

/-- The buffer is one request, and nothing else. -/
def IsFrame (q : Request) (b : Bytes) : Prop := parse b = .ok (q, b.length)

variable {q : Request} {b : Bytes}

theorem parse_eq_ok {n : Nat} :
    parse b = .ok (q, n) ↔ ∃ rsv t, b = q.frame rsv ++ t ∧ n = (q.frame rsv).length ∧ q.Sendable := by
  simp only [parse, bind_eq_ok, Prod.exists, Reader.readU8_eq_ok, Reader.readU16_eq_ok, readHost_eq_ok, ensure_eq_ok,
    Command.fromU8_eq_ok, pure, Except.pure, Except.ok.injEq, Prod.mk.injEq]
  constructor
  · rintro ⟨_, r₁, ⟨h₁, p₁⟩, -, rfl, _, r₂, ⟨h₂, p₂⟩, cmd, rfl, rsv, r₃, ⟨h₃, p₃⟩, atyp, r₄, ⟨h₄, p₄⟩, host, r₅,
      ⟨rfl, h₅, p₅, hs⟩, port, r₆, ⟨h₆, p₆⟩, rfl, rfl⟩
    refine ⟨rsv, r₆.rest, ?_, ?_, hs⟩
    · have hb : b = version :: r₁.rest := h₁
      simp [frame, SocksAddr.atyp, SocksAddr.toVec, hb, h₂, h₃, h₄, h₅, h₆]
    · have h₀ : r₁.pos = 1 := p₁
      simp only [frame, SocksAddr.toVec, List.length_cons, List.length_append, List.length_nil, Reader.position]
      omega
  · rintro ⟨rsv, t, rfl, rfl, hs⟩
    obtain ⟨cmd, host, port⟩ := q
    refine ⟨_, ⟨_, 1⟩, ⟨rfl, rfl⟩, (), rfl, _, ⟨_, 2⟩, ⟨rfl, rfl⟩, cmd, rfl, rsv, ⟨_, 3⟩, ⟨rfl, rfl⟩, _, ⟨_, 4⟩,
      ⟨rfl, rfl⟩, host, ⟨_, _⟩, ⟨rfl, List.append_assoc _ _ _, rfl, hs⟩, port, ⟨t, _⟩, ⟨rfl, rfl⟩, rfl, ?_⟩
    simp only [frame, SocksAddr.toVec, List.length_cons, List.length_append, List.length_nil, Reader.position]
    omega

theorem isFrame_iff : q.IsFrame b ↔ (∃ rsv, b = q.frame rsv) ∧ q.Sendable := by
  constructor
  · intro h
    obtain ⟨rsv, t, rfl, hl, hs⟩ := parse_eq_ok.mp h
    rw [List.length_append] at hl
    obtain rfl : t = [] := List.length_eq_zero_iff.mp (by omega)
    exact ⟨⟨rsv, List.append_nil _⟩, hs⟩
  · rintro ⟨⟨rsv, rfl⟩, hs⟩
    exact parse_eq_ok.mpr ⟨rsv, [], (List.append_nil _).symm, rfl, hs⟩

end Request

/-- The length of the address and port of a request. -/
def addrLen (atyp : UInt8) (domainLen : Option UInt8) : Except ProtocolError Nat :=
  if atyp = Atyp.ipv4 then .ok (4 + 2)
  else if atyp = Atyp.ipv6 then .ok (16 + 2)
  else if atyp = Atyp.domain then do
    let len := (domainLen.getD 0).toNat
    ensure (len ≠ 0) (.unsupported Atyp.domain)
    return 1 + len + 2
  else .error (.unsupported atyp)

theorem addrLen_pos {atyp : UInt8} {domainLen : Option UInt8} {total : Nat} (h : addrLen atyp domainLen = .ok total) :
    0 < total := by
  unfold addrLen at h
  split_ifs at h
  · cases h; decide
  · cases h; decide
  · obtain ⟨_, -, hlen⟩ := bind_eq_ok.mp h
    cases hlen
    omega

/-- The announced length of an address, of which a name is preceded by its length. -/
theorem addrLen_atyp {a : SocksAddr} (hs : a.host.Sendable false) (t : Bytes) :
    addrLen a.atyp (if a.atyp = Atyp.domain then (a.toVec ++ t).head? else none) = .ok a.wireLen := by
  obtain ⟨host, port⟩ := a
  rcases host with (o | o) | name
  · rfl
  · rfl
  · have hn := toNat_ofNat_length hs.1
    have hne : (UInt8.ofNat (asBytes name).length).toNat ≠ 0 := by rw [hn]; exact hs.2 rfl
    change (ensure ((UInt8.ofNat (asBytes name).length).toNat ≠ 0) _ >>= fun _ =>
      pure (1 + (UInt8.ofNat (asBytes name).length).toNat + 2)) = _
    rw [ensure, if_pos hne, hn]
    rfl

/-- A buffer of the length that its header announces is one frame, if it is parsed at all. -/
theorem Request.isFrame_of_parse {q : Request} {n total : Nat} {ver cmd rsv atyp : UInt8} {addr : Bytes}
    (hparse : parse (ver :: cmd :: rsv :: atyp :: addr) = .ok (q, n))
    (hlen : addrLen atyp (if atyp = Atyp.domain then addr.head? else none) = .ok total) (htotal : addr.length = total) :
    q.IsFrame (ver :: cmd :: rsv :: atyp :: addr) := by
  obtain ⟨rsv', t, hb, hn, hs⟩ := parse_eq_ok.mp hparse
  simp only [frame, List.cons_append, List.cons.injEq] at hb
  obtain ⟨rfl, rfl, rfl, rfl, rfl⟩ := hb
  rw [addrLen_atyp hs, Except.ok.injEq] at hlen
  rw [List.length_append, SocksAddr.length_toVec] at htotal
  obtain rfl : t = [] := List.length_eq_zero_iff.mp (by omega)
  exact isFrame_iff.mpr ⟨⟨rsv, by simp [frame]⟩, hs⟩

/-! ## Replies -/

structure Reply where
  code : UInt8
  bindAddr : SocksAddr
  deriving DecidableEq

namespace Reply

def parse (buf : Bytes) : Except ProtocolError Reply := do
  let (ver, r) ← (Reader.new buf).readU8
  ensure (ver = version) (.badVersion ver)
  let (code, r) ← r.readU8
  let (_rsv, r) ← r.readU8
  let (atyp, r) ← r.readU8
  let (host, r) ← r.readHost true atyp
  let (port, _) ← r.readU16
  return ⟨code, ⟨host, port⟩⟩

def frame (rsv : UInt8) (p : Reply) : Bytes := version :: p.code :: rsv :: p.bindAddr.atyp :: p.bindAddr.toVec

def toBytes (p : Reply) : Bytes := p.frame 0x00

def Sendable (p : Reply) : Prop := p.bindAddr.host.Sendable true

variable {p : Reply} {b : Bytes}

theorem parse_eq_ok : parse b = .ok p ↔ (∃ rsv t, b = p.frame rsv ++ t) ∧ p.Sendable := by
  simp only [parse, bind_eq_ok, Prod.exists, Reader.readU8_eq_ok, Reader.readU16_eq_ok, readHost_eq_ok, ensure_eq_ok,
    pure, Except.pure, Except.ok.injEq]
  constructor
  · rintro ⟨_, r₁, ⟨h₁, -⟩, -, rfl, code, r₂, ⟨h₂, -⟩, rsv, r₃, ⟨h₃, -⟩, atyp, r₄, ⟨h₄, -⟩, host, r₅,
      ⟨rfl, h₅, -, hs⟩, port, r₆, ⟨h₆, -⟩, rfl⟩
    refine ⟨⟨rsv, r₆.rest, ?_⟩, hs⟩
    have hb : b = version :: r₁.rest := h₁
    simp [frame, SocksAddr.atyp, SocksAddr.toVec, hb, h₂, h₃, h₄, h₅, h₆]
  · rintro ⟨⟨rsv, t, rfl⟩, hs⟩
    obtain ⟨code, host, port⟩ := p
    exact ⟨_, ⟨_, 1⟩, ⟨rfl, rfl⟩, (), rfl, _, ⟨_, 2⟩, ⟨rfl, rfl⟩, rsv, ⟨_, 3⟩, ⟨rfl, rfl⟩, _, ⟨_, 4⟩,
      ⟨rfl, rfl⟩, host, ⟨_, _⟩, ⟨rfl, List.append_assoc _ _ _, rfl, hs⟩, port, ⟨t, _⟩, ⟨rfl, rfl⟩, rfl⟩

end Reply

/-- A reply that reports no bound address. -/
def simpleReply (code : UInt8) : Reply := ⟨code, .ip (.v4 ⟨[0, 0, 0, 0], rfl⟩), 0⟩

end RustProxy.Protocol
