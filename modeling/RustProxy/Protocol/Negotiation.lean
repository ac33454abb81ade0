import RustProxy.Protocol.Reader

/-!
# Method negotiation and credentials

`protocol/src/{handshake,auth}.rs`. The parsers accept exactly the buffers that begin with the frame of the value they
return (`Greeting.parse_eq_ok`, `UsernamePassword.parse_eq_ok`); a buffer that is one frame and nothing else is
therefore that frame (`Greeting.isFrame_iff`, `UsernamePassword.isFrame_iff`).
-/

namespace RustProxy.Protocol

open Lib

/-! ## The greeting -/

structure Greeting where
  methods : Bytes
  deriving DecidableEq, Repr

namespace Greeting

/-- Bounds the number of methods. -/
def finish (g : Greeting) : Except ProtocolError Greeting := do
  ensure (g.methods ≠ [] ∧ g.methods.length ≤ 255) (.unsupported 0x00)
  return g

def parse (buf : Bytes) : Except ProtocolError Greeting := do
  let (ver, r) ← (Reader.new buf).readU8
  ensure (ver = version) (.badVersion ver)
  let (nmethods, r) ← r.readU8
  let (methods, _) ← r.readBytes nmethods.toNat
  finish ⟨methods.toList⟩

def frameLen (buf : Bytes) : Except ProtocolError Nat :=
  match buf with
  | _ :: nmethods :: _ => .ok (greetingHeaderLen + nmethods.toNat)
  | _ => .error .truncated

/-- The bytes of a greeting. -/
def frame (g : Greeting) : Bytes := version :: UInt8.ofNat g.methods.length :: g.methods

/-- A greeting that fits a frame. -/
def Sendable (g : Greeting) : Prop := g.methods ≠ [] ∧ g.methods.length ≤ 255

/-- The buffer is one greeting, and nothing else. -/
def IsFrame (g : Greeting) (b : Bytes) : Prop := parse b = .ok g ∧ frameLen b = .ok b.length

variable {g : Greeting} {b : Bytes}

theorem finish_eq_ok {g' : Greeting} : finish g = .ok g' ↔ g.Sendable ∧ g = g' := by
  simp only [finish, bind_eq_ok, ensure_eq_ok, pure, Except.pure, Except.ok.injEq]
  constructor
  · rintro ⟨_, h, e⟩
    exact ⟨h, e⟩
  · rintro ⟨h, e⟩
    exact ⟨(), h, e⟩

theorem parse_eq_ok : parse b = .ok g ↔ (∃ t, b = g.frame ++ t) ∧ g.Sendable := by
  simp only [parse, bind_eq_ok, Prod.exists, Reader.readU8_eq_ok, Reader.readBytes_eq_ok, ensure_eq_ok, finish_eq_ok]
  constructor
  · rintro ⟨_, r₁, ⟨h₁, -⟩, -, rfl, n, r₂, ⟨h₂, -⟩, bs, r₃, ⟨h₃, -⟩, hs, rfl⟩
    have hn : UInt8.ofNat bs.toList.length = n := ofNat_length bs.2
    refine ⟨⟨r₃.rest, ?_⟩, hs⟩
    rw [frame, hn, List.cons_append, List.cons_append, ← h₃, ← h₂, ← h₁]
    rfl
  · rintro ⟨⟨t, rfl⟩, hs⟩
    have hn := toNat_ofNat_length hs.2
    exact ⟨_, ⟨_, 1⟩, ⟨rfl, rfl⟩, (), rfl, _, ⟨_, 2⟩, ⟨rfl, rfl⟩, ⟨g.methods, hn.symm⟩, ⟨t, _⟩, ⟨rfl, rfl⟩, hs, rfl⟩

theorem frameLen_frame (hs : g.Sendable) (t : Bytes) : frameLen (g.frame ++ t) = .ok g.frame.length := by
  have h : frameLen (g.frame ++ t) = .ok (2 + (UInt8.ofNat g.methods.length).toNat) := rfl
  rw [h, toNat_ofNat_length hs.2, frame, List.length_cons, List.length_cons, Nat.add_comm]

theorem isFrame_iff : g.IsFrame b ↔ b = g.frame ∧ g.Sendable := by
  constructor
  · rintro ⟨hp, hl⟩
    obtain ⟨⟨t, rfl⟩, hs⟩ := parse_eq_ok.mp hp
    rw [frameLen_frame hs, Except.ok.injEq, List.length_append] at hl
    obtain rfl : t = [] := List.length_eq_zero_iff.mp (by omega)
    exact ⟨List.append_nil _, hs⟩
  · rintro ⟨rfl, hs⟩
    refine ⟨parse_eq_ok.mpr ⟨⟨[], (List.append_nil _).symm⟩, hs⟩, ?_⟩
    simpa using frameLen_frame hs []

end Greeting

/-! ## The selection -/

structure MethodSelection where
  method : UInt8
  deriving DecidableEq, Repr

namespace MethodSelection

def toBytes (m : MethodSelection) : Bytes := [version, m.method]

def noAuth : MethodSelection := ⟨Method.noAuth⟩

def userPass : MethodSelection := ⟨Method.userPass⟩

def noAcceptableMethod : MethodSelection := ⟨Method.noAcceptable⟩

end MethodSelection

def negotiate (greeting : Greeting) (allowUserPass allowNoAuth : Bool) : MethodSelection :=
  if allowNoAuth ∧ Method.noAuth ∈ greeting.methods then .noAuth
  else if allowUserPass ∧ Method.userPass ∈ greeting.methods then .userPass
  else .noAcceptableMethod

/-! ## Credentials -/

namespace AuthStatus

abbrev success : UInt8 := 0x00

abbrev failure : UInt8 := 0x01

end AuthStatus

def authReplyBytes (status : UInt8) : Bytes := [authVersion, status]

structure UsernamePassword where
  username : String
  password : String
  deriving DecidableEq, Repr

namespace UsernamePassword

def parse (buf : Bytes) : Except ProtocolError UsernamePassword := do
  let (ver, r) ← (Reader.new buf).readU8
  ensure (ver = authVersion) (.badVersion ver)
  let (ulen, r) ← r.readU8
  -- a length byte cannot exceed the maximum of 255, which the code tests too
  ensure (ulen ≠ 0) .invalidCredentialLength
  let (usernameBytes, r) ← r.readBytes ulen.toNat
  let (plen, r) ← r.readU8
  let (passwordBytes, _) ← r.readBytes plen.toNat
  let username ← okOr .invalidCredentialLength (fromUtf8 usernameBytes.toList)
  let password ← okOr .invalidCredentialLength (fromUtf8 passwordBytes.toList)
  return ⟨username, password⟩

def wireLen (c : UsernamePassword) : Nat := 1 + 1 + (asBytes c.username).length + 1 + (asBytes c.password).length

def toVec (c : UsernamePassword) : Bytes :=
  authVersion :: UInt8.ofNat (asBytes c.username).length ::
    (asBytes c.username ++ UInt8.ofNat (asBytes c.password).length :: asBytes c.password)

/-- Credentials that fit a frame. -/
def Sendable (c : UsernamePassword) : Prop :=
  (asBytes c.username).length ≠ 0 ∧ (asBytes c.username).length ≤ 255 ∧ (asBytes c.password).length ≤ 255

/-- The buffer is one credential frame, and nothing else. -/
def IsFrame (c : UsernamePassword) (b : Bytes) : Prop := parse b = .ok c ∧ c.wireLen = b.length

variable {c : UsernamePassword} {b : Bytes}

theorem length_toVec (c : UsernamePassword) : c.toVec.length = c.wireLen := by
  simp only [toVec, wireLen, List.length_cons, List.length_append]
  omega

theorem parse_eq_ok : parse b = .ok c ↔ (∃ t, b = c.toVec ++ t) ∧ c.Sendable := by
  simp only [parse, bind_eq_ok, Prod.exists, Reader.readU8_eq_ok, Reader.readBytes_eq_ok, ensure_eq_ok, okOr_eq_ok,
    fromUtf8_eq_some, pure, Except.pure, Except.ok.injEq]
  constructor
  · rintro ⟨_, r₁, ⟨h₁, -⟩, -, rfl, n, r₂, ⟨h₂, -⟩, -, hn, us, r₃, ⟨h₃, -⟩, m, r₄, ⟨h₄, -⟩, ps, r₅, ⟨h₅, -⟩,
      u, hu, p, hp, rfl⟩
    have hus : (asBytes u).length = n.toNat := hu ▸ us.2
    have hps : (asBytes p).length = m.toNat := hp ▸ ps.2
    refine ⟨⟨r₅.rest, ?_⟩, ?_, ?_, ?_⟩
    · rw [toVec, ofNat_length hus, ofNat_length hps]
      simp only [List.cons_append, List.append_assoc, ← hu, ← hp, ← h₅, ← h₄, ← h₃, ← h₂, ← h₁]
      rfl
    · rw [hus]; exact fun h => hn (UInt8.toNat_inj.mp h)
    · rw [hus]; exact Nat.le_of_lt_succ n.toNat_lt
    · rw [hps]; exact Nat.le_of_lt_succ m.toNat_lt
  · rintro ⟨⟨t, rfl⟩, hu₀, hu, hp⟩
    have hn := toNat_ofNat_length hu
    have hm := toNat_ofNat_length hp
    refine ⟨_, ⟨_, 1⟩, ⟨rfl, rfl⟩, (), rfl, _, ⟨_, 2⟩, ⟨rfl, rfl⟩, (), fun h => hu₀ (by rw [← hn, h]; rfl),
      ⟨asBytes c.username, hn.symm⟩, ⟨_, _⟩, ⟨List.append_assoc _ _ _, rfl⟩, _, ⟨_, _⟩, ⟨rfl, rfl⟩,
      ⟨asBytes c.password, hm.symm⟩, ⟨t, _⟩, ⟨rfl, rfl⟩, _, rfl, _, rfl, rfl⟩

theorem isFrame_iff : c.IsFrame b ↔ b = c.toVec ∧ c.Sendable := by
  constructor
  · rintro ⟨hp, hl⟩
    obtain ⟨⟨t, rfl⟩, hs⟩ := parse_eq_ok.mp hp
    rw [← length_toVec, List.length_append] at hl
    obtain rfl : t = [] := List.length_eq_zero_iff.mp (by omega)
    exact ⟨List.append_nil _, hs⟩
  · rintro ⟨rfl, hs⟩
    exact ⟨parse_eq_ok.mpr ⟨⟨[], (List.append_nil _).symm⟩, hs⟩, (length_toVec c).symm⟩

end UsernamePassword

end RustProxy.Protocol
