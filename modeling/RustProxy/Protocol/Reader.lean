import RustProxy.Lib.Bytes

/-!
# The SOCKS5 wire: constants, errors and the reader

`protocol/src/{constants,error,reader}.rs`. A frame is parsed by reading fields off a buffer. Each read succeeds exactly
when the unread bytes begin with the field (`readU8_eq_ok`, `readU16_eq_ok`, `readBytes_eq_ok`), so that a parser made
of reads and checks is inverted field by field (`bind_eq_ok`, `ensure_eq_ok`, `okOr_eq_ok`).
-/

namespace RustProxy.Protocol

open Lib

/-! ## Constants -/

abbrev version : UInt8 := 0x05

abbrev authVersion : UInt8 := 0x01

abbrev greetingHeaderLen : Nat := 2

abbrev requestHeaderLen : Nat := 4

namespace Method

abbrev noAuth : UInt8 := 0x00

abbrev userPass : UInt8 := 0x02

abbrev noAcceptable : UInt8 := 0xff

end Method

namespace Atyp

abbrev ipv4 : UInt8 := 0x01

abbrev domain : UInt8 := 0x03

abbrev ipv6 : UInt8 := 0x04

end Atyp

namespace ReplyCode

abbrev success : UInt8 := 0x00

abbrev networkUnreachable : UInt8 := 0x03

abbrev hostUnreachable : UInt8 := 0x04

abbrev connectionRefused : UInt8 := 0x05

abbrev ttlExpired : UInt8 := 0x06

abbrev commandNotSupported : UInt8 := 0x07

abbrev addressTypeNotSupported : UInt8 := 0x08

end ReplyCode

/-! ## Errors -/

inductive ProtocolError
  | badVersion (v : UInt8)
  | unsupported (code : UInt8)
  | truncated
  | invalidCredentialLength
  | noAcceptableMethod
  deriving DecidableEq, Repr

def ProtocolError.message : ProtocolError → String
  | badVersion v => "unexpected version byte " ++ hexByte v
  | unsupported code => "unsupported code " ++ hexByte code
  | truncated => "message is truncated"
  | invalidCredentialLength => "invalid credential length"
  | noAcceptableMethod => "no acceptable authentication method"

section Results

variable {ε α β : Type}

/-- A check that ends the parse unless `c`. -/
def ensure (c : Prop) [Decidable c] (e : ε) : Except ε Unit := if c then .ok () else .error e

/-- The value, or the error where there is none. -/
def okOr (e : ε) : Option α → Except ε α
  | some a => .ok a
  | none => .error e

theorem bind_eq_ok {x : Except ε α} {f : α → Except ε β} {b : β} :
    x >>= f = .ok b ↔ ∃ a, x = .ok a ∧ f a = .ok b := by
  cases x <;> simp [bind, Except.bind]

@[simp] theorem ensure_eq_ok {c : Prop} [Decidable c] {e : ε} {u : Unit} : ensure c e = .ok u ↔ c := by
  unfold ensure
  split <;> simp [*]

@[simp] theorem okOr_eq_ok {e : ε} {o : Option α} {a : α} : okOr e o = .ok a ↔ o = some a := by
  cases o <;> simp [okOr]

end Results

/-! ## The reader -/

/-- What is left to read of a buffer, and how much has been read. -/
@[ext] structure Reader where
  rest : Bytes
  pos : Nat

namespace Reader

def new (buf : Bytes) : Reader := ⟨buf, 0⟩

def position (r : Reader) : Nat := r.pos

def readU8 (r : Reader) : Except ProtocolError (UInt8 × Reader) :=
  match r.rest with
  | [] => .error .truncated
  | b :: rest => .ok (b, ⟨rest, r.pos + 1⟩)

def readU16 (r : Reader) : Except ProtocolError (UInt16 × Reader) := do
  let (hi, r) ← r.readU8
  let (lo, r) ← r.readU8
  return (be16 hi lo, r)

def readBytes (n : Nat) (r : Reader) : Except ProtocolError (Octets n × Reader) :=
  if h : n ≤ r.rest.length then .ok (⟨r.rest.take n, List.length_take_of_le h⟩, ⟨r.rest.drop n, r.pos + n⟩)
  else .error .truncated

variable {r r' : Reader}

theorem readU8_eq_ok {b : UInt8} :
    r.readU8 = .ok (b, r') ↔ r.rest = b :: r'.rest ∧ r'.pos = r.pos + 1 := by
  obtain ⟨rest, pos⟩ := r
  cases rest with
  | nil => simp [readU8]
  | cons c rest =>
    simp only [readU8, Except.ok.injEq, Prod.mk.injEq, Reader.ext_iff, List.cons.injEq]
    tauto

theorem readU16_eq_ok {p : UInt16} :
    r.readU16 = .ok (p, r') ↔ r.rest = hiByte p :: loByte p :: r'.rest ∧ r'.pos = r.pos + 2 := by
  simp only [readU16, bind_eq_ok, Prod.exists, pure, Except.pure, Except.ok.injEq, Prod.mk.injEq, be16_eq_iff,
    readU8_eq_ok]
  constructor
  · rintro ⟨_, r₁, ⟨h₁, hp₁⟩, _, _, ⟨h₂, hp₂⟩, ⟨rfl, rfl⟩, rfl⟩
    exact ⟨by rw [h₁, h₂], by omega⟩
  · rintro ⟨h, hp⟩
    exact ⟨_, ⟨loByte p :: r'.rest, r.pos + 1⟩, ⟨h, rfl⟩, _, r', ⟨rfl, hp⟩, ⟨rfl, rfl⟩, rfl⟩

theorem readBytes_eq_ok {n : Nat} {bs : Octets n} :
    r.readBytes n = .ok (bs, r') ↔ r.rest = bs.toList ++ r'.rest ∧ r'.pos = r.pos + n := by
  unfold readBytes
  constructor
  · intro h
    split at h
    · cases h
      exact ⟨(List.take_append_drop _ _).symm, rfl⟩
    · cases h
  · rintro ⟨h, hp⟩
    have hlen : bs.toList.length = n := bs.2
    have hn : n ≤ r.rest.length := by rw [h, List.length_append]; omega
    have hbs : (⟨r.rest.take n, List.length_take_of_le hn⟩ : Octets n) = bs :=
      Subtype.ext (show r.rest.take n = bs.toList by rw [h, List.take_left' hlen])
    have hr : (⟨r.rest.drop n, r.pos + n⟩ : Reader) = r' :=
      Reader.ext (by rw [h, List.drop_left' hlen]) hp.symm
    rw [dif_pos hn, hbs, hr]

end Reader

end RustProxy.Protocol
