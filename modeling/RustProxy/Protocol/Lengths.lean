import RustProxy.Protocol.RoundTrip

/-!
# Length bytes

A name, a username and a password are written behind their length, which is narrowed with `as u8`, while the whole text
is copied: from 256 bytes on, the length byte wraps and the rest of the text is left in the stream.

* `countedAt_iff`: a length byte is right exactly for a text of at most 255 bytes.
* `length_bytes_iff`: so it is for every encoder, and what a peer reads from a frame is what was written exactly under
  this condition.
* `long_name_read_as_other`: two requests that a peer reads as the same one.
-/

namespace RustProxy.Protocol

open Lib

/-! ## Counted fields -/

/-- From `pos` on, the frame has a length byte, the field behind it, and the length is that of the field. -/
def CountedAt (pos : Nat) (field frame : Bytes) : Prop :=
  ∃ len : UInt8, (len :: field) <+: frame.drop pos ∧ len.toNat = field.length

theorem countedAt_iff (pre field rest : Bytes) {pos : Nat} (hpos : pre.length = pos) :
    CountedAt pos field (pre ++ UInt8.ofNat field.length :: (field ++ rest)) ↔ field.length ≤ 255 := by
  rw [CountedAt, List.drop_left' hpos]
  constructor
  · rintro ⟨len, hprefix, hlen⟩
    have := len.toNat_lt
    omega
  · intro h
    exact ⟨_, List.cons_prefix_cons.mpr ⟨rfl, List.prefix_append _ _⟩, toNat_ofNat_length h⟩

/-- Two short fields behind their lengths are the same if the bytes are. -/
theorem counted_append_inj {a b s t : Bytes} (ha : a.length ≤ 255) (hb : b.length ≤ 255)
    (h : UInt8.ofNat a.length :: (a ++ s) = UInt8.ofNat b.length :: (b ++ t)) : a = b ∧ s = t := by
  obtain ⟨hlen, happend⟩ := List.cons.inj h
  have hnat := congrArg UInt8.toNat hlen
  rw [toNat_ofNat_length ha, toNat_ofNat_length hb] at hnat
  exact List.append_inj happend hnat

/-! ## Addresses -/

namespace SocksAddr

/-- The length byte of a name, if there is one, is right in a frame that has the address at `pos`. -/
def Counted (pos : Nat) (frame : Bytes) (a : SocksAddr) : Prop :=
  match a.host with
  | .ip _ => True
  | .domain name => CountedAt pos (asBytes name) frame

/-- A name, if there is one, has at most 255 bytes. -/
def Short (a : SocksAddr) : Prop :=
  match a.host with
  | .ip _ => True
  | .domain name => (asBytes name).length ≤ 255

theorem Short.sendable {a : SocksAddr} (h : a.Short) : a.host.Sendable true := by
  rcases a with ⟨ip | name, port⟩
  · trivial
  · exact ⟨h, fun hfalse => by cases hfalse⟩

theorem short_of_sendable {a : SocksAddr} {emptyName : Bool} (h : a.host.Sendable emptyName) : a.Short := by
  rcases a with ⟨ip | name, port⟩
  · trivial
  · exact h.1

theorem counted_iff (a : SocksAddr) (pre rest : Bytes) {pos : Nat} (hpos : pre.length = pos) :
    a.Counted pos (pre ++ (a.toVec ++ rest)) ↔ a.Short := by
  rcases a with ⟨ip | name, port⟩
  · exact Iff.rfl
  · simp only [Counted, Short, toVec, Host.toVec, List.cons_append, List.append_assoc]
    exact countedAt_iff pre _ _ hpos

/-- Two addresses with short names are the same if their bytes are. -/
theorem eq_of_toVec_append {a b : SocksAddr} {s t : Bytes} (ha : a.Short) (hb : b.Short) (hatyp : a.atyp = b.atyp)
    (h : a.toVec ++ s = b.toVec ++ t) : a = b := by
  obtain ⟨host, port⟩ := a
  obtain ⟨host', port'⟩ := b
  simp only [toVec, List.append_assoc] at h
  -- both are what the reader of addresses makes of the same bytes
  have hread : (Reader.new (host.toVec ++ ([hiByte port, loByte port] ++ s))).readHost true host.atyp =
      .ok (host, ⟨_, _⟩) := readHost_eq_ok.mpr ⟨rfl, rfl, rfl, ha.sendable⟩
  have hread' : (Reader.new (host.toVec ++ ([hiByte port, loByte port] ++ s))).readHost true host.atyp =
      .ok (host', ⟨_, _⟩) := readHost_eq_ok.mpr ⟨hatyp, h, rfl, hb.sendable⟩
  rw [hread, Except.ok.injEq, Prod.mk.injEq, Reader.mk.injEq] at hread'
  obtain ⟨rfl, hport, -⟩ := hread'
  simp only [List.cons_append, List.nil_append, List.cons.injEq] at hport
  obtain rfl : port = port' := (be16_eq_iff.mpr ⟨rfl, rfl⟩).symm.trans (be16_eq_iff.mpr ⟨hport.1, hport.2.1⟩)
  rfl

end SocksAddr

theorem Command.toU8_injective {c c' : Command} (h : c.toU8 = c'.toU8) : c = c' :=
  Except.ok.inj ((Command.fromU8_eq_ok.mpr rfl).symm.trans (Command.fromU8_eq_ok.mpr h))

/-! ## What a peer reads -/

/-- A request is read as it was written exactly if its name is short; in any case, what is read is what is read from its
own frame. -/
theorem Request.read_iff {q r : Request} {s : Bytes} {n : Nat} (h : parse (q.toBytes ++ s) = .ok (r, n)) :
    (r = q ↔ q.addr.Short) ∧ parse r.toBytes = .ok (r, n) := by
  obtain ⟨rsv, t, hframe, hn, hs⟩ := parse_eq_ok.mp h
  refine ⟨⟨?_, fun hq => ?_⟩, ?_⟩
  · rintro rfl
    exact SocksAddr.short_of_sendable hs
  · simp only [toBytes, frame, List.cons_append, List.cons.injEq] at hframe
    obtain ⟨-, hcmd, -, hatyp, haddr⟩ := hframe
    obtain ⟨cmd, addr⟩ := q
    obtain ⟨cmd', addr'⟩ := r
    obtain rfl := Command.toU8_injective hcmd
    obtain rfl := SocksAddr.eq_of_toVec_append hq (SocksAddr.short_of_sendable hs) hatyp haddr
    rfl
  · have hparse := parse_toBytes hs []
    rwa [List.append_nil, show r.toBytes.length = n from hn.symm] at hparse

theorem Reply.read_iff {p r : Reply} {s : Bytes} (h : parse (p.toBytes ++ s) = .ok r) :
    r = p ↔ p.bindAddr.Short := by
  obtain ⟨⟨rsv, t, hframe⟩, hs⟩ := parse_eq_ok.mp h
  refine ⟨?_, fun hp => ?_⟩
  · rintro rfl
    exact SocksAddr.short_of_sendable hs
  · simp only [toBytes, frame, List.cons_append, List.cons.injEq] at hframe
    obtain ⟨-, hcode, -, hatyp, haddr⟩ := hframe
    obtain ⟨code, addr⟩ := p
    obtain ⟨code', addr'⟩ := r
    obtain rfl : code = code' := hcode
    obtain rfl := SocksAddr.eq_of_toVec_append hp (SocksAddr.short_of_sendable hs) hatyp haddr
    rfl

namespace UsernamePassword

/-- Both length bytes are right. -/
def Counted (c : UsernamePassword) : Prop :=
  CountedAt 1 (asBytes c.username) c.toVec ∧
    CountedAt (2 + (asBytes c.username).length) (asBytes c.password) c.toVec

/-- Username and password have at most 255 bytes. -/
def Short (c : UsernamePassword) : Prop := (asBytes c.username).length ≤ 255 ∧ (asBytes c.password).length ≤ 255

theorem counted_iff (c : UsernamePassword) : c.Counted ↔ c.Short := by
  refine and_congr (countedAt_iff [authVersion] (asBytes c.username) _ rfl) ?_
  have hpassword := countedAt_iff (authVersion :: UInt8.ofNat (asBytes c.username).length :: asBytes c.username)
    (asBytes c.password) [] (Nat.add_comm _ 2)
  rwa [List.append_nil] at hpassword

theorem read_iff {c d : UsernamePassword} {s : Bytes} (h : parse (c.toVec ++ s) = .ok d) : d = c ↔ c.Short := by
  obtain ⟨⟨t, hframe⟩, hs⟩ := parse_eq_ok.mp h
  refine ⟨?_, fun hc => ?_⟩
  · rintro rfl
    exact hs.2
  · simp only [toVec, List.cons_append, List.append_assoc] at hframe
    obtain ⟨husername, hrest⟩ := counted_append_inj hc.1 hs.2.1 (List.cons.inj hframe).2
    obtain ⟨hpassword, -⟩ := counted_append_inj hc.2 hs.2.2 hrest
    obtain ⟨username, password⟩ := c
    obtain ⟨username', password'⟩ := d
    obtain rfl := asBytes_injective husername
    obtain rfl := asBytes_injective hpassword
    rfl

end UsernamePassword

/-- **Length bytes.** For every value of every encoder, whatever buffer an address is written into: the length bytes are
those of the fields that follow them exactly if no field has more than 255 bytes. What a peer reads from a frame, before
any further bytes, is the value that was written under the same condition, so that two requests with short names are
never read as the same one; but what is read in place of a request with a long name is also read from its own frame. -/
theorem length_bytes_iff (a : SocksAddr) (q q' : Request) (p : Reply) (c : UsernamePassword) :
    (∀ (out written : Bytes) (n : Nat), a.write out = some (written, n) → (a.Counted 0 written ↔ a.Short)) ∧
    (q.addr.Counted 4 q.toBytes ↔ q.addr.Short) ∧
    (p.bindAddr.Counted 4 p.toBytes ↔ p.bindAddr.Short) ∧
    (c.Counted ↔ c.Short) ∧
    (∀ (s : Bytes) (r : Request) (n : Nat), Request.parse (q.toBytes ++ s) = .ok (r, n) →
      (r = q ↔ q.addr.Short) ∧ Request.parse r.toBytes = .ok (r, n)) ∧
    (q.addr.Short → q'.addr.Short → q ≠ q' → ∀ (s s' : Bytes) (r r' : Request) (n n' : Nat),
      Request.parse (q.toBytes ++ s) = .ok (r, n) → Request.parse (q'.toBytes ++ s') = .ok (r', n') → r ≠ r') ∧
    (∀ (s : Bytes) (r : Reply), Reply.parse (p.toBytes ++ s) = .ok r → (r = p ↔ p.bindAddr.Short)) ∧
    (∀ (s : Bytes) (d : UsernamePassword), UsernamePassword.parse (c.toVec ++ s) = .ok d → (d = c ↔ c.Short)) := by
  refine ⟨?_, ?_, ?_, c.counted_iff, ?_, ?_, ?_, ?_⟩
  · intro out written n h
    by_cases hlen : a.wireLen ≤ out.length
    · rw [a.write_eq hlen] at h
      cases h
      exact a.counted_iff [] _ rfl
    · rw [SocksAddr.write, if_neg hlen] at h
      cases h
  · have h := q.addr.counted_iff [version, q.command.toU8, 0x00, q.addr.atyp] [] rfl
    rwa [List.append_nil] at h
  · have h := p.bindAddr.counted_iff [version, p.code, 0x00, p.bindAddr.atyp] [] rfl
    rwa [List.append_nil] at h
  · intro s r n h
    exact Request.read_iff h
  · intro hq hq' hne s s' r r' n n' h h'
    rwa [(Request.read_iff h).1.mpr hq, (Request.read_iff h').1.mpr hq']
  · intro s r h
    exact Reply.read_iff h
  · intro s d h
    exact UsernamePassword.read_iff h

/-- A name of 257 bytes, of which a peer takes one, and the next two for the port. -/
def longNamed : Request := ⟨.connect, ⟨.domain (String.ofList (List.replicate 257 'a')), 80⟩⟩

def shortNamed : Request := ⟨.connect, ⟨.domain "a", 0x6161⟩⟩

theorem long_name_read_as_other :
    longNamed ≠ shortNamed ∧ longNamed.toBytes[4]? = some 1 ∧ longNamed.toBytes.length = 264 ∧
      Request.parse longNamed.toBytes = .ok (shortNamed, 8) ∧
      Request.parse shortNamed.toBytes = .ok (shortNamed, 8) := by
  decide +kernel

end RustProxy.Protocol
