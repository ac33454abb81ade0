import RustProxy.Lib.Incremental
import RustProxy.Protocol.Negotiation
import RustProxy.Protocol.Request

/-!
# The parsers on a buffer that grows

A buffer is filled as the bytes of a frame arrive. The four parsers read fields and check them in turn; a check is made
only on what has been read, so that more bytes can change nothing but the verdict `Truncated`.

* `settles_readU8`, `settles_readBytes`, `settles_readHost`: the reads on a longer buffer.
* `parsers_on_prefixes`: every parser keeps its decision on every extension of the buffer, and every cut of a complete
  frame is truncated.
-/

namespace RustProxy.Protocol

open Lib

/-! ## Reads on a longer buffer -/

/-- The reader with `s` behind its buffer. -/
def Reader.extend (s : Bytes) (r : Reader) : Reader := ⟨r.rest ++ s, r.pos⟩

/-- The same value read, with `s` behind what is left. -/
def Reader.Ahead {α : Type} (s : Bytes) (x y : α × Reader) : Prop := y = (x.1, x.2.extend s)

section Reads

variable {s : Bytes}

/-- What follows a read goes on with the reader that it leaves. -/
theorem Reader.settles_read {α β : Type} {S : β → β → Prop} {x y : Except ProtocolError (α × Reader)}
    {f g : α × Reader → Except ProtocolError β} (h : Settles .truncated (Reader.Ahead s) x y)
    (hfg : ∀ a r, Settles .truncated S (f (a, r)) (g (a, r.extend s))) :
    Settles .truncated S (x >>= f) (y >>= g) := by
  refine h.bind ?_
  rintro ⟨a, r⟩ _ rfl
  exact hfg a r

variable (s) (r : Reader)

theorem settles_readU8 : Settles .truncated (Reader.Ahead s) r.readU8 (r.extend s).readU8 := by
  obtain ⟨rest, pos⟩ := r
  cases rest with
  | nil => exact .short _
  | cons b rest => exact .ok rfl

theorem settles_readBytes (n : Nat) :
    Settles .truncated (Reader.Ahead s) (r.readBytes n) ((r.extend s).readBytes n) := by
  by_cases hn : n ≤ r.rest.length
  · have hread : r.readBytes n = .ok (⟨r.rest.take n, List.length_take_of_le hn⟩, ⟨r.rest.drop n, r.pos + n⟩) :=
      dif_pos hn
    have hread' : (r.extend s).readBytes n =
        .ok (⟨r.rest.take n, List.length_take_of_le hn⟩, ⟨r.rest.drop n ++ s, r.pos + n⟩) := by
      refine Reader.readBytes_eq_ok.mpr ⟨?_, rfl⟩
      change r.rest ++ s = r.rest.take n ++ (r.rest.drop n ++ s)
      rw [← List.append_assoc, List.take_append_drop]
    rw [hread, hread']
    exact .ok rfl
  · rw [Reader.readBytes, dif_neg hn]
    exact .short _

theorem settles_readU16 : Settles .truncated (Reader.Ahead s) r.readU16 (r.extend s).readU16 := by
  refine Reader.settles_read (settles_readU8 s r) fun hi r₁ => ?_
  refine Reader.settles_read (settles_readU8 s r₁) fun lo r₂ => ?_
  exact .ok rfl

theorem settles_readIp {n : Nat} (ip : Octets n → IpAddr) :
    Settles .truncated (Reader.Ahead s) (r.readIp n ip) ((r.extend s).readIp n ip) := by
  refine Reader.settles_read (settles_readBytes s r n) fun b r₁ => ?_
  exact .ok rfl

theorem settles_readDomain (emptyName : Bool) :
    Settles .truncated (Reader.Ahead s) (r.readDomain emptyName) ((r.extend s).readDomain emptyName) := by
  refine Reader.settles_read (settles_readU8 s r) fun len r₁ => ?_
  refine .check fun _ => ?_
  refine Reader.settles_read (settles_readBytes s r₁ len.toNat) fun bs r₂ => ?_
  refine .check fun name => ?_
  exact .ok rfl

theorem settles_readHost (emptyName : Bool) (atyp : UInt8) :
    Settles .truncated (Reader.Ahead s) (r.readHost emptyName atyp) ((r.extend s).readHost emptyName atyp) := by
  unfold Reader.readHost
  split_ifs
  · exact settles_readIp s r .v4
  · exact settles_readIp s r .v6
  · exact settles_readDomain s r emptyName
  · exact .error _

end Reads

/-! ## The parsers -/

/-- The buffer is one reply, and nothing else. -/
def Reply.IsFrame (p : Reply) (b : Bytes) : Prop := Reply.parse b = .ok p ∧ b.length = 4 + p.bindAddr.wireLen

theorem Greeting.incremental_parse : Incremental .truncated Greeting.parse := by
  refine .of_settles fun b s => ?_
  refine Reader.settles_read (settles_readU8 s (.new b)) fun ver r₁ => ?_
  refine .check fun _ => ?_
  refine Reader.settles_read (settles_readU8 s r₁) fun nmethods r₂ => ?_
  refine Reader.settles_read (settles_readBytes s r₂ nmethods.toNat) fun methods r₃ => ?_
  exact .same _

theorem UsernamePassword.incremental_parse : Incremental .truncated UsernamePassword.parse := by
  refine .of_settles fun b s => ?_
  refine Reader.settles_read (settles_readU8 s (.new b)) fun ver r₁ => ?_
  refine .check fun _ => ?_
  refine Reader.settles_read (settles_readU8 s r₁) fun ulen r₂ => ?_
  refine .check fun _ => ?_
  refine Reader.settles_read (settles_readBytes s r₂ ulen.toNat) fun usernameBytes r₃ => ?_
  refine Reader.settles_read (settles_readU8 s r₃) fun plen r₄ => ?_
  refine Reader.settles_read (settles_readBytes s r₄ plen.toNat) fun passwordBytes r₅ => ?_
  exact .same _

theorem Request.incremental_parse : Incremental .truncated Request.parse := by
  refine .of_settles fun b s => ?_
  refine Reader.settles_read (settles_readU8 s (.new b)) fun ver r₁ => ?_
  refine .check fun _ => ?_
  refine Reader.settles_read (settles_readU8 s r₁) fun cmd r₂ => ?_
  refine .check fun command => ?_
  refine Reader.settles_read (settles_readU8 s r₂) fun rsv r₃ => ?_
  refine Reader.settles_read (settles_readU8 s r₃) fun atyp r₄ => ?_
  refine Reader.settles_read (settles_readHost s r₄ false atyp) fun host r₅ => ?_
  refine Reader.settles_read (settles_readU16 s r₅) fun port r₆ => ?_
  exact .ok rfl

theorem Reply.incremental_parse : Incremental .truncated Reply.parse := by
  refine .of_settles fun b s => ?_
  refine Reader.settles_read (settles_readU8 s (.new b)) fun ver r₁ => ?_
  refine .check fun _ => ?_
  refine Reader.settles_read (settles_readU8 s r₁) fun code r₂ => ?_
  refine Reader.settles_read (settles_readU8 s r₂) fun rsv r₃ => ?_
  refine Reader.settles_read (settles_readU8 s r₃) fun atyp r₄ => ?_
  refine Reader.settles_read (settles_readHost s r₄ true atyp) fun host r₅ => ?_
  refine Reader.settles_read (settles_readU16 s r₅) fun port r₆ => ?_
  exact .ok rfl

/-! ## Cut frames -/

section Cut

variable {b b' : Bytes}

theorem Greeting.truncated_of_prefix {g : Greeting} (h : g.IsFrame b) (hpre : b' <+: b) (hne : b' ≠ b) :
    Greeting.parse b' = .error .truncated := by
  obtain ⟨hb, hs⟩ := Greeting.isFrame_iff.mp h
  refine Greeting.incremental_parse.short_of_prefix (fun g => g.frame.length) ?_ h.1 (congrArg _ hb) hpre hne
  intro c g' hc
  obtain ⟨⟨t, rfl⟩, -⟩ := Greeting.parse_eq_ok.mp hc
  simp

theorem UsernamePassword.truncated_of_prefix {c : UsernamePassword} (h : c.IsFrame b) (hpre : b' <+: b)
    (hne : b' ≠ b) : UsernamePassword.parse b' = .error .truncated := by
  refine UsernamePassword.incremental_parse.short_of_prefix UsernamePassword.wireLen ?_ h.1 h.2.symm hpre hne
  intro d c' hd
  obtain ⟨⟨t, rfl⟩, -⟩ := UsernamePassword.parse_eq_ok.mp hd
  simp [UsernamePassword.length_toVec]

theorem Request.truncated_of_prefix {q : Request} (h : q.IsFrame b) (hpre : b' <+: b) (hne : b' ≠ b) :
    Request.parse b' = .error .truncated := by
  refine Request.incremental_parse.short_of_prefix Prod.snd ?_ h rfl hpre hne
  rintro c ⟨q', n⟩ hc
  obtain ⟨rsv, t, rfl, rfl, -⟩ := Request.parse_eq_ok.mp hc
  simp

theorem Reply.truncated_of_prefix {p : Reply} (h : p.IsFrame b) (hpre : b' <+: b) (hne : b' ≠ b) :
    Reply.parse b' = .error .truncated := by
  refine Reply.incremental_parse.short_of_prefix (fun p => 4 + p.bindAddr.wireLen) ?_ h.1 h.2 hpre hne
  intro c p' hc
  obtain ⟨⟨rsv, t, rfl⟩, -⟩ := Reply.parse_eq_ok.mp hc
  simp only [Reply.frame, List.cons_append, List.length_cons, List.length_append, SocksAddr.length_toVec]
  omega

end Cut

/-- **Growing buffers.** A parser that has accepted a buffer, or rejected it for another reason than its length, has the
same result on every extension; and a buffer that is exactly the frame of what was parsed is truncated, and nothing
else, wherever it is cut. -/
theorem parsers_on_prefixes :
    ((∀ b s : Bytes, Greeting.parse b ≠ .error .truncated → Greeting.parse (b ++ s) = Greeting.parse b) ∧
      (∀ b s : Bytes, UsernamePassword.parse b ≠ .error .truncated →
        UsernamePassword.parse (b ++ s) = UsernamePassword.parse b) ∧
      (∀ b s : Bytes, Request.parse b ≠ .error .truncated → Request.parse (b ++ s) = Request.parse b) ∧
      (∀ b s : Bytes, Reply.parse b ≠ .error .truncated → Reply.parse (b ++ s) = Reply.parse b)) ∧
    ∀ b b' : Bytes, b' <+: b → b' ≠ b →
      (∀ g : Greeting, g.IsFrame b → Greeting.parse b' = .error .truncated) ∧
      (∀ c : UsernamePassword, c.IsFrame b → UsernamePassword.parse b' = .error .truncated) ∧
      (∀ q : Request, q.IsFrame b → Request.parse b' = .error .truncated) ∧
      (∀ p : Reply, p.IsFrame b → Reply.parse b' = .error .truncated) := by
  refine ⟨⟨Greeting.incremental_parse, UsernamePassword.incremental_parse, Request.incremental_parse,
    Reply.incremental_parse⟩, ?_⟩
  intro b b' hpre hne
  refine ⟨fun g hg => ?_, fun c hc => ?_, fun q hq => ?_, fun p hp => ?_⟩
  · exact Greeting.truncated_of_prefix hg hpre hne
  · exact UsernamePassword.truncated_of_prefix hc hpre hne
  · exact Request.truncated_of_prefix hq hpre hne
  · exact Reply.truncated_of_prefix hp hpre hne

end RustProxy.Protocol
