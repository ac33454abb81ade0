import RustProxy.Lib.Numerals
import RustProxy.Protocol.Request

/-!
# What an address reads as

An address goes out as text (`Display` in `protocol/src/host.rs`), and whoever is given the text has to make the address
of it again. `SocksAddr.NamedBy` says what the text has to be, without reference to how it is printed: the host, a colon
and the port in decimal, where a name stands for itself, an IPv4 address is four decimals, and an IPv6 address is any
text that reads as its 16 octets (`readIpv6`). What is printed is such a text (`SocksAddr.namedBy_display`).
-/

namespace RustProxy.Protocol

open Lib

/-! ## Reading an IPv6 address -/

/-- A group: up to four hexadecimal digits. -/
def readGroup (cs : List Char) : Option UInt16 :=
  if cs.length ≤ 4 then (readNat 16 cs).map UInt16.ofNat else none

def readOctet (cs : List Char) : Option UInt8 :=
  (readNat 10 cs).bind fun n => if n < 256 then some (UInt8.ofNat n) else none

/-- Four decimals, which stand for two groups. -/
def readDotted (cs : List Char) : Option (List UInt16) :=
  match (cs.splitOn '.').mapM readOctet with
  | some [a, b, c, d] => some [be16 a b, be16 c d]
  | _ => none

/-- The groups between the colons; in place of the last two there may be four decimals. -/
def readGroups : List (List Char) → Option (List UInt16)
  | [] => some []
  | [last] => if '.' ∈ last then readDotted last else (readGroup last).map fun g => [g]
  | cs :: rest => do
    let g ← readGroup cs
    let gs ← readGroups rest
    return g :: gs

/-- What is before the first double colon and what is after it. -/
def cutDouble : List Char → Option (List Char × List Char)
  | c :: d :: rest =>
    if c = ':' ∧ d = ':' then some ([], rest) else (cutDouble (d :: rest)).map fun p => (c :: p.1, p.2)
  | _ => none

/-- The groups on one side of a double colon, where there may be none. -/
def readSide (read : List (List Char) → Option (List UInt16)) (cs : List Char) : Option (List UInt16) :=
  if cs.isEmpty then some [] else read (cs.splitOn ':')

/-- Eight groups, or fewer with a double colon that stands for one or more zeros. -/
def readAllGroups (cs : List Char) : Option (List UInt16) :=
  match cutDouble cs with
  | some (left, right) => do
    let left ← readSide (List.mapM readGroup) left
    let right ← readSide readGroups right
    if left.length + right.length < 8 then some (left ++ List.replicate (8 - (left.length + right.length)) 0 ++ right)
    else none
  | none => do
    let gs ← readGroups (cs.splitOn ':')
    if gs.length = 8 then some gs else none

/-- The octets of the groups. -/
def octetsOf (gs : List UInt16) : Bytes := gs.flatMap fun g => [hiByte g, loByte g]

def readIpv6 (text : String) : Option Bytes := (readAllGroups text.toList).map octetsOf

/-! ## What names an address -/

def IpAddr.NamedBy : IpAddr → String → Prop
  | v4 o, text => ∃ a b c d, o.toList = [a, b, c, d] ∧
      text = toString a.toNat ++ "." ++ toString b.toNat ++ "." ++ toString c.toNat ++ "." ++ toString d.toNat
  | v6 o, text => readIpv6 text = some o.toList

def Host.NamedBy : Host → String → Prop
  | ip addr, text => addr.NamedBy text
  | domain name, text => text = name

/-- The text names the address: a text for the host, and after the last colon the port. -/
def SocksAddr.NamedBy (a : SocksAddr) (text : String) : Prop :=
  ∃ host, a.host.NamedBy host ∧ text = host ++ ":" ++ toString a.port.toNat

/-! ## The groups that are printed -/

/-- The digits of a group. -/
def hexDigits (seg : UInt16) : List Char := Nat.toDigits 16 seg.toNat

theorem not_mem_hexDigits {c : Char} (hc : digitValue c = none) (seg : UInt16) : c ∉ hexDigits seg :=
  not_mem_toDigits (by decide) (by decide) hc _

theorem hexDigits_ne_nil (seg : UInt16) : hexDigits seg ≠ [] := Nat.toDigits_ne_nil

theorem readGroup_hexDigits (seg : UInt16) : readGroup (hexDigits seg) = some seg := by
  have hlen : (hexDigits seg).length ≤ 4 :=
    (Nat.length_toDigits_le_iff (by decide) (by decide)).mpr seg.toNat_lt
  rw [readGroup, if_pos hlen, hexDigits, readNat_toDigits (by decide) (by decide), Option.map_some,
    UInt16.ofNat_toNat]

theorem mapM_readGroup (segs : List UInt16) : (segs.map hexDigits).mapM readGroup = some segs := by
  induction segs with
  | nil => rfl
  | cons seg segs ih => simp [readGroup_hexDigits, ih]

/-- Where there are no decimals, every group is hexadecimal. -/
theorem readGroups_eq_mapM {gs : List (List Char)} (h : ∀ g ∈ gs, '.' ∉ g) : readGroups gs = gs.mapM readGroup := by
  induction gs with
  | nil => rfl
  | cons g gs ih =>
    rw [List.forall_mem_cons] at h
    cases gs with
    | nil =>
      rw [readGroups, if_neg h.1]
      cases hg : readGroup g <;> simp [hg]
    | cons g' gs =>
      rw [readGroups, ih h.2]
      · exact List.mapM_cons.symm
      · simp

theorem readGroups_hexDigits (segs : List UInt16) : readGroups (segs.map hexDigits) = some segs := by
  rw [readGroups_eq_mapM, mapM_readGroup]
  intro g hg
  obtain ⟨seg, -, rfl⟩ := List.mem_map.mp hg
  exact not_mem_hexDigits rfl seg

theorem toList_colonHex (segs : List UInt16) : (colonHex segs).toList = [':'].intercalate (segs.map hexDigits) := by
  unfold hexDigits
  simp [colonHex, Function.comp_def]

theorem splitOn_colonHex {segs : List UInt16} (h : segs ≠ []) :
    (colonHex segs).toList.splitOn ':' = segs.map hexDigits := by
  rw [toList_colonHex, List.splitOn_intercalate]
  · intro g hg
    obtain ⟨seg, -, rfl⟩ := List.mem_map.mp hg
    exact not_mem_hexDigits rfl seg
  · simpa using h

theorem toList_colonHex_eq_nil {segs : List UInt16} : (colonHex segs).toList.isEmpty = true ↔ segs = [] := by
  rw [toList_colonHex, List.isEmpty_iff]
  cases segs with
  | nil => simp
  | cons seg segs =>
    cases segs with
    | nil => simpa using hexDigits_ne_nil seg
    | cons seg' segs => simp

/-- The groups on a side are read back, by any reader of groups. -/
theorem readSide_colonHex {read : List (List Char) → Option (List UInt16)} {segs : List UInt16}
    (hread : read (segs.map hexDigits) = some segs) : readSide read (colonHex segs).toList = some segs := by
  rw [readSide]
  split
  · next hempty => rw [toList_colonHex_eq_nil.mp hempty]
  · next hempty =>
    rw [toList_colonHex_eq_nil] at hempty
    rw [splitOn_colonHex hempty, hread]

/-! ### The double colon -/

/-- Signs that are no colon are passed over. -/
theorem cutDouble_append {g : List Char} (hg : ':' ∉ g) (cs : List Char) :
    cutDouble (g ++ cs) = (cutDouble cs).map fun p => (g ++ p.1, p.2) := by
  induction g with
  | nil => simp
  | cons c g ih =>
    rw [List.mem_cons, not_or] at hg
    have hcons (ds : List Char) : cutDouble (c :: ds) = (cutDouble ds).map fun p => (c :: p.1, p.2) := by
      cases ds with
      | nil => rfl
      | cons d ds => rw [cutDouble, if_neg fun h => hg.1 h.1.symm]
    rw [List.cons_append, hcons, ih hg.2, Option.map_map]
    rfl

/-- So is a colon that no other one follows. -/
theorem cutDouble_colon {d : Char} (hd : d ≠ ':') (cs : List Char) :
    cutDouble (':' :: d :: cs) = (cutDouble (d :: cs)).map fun p => (':' :: p.1, p.2) := by
  rw [cutDouble, if_neg fun h => hd h.2]

/-- A text of groups goes on to the double colon that follows. -/
theorem cutDouble_colonHex (segs : List UInt16) (cs : List Char) :
    cutDouble ((colonHex segs).toList ++ cs) = (cutDouble cs).map fun p => ((colonHex segs).toList ++ p.1, p.2) := by
  rw [toList_colonHex]
  induction segs with
  | nil => simp
  | cons seg segs ih =>
    cases segs with
    | nil =>
      simp only [List.map_cons, List.map_nil, List.intercalate_singleton]
      exact cutDouble_append (not_mem_hexDigits rfl seg) cs
    | cons seg' segs =>
      -- the digits of the next group follow the colon
      obtain ⟨d, ds, hds⟩ := List.exists_cons_of_ne_nil (hexDigits_ne_nil seg')
      have hd : d ≠ ':' := by
        rintro rfl
        exact not_mem_hexDigits rfl seg' (hds ▸ List.mem_cons_self)
      obtain ⟨rest, hrest⟩ : ∃ rest, [':'].intercalate ((seg' :: segs).map hexDigits) = d :: rest := by
        cases segs with
        | nil => exact ⟨ds, by simpa using hds⟩
        | cons seg'' segs => exact ⟨_, by simp only [List.map_cons, List.intercalate_cons_cons, hds]; rfl⟩
      have hcolon : cutDouble (':' :: (d :: rest ++ cs)) =
          (cutDouble cs).map fun p => (':' :: d :: rest ++ p.1, p.2) := by
        rw [List.cons_append, cutDouble_colon hd, ← List.cons_append, ← hrest, ih, Option.map_map]
        rfl
      have htext : [':'].intercalate ((seg :: seg' :: segs).map hexDigits) = hexDigits seg ++ ':' :: d :: rest := by
        rw [List.map_cons, List.map_cons, List.intercalate_cons_cons, ← List.map_cons, hrest]
        simp
      rw [htext, List.append_assoc, cutDouble_append (not_mem_hexDigits rfl seg)]
      simp only [List.cons_append] at hcolon ⊢
      rw [hcolon, Option.map_map]
      simp [Function.comp_def]

/-! ### The span of zeros -/

/-- The span is one of zeros. -/
def ZeroSpan.Zeros (segs : List UInt16) (z : ZeroSpan) : Prop :=
  (segs.drop z.start).take z.len = List.replicate z.len 0

/-- A span up to here that is followed by a zero. -/
theorem ZeroSpan.Zeros.extend {pre segs : List UInt16} {z : ZeroSpan} (h : z.Zeros (pre ++ 0 :: segs))
    (hend : z.start + z.len = pre.length) : ZeroSpan.Zeros (pre ++ 0 :: segs) ⟨z.start, z.len + 1⟩ := by
  have hnext : ((pre ++ 0 :: segs).drop z.start)[z.len]? = some 0 := by
    rw [List.getElem?_drop, hend, List.getElem?_append_right le_rfl, Nat.sub_self]
    rfl
  rw [Zeros, List.take_add_one, hnext, h, List.replicate_succ']
  rfl

/-- The span that the segments read last are in, with one more zero. -/
theorem zeros_grown {pre segs : List UInt16} {current z : ZeroSpan}
    (h : current.len ≠ 0 → current.start + current.len = pre.length ∧ current.Zeros (pre ++ 0 :: segs))
    (hz : ⟨if current.len = 0 then pre.length else current.start, current.len + 1⟩ = z) :
    z.start + z.len = pre.length + 1 ∧ z.Zeros (pre ++ 0 :: segs) := by
  subst hz
  by_cases hnew : current.len = 0
  · rw [if_pos hnew, hnew]
    exact ⟨rfl, by simp [ZeroSpan.Zeros]⟩
  · obtain ⟨hend, hzeros⟩ := h hnew
    rw [if_neg hnew]
    exact ⟨by dsimp only; omega, hzeros.extend hend⟩

/-- What has been found is a span of zeros: the longest one so far, and the one that the segments read last are in. -/
theorem zeros_longestZeros (pre segs : List UInt16) {current longest : ZeroSpan}
    (hcurrent : current.len ≠ 0 → current.start + current.len = pre.length ∧ current.Zeros (pre ++ segs))
    (hlongest : longest.Zeros (pre ++ segs)) :
    (longestZeros pre.length current longest segs).Zeros (pre ++ segs) := by
  induction segs generalizing pre current longest with
  | nil => exact hlongest
  | cons seg segs ih =>
    have hlen : pre.length + 1 = (pre ++ [seg]).length := by simp
    have happend : pre ++ seg :: segs = (pre ++ [seg]) ++ segs := by simp
    rw [longestZeros]
    split
    · next hzero =>
      subst hzero
      generalize hz : ZeroSpan.mk _ _ = grown
      have hgrown := zeros_grown hcurrent hz
      rw [happend] at hgrown hlongest ⊢
      rw [hlen] at hgrown ⊢
      refine ih _ (fun _ => hgrown) ?_
      split
      · exact hgrown.2
      · exact hlongest
    · rw [happend] at hlongest ⊢
      rw [hlen]
      exact ih _ (fun h => absurd rfl h) hlongest

/-- The segments around a span of zeros. -/
theorem ZeroSpan.Zeros.split {segs : List UInt16} {z : ZeroSpan} (h : z.Zeros segs) :
    segs = segs.take z.start ++ List.replicate z.len 0 ++ segs.drop (z.start + z.len) := by
  rw [Zeros] at h
  rw [← h, ← List.drop_drop, List.append_assoc, List.take_append_drop,
    List.take_append_drop]

/-! ## What is printed is read back -/

theorem octetsOf_segments : ∀ {bs : Bytes} {n : Nat}, bs.length = 2 * n → octetsOf (segments bs) = bs
  | [], _, _ => rfl
  | [b], n, h => by simp only [List.length_singleton] at h; omega
  | hi :: lo :: bs, n, h => by
    have hbs : octetsOf (segments bs) = bs :=
      octetsOf_segments (n := n - 1) (by simp only [List.length_cons] at h; omega)
    obtain ⟨hhi, hlo⟩ := be16_eq_iff.mp (rfl : be16 hi lo = be16 hi lo)
    rw [segments, octetsOf, List.flatMap_cons, ← octetsOf, hbs, ← hhi, ← hlo]
    rfl

theorem length_segments : ∀ {bs : Bytes} {n : Nat}, bs.length = 2 * n → (segments bs).length = n
  | [], n, h => by simp only [List.length_nil] at h; simp only [segments, List.length_nil]; omega
  | [b], n, h => by simp only [List.length_singleton] at h; omega
  | hi :: lo :: bs, n, h => by
    have hbs : (segments bs).length = n - 1 := length_segments (by simp only [List.length_cons] at h; omega)
    simp only [segments, List.length_cons, hbs] at h ⊢
    omega

/-- All groups, none of them left out. -/
theorem readAllGroups_colonHex {segs : List UInt16} (h : segs.length = 8) :
    readAllGroups (colonHex segs).toList = some segs := by
  have hcut := cutDouble_colonHex segs []
  rw [List.append_nil] at hcut
  have hne : segs ≠ [] := by
    rintro rfl
    cases h
  rw [readAllGroups, hcut]
  simp [cutDouble, splitOn_colonHex hne, readGroups_hexDigits, h]

/-- The groups around a span of zeros. -/
theorem readAllGroups_double {segs : List UInt16} {z : ZeroSpan} (hlen : segs.length = 8) (hz : z.Zeros segs)
    (hpos : 0 < z.len) :
    readAllGroups (colonHex (segs.take z.start) ++ "::" ++ colonHex (segs.drop (z.start + z.len))).toList =
      some segs := by
  have hsplit := hz.split
  have hcount := congrArg List.length hsplit
  simp only [List.length_append, List.length_replicate, hlen] at hcount
  generalize segs.take z.start = left at hsplit hcount ⊢
  generalize segs.drop (z.start + z.len) = right at hsplit hcount ⊢
  have hcut : cutDouble (colonHex left ++ "::" ++ colonHex right).toList =
      some ((colonHex left).toList, (colonHex right).toList) := by
    have htext : (colonHex left ++ "::" ++ colonHex right).toList =
        (colonHex left).toList ++ ':' :: ':' :: (colonHex right).toList := by
      simp
    rw [htext, cutDouble_colonHex]
    simp [cutDouble]
  have hfill : 8 - (left.length + right.length) = z.len := by omega
  rw [readAllGroups, hcut]
  simp only [readSide_colonHex (mapM_readGroup left), readSide_colonHex (readGroups_hexDigits right),
    Option.bind_eq_bind, Option.bind_some]
  rw [if_pos (by omega), hfill, ← hsplit]

/-! ### Decimals -/

theorem readOctet_toDigits (b : UInt8) : readOctet (Nat.toDigits 10 b.toNat) = some b := by
  rw [readOctet, readNat_toDigits (by decide) (by decide), Option.bind_some, if_pos b.toNat_lt, UInt8.ofNat_toNat]

theorem toList_dotted (bs : Bytes) :
    (dotted bs).toList = ['.'].intercalate (bs.map fun b => Nat.toDigits 10 b.toNat) := by
  simp [dotted, Function.comp_def]

theorem not_mem_decimals {sep : Char} (hsep : digitValue sep = none) {bs : Bytes} {g : List Char}
    (hg : g ∈ bs.map fun b => Nat.toDigits 10 b.toNat) : sep ∉ g := by
  obtain ⟨b, -, rfl⟩ := List.mem_map.mp hg
  exact not_mem_toDigits (by decide) (by decide) hsep _

theorem readDotted_dotted (a b c d : UInt8) : readDotted (dotted [a, b, c, d]).toList = some [be16 a b, be16 c d] := by
  have hsplit : (dotted [a, b, c, d]).toList.splitOn '.' = [a, b, c, d].map fun b => Nat.toDigits 10 b.toNat := by
    rw [toList_dotted, List.splitOn_intercalate]
    · exact fun g hg => not_mem_decimals rfl hg
    · simp
  rw [readDotted, hsplit]
  simp [readOctet_toDigits]

theorem readAllGroups_mapped (a b c d : UInt8) :
    readAllGroups ("::ffff:" ++ dotted [a, b, c, d]).toList =
      some (List.replicate 5 0 ++ [0xffff, be16 a b, be16 c d]) := by
  have hcut : cutDouble ("::ffff:" ++ dotted [a, b, c, d]).toList =
      some ([], [':'].intercalate [['f', 'f', 'f', 'f'], (dotted [a, b, c, d]).toList]) := by
    simp [cutDouble]
  have hcolon : ':' ∉ (dotted [a, b, c, d]).toList := by
    have hdigits (n : Nat) : ':' ∉ Nat.toDigits 10 n := not_mem_toDigits (by decide) (by decide) rfl n
    simp [toList_dotted, hdigits]
  have hsplit : ([':'].intercalate [['f', 'f', 'f', 'f'], (dotted [a, b, c, d]).toList]).splitOn ':' =
      [['f', 'f', 'f', 'f'], (dotted [a, b, c, d]).toList] := by
    rw [List.splitOn_intercalate]
    · simpa using hcolon
    · simp
  have hdot : '.' ∈ (dotted [a, b, c, d]).toList := by simp [toList_dotted]
  have hgroup : readGroup ['f', 'f', 'f', 'f'] = some 0xffff := rfl
  have hgroups : readGroups [['f', 'f', 'f', 'f'], (dotted [a, b, c, d]).toList] =
      some [0xffff, be16 a b, be16 c d] := by
    simp [readGroups, hgroup, hdot, readDotted_dotted]
  have hright : readSide readGroups ([':'].intercalate [['f', 'f', 'f', 'f'], (dotted [a, b, c, d]).toList]) =
      some [0xffff, be16 a b, be16 c d] := by
    rw [readSide, hsplit, hgroups]
    rfl
  rw [readAllGroups, hcut]
  dsimp only
  rw [hright]
  rfl

theorem readIpv6_display (o : Octets 16) : readIpv6 (IpAddr.v6 o).display = some o.toList := by
  have hlen : o.toList.length = 16 := o.toList_length
  have hsegs : (segments o.toList).length = 8 := length_segments hlen
  have hoctets : octetsOf (segments o.toList) = o.toList := octetsOf_segments (n := 8) hlen
  simp only [IpAddr.display]
  split
  · next hmapped =>
    have hrest : (o.toList.drop 12).length = 4 := by simp [hlen]
    obtain ⟨a, b, c, d, habcd⟩ : ∃ a b c d, o.toList.drop 12 = [a, b, c, d] := by
      match o.toList.drop 12, hrest with
      | [a, b, c, d], _ => exact ⟨a, b, c, d, rfl⟩
    have hall : o.toList = List.replicate 10 0 ++ [0xff, 0xff] ++ [a, b, c, d] := by
      rw [← hmapped, ← habcd, List.take_append_drop]
    have hab : octetsOf (segments [a, b, c, d]) = [a, b, c, d] := octetsOf_segments (n := 2) rfl
    rw [readIpv6, habcd, readAllGroups_mapped, hall, Option.map_some, ← hab]
    rfl
  · split
    · next hspan =>
      have hz : ZeroSpan.Zeros (segments o.toList) (longestZeros 0 ⟨0, 0⟩ ⟨0, 0⟩ (segments o.toList)) :=
        zeros_longestZeros [] (segments o.toList) (fun h => absurd rfl h) rfl
      rw [readIpv6, readAllGroups_double hsegs hz (by omega), Option.map_some, hoctets]
    · rw [readIpv6, readAllGroups_colonHex hsegs, Option.map_some, hoctets]

example : readIpv6 "2001:db8::ff00:42:8329" =
    some [0x20, 0x01, 0x0d, 0xb8, 0, 0, 0, 0, 0, 0, 0xff, 0, 0, 0x42, 0x83, 0x29] := by
  decide +kernel

/-- **What is printed names the address.** -/
theorem SocksAddr.namedBy_display (a : SocksAddr) : a.NamedBy a.display := by
  refine ⟨a.host.display, ?_, rfl⟩
  cases a.host with
  | domain name => rfl
  | ip addr =>
    cases addr with
    | v6 o => exact readIpv6_display o
    | v4 o =>
      obtain ⟨a, b, c, d, habcd⟩ : ∃ a b c d, o.toList = [a, b, c, d] := by
        match o.toList, o.toList_length with
        | [a, b, c, d], _ => exact ⟨a, b, c, d, rfl⟩
      refine ⟨a, b, c, d, habcd, ?_⟩
      simp [Host.display, IpAddr.display, habcd, dotted, String.append_assoc]

end RustProxy.Protocol
