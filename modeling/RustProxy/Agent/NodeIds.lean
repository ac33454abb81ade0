import Mathlib.Data.List.TakeWhile
import RustProxy.Agent.Agreement

/-!
# Node ids in paths

A registration carries the node id in its body, and any id that is not blank is accepted. A heartbeat carries it in the
path of its URL, put there as it is.

* `percentDecode_encodeChar`: the router undoes the encoding of the URL library, and every escape that was in the id.
* `mem_heartbeatPath`: the segments of the path are those of the id, up to a query or a fragment, and two of its own.
* `heartbeats_reach_own_row_iff`: the ids with which the heartbeats of a node arrive at its own row.
-/

namespace RustProxy.Agent

open Lib ControlPlane

/-! ## Percent-encoding -/

section Decode

/-- Two hexadecimal digits come first. -/
def twoDigits : Bytes → Bool
  | hi :: lo :: _ => (hexDigit hi).isSome && (hexDigit lo).isSome
  | _ => false

/-- A percent sign is followed by two hexadecimal digits. -/
def hasEscape : Bytes → Bool
  | [] => false
  | b :: bs => (b == 37 && twoDigits bs) || hasEscape bs

theorem twoDigits_iff {bs : Bytes} : twoDigits bs = true ↔
    ∃ hi lo h l rest, bs = hi :: lo :: rest ∧ hexDigit hi = some h ∧ hexDigit lo = some l := by
  match bs with
  | [] => simp [twoDigits]
  | [b] => simp [twoDigits]
  | hi :: lo :: rest =>
    simp only [twoDigits, Bool.and_eq_true, Option.isSome_iff_exists]
    constructor
    · rintro ⟨⟨h, hhi⟩, l, hlo⟩
      exact ⟨hi, lo, h, l, rest, rfl, hhi, hlo⟩
    · rintro ⟨_, _, h, l, _, heq, hhi, hlo⟩
      cases heq
      exact ⟨⟨h, hhi⟩, l, hlo⟩

/-- Decoding goes byte by byte, or over an escape. -/
theorem decode_induction {P : Bytes → Prop} (nil : P []) (other : ∀ b bs, b ≠ 37 → P bs → P (b :: bs))
    (percent : ∀ bs, twoDigits bs = false → P bs → P (37 :: bs))
    (escape : ∀ hi lo h l bs, hexDigit hi = some h → hexDigit lo = some l → P bs → P (37 :: hi :: lo :: bs))
    (bs : Bytes) : P bs := by
  fun_induction percentDecode bs with
  | case1 hi lo bs h l hlo hhi ih => exact escape hi lo h l bs hhi hlo ih
  | case2 hi lo bs hno ih =>
    refine percent _ (Bool.eq_false_iff.mpr fun htwo => ?_) ih
    obtain ⟨_, _, h, l, _, heq, hhi, hlo⟩ := twoDigits_iff.mp htwo
    cases heq
    exact hno h l hhi hlo
  | case3 b bs hno ih =>
    by_cases hb : b = 37
    · subst hb
      refine percent bs (Bool.eq_false_iff.mpr fun htwo => ?_) ih
      obtain ⟨hi, lo, _, _, rest, heq, -⟩ := twoDigits_iff.mp htwo
      exact hno hi lo rest rfl heq
    · exact other b bs hb ih
  | case4 => exact nil

theorem percentDecode_of_ne {b : UInt8} (h : b ≠ 37) (bs : Bytes) :
    percentDecode (b :: bs) = b :: percentDecode bs := by
  rw [percentDecode]
  intro hi lo rest heq
  exact absurd heq h

theorem percentDecode_escape {hi lo h l : UInt8} (hhi : hexDigit hi = some h) (hlo : hexDigit lo = some l)
    (bs : Bytes) : percentDecode (37 :: hi :: lo :: bs) = (16 * h + l) :: percentDecode bs := by
  rw [percentDecode, hhi, hlo]

theorem percentDecode_of_not_twoDigits {bs : Bytes} (h : twoDigits bs = false) :
    percentDecode (37 :: bs) = 37 :: percentDecode bs := by
  match bs, h with
  | [], _ => rfl
  | [b], _ => rfl
  | hi :: lo :: bs, h =>
    rw [percentDecode]
    split
    · rename_i hhi hlo
      simp [twoDigits, hhi, hlo] at h
    · rfl

theorem length_percentDecode_le (bs : Bytes) : (percentDecode bs).length ≤ bs.length := by
  induction bs using decode_induction with
  | nil => exact le_refl 0
  | other b bs hb ih =>
    rw [percentDecode_of_ne hb]
    exact Nat.succ_le_succ ih
  | percent bs htwo ih =>
    rw [percentDecode_of_not_twoDigits htwo]
    exact Nat.succ_le_succ ih
  | escape hi lo h l bs hhi hlo ih =>
    rw [percentDecode_escape hhi hlo]
    simp only [List.length_cons]
    omega

/-- What has no escapes is decoded as it is, and nothing else. -/
theorem percentDecode_eq_self_iff {bs : Bytes} : percentDecode bs = bs ↔ hasEscape bs = false := by
  induction bs using decode_induction with
  | nil => simp [percentDecode, hasEscape]
  | other b bs hb ih => simp [percentDecode_of_ne hb, hasEscape, hb, ih]
  | percent bs htwo ih => simp [percentDecode_of_not_twoDigits htwo, hasEscape, htwo, ih]
  | escape hi lo h l bs hhi hlo ih =>
    have htwo : twoDigits (hi :: lo :: bs) = true := twoDigits_iff.mpr ⟨hi, lo, h, l, bs, rfl, hhi, hlo⟩
    rw [percentDecode_escape hhi hlo]
    simp only [hasEscape, htwo, beq_self_eq_true, Bool.and_self, Bool.true_or, Bool.true_eq_false, iff_false]
    -- two bytes are missing
    intro heq
    have hlen := congrArg List.length heq
    have hle := length_percentDecode_le bs
    simp only [List.length_cons] at hlen
    omega

end Decode

section Encode

/-- The character of a byte stays as it is in a path. -/
def keptByte (b : UInt8) : Bool :=
  b < 128 && ((Char.ofNat b.toNat).isAlphanum || pathPunctuation.contains (Char.ofNat b.toNat))

/-- A byte of a text, as it is sent in a path. -/
def escapeByte (b : UInt8) : Bytes := if keptByte b then [b] else (encodeByte b).flatMap String.utf8EncodeChar

def digitByte (n : UInt8) : UInt8 := if n < 10 then 48 + n else 55 + n

/-- A byte that is not kept is sent as an escape. -/
@[mk_iff] structure Escaped (b : UInt8) : Prop where
  ne_percent : b ≠ 37
  not_digit : hexDigit b = none
  eq : escapeByte b = [37, digitByte (b / 16), digitByte (b % 16)]
  hi : hexDigit (digitByte (b / 16)) = some (b / 16)
  lo : hexDigit (digitByte (b % 16)) = some (b % 16)
  value : 16 * (b / 16) + b % 16 = b

instance (b : UInt8) : Decidable (Escaped b) := decidable_of_iff _ (escaped_iff b).symm

theorem escapeByte_cases (b : UInt8) : escapeByte b = [b] ∨ Escaped b :=
  forall_byte (P := fun b => escapeByte b = [b] ∨ Escaped b) (by decide +kernel) b

theorem escapeByte_percent : escapeByte 37 = [37] :=
  (escapeByte_cases 37).resolve_right fun hesc => hesc.ne_percent rfl

theorem escapeByte_of_digit {b h : UInt8} (hb : hexDigit b = some h) : escapeByte b = [b] := by
  rcases escapeByte_cases b with heq | hesc
  · exact heq
  · rw [hesc.not_digit] at hb
    cases hb

/-- Two digits come first after the encoding exactly if they did before. -/
theorem twoDigits_flatMap_escapeByte (bs : Bytes) : twoDigits (bs.flatMap escapeByte) = twoDigits bs := by
  have hpercent : hexDigit 37 = none := rfl
  match bs with
  | [] => rfl
  | [b] =>
    rcases escapeByte_cases b with heq | hesc
    · simp [heq, twoDigits]
    · simp [hesc.eq, twoDigits, hpercent]
  | b :: c :: bs =>
    rcases escapeByte_cases b with heq | hesc
    · rcases escapeByte_cases c with heq' | hesc'
      · simp [heq, heq', twoDigits]
      · simp [heq, hesc'.eq, twoDigits, hpercent, hesc'.not_digit]
    · simp [hesc.eq, twoDigits, hpercent, hesc.not_digit]

/-- Decoding undoes the encoding, and nothing of what the text itself escapes is lost before it. -/
theorem percentDecode_flatMap_escapeByte (bs : Bytes) :
    percentDecode (bs.flatMap escapeByte) = percentDecode bs := by
  induction bs using decode_induction with
  | nil => rfl
  | other b bs hb ih =>
    rw [List.flatMap_cons, percentDecode_of_ne hb]
    rcases escapeByte_cases b with heq | hesc
    · rw [heq, List.singleton_append, percentDecode_of_ne hb, ih]
    · rw [hesc.eq]
      change percentDecode (37 :: _ :: _ :: bs.flatMap escapeByte) = _
      rw [percentDecode_escape hesc.hi hesc.lo, hesc.value, ih]
  | percent bs htwo ih =>
    rw [List.flatMap_cons, escapeByte_percent, List.singleton_append, percentDecode_of_not_twoDigits htwo,
      percentDecode_of_not_twoDigits (by rwa [twoDigits_flatMap_escapeByte]), ih]
  | escape hi lo h l bs hhi hlo ih =>
    simp only [List.flatMap_cons, escapeByte_percent, escapeByte_of_digit hhi, escapeByte_of_digit hlo,
      List.singleton_append]
    rw [percentDecode_escape hhi hlo, percentDecode_escape hhi hlo, ih]

theorem asBytes_ofList (cs : List Char) : asBytes (String.ofList cs) = cs.flatMap String.utf8EncodeChar := by
  simp [asBytes, String.toUTF8, List.utf8Encode]

/-- The characters that are kept are ASCII. -/
theorem encodeChar_of_large {c : Char} (hc : 127 < c.val.toNat) :
    encodeChar c = (String.utf8EncodeChar c).flatMap encodeByte := by
  have hpunctuation : pathPunctuation.all (fun d => d.val.toNat ≤ 127) = true := by decide +kernel
  have hmem : pathPunctuation.contains c = false := by
    refine Bool.eq_false_iff.mpr fun h => ?_
    have hle := of_decide_eq_true (List.all_eq_true.mp hpunctuation c (List.contains_iff_mem.mp h))
    omega
  have halphanum : c.isAlphanum = false := by
    have hval : c.toNat = c.val.toNat := rfl
    delta Char.isAlphanum Char.isAlpha Char.isUpper Char.isLower Char.isDigit
    simp [UInt32.le_iff_toNat_le]
    omega
  have hbytes : asBytes (String.singleton c) = String.utf8EncodeChar c := by
    have h := asBytes_ofList [c]
    simpa using h
  rw [encodeChar, halphanum, hmem, hbytes]
  rfl

theorem escapeByte_of_large {b : UInt8} (hb : 128 ≤ b) :
    escapeByte b = (encodeByte b).flatMap String.utf8EncodeChar := by
  have hkept : keptByte b = false := by
    simp [keptByte, UInt8.not_lt.mpr hb]
  rw [escapeByte, hkept]
  rfl

theorem large_of_mem_utf8EncodeChar {c : Char} (hc : 127 < c.val.toNat) : ∀ b ∈ String.utf8EncodeChar c, 128 ≤ b := by
  have hsmall : ¬ c.val.toNat ≤ 127 := Nat.not_le.mpr hc
  simp only [String.utf8EncodeChar, if_neg hsmall, UInt8.le_iff_toNat_le]
  split_ifs
  all_goals
    simp only [List.forall_mem_cons, UInt8.toNat_ofNat', UInt8.toNat_ofNat, List.not_mem_nil, false_imp_iff,
      implies_true, and_true]
    omega

theorem flatMap_encodeChar (c : Char) :
    (encodeChar c).flatMap String.utf8EncodeChar = (String.utf8EncodeChar c).flatMap escapeByte := by
  rcases Nat.lt_or_ge 127 c.val.toNat with hc | hc
  · rw [encodeChar_of_large hc, List.flatMap_assoc]
    refine List.flatMap_congr fun b hb => ?_
    exact (escapeByte_of_large (large_of_mem_utf8EncodeChar hc b hb)).symm
  · have hall : ∀ n < 128, (encodeChar (Char.ofNat n)).flatMap String.utf8EncodeChar =
        (String.utf8EncodeChar (Char.ofNat n)).flatMap escapeByte := by decide +kernel
    have h := hall c.toNat (Nat.lt_succ_of_le hc)
    rwa [Char.ofNat_toNat] at h

/-- **The router undoes the encoding**, and also the escapes of the text itself. -/
theorem percentDecode_encodeChar (segment : List Char) :
    percentDecode (asBytes (String.ofList (segment.flatMap encodeChar))) =
      percentDecode (asBytes (String.ofList segment)) := by
  rw [asBytes_ofList, asBytes_ofList, List.flatMap_assoc]
  simp only [flatMap_encodeChar]
  rw [← List.flatMap_assoc, percentDecode_flatMap_escapeByte]

end Encode

/-! ## Segments -/

section Segments

/-- The number of bytes of a text. -/
def textLen (cs : List Char) : Nat := (cs.flatMap String.utf8EncodeChar).length

theorem length_asBytes_ofList (cs : List Char) : (asBytes (String.ofList cs)).length = textLen cs := by
  rw [asBytes_ofList, textLen]

theorem textLen_cons (c : Char) (cs : List Char) : textLen cs < textLen (c :: cs) := by
  have hpos : 0 < (String.utf8EncodeChar c).length := by
    rw [String.length_utf8EncodeChar]
    exact c.utf8Size_pos
  rw [textLen, textLen, List.flatMap_cons, List.length_append]
  omega

theorem textLen_append (cs cs' : List Char) : textLen (cs ++ cs') = textLen cs + textLen cs' := by
  simp [textLen]

theorem textLen_cons_lt {c : Char} {cs cs' : List Char} (h : textLen cs < textLen cs') :
    textLen (c :: cs) < textLen (c :: cs') := by
  simp only [textLen, List.flatMap_cons, List.length_append] at h ⊢
  omega

theorem splitSlash_ne_nil (cs : List Char) : splitSlash cs ≠ [] := by
  cases cs with
  | nil => simp [splitSlash]
  | cons c cs =>
    rw [splitSlash]
    split_ifs
    · simp
    · split <;> simp

theorem splitSlash_cons {c : Char} (hc : c ≠ '/') (cs : List Char) :
    ∃ segment segments, splitSlash cs = segment :: segments ∧ splitSlash (c :: cs) = (c :: segment) :: segments := by
  obtain ⟨segment, segments, hcs⟩ := List.exists_cons_of_ne_nil (splitSlash_ne_nil cs)
  exact ⟨segment, segments, hcs, by rw [splitSlash, if_neg hc, hcs]⟩

theorem splitSlash_append (xs ys : List Char) : splitSlash (xs ++ '/' :: ys) = splitSlash xs ++ splitSlash ys := by
  induction xs with
  | nil => simp [splitSlash]
  | cons c xs ih =>
    by_cases hc : c = '/'
    · simp [splitSlash, hc, ih]
    · obtain ⟨segment, segments, hxs, hcons⟩ := splitSlash_cons hc xs
      rw [hcons, List.cons_append, splitSlash, if_neg hc, ih, hxs]
      rfl

theorem splitSlash_of_not_mem {cs : List Char} (h : '/' ∉ cs) : splitSlash cs = [cs] := by
  induction cs with
  | nil => rfl
  | cons c cs ih =>
    simp only [List.mem_cons, not_or] at h
    rw [splitSlash, if_neg (Ne.symm h.1), ih h.2]

/-- A segment is all of a text without slashes, or it is shorter than the text. -/
theorem mem_splitSlash {segment cs : List Char} (h : segment ∈ splitSlash cs) :
    segment = cs ∧ '/' ∉ cs ∨ textLen segment < textLen cs := by
  induction cs generalizing segment with
  | nil => simp_all [splitSlash]
  | cons c cs ih =>
    have hle {s : List Char} (hs : s ∈ splitSlash cs) : textLen s < textLen (c :: cs) := by
      have hcons := textLen_cons c cs
      rcases ih hs with ⟨rfl, -⟩ | hlt
      · exact hcons
      · exact hlt.trans hcons
    by_cases hc : c = '/'
    · rw [splitSlash, if_pos hc, List.mem_cons] at h
      refine .inr ?_
      rcases h with rfl | h
      · exact (Nat.zero_le _).trans_lt (textLen_cons c cs)
      · exact hle h
    · obtain ⟨s, segments, hcs, hcons⟩ := splitSlash_cons hc cs
      rw [hcons, List.mem_cons] at h
      rcases h with rfl | h
      · rcases ih (hcs ▸ List.mem_cons_self) with ⟨rfl, hno⟩ | hlt
        · exact .inl ⟨rfl, by simp [Ne.symm hc, hno]⟩
        · exact .inr (textLen_cons_lt hlt)
      · exact .inr (hle (hcs ▸ List.mem_cons_of_mem _ h))

/-- What is cut off a text is missing. -/
theorem takeWhile_eq_or_lt (p : Char → Bool) (cs : List Char) :
    cs.takeWhile p = cs ∨ textLen (cs.takeWhile p) < textLen cs := by
  have happend := List.takeWhile_append_dropWhile (p := p) (l := cs)
  cases hdrop : cs.dropWhile p with
  | nil =>
    rw [hdrop, List.append_nil] at happend
    exact .inl happend
  | cons c rest =>
    have hlen := congrArg textLen happend
    have hpos := textLen_cons c rest
    rw [hdrop, textLen_append] at hlen
    exact .inr (by omega)

theorem mem_resolveDots {segment : List Char} {kept segments : List (List Char)}
    (h : segment ∈ resolveDots kept segments) : segment ∈ kept ∨ segment ∈ segments ∨ segment = [] := by
  have htail {kept : List (List Char)} (h : segment ∈ kept.tail) : segment ∈ kept := List.mem_of_mem_tail h
  fun_induction resolveDots kept segments with
  | case1 kept => exact .inl (List.mem_reverse.mp h)
  | case2 kept =>
    rcases List.mem_cons.mp (List.mem_reverse.mp h) with h | h
    · exact .inr (.inr h)
    · exact .inl (htail h)
  | case3 kept =>
    rcases List.mem_cons.mp (List.mem_reverse.mp h) with h | h
    · exact .inr (.inr h)
    · exact .inl h
  | case4 kept last =>
    rcases List.mem_cons.mp (List.mem_reverse.mp h) with h | h
    · exact .inr (.inl (List.mem_singleton.mpr h))
    · exact .inl h
  | case5 kept segments _ ih =>
    rcases ih h with h | h | h
    · exact .inl (htail h)
    · exact .inr (.inl (List.mem_cons_of_mem _ h))
    · exact .inr (.inr h)
  | case6 kept segments _ _ ih =>
    rcases ih h with h | h | h
    · exact .inl h
    · exact .inr (.inl (List.mem_cons_of_mem _ h))
    · exact .inr (.inr h)
  | case7 kept first segments _ _ _ ih =>
    rcases ih h with h | h | h
    · rcases List.mem_cons.mp h with rfl | h
      · exact .inr (.inl List.mem_cons_self)
      · exact .inl h
    · exact .inr (.inl (List.mem_cons_of_mem _ h))
    · exact .inr (.inr h)

end Segments

/-! ## The path of a heartbeat -/

/-- Neither a query nor a fragment begins here. -/
def inPath (c : Char) : Bool := c != '?' && c != '#'

theorem forall_inPath_iff {cs : List Char} : (∀ c ∈ cs, inPath c = true) ↔ '?' ∉ cs ∧ '#' ∉ cs := by
  simp only [inPath, Bool.and_eq_true, bne_iff_ne]
  constructor
  · intro h
    exact ⟨fun hq => (h _ hq).1 rfl, fun hf => (h _ hf).2 rfl⟩
  · rintro ⟨hq, hf⟩ c hc
    exact ⟨fun heq => hq (heq ▸ hc), fun heq => hf (heq ▸ hc)⟩

/-- An id that is one segment of a path, and is decoded as it is. -/
structure PlainId (id : String) : Prop where
  no_slash : '/' ∉ id.toList
  no_query : '?' ∉ id.toList
  no_fragment : '#' ∉ id.toList
  no_escape : hasEscape (asBytes id) = false
  ne_dot : id ≠ "."
  ne_dots : id ≠ ".."

/-- A segment as it is sent. -/
def sent (segment : List Char) : String := String.ofList (segment.flatMap encodeChar)

/-- The base URL has no path of its own. -/
def ControlPlaneClient.AtRoot (client : ControlPlaneClient) : Prop := client.baseUrl = ""

/-- `trim_end_matches` leaves nothing of slashes. -/
theorem atRoot_new (slashes : Nat) (token : Option String) :
    (ControlPlaneClient.new (String.ofList (List.replicate slashes '/')) token).AtRoot := by
  simp [ControlPlaneClient.AtRoot, ControlPlaneClient.new]

section Path

variable {client : ControlPlaneClient} {id : String}

theorem heartbeatPath_eq (hroot : client.AtRoot) (id : String) : client.heartbeatPath id =
    (resolveDots [] (splitSlash (("/nodes/".toList ++ (id.toList ++ "/heartbeat".toList)).takeWhile inPath)).tail).map
      sent := by
  have hbase : client.baseUrl = "" := hroot
  simp only [ControlPlaneClient.heartbeatPath, hbase, urlPath, String.toList_append, String.toList_empty,
    List.nil_append, List.append_assoc]
  rfl

/-- The segments before what follows `/nodes/`. -/
theorem splitSlash_nodes (cs : List Char) :
    (splitSlash ("/nodes/".toList ++ cs)).tail = "nodes".toList :: splitSlash cs := by
  have h : "/nodes/".toList ++ cs = [] ++ '/' :: ("nodes".toList ++ '/' :: cs) := by simp
  rw [h, splitSlash_append, splitSlash_append]
  rfl

/-- An id without a query or a fragment stands between two segments of the path. -/
theorem heartbeatPath_of_inPath (hroot : client.AtRoot) (hpath : ∀ c ∈ id.toList, inPath c = true) :
    client.heartbeatPath id =
      (resolveDots [] ("nodes".toList :: (splitSlash id.toList ++ ["heartbeat".toList]))).map sent := by
  have hnodes : ∀ c ∈ "/nodes/".toList, inPath c = true := forall_inPath_iff.mpr (by decide)
  have hheartbeat : "/heartbeat".toList.takeWhile inPath = "/heartbeat".toList := by decide
  have hend : splitSlash (id.toList ++ "/heartbeat".toList) = splitSlash id.toList ++ ["heartbeat".toList] :=
    splitSlash_append id.toList "heartbeat".toList
  rw [heartbeatPath_eq hroot, List.takeWhile_append_of_pos hnodes, List.takeWhile_append_of_pos hpath, hheartbeat,
    splitSlash_nodes, hend]

/-- Otherwise the path ends within the id. -/
theorem heartbeatPath_of_not_inPath (hroot : client.AtRoot) (hpath : ¬ ∀ c ∈ id.toList, inPath c = true) :
    client.heartbeatPath id =
      (resolveDots [] ("nodes".toList :: splitSlash (id.toList.takeWhile inPath))).map sent := by
  have hnodes : ∀ c ∈ "/nodes/".toList, inPath c = true := forall_inPath_iff.mpr (by decide)
  have hcut : (id.toList.takeWhile inPath).length ≠ id.toList.length := by
    intro hlen
    exact hpath (List.takeWhile_eq_self_iff.mp ((List.takeWhile_prefix inPath).eq_of_length hlen))
  rw [heartbeatPath_eq hroot, List.takeWhile_append_of_pos hnodes, List.takeWhile_append, if_neg hcut,
    splitSlash_nodes]

/-- A segment of the path is part of the id up to a query or a fragment, if it is not one of its own. -/
theorem mem_heartbeatPath (hroot : client.AtRoot) {segment : String} (h : segment ∈ client.heartbeatPath id) :
    ∃ cs, segment = sent cs ∧ (cs = [] ∨ cs = "nodes".toList ∨ cs = "heartbeat".toList ∨
      cs ∈ splitSlash (id.toList.takeWhile inPath)) := by
  by_cases hpath : ∀ c ∈ id.toList, inPath c = true
  · rw [heartbeatPath_of_inPath hroot hpath] at h
    obtain ⟨cs, hcs, rfl⟩ := List.mem_map.mp h
    refine ⟨cs, rfl, ?_⟩
    rw [List.takeWhile_eq_self_iff.mpr hpath]
    have hmem := mem_resolveDots hcs
    simp only [List.not_mem_nil, false_or, List.mem_cons, List.mem_append, or_false] at hmem
    tauto
  · rw [heartbeatPath_of_not_inPath hroot hpath] at h
    obtain ⟨cs, hcs, rfl⟩ := List.mem_map.mp h
    refine ⟨cs, rfl, ?_⟩
    have hmem := mem_resolveDots hcs
    simp only [List.not_mem_nil, false_or, List.mem_cons] at hmem
    tauto

/-- A segment of the path that is decoded to the id is all of it, and then there is nothing in the id to decode. -/
theorem plain_of_decoded (hroot : client.AtRoot) (hid : id ≠ "") {segment : String}
    (h : segment ∈ client.heartbeatPath id) (hdecoded : fromUtf8 (percentDecode (asBytes segment)) = some id) :
    '/' ∉ id.toList ∧ ('?' ∉ id.toList ∧ '#' ∉ id.toList) ∧ hasEscape (asBytes id) = false := by
  obtain ⟨cs, rfl, hcs⟩ := mem_heartbeatPath hroot h
  rw [fromUtf8_eq_some, sent, percentDecode_encodeChar] at hdecoded
  -- the segments that do not come from the id have nothing to decode
  have hown (hno : hasEscape (asBytes (String.ofList cs)) = false) : id = String.ofList cs := by
    rw [percentDecode_eq_self_iff.mpr hno] at hdecoded
    exact (asBytes_injective hdecoded).symm
  rcases hcs with rfl | rfl | rfl | hcs
  · exact absurd (hown rfl) hid
  · obtain rfl := hown (by decide +kernel)
    decide +kernel
  · obtain rfl := hown (by decide +kernel)
    decide +kernel
  · -- decoding makes a text no longer, so that the segment is not shorter than the id
    have hlen : textLen id.toList ≤ textLen cs := by
      have hle := length_percentDecode_le (asBytes (String.ofList cs))
      rwa [hdecoded, length_asBytes_ofList, ← String.ofList_toList (s := id), length_asBytes_ofList] at hle
    obtain ⟨hpath, hslash, hall⟩ : id.toList.takeWhile inPath = id.toList ∧ '/' ∉ id.toList ∧ cs = id.toList := by
      rcases takeWhile_eq_or_lt inPath id.toList with hpath | hpath
      · rw [hpath] at hcs
        rcases mem_splitSlash hcs with ⟨hall, hslash⟩ | hlt
        · exact ⟨hpath, hslash, hall⟩
        · omega
      · rcases mem_splitSlash hcs with ⟨rfl, -⟩ | hlt
        · omega
        · omega
    rw [hall, String.ofList_toList] at hdecoded
    exact ⟨hslash, forall_inPath_iff.mp (List.takeWhile_eq_self_iff.mp hpath), percentDecode_eq_self_iff.mp hdecoded⟩

/-- A plain id is a segment of its own. -/
theorem heartbeatPath_of_plain (hroot : client.AtRoot) (h : PlainId id) :
    client.heartbeatPath id = ["nodes", sent id.toList, "heartbeat"] := by
  have hpath : ∀ c ∈ id.toList, inPath c = true := forall_inPath_iff.mpr ⟨h.no_query, h.no_fragment⟩
  have hid : id = String.ofList id.toList := String.ofList_toList.symm
  have hdot : id.toList ≠ ['.'] := fun heq => h.ne_dot (by rw [hid, heq])
  have hdots : id.toList ≠ ['.', '.'] := fun heq => h.ne_dots (by rw [hid, heq])
  have hresolved : resolveDots [] ("nodes".toList :: ([id.toList] ++ ["heartbeat".toList])) =
      ["nodes".toList, id.toList, "heartbeat".toList] := by
    simp [resolveDots, hdot, hdots]
  rw [heartbeatPath_of_inPath hroot hpath, splitSlash_of_not_mem h.no_slash, hresolved]
  have hnodes : sent "nodes".toList = "nodes" := by decide +kernel
  have hheartbeat : sent "heartbeat".toList = "heartbeat" := by decide +kernel
  rw [List.map_cons, List.map_cons, List.map_singleton, hnodes, hheartbeat]

theorem routedId_of_plain (hroot : client.AtRoot) (hid : id ≠ "") (h : PlainId id) :
    routedId (client.heartbeatPath id) = some id := by
  have hdecode : percentDecode (asBytes (sent id.toList)) = asBytes id := by
    rw [sent, percentDecode_encodeChar, String.ofList_toList]
    exact percentDecode_eq_self_iff.mpr h.no_escape
  have hne : sent id.toList ≠ "" := by
    intro hempty
    have hnil : percentDecode (asBytes "") = asBytes "" := by decide +kernel
    rw [hempty, hnil] at hdecode
    exact hid (asBytes_injective hdecode).symm
  have hroute : router ["nodes", sent id.toList, "heartbeat"] = some (.heartbeatNode (sent id.toList)) := by
    simp [router, capture, hne]
  rw [routedId, heartbeatPath_of_plain hroot h, hroute]
  exact fromUtf8_eq_some.mpr hdecode

theorem addressedId_of_routedId {path : List String} (h : routedId path = some id) : addressedId path = some id := by
  unfold routedId at h
  split at h
  · rename_i segment hroute
    rw [addressedId, hroute]
    exact h
  · cases h

/-- A path that addresses the id is that of a plain one, whatever its handler. -/
theorem plain_of_addressedId (hroot : client.AtRoot) (hid : id ≠ "")
    (h : addressedId (client.heartbeatPath id) = some id) : PlainId id := by
  obtain ⟨segment, hsegment, hdecoded⟩ := Option.bind_eq_some_iff.mp h
  obtain ⟨route, hroute, hcaptured⟩ := Option.bind_eq_some_iff.mp hsegment
  obtain ⟨hslash, ⟨hquery, hfragment⟩, hescape⟩ :=
    plain_of_decoded hroot hid (segment_mem_of_router hroute hcaptured) hdecoded
  refine ⟨hslash, hquery, hfragment, hescape, ?_, ?_⟩
  -- dots are resolved before the path is sent
  all_goals
    rintro rfl
    rw [heartbeatPath_of_inPath hroot (forall_inPath_iff.mpr (by decide))] at h
    revert h
    decide +kernel

theorem routedId_iff (hroot : client.AtRoot) (hid : id ≠ "") :
    routedId (client.heartbeatPath id) = some id ↔ PlainId id :=
  ⟨fun h => plain_of_addressedId hroot hid (addressedId_of_routedId h), routedId_of_plain hroot hid⟩

end Path

/-! ## What a heartbeat writes -/

section Rows

variable {state : AppState} {client : ControlPlaneClient} {req : HttpRequest} {now : DateTime} {s : Store}

/-- A request whose body is not a registration writes no row but that of the id it addresses. -/
theorem find?_run_of_not_addressed {e : JsonRejection} (hbody : req.registerRequest = .error e) {id : String}
    (hid : addressedId req.path ≠ some id) :
    (req.run state now s).2.registry.find? id = s.registry.find? id := by
  have hother {id' : String} (haddressed : addressedId req.path = some id') : some id' ≠ some id := haddressed ▸ hid
  have hreads : (none : Option String) ≠ some id := by simp
  have hperforms : (req.prog state).Performs fun o => o.writes ≠ some id := by
    refine HttpRequest.respects hreads (fun _ => hreads) (fun _ hok => ?_) (fun id' hb haddressed _ _ => ?_)
      (fun id' haddressed _ => ?_)
    · rw [hbody] at hok
      cases hok
    · exact respects_heartbeat _ (hother haddressed) (fun _ => hother haddressed) hreads
    · exact respects_drain (hother haddressed) hreads
  exact hperforms.run_inv (h := Op.exec now) (I := fun s' => s'.registry.find? id = s.registry.find? id)
    (fun o s' ho hs' => ⟨trivial, (Op.find?_exec_of_ne ho now s').trans hs'⟩) rfl

/-- A heartbeat that arrives at the handler with the id of the node, and is authorised, does what the service does. -/
theorem run_heartbeat_of_routed {id : String} (hroute : routedId (client.heartbeatPath id) = some id)
    (hauth : authorize client.authed state.auth = .ok ()) (hblank : isBlank id = false) (p : HeartbeatPayload) :
    ((client.heartbeat id p).run state now s).2 =
      (Call.run state.service now (.heartbeat (p.toHeartbeat id)) s).2 := by
  have hvalid : validateHeartbeat { p.toHeartbeat "" with nodeId := id } = .ok () := by
    simp [validateHeartbeat, check, hblank]
  have hrun := run_heartbeatNode state client.authed id (p.toHeartbeat "") now s
  rw [hauth, hvalid] at hrun
  simp only [HttpRequest.run, prog_heartbeat hroute, respond, Prog.run_bind_ret, hrun]
  exact run_heartbeat_snd state.service (p.toHeartbeat id) now s

theorem not_blank_of_validateRegister {r : RegisterRequest} (h : validateRegister r = .ok ()) :
    isBlank r.nodeId = false := by
  cases hblank : isBlank r.nodeId with
  | false => rfl
  | true =>
    simp only [validateRegister, hblank, check] at h
    cases h

end Rows

/-- **Own rows.** For every id that a registration is accepted with, and a control plane at the root of its URL: the
heartbeats of the node are routed to the handler with its own id exactly if the id is plain. If it is, they write no
other row, and where they are authorised and the row can be read, they are recorded there; if it is not, they never
write the row of the node. -/
theorem heartbeats_reach_own_row_iff (slashes : Nat) (token : Option String) (r : RegisterRequest)
    (hvalid : validateRegister r = .ok ()) :
    let client := ControlPlaneClient.new (String.ofList (List.replicate slashes '/')) token
    (routedId (client.heartbeatPath r.nodeId) = some r.nodeId ↔ PlainId r.nodeId) ∧
    (PlainId r.nodeId → ∀ (state : AppState) (now : DateTime) (p : HeartbeatPayload) (s : Store),
      (∀ other, other ≠ r.nodeId →
        ((client.heartbeat r.nodeId p).run state now s).2.registry.find? other = s.registry.find? other) ∧
      (∀ n, authorize client.authed state.auth = .ok () → Registry.get r.nodeId s.registry = .ok (some n) →
        reportOf ((client.heartbeat r.nodeId p).run state now s).2 r.nodeId = some (p.report now))) ∧
    (¬ PlainId r.nodeId → ∀ (state : AppState) (now : DateTime) (p : HeartbeatPayload) (s : Store),
      ((client.heartbeat r.nodeId p).run state now s).2.registry.find? r.nodeId = s.registry.find? r.nodeId) := by
  intro client
  have hroot : client.AtRoot := atRoot_new slashes token
  clear_value client
  have hblank := not_blank_of_validateRegister hvalid
  have hid : r.nodeId ≠ "" := fun h => by rw [h] at hblank; cases hblank
  refine ⟨routedId_iff hroot hid, fun hplain state now p s => ⟨fun other hne => ?_, fun n hauth hfound => ?_⟩,
    fun hplain state now p s => ?_⟩
  · have haddressed := addressedId_of_routedId (routedId_of_plain hroot hid hplain)
    refine find?_run_of_not_addressed rfl fun hother => hne ?_
    exact Option.some.inj (hother.symm.trans haddressed)
  · rw [run_heartbeat_of_routed (routedId_of_plain hroot hid hplain) hauth hblank]
    exact reportOf_heartbeat_found p hfound
  · exact find?_run_of_not_addressed rfl fun haddressed => hplain (plain_of_addressedId hroot hid haddressed)

theorem heartbeats_reach_own_row_n1 : validateRegister exampleConfig.registration = .ok () ∧
    routedId ((ControlPlaneClient.new (String.ofList (List.replicate 1 '/')) none).heartbeatPath "n1") = some "n1" :=
  ⟨by decide +kernel, (heartbeats_reach_own_row_iff 1 none exampleConfig.registration (by decide +kernel)).1.mpr
    ⟨by decide, by decide, by decide, by decide +kernel, by decide, by decide⟩⟩

/-- Two registered nodes, of which the second has an escape in its id. -/
def neighbours : Store :=
  let first := (exampleClient.register exampleConfig.registration).run openPlane (.ofSecond 0) .empty
  ((exampleClient.register { exampleConfig.registration with nodeId := "n%31" }).run openPlane (.ofSecond 0) first.2).2

/-- The heartbeats of `eu/n1` have no route; those of `n%31` are recorded in the row of `n1`, not in its own; and those
of `n1/drain?` drain `n1`. -/
theorem heartbeats_reach_other_rows :
    (∀ id ∈ ["eu/n1", "n%31", "n1/drain?"],
      validateRegister { exampleConfig.registration with nodeId := id } = .ok ()) ∧
    routedId (exampleClient.heartbeatPath "eu/n1") = none ∧
    routedId (exampleClient.heartbeatPath "n%31") = some "n1" ∧
    (let s := ((exampleClient.heartbeat "n%31" firstHeartbeat).run openPlane (.ofSecond 10) neighbours).2
     reportOf s "n1" = some (firstHeartbeat.report (.ofSecond 10)) ∧
       (reportOf s "n%31").map Report.lastHeartbeat = some none) ∧
    ((((exampleClient.heartbeat "n1/drain?" firstHeartbeat).run openPlane (.ofSecond 10) neighbours).2.registry.find?
      "n1").map Row.status = some .draining) := by
  decide +kernel

end RustProxy.Agent
