import Mathlib.Tactic

/-!
# Numerals

Numbers read from their digits, in any base up to sixteen. What the library writes is read back
(`readNat_toDigits`), and no other sign is written (`not_mem_toDigits`).
-/

namespace RustProxy.Lib

/-- The value of a digit. -/
def digitValue (c : Char) : Option Nat :=
  if '0' ≤ c ∧ c ≤ '9' then some (c.toNat - '0'.toNat)
  else if 'a' ≤ c ∧ c ≤ 'f' then some (c.toNat - 'a'.toNat + 10)
  else if 'A' ≤ c ∧ c ≤ 'F' then some (c.toNat - 'A'.toNat + 10)
  else none

/-- The number of the digits, where those before them make `acc`. -/
def readDigits (b acc : Nat) : List Char → Option Nat
  | [] => some acc
  | c :: cs => (digitValue c).bind fun d => if d < b then readDigits b (b * acc + d) cs else none

/-- A numeral has a digit at least. -/
def readNat (b : Nat) (cs : List Char) : Option Nat := if cs.isEmpty then none else readDigits b 0 cs

theorem digitValue_digitChar {d : Nat} (hd : d < 16) : digitValue (Nat.digitChar d) = some d := by
  interval_cases d <;> rfl

theorem readDigits_append (b acc : Nat) (cs ds : List Char) :
    readDigits b acc (cs ++ ds) = (readDigits b acc cs).bind fun n => readDigits b n ds := by
  induction cs generalizing acc with
  | nil => rfl
  | cons c cs ih =>
    simp only [List.cons_append, readDigits]
    cases digitValue c with
    | none => rfl
    | some d =>
      simp only [Option.bind_some]
      split
      · exact ih _
      · rfl

section Digits

variable {b : Nat}

theorem readDigits_digitChar (hb : b ≤ 16) {d : Nat} (hd : d < b) (acc : Nat) :
    readDigits b acc [Nat.digitChar d] = some (b * acc + d) := by
  rw [readDigits, digitValue_digitChar (by omega), Option.bind_some, if_pos hd, readDigits]

theorem readDigits_toDigits (hb : 1 < b) (hb' : b ≤ 16) (n : Nat) :
    readDigits b 0 (Nat.toDigits b n) = some n := by
  induction n using Nat.strongRecOn with
  | ind n ih =>
    by_cases hn : n < b
    · rw [Nat.toDigits_of_lt_base hn, readDigits_digitChar hb' hn, Nat.mul_zero, Nat.zero_add]
    · have hlt : n / b < n := Nat.div_lt_self (by omega) hb
      rw [Nat.toDigits_of_base_le hb (by omega), readDigits_append, ih _ hlt, Option.bind_some,
        readDigits_digitChar hb' (Nat.mod_lt n (by omega)), Nat.div_add_mod]

/-- What is written is read back. -/
theorem readNat_toDigits (hb : 1 < b) (hb' : b ≤ 16) (n : Nat) : readNat b (Nat.toDigits b n) = some n := by
  have hne : (Nat.toDigits b n).isEmpty = false := by
    rw [List.isEmpty_eq_false_iff]
    exact Nat.toDigits_ne_nil
  rw [readNat, hne, if_neg Bool.false_ne_true, readDigits_toDigits hb hb']

theorem exists_digit_of_mem (hb : 1 < b) {n : Nat} {c : Char} (hc : c ∈ Nat.toDigits b n) :
    ∃ d < b, c = Nat.digitChar d := by
  induction n using Nat.strongRecOn with
  | ind n ih =>
    by_cases hn : n < b
    · rw [Nat.toDigits_of_lt_base hn, List.mem_singleton] at hc
      exact ⟨n, hn, hc⟩
    · rw [Nat.toDigits_of_base_le hb (by omega), List.mem_append, List.mem_singleton] at hc
      rcases hc with hc | hc
      · exact ih _ (Nat.div_lt_self (by omega) hb) hc
      · exact ⟨n % b, Nat.mod_lt n (by omega), hc⟩

/-- Only digits are written. -/
theorem not_mem_toDigits (hb : 1 < b) (hb' : b ≤ 16) {c : Char} (hc : digitValue c = none) (n : Nat) :
    c ∉ Nat.toDigits b n := by
  intro hmem
  obtain ⟨d, hd, rfl⟩ := exists_digit_of_mem hb hmem
  rw [digitValue_digitChar (by omega)] at hc
  cases hc

end Digits

end RustProxy.Lib
