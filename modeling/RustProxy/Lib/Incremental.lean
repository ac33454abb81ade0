import Mathlib.Tactic

/-!
# Decoders of a growing input

A decoder takes fields off the beginning of its input, and fails with a designated error where the input ends too early.

* `Settles short R x y`: `y` repeats the decision of `x`, up to `R`, unless `x` found its input too short. It composes
  along `bind` (`Settles.bind`), so a decoder made of reads and checks settles if its parts do.
* `Incremental short parse`: further input does not change a decision. A frame that such a decoder accepts as a whole is
  too short wherever it is cut (`Incremental.short_of_prefix`).
-/

namespace RustProxy.Lib

variable {ε τ α α' β β' : Type} {short : ε}

/-- `y` is what `x` has decided, unless `x` found its input too short. -/
inductive Settles (short : ε) (R : α → α' → Prop) : Except ε α → Except ε α' → Prop
  | short (y : Except ε α') : Settles short R (.error short) y
  | error (e : ε) : Settles short R (.error e) (.error e)
  | ok {a : α} {a' : α'} (h : R a a') : Settles short R (.ok a) (.ok a')

theorem Settles.bind {R : α → α' → Prop} {S : β → β' → Prop} {x : Except ε α} {y : Except ε α'} {f : α → Except ε β}
    {g : α' → Except ε β'} (h : Settles short R x y) (hfg : ∀ a a', R a a' → Settles short S (f a) (g a')) :
    Settles short S (x >>= f) (y >>= g) := by
  cases h with
  | short y => exact .short _
  | error e => exact .error e
  | ok h => exact hfg _ _ h

theorem Settles.same (x : Except ε α) : Settles short Eq x x := by
  cases x with
  | error e => exact .error e
  | ok a => exact .ok rfl

/-- A check that does not look at the input. -/
theorem Settles.check {S : β → β' → Prop} {x : Except ε α} {f : α → Except ε β} {g : α → Except ε β'}
    (hfg : ∀ a, Settles short S (f a) (g a)) : Settles short S (x >>= f) (x >>= g) := by
  refine (Settles.same x).bind ?_
  rintro a _ rfl
  exact hfg a

theorem Settles.eq {x y : Except ε α} (h : Settles short Eq x y) (hx : x ≠ .error short) : y = x := by
  cases h with
  | short y => exact absurd rfl hx
  | error e => rfl
  | ok h => rw [h]

/-- Further input does not change a decision. -/
def Incremental (short : ε) (parse : List τ → Except ε α) : Prop :=
  ∀ b s, parse b ≠ .error short → parse (b ++ s) = parse b

theorem Incremental.of_settles {parse : List τ → Except ε α}
    (h : ∀ b s, Settles short Eq (parse b) (parse (b ++ s))) : Incremental short parse :=
  fun b s hb => (h b s).eq hb

/-- **Cut frames.** If what a decoder accepts is at least as long as the frame of its value, then a frame that it
accepts as a whole is too short wherever it is cut. -/
theorem Incremental.short_of_prefix {parse : List τ → Except ε α} (hparse : Incremental short parse) (len : α → Nat)
    (hlen : ∀ b a, parse b = .ok a → len a ≤ b.length) {b b' : List τ} {a : α} (hb : parse b = .ok a)
    (hframe : b.length = len a) (hpre : b' <+: b) (hne : b' ≠ b) : parse b' = .error short := by
  obtain ⟨s, rfl⟩ := hpre
  by_contra hdecided
  have hb' : parse b' = .ok a := (hparse b' s hdecided).symm.trans hb
  have hle := hlen b' a hb'
  rw [List.length_append] at hframe
  obtain rfl : s = [] := List.length_eq_zero_iff.mp (by omega)
  exact hne (List.append_nil b').symm

end RustProxy.Lib
