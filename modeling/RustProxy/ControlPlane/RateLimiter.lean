import RustProxy.Lib.Meter

/-!
# Rate limiting

`RateLimiter` (`bandwidth.rs`): a bucket of tokens that is refilled, up to its capacity, whenever tokens are asked for.
Tokens, rates and times in seconds are exact rationals; `Instant::now()` is an argument.

* `try_take` follows the level of a metered flow (`refill_tokens_eq_level`): what is granted is metered by the capacity
  and the rate (`takes_metered`), and a call is refused only if some window has no room for it (`tryTake_eq_true_iff`).
* The loop of `acquire` ends where the capacity allows it and the missing tokens are refilled
  (`acquire_completes_iff`); otherwise it goes on for ever (`acquire_running`) or panics (`acquire_panicked`).
-/

namespace RustProxy.ControlPlane

open Lib Finset

structure RateLimiter where
  rate : ℚ
  capacity : ℚ
  tokens : ℚ
  last : ℚ
  deriving DecidableEq

namespace RateLimiter

def new (rateBytesPerSec capacityBytes : UInt64) (now : ℚ) : RateLimiter where
  rate := rateBytesPerSec.toNat
  capacity := capacityBytes.toNat
  tokens := capacityBytes.toNat
  last := now

/-- `duration_since` a later instant is zero. -/
def refill (now : ℚ) (l : RateLimiter) : RateLimiter :=
  let elapsed := max (now - l.last) 0
  let added := elapsed * l.rate
  { l with last := now, tokens := min (l.tokens + added) l.capacity }

def tryTake (now : ℚ) (n : UInt64) (l : RateLimiter) : Bool × RateLimiter :=
  let l := l.refill now
  if l.tokens ≥ n.toNat then (true, { l with tokens := l.tokens - n.toNat }) else (false, l)

/-! ## One call -/

/-- The tokens that a call consumes. -/
def taken (now : ℚ) (n : UInt64) (l : RateLimiter) : ℕ := if (l.tryTake now n).1 then n.toNat else 0

/-- A limiter with this rate and capacity, filled at most to its capacity. -/
structure Of (rate capacity : UInt64) (l : RateLimiter) : Prop where
  rate_eq : l.rate = rate.toNat
  capacity_eq : l.capacity = capacity.toNat
  tokens_nonneg : 0 ≤ l.tokens
  tokens_le : l.tokens ≤ capacity.toNat

section Call

variable {l : RateLimiter} {rate capacity n : UInt64} {now : ℚ}

theorem tryTake_of_le (h : (n.toNat : ℚ) ≤ (l.refill now).tokens) :
    l.tryTake now n = (true, { l.refill now with tokens := (l.refill now).tokens - n.toNat }) := if_pos h

theorem tryTake_of_lt (h : (l.refill now).tokens < n.toNat) : l.tryTake now n = (false, l.refill now) :=
  if_neg (not_le.mpr h)

theorem tryTake_fst : (l.tryTake now n).1 = true ↔ (n.toNat : ℚ) ≤ (l.refill now).tokens := by
  rcases le_or_gt (n.toNat : ℚ) (l.refill now).tokens with h | h
  · simp [tryTake_of_le h, h]
  · simp [tryTake_of_lt h, h]

theorem tryTake_snd (l : RateLimiter) (now : ℚ) (n : UInt64) :
    (l.tryTake now n).2 = { l.refill now with tokens := (l.refill now).tokens - l.taken now n } := by
  rcases le_or_gt (n.toNat : ℚ) (l.refill now).tokens with h | h
  · simp [taken, tryTake_of_le h]
  · simp [taken, tryTake_of_lt h]

theorem of_new (rate capacity : UInt64) (now : ℚ) : (new rate capacity now).Of rate capacity :=
  ⟨rfl, rfl, Nat.cast_nonneg _, le_rfl⟩

theorem Of.refill (h : l.Of rate capacity) (now : ℚ) : (l.refill now).Of rate capacity := by
  have hadded : 0 ≤ max (now - l.last) 0 * l.rate := by
    rw [h.rate_eq]
    exact mul_nonneg (le_max_right _ _) (Nat.cast_nonneg _)
  refine ⟨h.rate_eq, h.capacity_eq, le_min (add_nonneg h.tokens_nonneg hadded) ?_, ?_⟩
  · rw [h.capacity_eq]
    exact Nat.cast_nonneg _
  · rw [← h.capacity_eq]
    exact min_le_right _ _

theorem Of.taken_le (h : l.Of rate capacity) (now : ℚ) (n : UInt64) :
    (l.taken now n : ℚ) ≤ (l.refill now).tokens := by
  unfold taken
  split_ifs with htake
  · exact tryTake_fst.mp htake
  · simpa using (h.refill now).tokens_nonneg

theorem Of.tryTake (h : l.Of rate capacity) (now : ℚ) (n : UInt64) :
    (l.tryTake now n).2.Of rate capacity := by
  have hfill := h.refill now
  rw [tryTake_snd]
  refine ⟨hfill.rate_eq, hfill.capacity_eq, sub_nonneg.mpr (h.taken_le now n), ?_⟩
  exact (sub_le_self _ (Nat.cast_nonneg _)).trans hfill.tokens_le

end Call

/-! ## Sequences of calls -/

/-- A call of `try_take` and when it is made. -/
structure Take where
  time : ℚ
  n : UInt64

/-- The limiter after the first `k` calls. -/
def after (calls : ℕ → Take) (l : RateLimiter) : ℕ → RateLimiter
  | 0 => l
  | k + 1 => ((after calls l k).tryTake (calls k).time (calls k).n).2

/-- What call `k` is granted. -/
def granted (calls : ℕ → Take) (l : RateLimiter) (k : ℕ) : ℕ :=
  (l.after calls k).taken (calls k).time (calls k).n

theorem Of.after {l : RateLimiter} {rate capacity : UInt64} (h : l.Of rate capacity) (calls : ℕ → Take) (k : ℕ) :
    (l.after calls k).Of rate capacity := by
  induction k with
  | zero => exact h
  | succ k ih => exact ih.tryTake _ _

section Window

variable {rate capacity : UInt64} {created : ℚ} {calls : ℕ → Take}

/-- **The limiter follows the level**: the tokens that a call finds after the refill are what the grants before it
leave of every window. -/
theorem refill_tokens_eq_level (hmono : Monotone fun k => (calls k).time) (j : ℕ) :
    (((new rate capacity created).after calls j).refill (calls j).time).tokens =
      level (capacity.toNat : ℚ) rate.toNat (fun k => (calls k).time)
        (fun k => (new rate capacity created).granted calls k) j := by
  induction j with
  | zero =>
    have hadded : 0 ≤ max ((calls 0).time - created) 0 * (rate.toNat : ℚ) :=
      mul_nonneg (le_max_right _ _) (Nat.cast_nonneg _)
    exact min_eq_right (le_add_of_nonneg_right hadded)
  | succ j ih =>
    have hof := (of_new rate capacity created).after calls j
    have helapsed : max ((calls (j + 1)).time - (calls j).time) 0 = (calls (j + 1)).time - (calls j).time :=
      max_eq_left (sub_nonneg.mpr (hmono j.le_succ))
    rw [level, ← ih, after, tryTake_snd]
    simp only [refill, helapsed, hof.rate_eq, hof.capacity_eq, granted]
    rw [mul_comm (_ - _)]

/-- **A call is refused only if it has to be.** It is granted exactly if with it no window that ends there exceeds the
capacity and what the rate yields in the time of the window. -/
theorem tryTake_eq_true_iff (hmono : Monotone fun k => (calls k).time) (j : ℕ) :
    (((new rate capacity created).after calls j).tryTake (calls j).time (calls j).n).1 = true ↔
      ∀ i ≤ j, ∑ k ∈ Ico i j, ((new rate capacity created).granted calls k : ℚ) + (calls j).n.toNat ≤
        capacity.toNat + rate.toNat * ((calls j).time - (calls i).time) := by
  rw [tryTake_fst, refill_tokens_eq_level hmono, le_level_iff]

/-- **Bursts and long-run average.** For every limiter and every sequence of calls at non-decreasing times, the tokens
stay between zero and the capacity, and the calls of any window are granted at most the capacity and what the rate
yields in the time of the window. -/
theorem takes_metered (rate capacity : UInt64) (created : ℚ) (calls : ℕ → Take)
    (hmono : Monotone fun k => (calls k).time) :
    (∀ k, 0 ≤ ((new rate capacity created).after calls k).tokens ∧
      ((new rate capacity created).after calls k).tokens ≤ capacity.toNat) ∧
    ∀ i j, i ≤ j → ∑ k ∈ Icc i j, ((new rate capacity created).granted calls k : ℚ) ≤
      capacity.toNat + rate.toNat * ((calls j).time - (calls i).time) := by
  have hof (k : ℕ) := (of_new rate capacity created).after calls k
  refine ⟨fun k => ⟨(hof k).tokens_nonneg, (hof k).tokens_le⟩, metered_iff.mpr fun j => ?_⟩
  rw [← refill_tokens_eq_level hmono]
  exact (hof j).taken_le _ _

end Window

/-- A burst of all tokens, then one token more, again and again. -/
def burst (k : ℕ) : Take := ⟨0, if k = 0 then 100 else 1⟩

theorem takes_metered_burst : (new 100 100 0).granted burst 0 = 100 ∧
    ∀ j, ∑ k ∈ Icc 0 j, ((new 100 100 0).granted burst k : ℚ) ≤ 100 := by
  refine ⟨by decide +kernel, fun j => ?_⟩
  have h := (takes_metered 100 100 0 burst fun _ _ _ => le_rfl).2 0 j j.zero_le
  simpa [burst] using h

/-! ## Waiting for tokens -/

/-- The quotient of a positive number, infinite where it is divided by zero. -/
def divF64 (a b : ℚ) : WithTop ℚ := if b = 0 then ⊤ else ((a / b : ℚ) : WithTop ℚ)

/-- `Duration::from_secs_f64`, which panics on what is not finite or does not fit the seconds of a duration. -/
def fromSecsF64 : WithTop ℚ → Option ℚ
  | none => none
  | some secs => if 0 ≤ secs ∧ secs < 2 ^ 64 then some secs else none

/-- How long to sleep until what is missing has been refilled, and a millisecond at least. -/
def sleepSecs (missing rate : ℚ) : Option ℚ :=
  let wait := divF64 missing rate
  fromSecsF64 (max wait ((1 / 1000 : ℚ) : WithTop ℚ))

inductive Iteration
  | returns (l : RateLimiter)
  | sleeps (secs : ℚ) (l : RateLimiter)
  | panics
  deriving DecidableEq

/-- One iteration of the loop of `acquire(n)`. -/
def iteration (now : ℚ) (n : UInt64) (l : RateLimiter) : Iteration :=
  let (ok, l) := l.tryTake now n
  if ok then .returns l
  else
    let missing := n.toNat - l.tokens
    match sleepSecs missing l.rate with
    | some secs => .sleeps secs l
    | none => .panics

inductive Progress
  | running (l : RateLimiter)
  | returned (l : RateLimiter)
  | panicked
  deriving DecidableEq

/-- The call `acquire(n)` after `k` iterations, if iteration `i` reads the time `clock i`. -/
def acquire (n : UInt64) (clock : ℕ → ℚ) (l : RateLimiter) : ℕ → Progress
  | 0 => .running l
  | k + 1 =>
    match acquire n clock l k with
    | .running l =>
      match l.iteration (clock k) n with
      | .returns l => .returned l
      | .sleeps _ l => .running l
      | .panics => .panicked
    | p => p

/-- During each sleep, the clock advances by at least the requested duration. -/
def Sleeps (n : UInt64) (clock : ℕ → ℚ) (l : RateLimiter) : Prop :=
  ∀ k m secs m', l.acquire n clock k = .running m → m.iteration (clock k) n = .sleeps secs m' →
    clock k + secs ≤ clock (k + 1)

/-- The calls of `try_take` that the loop makes, were it to go on for ever. -/
def tries (n : UInt64) (clock : ℕ → ℚ) (k : ℕ) : Take := ⟨clock k, n⟩

/-- The loop ends after finitely many iterations with `n` tokens consumed, and no sleep is infinite. -/
def Completes (n : UInt64) (clock : ℕ → ℚ) (l : RateLimiter) : Prop :=
  (∃ k, l.acquire n clock k = .returned (l.after (tries n clock) k) ∧
    ∑ i ∈ range k, l.granted (tries n clock) i = n.toNat) ∧
  ∀ k, l.acquire n clock k ≠ .panicked

/-! ### One iteration -/

/-- For what is missing of a machine number, and at a rate of at least one, the duration is finite. -/
theorem sleepSecs_eq {missing rate : ℚ} (hpos : 0 < missing) (hlt : missing < 2 ^ 64) (hrate : 1 ≤ rate) :
    sleepSecs missing rate = some (max (missing / rate) (1 / 1000)) := by
  have hne : rate ≠ 0 := by linarith
  have hwait : missing / rate < 2 ^ 64 := (div_le_self hpos.le hrate).trans_lt hlt
  have hfits : 0 ≤ max (missing / rate) (1 / 1000) ∧ max (missing / rate) (1 / 1000) < 2 ^ 64 :=
    ⟨le_max_of_le_right (by norm_num), max_lt hwait (by norm_num)⟩
  rw [sleepSecs, divF64, if_neg hne, ← WithTop.coe_max]
  exact if_pos hfits

/-- Without a refill the wait is infinite. -/
theorem sleepSecs_zero (missing : ℚ) : sleepSecs missing 0 = none := by
  simp [sleepSecs, divF64, fromSecsF64]

section Iteration

variable {l m : RateLimiter} {rate capacity n : UInt64} {now : ℚ}

theorem iteration_of_le (h : (n.toNat : ℚ) ≤ (l.refill now).tokens) :
    l.iteration now n = .returns (l.tryTake now n).2 := by
  simp [iteration, tryTake_of_le h]

theorem iteration_of_lt (h : (l.refill now).tokens < n.toNat) :
    l.iteration now n = match sleepSecs (n.toNat - (l.refill now).tokens) (l.refill now).rate with
      | some secs => .sleeps secs (l.refill now)
      | none => .panics := by
  simp [iteration, tryTake_of_lt h]

/-- An iteration that sleeps has been refused. -/
theorem of_iteration_sleeps {secs : ℚ} (h : l.iteration now n = .sleeps secs m) :
    m = (l.tryTake now n).2 ∧ l.taken now n = 0 := by
  rcases le_or_gt (n.toNat : ℚ) (l.refill now).tokens with hle | hlt
  · rw [iteration_of_le hle] at h
    cases h
  · rw [iteration_of_lt hlt] at h
    have htake := tryTake_of_lt hlt
    refine ⟨?_, by simp [taken, htake]⟩
    split at h
    · cases h
      rw [htake]
    · cases h

/-- A sleep is long enough for what is missing. -/
theorem iteration_sleeps (hof : l.Of rate capacity) (hrate : 0 < rate) (h : (l.refill now).tokens < n.toNat) :
    ∃ secs, l.iteration now n = .sleeps secs (l.refill now) ∧
      n.toNat - (l.refill now).tokens ≤ secs * rate.toNat := by
  have hfill := hof.refill now
  have hone : (1 : ℚ) ≤ rate.toNat := by exact_mod_cast UInt64.lt_iff_toNat_lt.mp hrate
  have hpos : (0 : ℚ) < rate.toNat := by linarith
  have hn : (n.toNat : ℚ) < 2 ^ 64 := by exact_mod_cast n.toNat_lt
  have hlt : n.toNat - (l.refill now).tokens < 2 ^ 64 := by linarith [hfill.tokens_nonneg]
  refine ⟨max ((n.toNat - (l.refill now).tokens) / rate.toNat) (1 / 1000), ?_, ?_⟩
  · rw [iteration_of_lt h, hfill.rate_eq, sleepSecs_eq (sub_pos.mpr h) hlt hone]
  · calc n.toNat - (l.refill now).tokens
        = (n.toNat - (l.refill now).tokens) / rate.toNat * rate.toNat := (div_mul_cancel₀ _ hpos.ne').symm
      _ ≤ _ := by gcongr; exact le_max_left _ _

end Iteration

/-! ### The loop -/

section Loop

variable {l m : RateLimiter} {rate capacity n : UInt64} {clock : ℕ → ℚ} {k : ℕ}

theorem acquire_succ (h : l.acquire n clock k = .running m) :
    l.acquire n clock (k + 1) = match m.iteration (clock k) n with
      | .returns m' => .returned m'
      | .sleeps _ m' => .running m'
      | .panics => .panicked := by
  rw [acquire, h]

/-- What has returned or panicked stays so. -/
theorem acquire_stays {p : Progress} (hp : ∀ m, p ≠ .running m) (h : l.acquire n clock k = p) {j : ℕ} (hj : k ≤ j) :
    l.acquire n clock j = p := by
  induction j, hj using Nat.le_induction with
  | base => exact h
  | succ j _ ih =>
    rw [acquire, ih]
    cases p with
    | running m => exact absurd rfl (hp m)
    | returned m => rfl
    | panicked => rfl

/-- While the loop runs, all its calls of `try_take` have been refused. -/
theorem of_running (h : l.acquire n clock k = .running m) :
    m = l.after (tries n clock) k ∧ ∑ i ∈ range k, l.granted (tries n clock) i = 0 := by
  induction k generalizing m with
  | zero =>
    cases h
    exact ⟨rfl, rfl⟩
  | succ k ih =>
    cases hk : l.acquire n clock k with
    | running m₀ =>
      obtain ⟨rfl, hsum⟩ := ih hk
      rw [acquire_succ hk] at h
      split at h
      · cases h
      · rename_i hsleeps
        cases h
        obtain ⟨hafter, hzero⟩ := of_iteration_sleeps hsleeps
        refine ⟨hafter, ?_⟩
        rw [sum_range_succ, hsum, Nat.zero_add]
        exact hzero
      · cases h
    | returned m₀ =>
      rw [acquire, hk] at h
      cases h
    | panicked =>
      rw [acquire, hk] at h
      cases h

/-- An iteration that finds enough tokens is the last one, and the only one that consumes any. -/
theorem acquire_returns (h : l.acquire n clock k = .running m)
    (hle : (n.toNat : ℚ) ≤ (m.refill (clock k)).tokens) : l.Completes n clock := by
  have hlast : l.acquire n clock (k + 1) = .returned (m.tryTake (clock k) n).2 := by
    rw [acquire_succ h, iteration_of_le hle]
  obtain ⟨rfl, hsum⟩ := of_running h
  refine ⟨⟨k + 1, hlast, ?_⟩, fun j hj => ?_⟩
  · have hgranted : l.granted (tries n clock) k = n.toNat := if_pos (tryTake_fst.mpr hle)
    rw [sum_range_succ, hsum, hgranted, Nat.zero_add]
  · rcases Nat.le_total j (k + 1) with hjk | hjk
    · rw [acquire_stays (by simp) hj hjk] at hlast
      cases hlast
    · rw [acquire_stays (by simp) hlast hjk] at hj
      cases hj

/-- For more tokens than the bucket can hold, the loop goes on for ever. -/
theorem acquire_running (hof : l.Of rate capacity) (hrate : 0 < rate) (hn : capacity < n) (clock : ℕ → ℚ) (k : ℕ) :
    ∃ m, l.acquire n clock k = .running m := by
  induction k with
  | zero => exact ⟨l, rfl⟩
  | succ k ih =>
    obtain ⟨m, hm⟩ := ih
    have hofm : m.Of rate capacity := (of_running hm).1 ▸ hof.after _ k
    have hcapacity : (capacity.toNat : ℚ) < n.toNat := by exact_mod_cast UInt64.lt_iff_toNat_lt.mp hn
    obtain ⟨secs, hsleeps, -⟩ := iteration_sleeps hofm hrate ((hofm.refill (clock k)).tokens_le.trans_lt hcapacity)
    exact ⟨_, by rw [acquire_succ hm, hsleeps]⟩

theorem refill_tokens_of_rate_zero (hof : l.Of 0 capacity) (now : ℚ) : (l.refill now).tokens = l.tokens := by
  have hzero : l.rate = 0 := hof.rate_eq
  have hle : l.tokens ≤ l.capacity := hof.capacity_eq ▸ hof.tokens_le
  simp [refill, hzero, hle]

/-- Without a refill, tokens that are not there are waited for with an infinite duration. -/
theorem acquire_panicked (hof : l.Of 0 capacity) (h : l.tokens < n.toNat) (clock : ℕ → ℚ) :
    l.acquire n clock 1 = .panicked := by
  have hzero : (l.refill (clock 0)).rate = 0 := hof.rate_eq
  have hlt : (l.refill (clock 0)).tokens < n.toNat := by rwa [refill_tokens_of_rate_zero hof]
  rw [acquire_succ (k := 0) rfl, iteration_of_lt hlt, hzero, sleepSecs_zero]

/-- After the first sleep the tokens are there. -/
theorem completes_of_rate_pos (hof : l.Of rate capacity) (hclock : l.Sleeps n clock) (hrate : 0 < rate)
    (hn : n ≤ capacity) : l.Completes n clock := by
  rcases le_or_gt (n.toNat : ℚ) (l.refill (clock 0)).tokens with hle | hlt
  · exact acquire_returns (k := 0) rfl hle
  · obtain ⟨secs, hsleeps, henough⟩ := iteration_sleeps hof hrate hlt
    have hwake : clock 0 + secs ≤ clock 1 := hclock 0 l secs _ rfl hsleeps
    have hfirst : l.acquire n clock 1 = .running (l.refill (clock 0)) := by
      rw [acquire_succ (k := 0) rfl, hsleeps]
    have hfill := hof.refill (clock 0)
    refine acquire_returns hfirst (le_min ?_ ?_)
    · have helapsed : secs ≤ max (clock 1 - (l.refill (clock 0)).last) 0 := by
        refine le_max_of_le_left ?_
        change secs ≤ clock 1 - clock 0
        linarith
      have hadded : secs * rate.toNat ≤ max (clock 1 - (l.refill (clock 0)).last) 0 * rate.toNat := by gcongr
      rw [hfill.rate_eq]
      linarith
    · rw [hfill.capacity_eq]
      exact_mod_cast UInt64.le_iff_toNat_le.mp hn

end Loop

/-- **When `acquire` ends.** For every limiter, after any calls, and every clock that advances by at least the duration
of each sleep, the loop ends with `n` tokens consumed and without an infinite sleep exactly if `n` is at most the
capacity and either the rate is positive or the tokens are there already. -/
theorem acquire_completes_iff (rate capacity : UInt64) (created : ℚ) (earlier : ℕ → Take) (calls : ℕ) (n : UInt64)
    (clock : ℕ → ℚ) (hclock : ((new rate capacity created).after earlier calls).Sleeps n clock) :
    ((new rate capacity created).after earlier calls).Completes n clock ↔
      n ≤ capacity ∧ (0 < rate ∨ (n.toNat : ℚ) ≤ ((new rate capacity created).after earlier calls).tokens) := by
  have hof := (of_new rate capacity created).after earlier calls
  generalize (new rate capacity created).after earlier calls = l at hclock hof ⊢
  by_cases hrate : 0 < rate
  · constructor
    · rintro ⟨⟨k, hreturned, -⟩, -⟩
      refine ⟨UInt64.not_lt.mp fun hn => ?_, .inl hrate⟩
      obtain ⟨m, hrunning⟩ := acquire_running hof hrate hn clock k
      rw [hrunning] at hreturned
      cases hreturned
    · rintro ⟨hn, -⟩
      exact completes_of_rate_pos hof hclock hrate hn
  · obtain rfl : rate = 0 := UInt64.le_zero_iff.mp (UInt64.not_lt.mp hrate)
    constructor
    · rintro ⟨-, hpanic⟩
      have htokens : (n.toNat : ℚ) ≤ l.tokens := by
        by_contra hlt
        exact hpanic 1 (acquire_panicked hof (not_le.mp hlt) clock)
      refine ⟨UInt64.le_iff_toNat_le.mpr ?_, .inr htokens⟩
      exact_mod_cast htokens.trans hof.tokens_le
    · rintro ⟨-, hzero | htokens⟩
      · exact absurd hzero hrate
      · exact acquire_returns (k := 0) rfl (by rwa [refill_tokens_of_rate_zero hof])

/-- The seconds are counted. -/
def seconds (k : ℕ) : ℚ := k

/-- Of a bucket of 100 tokens that has just been emptied, 50 are waited for: half a second. -/
theorem acquire_completes_drained : ((new 100 100 0).after (fun _ => ⟨0, 100⟩) 1).Completes 50 seconds := by
  refine (acquire_completes_iff 100 100 0 (fun _ => ⟨0, 100⟩) 1 50 seconds ?_).mpr ⟨by decide, .inl (by decide)⟩
  have hfirst : ((new 100 100 0).after (fun _ => ⟨0, 100⟩) 1).iteration 0 50 =
      .sleeps (1 / 2) ⟨100, 100, 0, 0⟩ := by decide +kernel
  have hsecond : ((new 100 100 0).after (fun _ => ⟨0, 100⟩) 1).acquire 50 seconds 2 =
      .returned ⟨100, 100, 50, 1⟩ := by decide +kernel
  intro k m secs m' hm hsleeps
  match k with
  | 0 =>
    cases hm
    rw [show seconds 0 = 0 from rfl, hfirst] at hsleeps
    cases hsleeps
    norm_num [seconds]
  | 1 =>
    rw [acquire_succ hm, hsleeps] at hsecond
    cases hsecond
  | k + 2 =>
    rw [acquire_stays (by simp) hsecond (Nat.le_add_left 2 k)] at hm
    cases hm

theorem iteration_full (last now : ℚ) :
    (⟨100, 100, 100, last⟩ : RateLimiter).iteration now 101 = .sleeps (1 / 100) ⟨100, 100, 100, now⟩ := by
  have hfull : (⟨100, 100, 100, last⟩ : RateLimiter).refill now = ⟨100, 100, 100, now⟩ := by
    have hadded : (0 : ℚ) ≤ max (now - last) 0 * 100 := mul_nonneg (le_max_right _ _) (by norm_num)
    simp [refill, hadded]
  have hlt : ((⟨100, 100, 100, last⟩ : RateLimiter).refill now).tokens < (101 : UInt64).toNat := by
    have hmissing : (100 : ℚ) < (101 : UInt64).toNat := by decide +kernel
    rw [hfull]
    exact hmissing
  rw [iteration_of_lt hlt, hfull]
  have hsecs : sleepSecs ((101 : UInt64).toNat - 100) 100 = some (1 / 100) := by decide +kernel
  rw [hsecs]

theorem acquire_full (k : ℕ) : ∃ last, (new 100 100 0).acquire 101 seconds k = .running ⟨100, 100, 100, last⟩ := by
  induction k with
  | zero => exact ⟨0, by decide +kernel⟩
  | succ k ih =>
    obtain ⟨last, hk⟩ := ih
    exact ⟨seconds k, by rw [acquire_succ hk, iteration_full]⟩

/-- 101 tokens of a bucket of 100 are waited for without end, a hundredth of a second each time; and in a bucket that is
not refilled, the first token that is missing is a panic. -/
theorem acquire_never_returns :
    (new 100 100 0).Sleeps 101 seconds ∧ (∀ k, ∃ m, (new 100 100 0).acquire 101 seconds k = .running m) ∧
      ((new 0 100 0).after (fun _ => ⟨0, 100⟩) 1).acquire 1 seconds 1 = .panicked := by
  refine ⟨fun k m secs m' hm hsleeps => ?_, fun k => ?_, by decide +kernel⟩
  · obtain ⟨last, hk⟩ := acquire_full k
    rw [hk] at hm
    cases hm
    rw [iteration_full] at hsleeps
    cases hsleeps
    simp only [seconds, Nat.cast_succ]
    linarith
  · obtain ⟨last, hk⟩ := acquire_full k
    exact ⟨_, hk⟩

end RateLimiter

end RustProxy.ControlPlane
