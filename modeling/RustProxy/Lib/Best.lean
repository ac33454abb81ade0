import Mathlib.Data.List.Induction
import Mathlib.Data.List.Sort
import Mathlib.Tactic

/-!
# The first and the last best element of a list

Among the elements with the greatest key, a search that runs through a list keeps the first or the last one. Both are
determined by the list (`FirstBest.unique`, `LastBest.unique`), and each is the other on the reversed list.

* `lastBest_foldl`: a fold that replaces its candidate by every later element that is not worse.
* `find?_insertionSort`: the first element with a property, in a stable sort by decreasing key, is the first best of the
  elements with the property.
-/

namespace RustProxy.Lib

variable {α κ : Type} [LinearOrder κ] {key : α → κ} {xs : List α} {a b : α}

/-- The first of the elements with the greatest key. -/
def FirstBest (key : α → κ) (xs : List α) (a : α) : Prop :=
  ∃ pre post, xs = pre ++ a :: post ∧ (∀ b ∈ pre, key b < key a) ∧ ∀ b ∈ post, key b ≤ key a

/-- The last of the elements with the greatest key. -/
def LastBest (key : α → κ) (xs : List α) (a : α) : Prop :=
  ∃ pre post, xs = pre ++ a :: post ∧ (∀ b ∈ pre, key b ≤ key a) ∧ ∀ b ∈ post, key b < key a

/-! ## What they are -/

theorem lastBest_iff_reverse : LastBest key xs a ↔ FirstBest key xs.reverse a := by
  constructor
  · rintro ⟨pre, post, rfl, hpre, hpost⟩
    exact ⟨post.reverse, pre.reverse, by simp, by simpa using hpost, by simpa using hpre⟩
  · rintro ⟨pre, post, hxs, hpre, hpost⟩
    refine ⟨post.reverse, pre.reverse, ?_, by simpa using hpost, by simpa using hpre⟩
    rw [← xs.reverse_reverse, hxs]
    simp

theorem FirstBest.mem (h : FirstBest key xs a) : a ∈ xs := by
  obtain ⟨pre, post, rfl, -, -⟩ := h
  simp

theorem FirstBest.le (h : FirstBest key xs a) (hb : b ∈ xs) : key b ≤ key a := by
  obtain ⟨pre, post, rfl, hpre, hpost⟩ := h
  rcases List.mem_append.mp hb with hb | hb
  · exact (hpre b hb).le
  · rcases List.mem_cons.mp hb with rfl | hb
    · exact le_rfl
    · exact hpost b hb

theorem LastBest.mem (h : LastBest key xs a) : a ∈ xs := List.mem_reverse.mp (lastBest_iff_reverse.mp h).mem

theorem LastBest.le (h : LastBest key xs a) (hb : b ∈ xs) : key b ≤ key a :=
  (lastBest_iff_reverse.mp h).le (List.mem_reverse.mpr hb)

/-- The list determines its first best element. -/
theorem FirstBest.unique (ha : FirstBest key xs a) (hb : FirstBest key xs b) : a = b := by
  have hle := hb.le ha.mem
  have hge := ha.le hb.mem
  obtain ⟨pre, post, rfl, hpre, -⟩ := ha
  obtain ⟨pre', post', heq, hpre', -⟩ := hb
  -- neither of the two places comes before the other
  rcases List.append_eq_append_iff.mp heq with ⟨t, rfl, ht⟩ | ⟨t, rfl, ht⟩
  · cases t with
    | nil => exact (List.cons.inj ht).1
    | cons c t =>
      obtain ⟨rfl, -⟩ := List.cons.inj ht
      exact absurd (hpre' a (by simp)) hge.not_gt
  · cases t with
    | nil => exact (List.cons.inj ht).1.symm
    | cons c t =>
      obtain ⟨rfl, -⟩ := List.cons.inj ht
      exact absurd (hpre b (by simp)) hle.not_gt

theorem LastBest.unique (ha : LastBest key xs a) (hb : LastBest key xs b) : a = b :=
  (lastBest_iff_reverse.mp ha).unique (lastBest_iff_reverse.mp hb)

/-- The last best of the elements with a property, in terms of the whole list. -/
theorem lastBest_filter {p : α → Bool} : LastBest key (xs.filter p) a ↔ ∃ pre post, xs = pre ++ a :: post ∧
    p a = true ∧ (∀ b ∈ pre, p b = true → key b ≤ key a) ∧ ∀ b ∈ post, p b = true → key b < key a := by
  constructor
  · rintro ⟨pre, post, hxs, hpre, hpost⟩
    obtain ⟨l₁, l₂, rfl, rfl, hl₂⟩ := List.filter_eq_append_iff.mp hxs
    obtain ⟨skipped, l₃, rfl, hskipped, ha, rfl⟩ := List.filter_eq_cons_iff.mp hl₂
    refine ⟨l₁ ++ skipped, l₃, by simp, ha, ?_, fun b hb hp => hpost b (List.mem_filter.mpr ⟨hb, hp⟩)⟩
    rw [List.forall_mem_append]
    exact ⟨fun b hb hp => hpre b (List.mem_filter.mpr ⟨hb, hp⟩), fun b hb hp => absurd hp (hskipped b hb)⟩
  · rintro ⟨pre, post, rfl, ha, hpre, hpost⟩
    refine ⟨pre.filter p, post.filter p, by simp [ha], ?_, ?_⟩
    · exact fun b hb => hpre b (List.mem_filter.mp hb).1 (List.mem_filter.mp hb).2
    · exact fun b hb => hpost b (List.mem_filter.mp hb).1 (List.mem_filter.mp hb).2

/-! ## Searching a list -/

/-- One more element in front is the first best, unless it is worse. -/
theorem FirstBest.cons (h : FirstBest key xs a) (x : α) : FirstBest key (x :: xs) (if key a ≤ key x then x else a) := by
  split_ifs with hx
  · exact ⟨[], xs, rfl, by simp, fun b hb => (h.le hb).trans hx⟩
  · obtain ⟨pre, post, rfl, hpre, hpost⟩ := h
    refine ⟨x :: pre, post, rfl, ?_, hpost⟩
    rw [List.forall_mem_cons]
    exact ⟨not_le.mp hx, hpre⟩

theorem exists_firstBest (key : α → κ) : ∀ {xs : List α}, xs ≠ [] → ∃ a, FirstBest key xs a
  | [x], _ => ⟨x, [], [], rfl, by simp, by simp⟩
  | x :: y :: xs, _ => by
    obtain ⟨a, ha⟩ := exists_firstBest key (List.cons_ne_nil y xs)
    exact ⟨_, ha.cons x⟩

/-- One more element at the end is the last best, unless it is worse. -/
theorem LastBest.snoc (h : LastBest key xs a) (y : α) :
    LastBest key (xs ++ [y]) (if key y < key a then a else y) := by
  split_ifs with hy
  · obtain ⟨pre, post, rfl, hpre, hpost⟩ := h
    refine ⟨pre, post ++ [y], by simp, hpre, ?_⟩
    rw [List.forall_mem_append, List.forall_mem_singleton]
    exact ⟨hpost, hy⟩
  · exact ⟨xs, [], rfl, fun b hb => (h.le hb).trans (not_lt.mp hy), by simp⟩

/-- A fold that replaces its candidate by every later element that is not worse. -/
theorem lastBest_foldl (key : α → κ) (x : α) (xs : List α) :
    LastBest key (x :: xs) (xs.foldl (fun best y => if key y < key best then best else y) x) := by
  induction xs using List.reverseRecOn with
  | nil => exact ⟨[], [], rfl, by simp, by simp⟩
  | append_singleton xs y ih =>
    rw [List.foldl_append]
    exact ih.snoc y

/-! ## Sorting a list -/

section Sorting

/-- Before the other, in a sort by decreasing key. -/
abbrev byKey (key : α → κ) (a b : α) : Prop := key b ≤ key a

variable {p : α → Bool}

/-- The first element with the property, after one more has been sorted in before its equals. -/
theorem find?_orderedInsert (x : α) : ∀ {xs : List α}, xs.Pairwise (byKey key) →
    (xs.orderedInsert (byKey key) x).find? p =
      if p x then some (match xs.find? p with
        | some a => if key a ≤ key x then x else a
        | none => x)
      else xs.find? p
  | [], _ => by simp [List.find?]
  | y :: ys, hsorted => by
    obtain ⟨hy, hys⟩ := List.pairwise_cons.mp hsorted
    by_cases hxy : key y ≤ key x
    · -- the new element comes first, and whatever is found behind it is not better
      rw [List.orderedInsert_cons, if_pos hxy, List.find?_cons]
      cases hp : p x with
      | false => simp
      | true =>
        simp only [if_true]
        cases hfind : (y :: ys).find? p with
        | none => rfl
        | some a =>
          have ha : key a ≤ key x := by
            rcases List.mem_cons.mp (List.mem_of_find?_eq_some hfind) with rfl | hmem
            · exact hxy
            · exact (hy a hmem).trans hxy
          simp [ha]
    · rw [List.orderedInsert_cons, if_neg hxy, List.find?_cons, List.find?_cons, find?_orderedInsert x hys]
      cases hp : p y with
      | true => simp [hxy]
      | false => rfl

/-- The first element with a property, in a stable sort by decreasing key. -/
theorem find?_insertionSort (key : α → κ) (p : α → Bool) (xs : List α) :
    ((xs.insertionSort (byKey key)).find? p).elim (xs.filter p = []) (FirstBest key (xs.filter p)) := by
  induction xs with
  | nil => rfl
  | cons x xs ih =>
    rw [List.insertionSort_cons, find?_orderedInsert x (List.pairwise_insertionSort _ _), List.filter_cons]
    cases hp : p x with
    | false => simpa using ih
    | true =>
      simp only [if_true]
      cases hfind : (xs.insertionSort (byKey key)).find? p with
      | none =>
        rw [hfind, Option.elim_none] at ih
        rw [ih]
        exact ⟨[], [], rfl, by simp, by simp⟩
      | some a =>
        rw [hfind] at ih
        exact ih.cons x

end Sorting

end RustProxy.Lib
