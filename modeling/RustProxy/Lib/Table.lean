import Mathlib.Tactic
import Mathlib.Order.Defs.LinearOrder

/-!
# Tables with a primary key

A `Table key` holds rows with pairwise different keys, listed in increasing key order. Reading by key (`find?`) and
writing a row under its key (`put`) satisfy the two laws of a finite map (`find?_put_self`, `find?_put_ne`), and the
listing holds exactly the rows that can be read (`mem_rows`). `modify` is an `UPDATE … WHERE key = k`.
-/

namespace RustProxy.Lib

variable {κ ρ : Type} [LinearOrder κ]

/-- Rows with different keys, in increasing key order. -/
@[ext] structure Table (key : ρ → κ) where
  rows : List ρ
  ordered : rows.Pairwise fun a b => key a < key b

namespace Table

variable {key : ρ → κ}

/-- The table without rows. -/
def empty (key : ρ → κ) : Table key := ⟨[], .nil⟩

/-- The row with key `k`. -/
def find? (t : Table key) (k : κ) : Option ρ := t.rows.find? fun r => key r = k

/-- Insert a row at its place, replacing the row with the same key. -/
def putRow (key : ρ → κ) (r : ρ) : List ρ → List ρ
  | [] => [r]
  | x :: xs => if key r < key x then r :: x :: xs else if key x < key r then x :: putRow key r xs else r :: xs

theorem mem_putRow {r x : ρ} : ∀ {xs : List ρ}, x ∈ putRow key r xs → x = r ∨ x ∈ xs
  | [], h => .inl (List.mem_singleton.mp h)
  | y :: ys, h => by
    unfold putRow at h
    split_ifs at h
    · exact List.mem_cons.mp h
    · rcases List.mem_cons.mp h with rfl | h
      · exact .inr List.mem_cons_self
      · exact (mem_putRow h).imp_right (List.mem_cons_of_mem y)
    · exact (List.mem_cons.mp h).imp_right (List.mem_cons_of_mem y)

theorem putRow_ordered (r : ρ) : ∀ {xs : List ρ}, xs.Pairwise (fun a b => key a < key b) →
    (putRow key r xs).Pairwise fun a b => key a < key b
  | [], _ => List.pairwise_singleton _ _
  | x :: xs, h => by
    obtain ⟨hx, hxs⟩ := List.pairwise_cons.mp h
    unfold putRow
    split_ifs with h₁ h₂
    · refine List.pairwise_cons.mpr ⟨fun y hy => ?_, h⟩
      rcases List.mem_cons.mp hy with rfl | hy
      · exact h₁
      · exact h₁.trans (hx y hy)
    · refine List.pairwise_cons.mpr ⟨fun y hy => ?_, putRow_ordered r hxs⟩
      rcases mem_putRow hy with rfl | hy
      · exact h₂
      · exact hx y hy
    · have he : key r = key x := le_antisymm (not_lt.mp h₂) (not_lt.mp h₁)
      exact List.pairwise_cons.mpr ⟨fun y hy => he ▸ hx y hy, hxs⟩

/-- Write a row under its key. -/
def put (t : Table key) (r : ρ) : Table key := ⟨putRow key r t.rows, putRow_ordered r t.ordered⟩

/-- Change the row with key `k`, if there is one. -/
def modify (t : Table key) (k : κ) (f : ρ → ρ) : Table key :=
  match t.find? k with
  | none => t
  | some r => t.put (f r)

@[simp] theorem find?_empty (k : κ) : (empty key).find? k = none := rfl

theorem key_of_find? {t : Table key} {k : κ} {r : ρ} (h : t.find? k = some r) : key r = k := by
  simpa using List.find?_some h

theorem find?_putRow_self (r : ρ) : ∀ xs : List ρ, (putRow key r xs).find? (fun x => key x = key r) = some r
  | [] => by simp [putRow]
  | x :: xs => by
    unfold putRow
    split_ifs with h₁ h₂
    · simp
    · rw [List.find?_cons_of_neg (by simpa using h₂.ne)]
      exact find?_putRow_self r xs
    · simp

theorem find?_putRow_ne {r : ρ} {k : κ} (hk : key r ≠ k) : ∀ xs : List ρ,
    (putRow key r xs).find? (fun x => key x = k) = xs.find? (fun x => key x = k)
  | [] => by simp [putRow, hk]
  | x :: xs => by
    unfold putRow
    split_ifs with h₁ h₂
    · rw [List.find?_cons_of_neg (by simpa using hk)]
    · by_cases hx : key x = k
      · rw [List.find?_cons_of_pos (by simpa using hx), List.find?_cons_of_pos (by simpa using hx)]
      · rw [List.find?_cons_of_neg (by simpa using hx), List.find?_cons_of_neg (by simpa using hx)]
        exact find?_putRow_ne hk xs
    · have he : key x = key r := le_antisymm (not_lt.mp h₁) (not_lt.mp h₂)
      rw [List.find?_cons_of_neg (by simpa using hk), List.find?_cons_of_neg (by simpa [he] using hk)]

/-- A written row is read back. -/
theorem find?_put_self (t : Table key) (r : ρ) : (t.put r).find? (key r) = some r := find?_putRow_self r t.rows

/-- Writing a row leaves the rows with other keys alone. -/
theorem find?_put_ne (t : Table key) {r : ρ} {k : κ} (hk : key r ≠ k) : (t.put r).find? k = t.find? k :=
  find?_putRow_ne hk t.rows

theorem find?_modify_self (t : Table key) (k : κ) {f : ρ → ρ} (hf : ∀ r, key (f r) = key r) :
    (t.modify k f).find? k = (t.find? k).map f := by
  unfold modify
  cases h : t.find? k with
  | none => simpa using h
  | some r =>
    have hk : key (f r) = k := (hf r).trans (key_of_find? h)
    simpa [hk] using find?_put_self t (f r)

theorem find?_modify_ne (t : Table key) {k k' : κ} {f : ρ → ρ} (hf : ∀ r, key (f r) = key r) (hk : k ≠ k') :
    (t.modify k f).find? k' = t.find? k' := by
  unfold modify
  cases h : t.find? k with
  | none => rfl
  | some r => exact find?_put_ne t (by rw [hf, key_of_find? h]; exact hk)

/-- The listing holds exactly the rows that can be read. -/
theorem mem_rows {t : Table key} {r : ρ} : r ∈ t.rows ↔ t.find? (key r) = some r := by
  refine ⟨fun h => ?_, fun h => List.mem_of_find?_eq_some h⟩
  obtain ⟨rows, ordered⟩ := t
  simp only [find?] at h ⊢
  induction rows with
  | nil => cases h
  | cons x xs ih =>
    obtain ⟨hx, hxs⟩ := List.pairwise_cons.mp ordered
    rcases List.mem_cons.mp h with rfl | h
    · simp
    · rw [List.find?_cons_of_neg (by simpa using (hx r h).ne)]
      exact ih hxs h

/-- A table in which only one key is found has one row. -/
theorem rows_eq_singleton {t : Table key} {k : κ} {r : ρ} (hr : t.find? k = some r)
    (hother : ∀ k', k' ≠ k → t.find? k' = none) : t.rows = [r] := by
  have hkey := key_of_find? hr
  have hall : ∀ x ∈ t.rows, x = r := by
    intro x hx
    have hfind := mem_rows.mp hx
    by_cases hk : key x = k
    · rw [hk, hr] at hfind; exact (Option.some.inj hfind).symm
    · rw [hother _ hk] at hfind; cases hfind
  have hmem : r ∈ t.rows := mem_rows.mpr (by rw [hkey]; exact hr)
  obtain ⟨rows, ordered⟩ := t
  match rows, ordered, hall, hmem with
  | [x], _, hall, _ => exact congrArg (fun y => [y]) (hall x List.mem_cons_self)
  | x :: y :: xs, ordered, hall, _ =>
    have hlt := (List.pairwise_cons.mp ordered).1 y List.mem_cons_self
    rw [hall x List.mem_cons_self, hall y (List.mem_cons_of_mem _ List.mem_cons_self)] at hlt
    exact absurd hlt (lt_irrefl _)

end Table

end RustProxy.Lib
