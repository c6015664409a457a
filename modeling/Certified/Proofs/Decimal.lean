import Mathlib
import Certified.Radix.Lemmas
import Certified.Text.Decimal

/-!
Decimal text of a fixed width: it has one character for each place, reads back as its number, and sorts as the
numbers do.
-/

namespace Certified.Text.Decimal

/-- The digits of a number with zeros in front of them are its digits in so many places. -/
theorem replicate_append_toDigits {width n : Nat} (fits : n < 10 ^ (width + 1)) :
    List.replicate (width + 1 - (Nat.toDigits 10 n).length) '0' ++ Nat.toDigits 10 n =
      (Radix.digits 10 (width + 1) n).map Nat.digitChar := by
  induction width generalizing n with
  | zero =>
    have small : n < 10 := fits
    simp [Nat.toDigits_of_lt_base small, Radix.digits, Nat.mod_eq_of_lt small]
  | succ width ih =>
    rw [Radix.digits, List.map_append, List.map_singleton]
    by_cases small : n < 10
    · have zeros := ih (n := 0) (by positivity)
      rw [Nat.toDigits_zero] at zeros
      rw [Nat.toDigits_of_lt_base small, Nat.div_eq_of_lt small, Nat.mod_eq_of_lt small, ← zeros,
        List.length_singleton, List.length_singleton, Nat.add_sub_cancel, Nat.add_sub_cancel,
        List.replicate_succ']
    · have shorter : n / 10 < 10 ^ (width + 1) := by
        rw [Nat.pow_succ] at fits
        omega
      rw [Nat.toDigits_of_base_le (by omega) (Nat.not_lt.mp small), List.length_append,
        List.length_singleton, Nat.add_sub_add_right, ← List.append_assoc, ih shorter]

/-- A number is written with digits that spell it. -/
theorem exists_digits (n : Nat) :
    ∃ ds, Nat.toDigits 10 n = ds.map Nat.digitChar ∧ (∀ d ∈ ds, d < 10) ∧ Radix.value 10 ds = n := by
  obtain ⟨width, length⟩ := Nat.exists_eq_add_of_le' (Nat.length_toDigits_pos (b := 10) (n := n))
  have fits : n < 10 ^ (width + 1) := by
    rw [← Nat.length_toDigits_le_iff (by omega) (by omega), length]
  have filled := replicate_append_toDigits fits
  rw [length, Nat.sub_self, List.replicate_zero, List.nil_append] at filled
  refine ⟨_, filled, fun d mem => Radix.lt_of_mem_digits (by omega) mem, ?_⟩
  rw [Radix.value_digits, Nat.mod_eq_of_lt fits]

/-- No zero stands in front of a number that has one. -/
theorem head?_toDigits_ne_zero {n : Nat} (pos : 0 < n) : (Nat.toDigits 10 n).head? ≠ some '0' := by
  induction n using Nat.strongRecOn with
  | ind n ih =>
    by_cases small : n < 10
    · rw [Nat.toDigits_of_lt_base small]
      intro zero
      have none : n = 0 := by simpa using zero
      omega
    · rw [Nat.toDigits_of_base_le (by omega) (Nat.not_lt.mp small),
        List.head?_append_of_ne_nil _ Nat.toDigits_ne_nil]
      exact ih (n / 10) (by omega) (by omega)

theorem toList_padded {width n : Nat} (occupied : 0 < width) (fits : n < 10 ^ width) :
    (padded width n).toList = (Radix.digits 10 width n).map Nat.digitChar := by
  obtain ⟨width, rfl⟩ := Nat.exists_eq_add_of_le' occupied
  rw [padded, String.toList_ofList]
  exact replicate_append_toDigits fits

theorem length_padded {width n : Nat} (occupied : 0 < width) (fits : n < 10 ^ width) :
    (padded width n).toList.length = width := by
  rw [toList_padded occupied fits, List.length_map, Radix.length_digits]

theorem ofDigits?_padded {width n : Nat} (occupied : 0 < width) (fits : n < 10 ^ width) :
    ofDigits? (padded width n).toList = some n := by
  have some : (padded width n).toList.isEmpty = false := by
    rw [List.isEmpty_eq_false_iff, ← List.length_pos_iff, length_padded occupied fits]
    exact occupied
  have digits : ∀ d ∈ Radix.digits 10 width n, d < 10 := fun d mem => Radix.lt_of_mem_digits (by omega) mem
  rw [ofDigits?, some, toList_padded occupied fits, Radix.mapM_digitOf?_digitChar (by omega) digits]
  simp [Radix.value_digits, Nat.mod_eq_of_lt fits]

/-! ### Order -/

/-- Texts of one length in front of others decide first. -/
theorem append_lt_append_iff {first second rest other : List Char}
    (same : first.length = second.length) :
    first ++ rest < second ++ other ↔ first < second ∨ first = second ∧ rest < other := by
  induction first generalizing second with
  | nil =>
    obtain rfl : second = [] := List.eq_nil_of_length_eq_zero same.symm
    simp
  | cons c first ih =>
    obtain ⟨d, second, rfl⟩ := List.exists_cons_of_length_eq_add_one same.symm
    rw [List.cons_append, List.cons_append, List.cons_lt_cons_iff, List.cons_lt_cons_iff,
      ih (Nat.succ.inj same), List.cons.injEq]
    tauto

theorem digitChar_lt_digitChar_iff : ∀ d < 10, ∀ e < 10, Nat.digitChar d < Nat.digitChar e ↔ d < e := by
  decide

theorem map_digits_inj {width m n : Nat} (left : m < 10 ^ width) (right : n < 10 ^ width) :
    (Radix.digits 10 width m).map Nat.digitChar = (Radix.digits 10 width n).map Nat.digitChar ↔ m = n := by
  refine ⟨?_, fun same => by rw [same]⟩
  intro same
  have read := congrArg (List.mapM (Radix.digitOf? 10)) same
  have digits (n : Nat) : ∀ d ∈ Radix.digits 10 width n, d < 10 :=
    fun d mem => Radix.lt_of_mem_digits (by omega) mem
  rw [Radix.mapM_digitOf?_digitChar (by omega) (digits m),
    Radix.mapM_digitOf?_digitChar (by omega) (digits n)] at read
  have value := congrArg (Radix.value 10) (Option.some.inj read)
  rwa [Radix.value_digits, Radix.value_digits, Nat.mod_eq_of_lt left, Nat.mod_eq_of_lt right] at value

theorem map_digits_lt_iff {width m n : Nat} (left : m < 10 ^ width) (right : n < 10 ^ width) :
    (Radix.digits 10 width m).map Nat.digitChar < (Radix.digits 10 width n).map Nat.digitChar ↔ m < n := by
  induction width generalizing m n with
  | zero =>
    obtain rfl : m = 0 := Nat.lt_one_iff.mp left
    obtain rfl : n = 0 := Nat.lt_one_iff.mp right
    simp [Radix.digits]
  | succ width ih =>
    rw [Nat.pow_succ] at left right
    have front : m / 10 < 10 ^ width := by omega
    have back : n / 10 < 10 ^ width := by omega
    have last (n : Nat) : n % 10 < 10 := Nat.mod_lt n (by omega)
    rw [Radix.digits, Radix.digits, List.map_append, List.map_append, append_lt_append_iff (by simp),
      ih front back, map_digits_inj front back, List.map_singleton, List.map_singleton,
      List.cons_lt_cons_iff, digitChar_lt_digitChar_iff _ (last m) _ (last n)]
    simp only [List.not_lt_nil, and_false, or_false]
    omega

/-- Numbers of one width before other texts decide first. -/
theorem padded_append_lt_iff {width m n : Nat} {rest other : List Char} (occupied : 0 < width)
    (left : m < 10 ^ width) (right : n < 10 ^ width) :
    (padded width m).toList ++ rest < (padded width n).toList ++ other ↔
      m < n ∨ m = n ∧ rest < other := by
  have same : (padded width m).toList.length = (padded width n).toList.length := by
    rw [length_padded occupied left, length_padded occupied right]
  rw [append_lt_append_iff same, toList_padded occupied left, toList_padded occupied right,
    map_digits_lt_iff left right, map_digits_inj left right]

end Certified.Text.Decimal
