import Mathlib
import Certified.Radix

/-!
The digits of a number spell it, up to what the width cuts off.
-/

namespace Certified.Radix

theorem value_singleton (base d : Nat) : value base [d] = d := by
  simp [value]

theorem value_append (base : Nat) (front back : List Nat) :
    value base (front ++ back) = value base front * base ^ back.length + value base back := by
  induction back using List.reverseRecOn with
  | nil => simp [value]
  | append_singleton back d ih =>
    rw [← List.append_assoc, value_append_singleton, ih, value_append_singleton, List.length_append,
      List.length_singleton, Nat.pow_succ]
    ring

theorem value_cons (base d : Nat) (ds : List Nat) :
    value base (d :: ds) = d * base ^ ds.length + value base ds := by
  rw [← List.singleton_append, value_append, value_singleton]

theorem value_append_zeros (base : Nat) (ds : List Nat) (n : Nat) :
    value base (ds ++ List.replicate n 0) = value base ds * base ^ n := by
  induction n with
  | zero => simp
  | succ n ih =>
    rw [List.replicate_succ', ← List.append_assoc, value_append_singleton, ih, Nat.pow_succ]
    ring

theorem value_digits (base width n : Nat) : value base (digits base width n) = n % base ^ width := by
  induction width generalizing n with
  | zero => simp [digits, value, Nat.mod_one]
  | succ width ih =>
    simp only [digits, value_append_singleton, ih]
    rw [Nat.pow_succ, Nat.mul_comm (base ^ width) base, Nat.mod_mul]
    omega

theorem lt_of_mem_digits {base width n d : Nat} (positive : 0 < base) (mem : d ∈ digits base width n) :
    d < base := by
  induction width generalizing n with
  | zero => cases mem
  | succ width ih =>
    rcases List.mem_append.mp mem with mem | mem
    · exact ih mem
    · rw [List.mem_singleton.mp mem]
      exact Nat.mod_lt n positive

theorem value_lt {base : Nat} {ds : List Nat} (small : ∀ d ∈ ds, d < base) :
    value base ds < base ^ ds.length := by
  induction ds using List.reverseRecOn with
  | nil => exact Nat.one_pos
  | append_singleton ds d ih =>
    obtain ⟨front, last⟩ := List.forall_mem_append.mp small
    have least : d + 1 ≤ base := last d (List.mem_singleton_self d)
    have rest : value base ds + 1 ≤ base ^ ds.length := ih front
    rw [value_append_singleton, List.length_append, List.length_singleton]
    calc base * value base ds + d
      _ < base * value base ds + base := by omega
      _ = base * (value base ds + 1) := (Nat.mul_succ ..).symm
      _ ≤ base * base ^ ds.length := Nat.mul_le_mul_left base rest
      _ = base ^ (ds.length + 1) := (Nat.pow_succ' ..).symm

/-- Digits are those of the number that they spell. -/
theorem digits_value {base : Nat} (positive : 0 < base) {ds : List Nat} (small : ∀ d ∈ ds, d < base) :
    digits base ds.length (value base ds) = ds := by
  induction ds using List.reverseRecOn with
  | nil => rfl
  | append_singleton ds d ih =>
    obtain ⟨front, last⟩ := List.forall_mem_append.mp small
    have least : d < base := last d (List.mem_singleton_self d)
    rw [value_append_singleton, List.length_append, List.length_singleton, digits,
      Nat.mul_add_div positive, Nat.div_eq_of_lt least, Nat.add_zero, ih front, Nat.mul_add_mod,
      Nat.mod_eq_of_lt least]

/-! ### Characters of digits -/

theorem digitOf?_digitChar : ∀ base ≤ 16, ∀ d < base, digitOf? base (Nat.digitChar d) = some d := by
  decide

theorem mapM_digitOf?_digitChar {base : Nat} (le : base ≤ 16) {ds : List Nat} (small : ∀ d ∈ ds, d < base) :
    (ds.map Nat.digitChar).mapM (digitOf? base) = some ds := by
  induction ds with
  | nil => rfl
  | cons d ds ih =>
    obtain ⟨first, rest⟩ := List.forall_mem_cons.mp small
    rw [List.map_cons, List.mapM_cons, digitOf?_digitChar base le d first, ih rest]
    rfl

end Certified.Radix
