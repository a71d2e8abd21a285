import Mathlib.Tactic

/-!
Reading a wide counter through narrower halves, as a register-pair read does:
high half, low half, high half again, and retry until the two high halves
agree. For a counter that never decreases, three samples `a ≤ b ≤ c` whose
high halves agree have the middle one's high half too, so the first high half
joined with the middle low half is exactly the middle sample. When the high
halves differ, the high half has grown, which bounds the number of retries.

Halves are `k` bits wide: the high half of `v` is `v / 2 ^ k` and the low
half `v % 2 ^ k`.
-/

namespace SplitRead

variable {k : Nat} {a b c : Nat}

/-- Between two samples with one high half, the high half does not move. -/
theorem div_eq_of_between (hab : a ≤ b) (hbc : b ≤ c) (h : a / 2 ^ k = c / 2 ^ k) :
    b / 2 ^ k = a / 2 ^ k := by
  apply le_antisymm
  · calc b / 2 ^ k ≤ c / 2 ^ k := Nat.div_le_div_right hbc
      _ = a / 2 ^ k := h.symm
  · exact Nat.div_le_div_right hab

/-- The join of the first high half and the middle low half is the middle
sample: the read is not torn. -/
theorem join_of_between (hab : a ≤ b) (hbc : b ≤ c) (h : a / 2 ^ k = c / 2 ^ k) :
    a / 2 ^ k * 2 ^ k + b % 2 ^ k = b := by
  rw [← div_eq_of_between hab hbc h]
  exact Nat.div_add_mod' b (2 ^ k)

/-- When the two high halves differ, the later one is larger. -/
theorem div_lt_of_ne (hac : a ≤ c) (h : a / 2 ^ k ≠ c / 2 ^ k) : a / 2 ^ k < c / 2 ^ k :=
  lt_of_le_of_ne (Nat.div_le_div_right hac) h

/-- The high half of a `2k`-bit value is below `2 ^ k`. -/
theorem div_lt_of_lt (ha : a < 2 ^ (k + k)) : a / 2 ^ k < 2 ^ k := by
  rw [Nat.div_lt_iff_lt_mul (Nat.two_pow_pos k), ← Nat.pow_add]
  exact ha

end SplitRead
