import Mathlib.Tactic

/-!
Bit fields of a fixed-width word: reading the bits `lo .. lo + len` of a
`BitVec`, replacing them, and the frame notion a register getter needs, namely
that a function of a word looks at some of its bits only. Everything here is
stated bit by bit through `getLsbD`, so that later proofs about registers are a
case split on bit positions followed by arithmetic.
-/

namespace BitVec

variable {w : Nat}

/-- The `len` bits of `x` from bit `lo` upward, moved down to bit 0. -/
def field (x : BitVec w) (lo len : Nat) : BitVec w :=
  (x.extractLsb' lo len).setWidth w

/-- Ones exactly at the bits `lo .. lo + len` of a `w`-bit word. -/
def fieldMask (w lo len : Nat) : BitVec w :=
  (allOnes w).field 0 len <<< lo

/-- `x` with the bits `lo .. lo + len` replaced by the low `len` bits of `v`. -/
def replaceField (x : BitVec w) (lo len : Nat) (v : BitVec w) : BitVec w :=
  (x &&& ~~~fieldMask w lo len) ||| (v.field 0 len <<< lo)

@[simp] theorem getLsbD_field (x : BitVec w) (lo len i : Nat) :
    (x.field lo len).getLsbD i = (decide (i < w) && decide (i < len) && x.getLsbD (lo + i)) := by
  simp [field, Bool.and_assoc]

@[simp] theorem getElem_field (x : BitVec w) (lo len i : Nat) (h : i < w) :
    (x.field lo len)[i] = (decide (i < len) && x.getLsbD (lo + i)) := by
  simp [← getLsbD_eq_getElem, h]

/-- Inside the replaced range a bit comes from `v`, outside it from `x`. -/
theorem getLsbD_replaceField (x v : BitVec w) (lo len i : Nat) :
    (x.replaceField lo len v).getLsbD i =
      if lo ≤ i ∧ i < lo + len then (decide (i < w) && v.getLsbD (i - lo)) else x.getLsbD i := by
  by_cases hw : i < w
  · by_cases hlo : i < lo
    · simp [replaceField, fieldMask, hw, hlo, show ¬ lo ≤ i by omega, getLsbD_eq_getElem]
    · by_cases hlen : i - lo < len
      · simp [replaceField, fieldMask, hw, hlo, hlen, show lo ≤ i ∧ i < lo + len by omega,
          show ¬ w ≤ i - lo by omega]
      · simp [replaceField, fieldMask, hw, hlo, hlen, show ¬ (lo ≤ i ∧ i < lo + len) by omega,
          getLsbD_eq_getElem]
  · simp [replaceField, fieldMask, hw, getLsbD_of_ge x i (by omega)]

theorem getLsbD_replaceField_of_mem (x v : BitVec w) {lo len i : Nat}
    (hlo : lo ≤ i) (hhi : i < lo + len) (hw : i < w) :
    (x.replaceField lo len v).getLsbD i = v.getLsbD (i - lo) := by
  rw [getLsbD_replaceField, if_pos ⟨hlo, hhi⟩]
  simp [hw]

theorem getLsbD_replaceField_of_not_mem (x v : BitVec w) {lo len i : Nat}
    (hi : i < lo ∨ lo + len ≤ i) :
    (x.replaceField lo len v).getLsbD i = x.getLsbD i := by
  have hout : ¬ (lo ≤ i ∧ i < lo + len) := by omega
  simp [getLsbD_replaceField, hout]

/-- A value below `2 ^ len` is its own low `len` bits. -/
theorem field_zero_of_lt {v : BitVec w} {len : Nat} (hv : v.toNat < 2 ^ len) :
    v.field 0 len = v := by
  ext i hi
  by_cases hlen : i < len
  · simp [hi, hlen]
  · have hpow : v.toNat < 2 ^ i :=
      lt_of_lt_of_le hv (Nat.pow_le_pow_right (by omega) (by omega))
    have hzero : v.getLsbD i = false := by
      simpa [getLsbD] using Nat.testBit_lt_two_pow hpow
    simp [hi, hlen, ← getLsbD_eq_getElem, hzero]

/-- A field of `len` bits is below `2 ^ len`. -/
theorem toNat_field_lt (x : BitVec w) (lo len : Nat) : (x.field lo len).toNat < 2 ^ len := by
  rw [field, toNat_setWidth]
  exact lt_of_le_of_lt (Nat.mod_le _ _) (x.extractLsb' lo len).isLt

/-- A field as a number: the word shifted down by `lo`, modulo `2 ^ len`. -/
theorem toNat_field (x : BitVec w) (lo len : Nat) (hlen : len ≤ w) :
    (x.field lo len).toNat = x.toNat / 2 ^ lo % 2 ^ len := by
  have hpow : 2 ^ len ≤ 2 ^ w := Nat.pow_le_pow_right (by decide) hlen
  rw [field, toNat_setWidth, extractLsb'_toNat, Nat.shiftRight_eq_div_pow,
    Nat.mod_eq_of_lt (lt_of_lt_of_le (Nat.mod_lt _ (Nat.two_pow_pos len)) hpow)]

/-- Or-ing a value below `2 ^ k` into a multiple of `2 ^ k` adds it. -/
theorem toNat_or_of_dvd (a b : BitVec w) {k : Nat} (ha : 2 ^ k ∣ a.toNat)
    (hb : b.toNat < 2 ^ k) : (a ||| b).toNat = a.toNat + b.toNat := by
  obtain ⟨q, hq⟩ := ha
  rw [toNat_or, hq, Nat.two_pow_add_eq_or_of_lt hb]

/-- A right shift by `k` divides by `2 ^ k`. -/
theorem toNat_ushiftRight_eq_div (x : BitVec w) (k : Nat) : (x >>> k).toNat = x.toNat / 2 ^ k := by
  rw [toNat_ushiftRight, Nat.shiftRight_eq_div_pow]

/-- The low mask `2 ^ k - 1` has exactly the bits below `k`. -/
theorem getLsbD_low_mask (m : BitVec w) {k : Nat} (hm : m.toNat = 2 ^ k - 1) (i : Nat) :
    m.getLsbD i = decide (i < k) := by
  rw [← testBit_toNat, hm, Nat.testBit_two_pow_sub_one]

/-- Masking with `2 ^ k - 1` keeps the low `k` bits. -/
theorem toNat_and_low_mask (x m : BitVec w) {k : Nat} (hm : m.toNat = 2 ^ k - 1) :
    (x &&& m).toNat = x.toNat % 2 ^ k := by
  rw [toNat_and, hm, Nat.and_two_pow_sub_one_eq_mod]

/-- Masking with the high bits `allOnes <<< k` clears the low `k` bits. -/
theorem toNat_and_allOnes_shiftLeft (x : BitVec w) (k : Nat) :
    (x &&& allOnes w <<< k).toNat = x.toNat / 2 ^ k * 2 ^ k := by
  have hlt : x.toNat / 2 ^ k * 2 ^ k < 2 ^ w := lt_of_le_of_lt (Nat.div_mul_le_self _ _) x.isLt
  rw [← shiftLeft_ushiftRight, toNat_shiftLeft, toNat_ushiftRight_eq_div, Nat.shiftLeft_eq,
    Nat.mod_eq_of_lt hlt]

/-- A left shift that does not overflow multiplies by `2 ^ k`. -/
theorem toNat_shiftLeft_of_lt (a : BitVec w) {k : Nat} (h : a.toNat * 2 ^ k < 2 ^ w) :
    (a <<< k).toNat = a.toNat * 2 ^ k := by
  rw [toNat_shiftLeft, Nat.shiftLeft_eq, Nat.mod_eq_of_lt h]

/-- Reading back a replaced field gives the low bits of the value written. -/
theorem field_replaceField_self (x v : BitVec w) {lo len : Nat} (h : lo + len ≤ w) :
    (x.replaceField lo len v).field lo len = v.field 0 len := by
  ext i hi
  by_cases hlen : i < len
  · have hin : lo + i < w := by omega
    have hbit : (x.replaceField lo len v).getLsbD (lo + i) = v.getLsbD (lo + i - lo) :=
      getLsbD_replaceField_of_mem x v (Nat.le_add_right lo i) (by omega) hin
    rw [Nat.add_sub_cancel_left] at hbit
    simp [hi, hlen, hbit, ← getLsbD_eq_getElem]
  · simp [hi, hlen]

/-- A field that does not overlap the replaced range is left as it was. -/
theorem field_replaceField_of_disjoint (x v : BitVec w) {lo len lo' len' : Nat}
    (h : lo' + len' ≤ lo ∨ lo + len ≤ lo') :
    (x.replaceField lo len v).field lo' len' = x.field lo' len' := by
  ext i hi
  by_cases hlen : i < len'
  · simp [hlen, getLsbD_replaceField_of_not_mem x v (show lo' + i < lo ∨ lo + len ≤ lo' + i by
      omega)]
  · simp [hlen]

/-- Copying the field `lo .. lo + len` of `v` into `x`. -/
theorem getLsbD_replaceField_field (x v : BitVec w) (lo len i : Nat) :
    (x.replaceField lo len (v.field lo len)).getLsbD i =
      if lo ≤ i ∧ i < lo + len then v.getLsbD i else x.getLsbD i := by
  rw [getLsbD_replaceField]
  by_cases hin : lo ≤ i ∧ i < lo + len
  · have hsub : i - lo < len := by omega
    by_cases hw : i < w
    · simp [hin, hw, hsub, show lo + (i - lo) = i by omega, show i - lo < w by omega]
    · simp [hin, hw, getLsbD_of_ge v i (by omega)]
  · simp [hin]

/-- A word is rebuilt from zero by copying in the fields of a tiling
`[0, a)`, `[a, a + len)`, `[a + len, w)` of it, here from the top field down. -/
theorem replaceField_field_tile (v : BitVec w) {a len : Nat} (h : a + len ≤ w) :
    (((0#w).replaceField (a + len) (w - (a + len)) (v.field (a + len) (w - (a + len)))).replaceField
      a len (v.field a len)).replaceField 0 a (v.field 0 a) = v := by
  ext i hi
  rw [← getLsbD_eq_getElem]
  simp only [getLsbD_replaceField_field, getLsbD_zero]
  split_ifs <;> first | rfl | omega

/-- A one-bit field is the bit. -/
theorem toNat_field_one (x : BitVec w) (lo : Nat) (hw : 0 < w) :
    (x.field lo 1).toNat = (x.getLsbD lo).toNat := by
  rw [toNat_field x lo 1 hw, getLsbD, Nat.toNat_testBit, pow_one]

/-- `f` looks only at the bits of its argument at positions satisfying `s`. -/
def ReadsOnly {α : Type} (f : BitVec w → α) (s : Nat → Prop) : Prop :=
  ∀ ⦃x y : BitVec w⦄, (∀ i, s i → x.getLsbD i = y.getLsbD i) → f x = f y

theorem readsOnly_field (lo len : Nat) :
    ReadsOnly (w := w) (·.field lo len) (fun i => lo ≤ i ∧ i < lo + len) := by
  intro x y h
  ext i hi
  by_cases hlen : i < len
  · simp [hlen, h (lo + i) ⟨Nat.le_add_right lo i, by omega⟩]
  · simp [hlen]

/-! ### One flag bit: the word `1 <<< k` -/

theorem getLsbD_one_shiftLeft_eq (k i : Nat) :
    ((1 : BitVec w) <<< k).getLsbD i = (decide (i < w) && decide (i = k)) := by
  simp only [getLsbD_shiftLeft]
  by_cases h : i = k <;> by_cases hw : i < w <;> simp [h, hw] <;> omega

/-- Setting bit `k` sets it. -/
theorem getLsbD_or_one_shiftLeft_self (v : BitVec w) {k : Nat} (hk : k < w) :
    (v ||| (1 : BitVec w) <<< k).getLsbD k = true := by
  rw [getLsbD_or, getLsbD_one_shiftLeft_eq]
  simp [hk]

/-- Clearing bit `k` of a word whose bit `k` is clear changes nothing. -/
theorem and_not_one_shiftLeft_of_getLsbD (v : BitVec w) {k : Nat} (hv : v.getLsbD k = false) :
    v &&& ~~~((1 : BitVec w) <<< k) = v := by
  ext i hi
  rw [← getLsbD_eq_getElem, getLsbD_and, getLsbD_not, getLsbD_one_shiftLeft_eq]
  by_cases h : i = k
  · subst h
    simp [hv, ← getLsbD_eq_getElem]
  · simp [h, hi]

/-- Setting bit `k` and clearing it again gives back a word whose bit `k` was clear. -/
theorem or_one_shiftLeft_and_not (v : BitVec w) {k : Nat} (hv : v.getLsbD k = false) :
    (v ||| (1 : BitVec w) <<< k) &&& ~~~((1 : BitVec w) <<< k) = v := by
  ext i hi
  rw [← getLsbD_eq_getElem, getLsbD_and, getLsbD_or, getLsbD_not, getLsbD_one_shiftLeft_eq]
  by_cases h : i = k
  · subst h
    simp [hv, ← getLsbD_eq_getElem]
  · simp [h, hi]

/-- Clearing bit `k` and setting it again gives back a word whose bit `k` was set. -/
theorem and_not_one_shiftLeft_or (v : BitVec w) {k : Nat} (hv : v.getLsbD k = true) :
    (v &&& ~~~((1 : BitVec w) <<< k)) ||| (1 : BitVec w) <<< k = v := by
  ext i hi
  rw [← getLsbD_eq_getElem, getLsbD_or, getLsbD_and, getLsbD_not, getLsbD_one_shiftLeft_eq]
  by_cases h : i = k
  · subst h
    simp [hv, hi]
  · simp [h, hi]

/-- A number below `2 ^ k` has bit `k` clear. -/
theorem getLsbD_ofNat_of_lt {n k : Nat} (hn : n < 2 ^ k) : (BitVec.ofNat w n).getLsbD k = false := by
  rw [getLsbD_ofNat, Nat.testBit_lt_two_pow hn, Bool.and_false]

/-- Testing bit `k` by masking, `v & (1 << k) == 1 << k`, reads bit `k`. -/
theorem and_one_shiftLeft_beq (v : BitVec w) {k : Nat} (hk : k < w) :
    (v &&& (1 : BitVec w) <<< k == (1 : BitVec w) <<< k) = v.getLsbD k := by
  cases hv : v.getLsbD k with
  | true =>
      have hand : v &&& (1 : BitVec w) <<< k = (1 : BitVec w) <<< k := by
        ext i hi
        rw [← getLsbD_eq_getElem, ← getLsbD_eq_getElem, getLsbD_and, getLsbD_one_shiftLeft_eq]
        by_cases h : i = k
        · subst h
          simp [hv, hi]
        · simp [h]
      rw [hand, beq_self_eq_true]
  | false =>
      have hne : v &&& (1 : BitVec w) <<< k ≠ (1 : BitVec w) <<< k := by
        intro heq
        have hbit := congrArg (·.getLsbD k) heq
        simp only [getLsbD_and, getLsbD_one_shiftLeft_eq, hv, Bool.false_and] at hbit
        simp [hk] at hbit
      exact beq_false_of_ne hne

/-- Testing bit `k` by shifting, `(v >> k) & 1 == 1`, reads bit `k`. -/
theorem shiftRight_and_one_beq (v : BitVec w) (k : Nat) (hw : 0 < w) :
    ((v >>> k) &&& 1 == 1) = v.getLsbD k := by
  have hone : (1 : BitVec w).getLsbD 0 = true := by simp [hw]
  cases hv : v.getLsbD k with
  | true =>
      have hand : (v >>> k) &&& 1 = 1 := by
        ext i hi
        rw [← getLsbD_eq_getElem, ← getLsbD_eq_getElem, getLsbD_and, getLsbD_ushiftRight]
        by_cases h : i = 0
        · subst h
          simp [hv]
        · simp [h]
      rw [hand, beq_self_eq_true]
  | false =>
      have hne : (v >>> k) &&& 1 ≠ 1 := by
        intro heq
        have hbit := congrArg (·.getLsbD 0) heq
        simp only [getLsbD_and, getLsbD_ushiftRight, Nat.add_zero, hv, Bool.false_and] at hbit
        rw [hone] at hbit
        cases hbit
      exact beq_false_of_ne hne

section Frame

variable {α β : Type} {f : BitVec w → α} {s : Nat → Prop}

theorem ReadsOnly.comp (g : α → β) (hf : ReadsOnly f s) : ReadsOnly (g ∘ f) s := by
  intro x y h
  simp only [Function.comp_apply, hf h]

theorem ReadsOnly.mono {t : Nat → Prop} (hf : ReadsOnly f s) (hst : ∀ i, s i → t i) :
    ReadsOnly f t := by
  intro x y h
  exact hf fun i hi => h i (hst i hi)

/-- A function of the low `m` bits, read through `setWidth m`, reads the same bits. -/
theorem ReadsOnly.setWidth {m : Nat} {f : BitVec m → α} (hf : ReadsOnly f s) :
    ReadsOnly (fun v : BitVec w => f (v.setWidth m)) s := by
  intro x y h
  apply hf
  intro i hi
  simp only [getLsbD_setWidth, h i hi]

/-- Setting bits that `f` does not read leaves `f` unchanged. -/
theorem ReadsOnly.apply_or (hf : ReadsOnly f s) {m : BitVec w}
    (hm : ∀ i, s i → m.getLsbD i = false) (x : BitVec w) : f (x ||| m) = f x := by
  apply hf
  intro i hi
  simp [hm i hi]

/-- Clearing bits that `f` does not read leaves `f` unchanged. -/
theorem ReadsOnly.apply_and_not (hf : ReadsOnly f s) {m : BitVec w}
    (hm : ∀ i, s i → m.getLsbD i = false) (x : BitVec w) : f (x &&& ~~~m) = f x := by
  apply hf
  intro i hi
  simp only [getLsbD_and, getLsbD_not, hm i hi, Bool.not_false, Bool.and_true]
  cases hx : x.getLsbD i
  · rfl
  · simp [lt_of_getLsbD hx]

end Frame

end BitVec
