import Riscv.Register.Csr
import Riscv.Library.BitVecField
import Riscv.Library.SplitRead

/-!
The 64-bit counters (`mcycle`, `minstret`, `cycle`, `time`, `instret`,
`mhpmcounterN`, `hpmcounterN`) and their `read64`, which every one of them
gets from `read_composite_csr!` (`register/macros.rs`). On RV32 the counter is
read through two CSRs, the low half (`mcycle`) and the high half (`mcycleh`),
and `read64` loops: high, low, high again, until the two high reads agree.

The counter runs concurrently with the loop: a `Counter` is its value at every
instant, never decreasing, and the reads of a call happen at consecutive
instants. Between two instants the counter may advance by any amount, so every
interleaving of increments with the reads is one `Counter`.

The loop is modelled with fuel. Every call returns within `2 ^ 32 + 1`
iterations, because each retry sees a larger high half, and the value returned
is the counter at the instant of the last low read.
-/

namespace Riscv

/-- A 64-bit hardware counter over time, never decreasing. -/
structure Counter where
  value : Nat → BitVec 64
  mono : ∀ ⦃t t' : Nat⦄, t ≤ t' → (value t).toNat ≤ (value t').toNat

namespace Counter

/-- The high-half CSR (`mcycleh`, ...), an RV32 `usize`, read at instant `t`. -/
def readHi (c : Counter) (t : Nat) : BitVec 32 := (c.value t).extractLsb' 32 32

/-- The counter's own CSR (`mcycle`, ...) on RV32, read at instant `t`. -/
def readLo (c : Counter) (t : Nat) : BitVec 32 := (c.value t).setWidth 32

/-- The RV32 loop of `read64`, given `fuel` iterations, with its first read at
instant `t`: the value returned and the instant after the last read. -/
def read64Loop (c : Counter) : Nat → Nat → Option (BitVec 64 × Nat)
  | 0, _ => none
  | fuel + 1, t =>
      let hi := c.readHi t
      let lo := c.readLo (t + 1)
      if hi == c.readHi (t + 2) then
        some (((hi.setWidth 64 : BitVec 64) <<< 32) ||| lo.setWidth 64, t + 3)
      else
        read64Loop c fuel (t + 3)

/-- `read64`: the loop on RV32; elsewhere one read of the counter's own CSR,
which holds all 64 bits. -/
def read64 : Xlen → Counter → Nat → Nat → Option (BitVec 64 × Nat)
  | .rv32, c, fuel, t => read64Loop c fuel t
  | .rv64, c, _, t => some (c.value t, t + 1)

/-! ### The halves -/

theorem toNat_readHi (c : Counter) (t : Nat) :
    (c.readHi t).toNat = (c.value t).toNat / 2 ^ 32 := by
  have hlt : (c.value t).toNat / 2 ^ 32 < 2 ^ 32 :=
    SplitRead.div_lt_of_lt (c.value t).isLt
  rw [readHi, BitVec.extractLsb'_toNat, Nat.shiftRight_eq_div_pow, Nat.mod_eq_of_lt hlt]

theorem toNat_readLo (c : Counter) (t : Nat) :
    (c.readLo t).toNat = (c.value t).toNat % 2 ^ 32 := by
  rw [readLo, BitVec.toNat_setWidth]

/-- `((hi as u64) << 32) | lo as u64` is `hi * 2 ^ 32 + lo`. -/
theorem toNat_join (hi lo : BitVec 32) :
    (((hi.setWidth 64 : BitVec 64) <<< 32) ||| lo.setWidth 64).toNat =
      hi.toNat * 2 ^ 32 + lo.toNat := by
  have hhi := hi.isLt
  have hlo := lo.isLt
  have hshift : ((hi.setWidth 64 : BitVec 64) <<< 32).toNat = hi.toNat * 2 ^ 32 := by
    rw [BitVec.toNat_shiftLeft_of_lt _ (by rw [BitVec.toNat_setWidth_of_le (by decide)]; omega),
      BitVec.toNat_setWidth_of_le (by decide)]
  rw [BitVec.toNat_or_of_dvd _ _ (k := 32) (by rw [hshift]; exact Nat.dvd_mul_left _ _)
    (by rw [BitVec.toNat_setWidth_of_le (by decide)]; exact hlo),
    hshift, BitVec.toNat_setWidth_of_le (by decide)]

theorem readHi_mono (c : Counter) {t t' : Nat} (h : t ≤ t') :
    (c.readHi t).toNat ≤ (c.readHi t').toNat := by
  rw [toNat_readHi, toNat_readHi]
  exact Nat.div_le_div_right (c.mono h)

/-! ### One iteration -/

/-- An iteration whose two high reads agree returns the counter at its low
read. -/
theorem read64Loop_of_hi_eq (c : Counter) (fuel t : Nat) (h : c.readHi t = c.readHi (t + 2)) :
    c.read64Loop (fuel + 1) t = some (c.value (t + 1), t + 3) := by
  have hsame : (c.value t).toNat / 2 ^ 32 = (c.value (t + 2)).toNat / 2 ^ 32 := by
    rw [← toNat_readHi, ← toNat_readHi, h]
  have hjoin : (((c.readHi t).setWidth 64 : BitVec 64) <<< 32 |||
      (c.readLo (t + 1)).setWidth 64) = c.value (t + 1) := by
    apply BitVec.eq_of_toNat_eq
    rw [toNat_join, toNat_readHi, toNat_readLo]
    exact SplitRead.join_of_between (c.mono (by omega)) (c.mono (by omega)) hsame
  rw [read64Loop, if_pos (beq_iff_eq.mpr h), hjoin]

/-- An iteration whose two high reads differ retries three instants later, and
the high half has grown. -/
theorem read64Loop_of_hi_ne (c : Counter) (fuel t : Nat) (h : c.readHi t ≠ c.readHi (t + 2)) :
    c.read64Loop (fuel + 1) t = c.read64Loop fuel (t + 3) ∧
      (c.readHi t).toNat < (c.readHi (t + 3)).toNat := by
  have hne : (c.value t).toNat / 2 ^ 32 ≠ (c.value (t + 2)).toNat / 2 ^ 32 := by
    rw [← toNat_readHi, ← toNat_readHi]
    exact fun heq => h (BitVec.eq_of_toNat_eq heq)
  have hgrow : (c.value t).toNat / 2 ^ 32 < (c.value (t + 3)).toNat / 2 ^ 32 :=
    calc (c.value t).toNat / 2 ^ 32 < (c.value (t + 2)).toNat / 2 ^ 32 :=
          SplitRead.div_lt_of_ne (c.mono (by omega)) hne
      _ ≤ (c.value (t + 3)).toNat / 2 ^ 32 := Nat.div_le_div_right (c.mono (by omega))
  refine ⟨?_, ?_⟩
  · rw [read64Loop, if_neg (by simpa using h)]
  · rw [toNat_readHi, toNat_readHi]
    exact hgrow

/-! ### Whole runs of the loop -/

/-- Whatever the loop returns is the counter at the low read of its last
iteration, which starts at some instant `i` from `t` on. -/
theorem read64Loop_snapshot (c : Counter) (fuel t : Nat) {v : BitVec 64} {t' : Nat}
    (h : c.read64Loop fuel t = some (v, t')) :
    ∃ i, t ≤ i ∧ i + 3 = t' ∧ v = c.value (i + 1) := by
  induction fuel generalizing t with
  | zero => cases h
  | succ fuel ih =>
      by_cases hhi : c.readHi t = c.readHi (t + 2)
      · rw [read64Loop_of_hi_eq c fuel t hhi] at h
        cases h
        exact ⟨t, le_refl t, rfl, rfl⟩
      · rw [(read64Loop_of_hi_ne c fuel t hhi).1] at h
        obtain ⟨i, hi, hend, hv⟩ := ih (t + 3) h
        exact ⟨i, by omega, hend, hv⟩

/-- The loop returns once it has more fuel than the room left for the high
half to grow: each retry raises it, and it stays below `2 ^ 32`. -/
theorem read64Loop_isSome (c : Counter) (fuel t : Nat)
    (hfuel : 2 ^ 32 - (c.readHi t).toNat < fuel) :
    ∃ v t', c.read64Loop fuel t = some (v, t') := by
  induction fuel generalizing t with
  | zero => omega
  | succ fuel ih =>
      by_cases hhi : c.readHi t = c.readHi (t + 2)
      · exact ⟨_, _, read64Loop_of_hi_eq c fuel t hhi⟩
      · obtain ⟨hretry, hgrow⟩ := read64Loop_of_hi_ne c fuel t hhi
        have hbound := (c.readHi t).isLt
        rw [hretry]
        exact ih (t + 3) (by omega)

/-- Every call returns within `2 ^ 32 + 1` iterations. -/
theorem read64Loop_total (c : Counter) (t : Nat) :
    ∃ v t', c.read64Loop (2 ^ 32 + 1) t = some (v, t') :=
  read64Loop_isSome c _ t (by omega)

/-- More fuel does not change what the loop returns. -/
theorem read64Loop_add_fuel (c : Counter) (fuel k t : Nat) {r : BitVec 64 × Nat}
    (h : c.read64Loop fuel t = some r) : c.read64Loop (fuel + k) t = some r := by
  induction fuel generalizing t with
  | zero => cases h
  | succ fuel ih =>
      rw [Nat.add_right_comm]
      by_cases hhi : c.readHi t = c.readHi (t + 2)
      · rw [read64Loop_of_hi_eq c _ t hhi]
        rw [read64Loop_of_hi_eq c _ t hhi] at h
        exact h
      · rw [(read64Loop_of_hi_ne c _ t hhi).1]
        rw [(read64Loop_of_hi_ne c _ t hhi).1] at h
        exact ih (t + 3) h

/-- Each call of `read64`, on either XLEN, returns the counter's value at one
of the instants of its own reads. -/
theorem read64_sample (x : Xlen) (c : Counter) (fuel t : Nat) {v : BitVec 64} {t' : Nat}
    (h : read64 x c fuel t = some (v, t')) : ∃ i, t ≤ i ∧ i < t' ∧ v = c.value i := by
  cases x with
  | rv32 =>
      obtain ⟨i, hti, hend, rfl⟩ := read64Loop_snapshot c fuel t h
      exact ⟨i + 1, by omega, by omega, rfl⟩
  | rv64 =>
      cases h
      exact ⟨t, le_refl t, Nat.lt_succ_self t, rfl⟩

/-- With the fuel of `read64Loop_total`, `read64` returns on either XLEN. -/
theorem read64_isSome_of_le (x : Xlen) (c : Counter) {fuel : Nat} (hfuel : 2 ^ 32 + 1 ≤ fuel)
    (t : Nat) : ∃ v t', read64 x c fuel t = some (v, t') := by
  cases x with
  | rv32 =>
      obtain ⟨v, t', h⟩ := read64Loop_total c t
      obtain ⟨k, rfl⟩ := Nat.exists_eq_add_of_le hfuel
      exact ⟨v, t', read64Loop_add_fuel c _ k t h⟩
  | rv64 => exact ⟨c.value t, t + 1, rfl⟩

/-- `read64` on RV32, for every counter and every interleaving of its
increments with the reads: it returns within `2 ^ 32 + 1` iterations; what it
returns is the counter's value at the low read of its last iteration, so it is
never torn and lies between the counter's values at the first and the last
read of the call; and of two calls, the later one returns no less. -/
theorem read64_snapshot (c : Counter) :
    (∀ t, ∃ v t', read64 .rv32 c (2 ^ 32 + 1) t = some (v, t')) ∧
    (∀ fuel t v t', read64 .rv32 c fuel t = some (v, t') →
      (∃ i, t ≤ i ∧ i + 3 = t' ∧ v = c.value (i + 1)) ∧
        (c.value t).toNat ≤ v.toNat ∧ v.toNat ≤ (c.value (t' - 1)).toNat) ∧
    (∀ fuel fuel' t v t' s v' s', read64 .rv32 c fuel t = some (v, t') → t' ≤ s →
      read64 .rv32 c fuel' s = some (v', s') → v.toNat ≤ v'.toNat) := by
  refine ⟨read64Loop_total c, ?_, ?_⟩
  · intro fuel t v t' h
    obtain ⟨i, hti, hend, rfl⟩ := read64Loop_snapshot c fuel t h
    exact ⟨⟨i, hti, hend, rfl⟩, c.mono (by omega), c.mono (by omega)⟩
  · intro fuel fuel' t v t' s v' s' h hs h'
    obtain ⟨i, -, hend, rfl⟩ := read64Loop_snapshot c fuel t h
    obtain ⟨j, hsj, -, rfl⟩ := read64Loop_snapshot c fuel' s h'
    exact c.mono (by omega)

/-- A counter that carries into its high half between the first two reads,
and stops at instant 8. -/
def carry : Counter where
  value t := BitVec.ofNat 64 (2 ^ 32 - 1 + min t 8)
  mono t t' h := by
    have hmin : min t 8 ≤ min t' 8 := min_le_min_right 8 h
    rw [BitVec.toNat_ofNat, BitVec.toNat_ofNat, Nat.mod_eq_of_lt (by omega),
      Nat.mod_eq_of_lt (by omega)]
    omega

/-- The first iteration sees the carry and retries; the second returns the
counter at its low read, instant 4. -/
theorem read64_snapshot_carry :
    read64 .rv32 carry 2 0 = some (carry.value 4, 6) ∧
    ((∃ i, 0 ≤ i ∧ i + 3 = 6 ∧ carry.value 4 = carry.value (i + 1)) ∧
      (carry.value 0).toNat ≤ (carry.value 4).toNat ∧
      (carry.value 4).toNat ≤ (carry.value (6 - 1)).toNat) :=
  have hrun : read64 .rv32 carry 2 0 = some (carry.value 4, 6) := by decide
  ⟨hrun, (read64_snapshot carry).2.1 2 0 _ _ hrun⟩

/-- `read64` on RV32 retries only after seeing the high half advance: a call
from instant `t` that returns at `t'` ran `n + 1` iterations of three reads,
and the high half read at `t` and at the first read of the last iteration
differ by at least `n`. -/
theorem read64_retries (c : Counter) (fuel t : Nat) {v : BitVec 64} {t' : Nat}
    (h : read64 .rv32 c fuel t = some (v, t')) :
    ∃ n, t' = t + 3 * (n + 1) ∧ n ≤ (c.readHi (t' - 3)).toNat - (c.readHi t).toNat := by
  change c.read64Loop fuel t = some (v, t') at h
  induction fuel generalizing t with
  | zero => cases h
  | succ fuel ih =>
      by_cases hhi : c.readHi t = c.readHi (t + 2)
      · -- the two high reads agree: one iteration
        rw [read64Loop_of_hi_eq c fuel t hhi] at h
        cases h
        exact ⟨0, rfl, Nat.zero_le _⟩
      · -- a retry, after which the high half is larger
        obtain ⟨hnext, hgrow⟩ := read64Loop_of_hi_ne c fuel t hhi
        rw [hnext] at h
        obtain ⟨n, rfl, hn⟩ := ih (t + 3) h
        have hlast : (c.readHi (t + 3)).toNat ≤ (c.readHi (t + 3 + 3 * (n + 1) - 3)).toNat :=
          readHi_mono c (by omega)
        exact ⟨n + 1, by ring, by omega⟩

/-- Over `carry` the first call retries once, across the carry into the high
half. -/
theorem read64_retries_carry :
    read64 .rv32 carry 2 0 = some (carry.value 4, 6) ∧
    ∃ n, 6 = 0 + 3 * (n + 1) ∧ n ≤ (carry.readHi (6 - 3)).toNat - (carry.readHi 0).toNat :=
  have hrun : read64 .rv32 carry 2 0 = some (carry.value 4, 6) := by decide
  ⟨hrun, read64_retries carry 2 0 hrun⟩

end Counter

end Riscv
