import Riscv.Library.BitField
import Riscv.Library.BitFlags

/-!
Control and status registers as words. The crate is compiled for `riscv32` or
`riscv64`, and `usize`, the type every CSR is read and written as, has that
many bits. Each register module of the crate reads and writes one CSR through
the macros of `register/macros.rs`; here a register's state is its word, and
the macros become functions on that word:

* `_read` returns the word and `_write(bits)` replaces it;
* `_set(bits)` is `csrrs x0, csr, bits`, which sets every bit of `bits`;
* `_clear(bits)` is `csrrc x0, csr, bits`, which clears every bit of `bits`.

The helpers that `set_csr!`, `clear_csr!` and `set_clear_csr!` generate are
`_set` or `_clear` applied to the helper's mask.
-/

namespace Riscv

/-- The base ISA the crate is compiled for. -/
inductive Xlen where
  | rv32
  | rv64
  deriving DecidableEq, Repr

/-- `size_of::<usize>() * 8`. -/
def Xlen.bits : Xlen → Nat
  | rv32 => 32
  | rv64 => 64

@[simp] theorem Xlen.bits_rv32 : Xlen.rv32.bits = 32 := rfl
@[simp] theorem Xlen.bits_rv64 : Xlen.rv64.bits = 64 := rfl

theorem Xlen.le_bits (x : Xlen) : 32 ≤ x.bits := by
  cases x <;> decide

theorem Xlen.lt_bits (x : Xlen) {k : Nat} (hk : k < 32) : k < x.bits :=
  lt_of_lt_of_le hk x.le_bits

/-- A constant below `2 ^ 32` keeps its value as a `usize` on both targets. -/
theorem Xlen.toNat_ofNat_of_lt (x : Xlen) {n : Nat} (hn : n < 2 ^ 32) :
    (BitVec.ofNat x.bits n).toNat = n := by
  have hpow : 2 ^ 32 ≤ 2 ^ x.bits := Nat.pow_le_pow_right (by decide) x.le_bits
  rw [BitVec.toNat_ofNat, Nat.mod_eq_of_lt (by omega)]

/-- A `usize` on the target. -/
abbrev Usize (x : Xlen) := BitVec x.bits

namespace Csr

variable {w : Nat}

/-- `_set(bits)`: `csrrs x0, csr, bits`. -/
def set (bits value : BitVec w) : BitVec w := value ||| bits

/-- `_clear(bits)`: `csrrc x0, csr, bits`. -/
def clear (bits value : BitVec w) : BitVec w := value &&& ~~~bits

@[simp] theorem getLsbD_set (bits value : BitVec w) (i : Nat) :
    (set bits value).getLsbD i = (value.getLsbD i || bits.getLsbD i) := by
  simp [set]

theorem getLsbD_clear (bits value : BitVec w) (i : Nat) :
    (clear bits value).getLsbD i = (value.getLsbD i && !bits.getLsbD i) := by
  unfold clear
  rw [BitVec.getLsbD_and, BitVec.getLsbD_not]
  cases hv : value.getLsbD i
  · simp
  · simp [BitVec.lt_of_getLsbD hv]

/-- A `usize` constant has the bits of its value. -/
theorem getLsbD_natCast (n i : Nat) :
    ((n : Nat) : BitVec w).getLsbD i = (decide (i < w) && n.testBit i) := by
  rw [BitVec.natCast_eq_ofNat, BitVec.getLsbD_ofNat]

/-- The mask `1 << k` of the helpers, a `usize` constant, has the single bit `k`. -/
theorem getLsbD_one_shiftLeft (k i : Nat) :
    ((1 <<< k : Nat) : BitVec w).getLsbD i = (decide (i < w) && decide (k = i)) := by
  rw [getLsbD_natCast, Nat.one_shiftLeft, Nat.testBit_two_pow]

/-- Setting a mask leaves every function of the bits outside it unchanged. -/
theorem readsOnly_set {α : Type} {f : BitVec w → α} {s : Nat → Prop}
    (hf : BitVec.ReadsOnly f s) {bits : BitVec w}
    (hm : ∀ i, s i → bits.getLsbD i = false) (value : BitVec w) :
    f (set bits value) = f value :=
  hf.apply_or hm value

/-- Clearing a mask leaves every function of the bits outside it unchanged. -/
theorem readsOnly_clear {α : Type} {f : BitVec w → α} {s : Nat → Prop}
    (hf : BitVec.ReadsOnly f s) {bits : BitVec w}
    (hm : ∀ i, s i → bits.getLsbD i = false) (value : BitVec w) :
    f (clear bits value) = f value :=
  hf.apply_and_not hm value

section FlagHelpers

variable {F : Type} (L : FlagLayout F w)

/-- The mask `1 << k`, a `usize` constant, is the word `1` shifted by `k`. -/
theorem natCast_one_shiftLeft (k : Nat) :
    ((1 <<< k : Nat) : BitVec w) = (1 : BitVec w) <<< k := by
  ext i hi
  rw [← BitVec.getLsbD_eq_getElem, ← BitVec.getLsbD_eq_getElem, getLsbD_one_shiftLeft,
    BitVec.getLsbD_one_shiftLeft_eq]
  simp [hi, eq_comm]

/-- A helper `_set(1 << k)`, where `k` is flag `f`'s bit, sets `f`. -/
theorem writes_set (f : F) {h : BitVec w → BitVec w}
    (hh : h = set ((1 <<< L.bit f : Nat) : BitVec w)) : L.Writes h f true := by
  intro v
  rw [hh, FlagLayout.write, if_pos rfl, FlagLayout.set, FlagLayout.mask, set,
    natCast_one_shiftLeft]

/-- A helper `_clear(1 << k)`, where `k` is flag `f`'s bit, clears `f`. -/
theorem writes_clear (f : F) {h : BitVec w → BitVec w}
    (hh : h = clear ((1 <<< L.bit f : Nat) : BitVec w)) : L.Writes h f false := by
  intro v
  rw [hh, FlagLayout.write, if_neg Bool.false_ne_true, FlagLayout.clear, FlagLayout.mask, clear,
    natCast_one_shiftLeft]

/-- A getter `get_bit(k)`, where `k` is flag `f`'s bit, reads `f`. -/
theorem reads_getBit {bf : BitField} (hbf : bf.Lawful) (f : F) {g : BitVec w → Bool}
    (hg : ∀ v, g v = bf.getBit v (L.bit f)) : L.Reads g f := by
  intro v
  rw [hg]
  exact hbf.getBit_eq v _ (L.bit_lt f)

/-- An interface whose getters are `get_bit(k)` and whose helpers are
`_set(1 << k)` / `_clear(1 << k)`, each with `k` its flag's bit, agrees with
the layout. -/
theorem agrees_of_masks {bf : BitField} (hbf : bf.Lawful) {I : FlagLayout.Interface F w}
    (hget : ∀ f g, I.get f = some g → g = fun v => bf.getBit v (L.bit f))
    (hwrite : ∀ f b h, I.write f b = some h →
      h = if b then set ((1 <<< L.bit f : Nat) : BitVec w)
        else clear ((1 <<< L.bit f : Nat) : BitVec w)) :
    L.Agrees I := by
  refine ⟨fun f g hg => reads_getBit L hbf f fun v => by rw [hget f g hg], fun f b h hh => ?_⟩
  cases b
  · exact writes_clear L f (hwrite f false h hh)
  · exact writes_set L f (hwrite f true h hh)

end FlagHelpers

section FieldWrite

variable {bf : BitField} {x : Xlen}

/-- The read-modify-write setters of multi-bit fields, `value.set_bits(lo..hi, v as usize)`
with a small enum discriminant `v`: when `v` fits the range, the write succeeds,
`get_bits` reads `v` back, and no bit outside the range changes. -/
theorem setBits_exclusive_of_lt (hbf : bf.Lawful) (value : Usize x) {lo hi n : Nat}
    (hrange : lo < hi ∧ hi ≤ 32) (hn : n < 2 ^ (hi - lo)) :
    ∃ new, bf.setBits value (.exclusive lo hi) (BitVec.ofNat x.bits n) = some new ∧
      (bf.getBits new (.exclusive lo hi)).toNat = n ∧
      ∀ i, i < lo ∨ hi ≤ i → new.getLsbD i = value.getLsbD i := by
  have hvalid : (BitRange.exclusive lo hi).Valid x.bits :=
    ⟨hrange.1, le_trans hrange.2 x.le_bits⟩
  have hpow : 2 ^ (hi - lo) ≤ 2 ^ x.bits :=
    Nat.pow_le_pow_right (by decide) (by have := x.le_bits; omega)
  have hvalue : (BitVec.ofNat x.bits n).toNat = n := by
    rw [BitVec.toNat_ofNat, Nat.mod_eq_of_lt (by omega)]
  have hfits : (BitVec.ofNat x.bits n).toNat < 2 ^ (BitRange.exclusive lo hi).len := by
    rw [hvalue]
    exact hn
  obtain ⟨new, hnew⟩ : ∃ new, bf.setBits value (.exclusive lo hi) (BitVec.ofNat x.bits n) =
      some new := ⟨_, hbf.setBits_of_lt value _ hvalid hfits⟩
  refine ⟨new, hnew, ?_, ?_⟩
  · rw [hbf.getBits_of_setBits hvalid hnew, hvalue]
  · intro i hi
    exact hbf.getLsbD_of_setBits hvalid hnew hi

/-- A discriminant with a set bit at or above the range's length makes the
setter panic. -/
theorem setBits_exclusive_of_le (hbf : bf.Lawful) (value : Usize x) {lo hi n : Nat}
    (hrange : lo < hi ∧ hi ≤ 32) (hn : 2 ^ (hi - lo) ≤ n) (hsmall : n < 2 ^ 32) :
    bf.setBits value (.exclusive lo hi) (BitVec.ofNat x.bits n) = none := by
  have hvalid : (BitRange.exclusive lo hi).Valid x.bits :=
    ⟨hrange.1, le_trans hrange.2 x.le_bits⟩
  apply hbf.setBits_of_le value _ hvalid
  rw [x.toNat_ofNat_of_lt hsmall]
  exact hn

end FieldWrite

end Csr

end Riscv
