import Riscv.Register.Csr

/-!
The machine environment configuration registers `menvcfg` and, on RV32, its
upper half `menvcfgh` (`register/menvcfg.rs`, `register/menvcfgh.rs`).

Two slips of the source are kept as written. The helpers for `CBCFE` and
`CBZE` write the masks `6 << 0` and `7 << 0`, although `cbcfe()` and `cbze()`
read bits 6 and 7; and `CBIE` is read and written as the one-bit range `4..5`,
although its enum has four values, so `set_cbie` panics on two of them.
-/

namespace Riscv

/-- menvcfg register -/
structure Menvcfg (x : Xlen) where
  bits : Usize x

namespace Menvcfg

/-- Cache Block Invalidate instruction Enable -/
inductive CBIE where
  | illegalInstruction
  | executedFlush
  | reserved
  | executedInvalidate
  deriving DecidableEq, Repr

/-- `cbie as usize` -/
def CBIE.toNat : CBIE → Nat
  | illegalInstruction => 0
  | executedFlush => 1
  | reserved => 2
  | executedInvalidate => 3

/-- The `match` of `cbie()`, with its `unreachable!()` arm as `none`. -/
def CBIE.decode : Nat → Option CBIE
  | 0 => some illegalInstruction
  | 1 => some executedFlush
  | 2 => some reserved
  | 3 => some executedInvalidate
  | _ => none

variable {x : Xlen} (bf : BitField)

def fiom (r : Menvcfg x) : Bool := bf.getBit r.bits 0

def cbie (r : Menvcfg x) : Option CBIE :=
  CBIE.decode (bf.getBits r.bits (.exclusive 4 5)).toNat

def cbcfe (r : Menvcfg x) : Bool := bf.getBit r.bits 6

def cbze (r : Menvcfg x) : Bool := bf.getBit r.bits 7

/-- PBMTE, on RV64 only. -/
def pbmte (r : Menvcfg .rv64) : Bool := bf.getBit r.bits 62

/-- STimeCmp Enable, on RV64 only. -/
def stce (r : Menvcfg .rv64) : Bool := bf.getBit r.bits 63

def read (value : Usize x) : Menvcfg x := ⟨value⟩

def setFiom : Usize x → Usize x := Csr.set (1 <<< 0)
def clearFiom : Usize x → Usize x := Csr.clear (1 <<< 0)

/-- Cache Block Invalidate instruction Enable: `value.set_bits(4..5, cbie as usize)`. -/
def setCbie (cbie : CBIE) (value : Usize x) : Option (Usize x) :=
  bf.setBits value (.exclusive 4 5) (BitVec.ofNat x.bits cbie.toNat)

def setCbcfe : Usize x → Usize x := Csr.set (6 <<< 0)
def clearCbcfe : Usize x → Usize x := Csr.clear (6 <<< 0)
def setCbze : Usize x → Usize x := Csr.set (7 <<< 0)
def clearCbze : Usize x → Usize x := Csr.clear (7 <<< 0)
def setPbmte : Usize .rv64 → Usize .rv64 := Csr.set (1 <<< 62)
def clearPbmte : Usize .rv64 → Usize .rv64 := Csr.clear (1 <<< 62)
def setStce : Usize .rv64 → Usize .rv64 := Csr.set (1 <<< 63)
def clearStce : Usize .rv64 → Usize .rv64 := Csr.clear (1 <<< 63)

variable {bf}

/-- The mask `6 << 0` of `set_cbcfe`/`clear_cbcfe` holds bits 1 and 2. -/
theorem getLsbD_six (i : Nat) :
    ((6 <<< 0 : Nat) : Usize x).getLsbD i = (decide (i < x.bits) && (i == 1 || i == 2)) := by
  rw [Csr.getLsbD_natCast]
  congr 1
  rcases Nat.lt_or_ge i 3 with hi | hi
  · interval_cases i <;> rfl
  · have hlt : (6 <<< 0 : Nat) < 2 ^ i :=
      lt_of_lt_of_le (by decide) (Nat.pow_le_pow_right (by decide) hi)
    rw [Nat.testBit_lt_two_pow hlt]
    simp only [Bool.false_eq, Bool.or_eq_false_iff, beq_eq_false_iff_ne]
    omega

/-- The mask `7 << 0` of `set_cbze`/`clear_cbze` holds bits 0, 1 and 2. -/
theorem getLsbD_seven (i : Nat) :
    ((7 <<< 0 : Nat) : Usize x).getLsbD i = (decide (i < x.bits) && decide (i < 3)) := by
  rw [Csr.getLsbD_natCast]
  congr 1
  -- `7 << 0` is the low mask `2 ^ 3 - 1`
  exact Nat.testBit_two_pow_sub_one 3 i

/-- `set_cbcfe` and `clear_cbcfe` never change what `cbcfe()` reports: their
mask misses bit 6. -/
theorem cbcfe_setCbcfe (hbf : bf.Lawful) (value : Usize x) :
    (read (setCbcfe value)).cbcfe bf = (read value).cbcfe bf ∧
      (read (clearCbcfe value)).cbcfe bf = (read value).cbcfe bf := by
  have hread := hbf.readsOnly_getBit (w := x.bits) (i := 6) (x.lt_bits (by decide))
  have hmask : ∀ i, i = 6 → ((6 <<< 0 : Nat) : Usize x).getLsbD i = false := by
    rintro i rfl
    rw [getLsbD_six]
    simp
  exact ⟨Csr.readsOnly_set hread hmask value, Csr.readsOnly_clear hread hmask value⟩

/-- `set_cbze` and `clear_cbze` never change what `cbze()` reports, and they
set or clear FIOM instead. -/
theorem cbze_setCbze (hbf : bf.Lawful) (value : Usize x) :
    (read (setCbze value)).cbze bf = (read value).cbze bf ∧
      (read (clearCbze value)).cbze bf = (read value).cbze bf ∧
      (read (setCbze value)).fiom bf = true ∧
      (read (clearCbze value)).fiom bf = false := by
  have hpos : 0 < x.bits := x.lt_bits (by decide)
  have hread := hbf.readsOnly_getBit (w := x.bits) (i := 7) (x.lt_bits (by decide))
  have hmask : ∀ i, i = 7 → ((7 <<< 0 : Nat) : Usize x).getLsbD i = false := by
    rintro i rfl
    rw [getLsbD_seven]
    simp
  refine ⟨Csr.readsOnly_set hread hmask value, Csr.readsOnly_clear hread hmask value, ?_, ?_⟩
  · rw [read, fiom, hbf.getBit_eq _ 0 hpos, setCbze, Csr.getLsbD_set, getLsbD_seven]
    simp [hpos]
  · rw [read, fiom, hbf.getBit_eq _ 0 hpos, clearCbze, Csr.getLsbD_clear, getLsbD_seven]
    simp [hpos]

/-- The CBCFE and CBZE helpers at the cleared register: `set_cbcfe` writes 6
and `cbcfe()` still reports `false`; `set_cbze` writes 7, `cbze()` still
reports `false`, and FIOM is now set. -/
theorem setCbcfe_setCbze_zero (hbf : bf.Lawful) :
    setCbcfe (0 : Usize x) = 6 ∧ (read (setCbcfe (0 : Usize x))).cbcfe bf = false ∧
      setCbze (0 : Usize x) = 7 ∧ (read (setCbze (0 : Usize x))).cbze bf = false ∧
      (read (setCbze (0 : Usize x))).fiom bf = true := by
  have h6 : 6 < x.bits := x.lt_bits (by decide)
  have h7 : 7 < x.bits := x.lt_bits (by decide)
  obtain ⟨hcbcfe, -⟩ := cbcfe_setCbcfe hbf (0 : Usize x)
  obtain ⟨hcbze, -, hfiom, -⟩ := cbze_setCbze hbf (0 : Usize x)
  have hzero6 : (read (0 : Usize x)).cbcfe bf = false := by
    rw [read, cbcfe, hbf.getBit_eq _ 6 h6]
    simp
  have hzero7 : (read (0 : Usize x)).cbze bf = false := by
    rw [read, cbze, hbf.getBit_eq _ 7 h7]
    simp
  refine ⟨?_, hcbcfe.trans hzero6, ?_, hcbze.trans hzero7, hfiom⟩
  · simp [setCbcfe, Csr.set]
  · simp [setCbze, Csr.set]

theorem setCbcfe_setCbze_zero_documented :
    setCbcfe (0 : Usize .rv64) = 6 ∧
      (read (setCbcfe (0 : Usize .rv64))).cbcfe BitField.documented = false ∧
      setCbze (0 : Usize .rv64) = 7 ∧
      (read (setCbze (0 : Usize .rv64))).cbze BitField.documented = false ∧
      (read (setCbze (0 : Usize .rv64))).fiom BitField.documented = true :=
  setCbcfe_setCbze_zero BitField.documented_lawful

/-- `set_cbie` completes for the two values that fit its one-bit range, and
`cbie()` then reports them. -/
theorem setCbie_spec_of_lt (hbf : bf.Lawful) (value : Usize x) (cbie : CBIE)
    (hcbie : cbie.toNat < 2) :
    ∃ new, setCbie bf cbie value = some new ∧ (read new).cbie bf = some cbie ∧
      ∀ i, i < 4 ∨ 5 ≤ i → new.getLsbD i = value.getLsbD i := by
  obtain ⟨new, hset, hget, hframe⟩ :=
    Csr.setBits_exclusive_of_lt hbf value (by decide : 4 < 5 ∧ 5 ≤ 32) hcbie
  refine ⟨new, hset, ?_, hframe⟩
  rw [read, Menvcfg.cbie, hget]
  cases cbie <;> simp_all [CBIE.toNat, CBIE.decode]

/-- `set_cbie(Reserved)` and `set_cbie(ExecutedInvalidate)` panic in
`set_bits` on every prior word: 2 and 3 do not fit the range `4..5`. -/
theorem setCbie_reserved_panics (hbf : bf.Lawful) (value : Usize x) :
    setCbie bf .reserved value = none ∧ setCbie bf .executedInvalidate value = none := by
  constructor
  · exact Csr.setBits_exclusive_of_le hbf value (by decide) (by decide) (by decide)
  · exact Csr.setBits_exclusive_of_le hbf value (by decide) (by decide) (by decide)

theorem setCbie_reserved_panics_documented :
    setCbie BitField.documented .reserved (0 : Usize .rv64) = none ∧
      setCbie BitField.documented .executedInvalidate (0 : Usize .rv64) = none :=
  setCbie_reserved_panics BitField.documented_lawful 0

/-- `cbie()` reads one bit, so it never reports `Reserved` or
`ExecutedInvalidate`. -/
theorem cbie_lt_two (hbf : bf.Lawful) (value : Usize x) :
    ∃ cbie, (read value).cbie bf = some cbie ∧ cbie.toNat < 2 := by
  have hvalid : (BitRange.exclusive 4 5).Valid x.bits :=
    ⟨by decide, by simp only [BitRange.stop_exclusive]; have := x.le_bits; omega⟩
  have hbit : (bf.getBits value (.exclusive 4 5)).toNat < 2 := by
    rw [hbf.getBits_eq value _ hvalid]
    exact BitVec.toNat_field_lt value _ _
  rw [read, Menvcfg.cbie]
  generalize (bf.getBits value (.exclusive 4 5)).toNat = n at hbit ⊢
  interval_cases n
  · exact ⟨.illegalInstruction, rfl, by decide⟩
  · exact ⟨.executedFlush, rfl, by decide⟩

end Menvcfg

/-- menvcfgh register, the upper half of `menvcfg` on RV32. -/
structure Menvcfgh where
  bits : Usize .rv32

namespace Menvcfgh

variable (bf : BitField)

def pbmte (r : Menvcfgh) : Bool := bf.getBit r.bits 30

def stce (r : Menvcfgh) : Bool := bf.getBit r.bits 31

def setPbmte : Usize .rv32 → Usize .rv32 := Csr.set (1 <<< 30)
def clearPbmte : Usize .rv32 → Usize .rv32 := Csr.clear (1 <<< 30)
def setStce : Usize .rv32 → Usize .rv32 := Csr.set (1 <<< 31)
def clearStce : Usize .rv32 → Usize .rv32 := Csr.clear (1 <<< 31)

end Menvcfgh

end Riscv
