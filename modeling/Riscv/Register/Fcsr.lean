import Riscv.Register.Csr

/-!
The floating-point control and status register `fcsr` (`register/fcsr.rs`).
The crate reads the CSR as a `usize` and keeps its low 32 bits as the `u32`
field of `FCSR`; `set_rounding_mode` rebuilds the whole word from the new
rounding mode and the old accrued exception flags, so the bits above the
rounding mode are written as zero.
-/

namespace Riscv

/-- Floating-point control and status register -/
structure FCSR where
  bits : BitVec 32

/-- Accrued Exception Flags -/
structure Flags where
  val : BitVec 32
  deriving DecidableEq

/-- Accrued Exception Flag -/
inductive Flag where
  | nx
  | uf
  | of
  | dz
  | nv
  deriving DecidableEq, Repr

/-- Rounding Mode -/
inductive RoundingMode where
  | roundToNearestEven
  | roundTowardsZero
  | roundDown
  | roundUp
  | roundToNearestMaxMagnitude
  | invalid
  deriving DecidableEq, Repr

/-- `flag as usize` -/
def Flag.toNat : Flag → Nat
  | nx => 0b00001
  | uf => 0b00010
  | of => 0b00100
  | dz => 0b01000
  | nv => 0b10000

/-- `frm as u32` -/
def RoundingMode.toNat : RoundingMode → Nat
  | roundToNearestEven => 0b000
  | roundTowardsZero => 0b001
  | roundDown => 0b010
  | roundUp => 0b011
  | roundToNearestMaxMagnitude => 0b100
  | invalid => 0b111

/-- The `match` of `frm()`: every other encoding is `Invalid`. -/
def RoundingMode.decode : Nat → RoundingMode
  | 0b000 => roundToNearestEven
  | 0b001 => roundTowardsZero
  | 0b010 => roundDown
  | 0b011 => roundUp
  | 0b100 => roundToNearestMaxMagnitude
  | _ => invalid

@[simp] theorem RoundingMode.decode_toNat (frm : RoundingMode) :
    RoundingMode.decode frm.toNat = frm := by
  cases frm <;> rfl

theorem RoundingMode.toNat_lt (frm : RoundingMode) : frm.toNat < 2 ^ 3 := by
  cases frm <;> decide

/-- The encoding has no bit at 3 or above. -/
theorem RoundingMode.getLsbD_ofNat_of_le (frm : RoundingMode) {i : Nat} (hi : 3 ≤ i) :
    (BitVec.ofNat 32 frm.toNat).getLsbD i = false := by
  have hlt : frm.toNat < 2 ^ i :=
    lt_of_lt_of_le frm.toNat_lt (Nat.pow_le_pow_right (by decide) hi)
  simp [BitVec.getLsbD_ofNat, Nat.testBit_lt_two_pow hlt]

namespace Flags

variable (bf : BitField)

def nx (f : Flags) : Bool := bf.getBit f.val 0
def uf (f : Flags) : Bool := bf.getBit f.val 1
def of (f : Flags) : Bool := bf.getBit f.val 2
def dz (f : Flags) : Bool := bf.getBit f.val 3
def nv (f : Flags) : Bool := bf.getBit f.val 4

end Flags

namespace FCSR

variable {x : Xlen} (bf : BitField)

def fflags (r : FCSR) : Flags := ⟨bf.getBits r.bits (.exclusive 0 5)⟩

def frm (r : FCSR) : RoundingMode :=
  RoundingMode.decode (bf.getBits r.bits (.exclusive 5 8)).toNat

/-- `read()`: `_read() as u32`. -/
def read (value : Usize x) : FCSR := ⟨value.setWidth 32⟩

/-- `set_rounding_mode`: `((frm as u32) << 5) | old.fflags().0`, written back as a `usize`. -/
def setRoundingMode (frm : RoundingMode) (value : Usize x) : Usize x :=
  let old := read value
  let bits : BitVec 32 := (BitVec.ofNat 32 frm.toNat <<< 5) ||| (old.fflags bf).val
  bits.setWidth x.bits

/-- `clear_flags`: `_clear(0b11111)`. -/
def clearFlags : Usize x → Usize x := Csr.clear 0b11111

/-- `clear_flag`: `_clear(flag as usize)`. -/
def clearFlag (flag : Flag) : Usize x → Usize x := Csr.clear (flag.toNat : Usize x)

variable {bf}

/-- The word `set_rounding_mode` writes, bit by bit: the rounding mode at bits
`5..8`, the old flags at bits `0..5`, zero above. -/
theorem getLsbD_setRoundingMode (hbf : bf.Lawful) (frm : RoundingMode) (value : Usize x)
    (i : Nat) :
    (setRoundingMode bf frm value).getLsbD i =
      if i < 5 then value.getLsbD i
      else if i < 8 then (BitVec.ofNat 32 frm.toNat).getLsbD (i - 5) else false := by
  have hvalid : (BitRange.exclusive 0 5).Valid 32 := ⟨by decide, by decide⟩
  have hbits := x.le_bits
  simp only [setRoundingMode, fflags, read, hbf.getBits_eq _ _ hvalid, BitRange.start_exclusive,
    BitRange.len, BitRange.stop_exclusive, BitVec.getLsbD_setWidth, BitVec.getLsbD_or,
    BitVec.getLsbD_shiftLeft, BitVec.getLsbD_field, Nat.sub_zero, Nat.zero_add]
  by_cases h5 : i < 5
  · simp [h5, show i < 32 by omega, show i < x.bits by omega]
  · by_cases h8 : i < 8
    · simp [h5, h8, show i < 32 by omega, show i < x.bits by omega]
    · simp [h5, h8, RoundingMode.getLsbD_ofNat_of_le frm (i := i - 5) (by omega)]

/-- `set_rounding_mode` writes the rounding mode that `frm()` then reports and
keeps the accrued exception flags, bit for bit. -/
theorem setRoundingMode_spec (hbf : bf.Lawful) (frm : RoundingMode) (value : Usize x) :
    (read (setRoundingMode bf frm value)).frm bf = frm ∧
      (read (setRoundingMode bf frm value)).fflags bf = (read value).fflags bf ∧
      ∀ i, i < 5 → (setRoundingMode bf frm value).getLsbD i = value.getLsbD i := by
  have hbits := x.le_bits
  have hframe : ∀ i, i < 5 → (setRoundingMode bf frm value).getLsbD i = value.getLsbD i := by
    intro i hi
    rw [getLsbD_setRoundingMode hbf, if_pos hi]
  have hmode : (bf.getBits (read (setRoundingMode bf frm value)).bits (.exclusive 5 8)) =
      BitVec.ofNat 32 frm.toNat := by
    rw [hbf.getBits_eq _ _ ⟨by decide, by decide⟩]
    ext i hi
    by_cases h3 : i < 3
    · simp [read, h3, hi, getLsbD_setRoundingMode hbf, show 5 + i < 32 by omega,
        show ¬ 5 + i < 5 by omega, show 5 + i < 8 by omega]
    · simp [h3, ← BitVec.getLsbD_eq_getElem, RoundingMode.getLsbD_ofNat_of_le frm (i := i) (by omega)]
  refine ⟨?_, ?_, hframe⟩
  · have hsmall : (BitVec.ofNat 32 frm.toNat).toNat = frm.toNat := by
      rw [BitVec.toNat_ofNat]
      exact Nat.mod_eq_of_lt (lt_of_lt_of_le frm.toNat_lt (by decide))
    rw [FCSR.frm, hmode, hsmall, RoundingMode.decode_toNat]
  · have hvalid : (BitRange.exclusive 0 5).Valid 32 := ⟨by decide, by decide⟩
    simp only [fflags, Flags.mk.injEq]
    rw [hbf.getBits_eq _ _ hvalid, hbf.getBits_eq _ _ hvalid]
    ext i hi
    by_cases h5 : i < 5
    · simp [read, h5, ← BitVec.getLsbD_eq_getElem, hframe i h5]
    · simp [h5]

end FCSR

/-! ### The accrued exception flags as flags of the word -/

namespace Flag

/-- The flag's bit: `flag as usize` is `1 << bit`, and `Flags` reads it there. -/
def bit : Flag → Nat
  | nx => 0
  | uf => 1
  | of => 2
  | dz => 3
  | nv => 4

theorem toNat_eq (f : Flag) : f.toNat = 1 <<< f.bit := by
  cases f <;> rfl

theorem bit_lt (f : Flag) : f.bit < 5 := by
  cases f <;> decide

theorem bit_injective : Function.Injective bit := by
  intro f g h
  cases f <;> cases g <;> first | rfl | cases h

def layout (x : Xlen) : FlagLayout Flag x.bits :=
  ⟨bit, bit_injective, fun f => by have := f.bit_lt; have := x.le_bits; omega⟩

/-- The getter of `Flags` that reads the flag. -/
def get (bf : BitField) : Flag → Flags → Bool
  | nx => Flags.nx bf
  | uf => Flags.uf bf
  | of => Flags.of bf
  | dz => Flags.dz bf
  | nv => Flags.nv bf

end Flag

namespace FCSR

variable {x : Xlen} {bf : BitField}

/-- Bit `k < 5` of `fflags()` is bit `k` of the CSR word. -/
theorem getBit_fflags (hbf : bf.Lawful) (value : Usize x) {k : Nat} (hk : k < 5) :
    bf.getBit ((read value).fflags bf).val k = value.getLsbD k := by
  have hvalid : (BitRange.exclusive 0 5).Valid 32 := ⟨by decide, by decide⟩
  have hbits := x.le_bits
  rw [hbf.getBit_eq _ k (by omega), fflags, hbf.getBits_eq _ _ hvalid, read]
  simp [hk, show k < 32 by omega]

/-- `clear_flag` and the getters of `fflags()` as an interface over the
flags; there is no helper that sets a flag. -/
def flagInterface (bf : BitField) : FlagLayout.Interface Flag x.bits where
  get f := some fun v => f.get bf ((read v).fflags bf)
  write
    | f, false => some (clearFlag f)
    | _, true => none

theorem flagInterface_agrees (hbf : bf.Lawful) :
    (Flag.layout x).Agrees (flagInterface bf) := by
  constructor
  · rintro f g ⟨⟩ v
    have hk := f.bit_lt
    cases f <;> exact getBit_fflags hbf v hk
  · intro f b h hh
    cases b with
    | true => cases hh
    | false =>
        cases hh
        exact Csr.writes_clear _ f (by rw [clearFlag, Flag.toNat_eq]; rfl)

/-- `frm()` reads only bits `5..8` of the word. -/
theorem readsOnly_frm (hbf : bf.Lawful) :
    BitVec.ReadsOnly (fun v : Usize x => (read v).frm bf) (fun i => 5 ≤ i ∧ i < 8) :=
  ((hbf.readsOnly_getBits (r := .exclusive 5 8) ⟨by decide, by decide⟩).comp
    (fun v : BitVec 32 => RoundingMode.decode v.toNat)).setWidth

/-- `clear_flag(f)` makes the getter of `f` return `false` and leaves the
other four flags and the rounding mode as they were; `clear_flags()` makes
every flag `false` and leaves the rounding mode. -/
theorem clearFlag_spec (hbf : bf.Lawful) (value : Usize x) :
    (∀ f f' : Flag, f'.get bf ((read (clearFlag f value)).fflags bf) =
      if f = f' then false else f'.get bf ((read value).fflags bf)) ∧
    (∀ f : Flag, (read (clearFlag f value)).frm bf = (read value).frm bf) ∧
    (∀ f' : Flag, f'.get bf ((read (clearFlags value)).fflags bf) = false) ∧
    (read (clearFlags value)).frm bf = (read value).frm bf := by
  have hagrees := flagInterface_agrees (x := x) hbf
  -- the mask `0b11111` of `clear_flags` holds the five flag bits and no other
  have hmask : ∀ i, (0b11111 : Usize x).getLsbD i = decide (i < 5) :=
    BitVec.getLsbD_low_mask _ (k := 5) (x.toNat_ofNat_of_lt (by decide))
  refine ⟨fun f f' => hagrees.frame rfl rfl value,
    fun f => ?_, fun f' => ?_, ?_⟩
  · exact (hagrees.2 f false _ rfl).apply_readsOnly (readsOnly_frm hbf)
      (by have := f.bit_lt; change ¬ (5 ≤ f.bit ∧ f.bit < 8); omega) value
  · have hread := hagrees.1 f' _ rfl (clearFlags value)
    rw [hread, FlagLayout.get, clearFlags, Csr.getLsbD_clear, hmask,
      decide_eq_true (by exact f'.bit_lt), Bool.not_true, Bool.and_false]
  · exact Csr.readsOnly_clear (readsOnly_frm hbf)
      (fun i hi => by rw [hmask, decide_eq_false_iff_not]; omega) value


theorem clearFlag_spec_documented :
    BitField.documented.Lawful ∧
    ((∀ f f' : Flag, f'.get .documented ((read (clearFlag f (0 : Usize .rv64))).fflags .documented) =
      if f = f' then false else f'.get .documented ((read (0 : Usize .rv64)).fflags .documented)) ∧
    (∀ f : Flag, (read (clearFlag f (0 : Usize .rv64))).frm .documented =
      (read (0 : Usize .rv64)).frm .documented) ∧
    (∀ f' : Flag, f'.get .documented ((read (clearFlags (0 : Usize .rv64))).fflags .documented) =
      false) ∧
    (read (clearFlags (0 : Usize .rv64))).frm .documented = (read (0 : Usize .rv64)).frm .documented) :=
  ⟨BitField.documented_lawful, clearFlag_spec BitField.documented_lawful 0⟩

end FCSR

end Riscv
