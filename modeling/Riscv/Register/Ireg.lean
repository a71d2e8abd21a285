import Riscv.Register.Csr

/-!
The indirect register files of the Advanced Interrupt Architecture
(`register/mireg.rs`, `register/sireg.rs`, `register/miselect.rs`,
`register/siselect.rs`). Software writes a register number to the select CSR
(`miselect` or `siselect`) and then reads, writes, sets or clears the
selected register through `mireg` or `sireg`. The two modules have the same
functions, word for word apart from the CSR numbers, so one `File` models
either: the select CSR and the word at every select index.

The interrupt-pending bits live in the registers `Eip0..Eip63` (selects
`0x80..0xbf`) and the enable bits in `Eie0..Eie63` (`0xc0..0xff`).
`int_register_bit` places interrupt `i` at register `i / 32`, bit `i % 32` on
RV32, and at register `(i / 64) * 2`, bit `i % 64` on RV64, where only the
even registers exist. `slot` is that placement as arithmetic. The placement is
injective, but nothing bounds `i`: from interrupt 2048 on, the pending array
runs into the enable array.
-/

namespace Riscv

namespace Ireg

/-- The registers named by the select CSR (`miselect::Register`): `Eip0` to
`Eip63` and `Eie0` to `Eie63` are `eip k` and `eie k`. -/
inductive Register where
  | eidelivery
  | eithreshold
  | eip (k : Fin 64)
  | eie (k : Fin 64)
  deriving DecidableEq, Repr

/-- `register as usize` -/
def Register.toNat : Register → Nat
  | eidelivery => 0x70
  | eithreshold => 0x72
  | eip k => 0x80 + k
  | eie k => 0xc0 + k

/-- An indirect register file: the select CSR and the word at each select index. -/
structure File (x : Xlen) where
  select : Usize x
  reg : Nat → Usize x

variable {x : Xlen}

namespace File

/-- `write_usize(register)` of the select CSR; `write(register)` writes
`register as usize`. -/
def writeSelect (value : Usize x) (s : File x) : File x := { s with select := value }

/-- `_read()` of the register CSR: the selected register. -/
def read (s : File x) : Usize x := s.reg s.select.toNat

/-- `_write(value)` of the register CSR. -/
def write (value : Usize x) (s : File x) : File x :=
  { s with reg := Function.update s.reg s.select.toNat value }

/-- `_set(bits)` of the register CSR. -/
def set (bits : Usize x) (s : File x) : File x := s.write (Csr.set bits s.read)

/-- `_clear(bits)` of the register CSR. -/
def clear (bits : Usize x) (s : File x) : File x := s.write (Csr.clear bits s.read)

@[simp] theorem writeSelect_select (value : Usize x) (s : File x) :
    (s.writeSelect value).select = value := rfl

@[simp] theorem writeSelect_reg (value : Usize x) (s : File x) :
    (s.writeSelect value).reg = s.reg := rfl

@[simp] theorem write_select (value : Usize x) (s : File x) :
    (s.write value).select = s.select := rfl

@[simp] theorem write_reg (value : Usize x) (s : File x) :
    (s.write value).reg = Function.update s.reg s.select.toNat value := rfl

end File

/-- External interrupt delivery enable register -/
structure Eidelivery (x : Xlen) where
  bits : Usize x

def Eidelivery.enabled (bf : BitField) (r : Eidelivery x) : Bool := bf.getBit r.bits 0

def Eidelivery.plicEnabled (bf : BitField) (r : Eidelivery x) : Bool := bf.getBit r.bits 30

def readEidelivery (s : File x) : Eidelivery x × File x :=
  let s := s.writeSelect (BitVec.ofNat x.bits Register.eidelivery.toNat)
  (⟨s.read⟩, s)

def writeEidelivery (value : Usize x) (s : File x) : File x :=
  (s.writeSelect (BitVec.ofNat x.bits Register.eidelivery.toNat)).write value

def readEithreshold (s : File x) : Usize x × File x :=
  let s := s.writeSelect (BitVec.ofNat x.bits Register.eithreshold.toNat)
  (s.read, s)

def writeEithreshold (value : Usize x) (s : File x) : File x :=
  (s.writeSelect (BitVec.ofNat x.bits Register.eithreshold.toNat)).write value

/-- `int_register_bit`: the register offset and the bit of an interrupt. -/
def intRegisterBit : {x : Xlen} → Usize x → Usize x × Usize x
  | .rv32, interrupt => (interrupt / 32, interrupt % 32)
  | .rv64, interrupt => ((interrupt / 64) * 2, interrupt % 64)

/-- The body of `read_eip` and `read_eie`, from the array's first register:
select the register, then `(_read() >> bit) & 1 == 1`. -/
def readBit (first : Register) (interrupt : Usize x) (s : File x) : Bool × File x :=
  let (register, bit) := intRegisterBit interrupt
  let s := s.writeSelect (BitVec.ofNat x.bits first.toNat + register)
  ((s.read >>> bit.toNat) &&& 1 == 1, s)

/-- The body of `set_eip` and `set_eie`: select the register, then `_set(1 << bit)`. -/
def setBit (first : Register) (interrupt : Usize x) (s : File x) : File x :=
  let (register, bit) := intRegisterBit interrupt
  (s.writeSelect (BitVec.ofNat x.bits first.toNat + register)).set ((1 : Usize x) <<< bit.toNat)

/-- The body of `clear_eip` and `clear_eie`: select the register, then
`_clear(1 << bit)`. -/
def clearBit (first : Register) (interrupt : Usize x) (s : File x) : File x :=
  let (register, bit) := intRegisterBit interrupt
  (s.writeSelect (BitVec.ofNat x.bits first.toNat + register)).clear
    ((1 : Usize x) <<< bit.toNat)

def readEip : Usize x → File x → Bool × File x := readBit (.eip 0)
def setEip : Usize x → File x → File x := setBit (.eip 0)
def clearEip : Usize x → File x → File x := clearBit (.eip 0)
def readEie : Usize x → File x → Bool × File x := readBit (.eie 0)
def setEie : Usize x → File x → File x := setBit (.eie 0)
def clearEie : Usize x → File x → File x := clearBit (.eie 0)

/-! ### Where an interrupt's bit lives -/

/-- The select index and the bit of interrupt `i` in the array whose first
register is at select `first`. -/
def slot : Xlen → Nat → Nat → Nat × Nat
  | .rv32, first, i => (first + i / 32, i % 32)
  | .rv64, first, i => (first + i / 64 * 2, i % 64)

/-- Different interrupts have different slots. -/
theorem slot_injective (x : Xlen) (first : Nat) {i j : Nat}
    (h : slot x first i = slot x first j) : i = j := by
  cases x with
  | rv32 =>
      simp only [slot, Prod.mk.injEq] at h
      omega
  | rv64 =>
      simp only [slot, Prod.mk.injEq] at h
      omega

theorem slot_snd_lt (x : Xlen) (first i : Nat) : (slot x first i).2 < x.bits := by
  cases x with
  | rv32 =>
      simp only [slot, Xlen.bits_rv32]
      omega
  | rv64 =>
      simp only [slot, Xlen.bits_rv64]
      omega

/-- Interrupts below 2048 have their slot among the 64 registers of the array,
at an even offset on RV64, and at a bit of the word. -/
theorem slot_mem (x : Xlen) (first : Nat) {i : Nat} (hi : i < 2048) :
    first ≤ (slot x first i).1 ∧ (slot x first i).1 < first + 64 ∧
      (slot x first i).2 < x.bits ∧ (x = .rv64 → ((slot x first i).1 - first) % 2 = 0) := by
  cases x with
  | rv32 =>
      simp only [slot, Xlen.bits_rv32]
      refine ⟨by omega, by omega, by omega, fun h => nomatch h⟩
  | rv64 =>
      simp only [slot, Xlen.bits_rv64]
      refine ⟨by omega, by omega, by omega, fun _ => by omega⟩

/-! ### The code computes the slot -/

theorem toNat_intRegisterBit_snd (first : Nat) (i : Usize x) :
    (intRegisterBit i).2.toNat = (slot x first i.toNat).2 := by
  cases x with
  | rv32 =>
      rw [intRegisterBit, slot, BitVec.toNat_umod]
      rfl
  | rv64 =>
      rw [intRegisterBit, slot, BitVec.toNat_umod]
      rfl

/-- The select index written before each access is the slot's register: the
`usize` addition does not wrap, on either XLEN. -/
theorem toNat_select (first : Register) (i : Usize x) (hfirst : first.toNat < 256) :
    (BitVec.ofNat x.bits first.toNat + (intRegisterBit i).1).toNat =
      (slot x first.toNat i.toNat).1 := by
  cases x with
  | rv32 =>
      have hi : i.toNat < 2 ^ 32 := i.isLt
      have hdiv : (i / 32).toNat = i.toNat / 32 := by
        rw [BitVec.toNat_udiv]
        rfl
      rw [intRegisterBit, slot, BitVec.toNat_add, hdiv, BitVec.toNat_ofNat]
      change (first.toNat % 2 ^ 32 + i.toNat / 32) % 2 ^ 32 = _
      rw [Nat.mod_eq_of_lt (by omega), Nat.mod_eq_of_lt (by omega)]
  | rv64 =>
      have hi : i.toNat < 2 ^ 64 := i.isLt
      have hdiv : (i / 64 * 2).toNat = i.toNat / 64 * 2 := by
        rw [BitVec.toNat_mul, BitVec.toNat_udiv]
        change i.toNat / 64 * 2 % 2 ^ 64 = _
        rw [Nat.mod_eq_of_lt (by omega)]
      rw [intRegisterBit, slot, BitVec.toNat_add, hdiv, BitVec.toNat_ofNat]
      change (first.toNat % 2 ^ 64 + i.toNat / 64 * 2) % 2 ^ 64 = _
      rw [Nat.mod_eq_of_lt (by omega), Nat.mod_eq_of_lt (by omega)]

/-! ### Reads and writes of one interrupt's bit -/

section Access

variable (first : Register) (i : Usize x) (s : File x)

/-- The select index that `read_eip`, `set_eip`, ... write before the access. -/
def selectOf : Usize x := BitVec.ofNat x.bits first.toNat + (intRegisterBit i).1

theorem readBit_eq :
    readBit first i s =
      (((s.writeSelect (selectOf first i)).read >>> (intRegisterBit i).2.toNat) &&& 1 == 1,
        s.writeSelect (selectOf first i)) := rfl

theorem setBit_eq :
    setBit first i s =
      (s.writeSelect (selectOf first i)).set ((1 : Usize x) <<< (intRegisterBit i).2.toNat) := rfl

theorem clearBit_eq :
    clearBit first i s =
      (s.writeSelect (selectOf first i)).clear ((1 : Usize x) <<< (intRegisterBit i).2.toNat) :=
  rfl

end Access

namespace File

/-- `_set(bits)` changes the selected register only, by or-ing in `bits`. -/
theorem getLsbD_set_reg (bits : Usize x) (s : File x) (sel k : Nat) :
    ((s.set bits).reg sel).getLsbD k =
      if sel = s.select.toNat then ((s.reg sel).getLsbD k || bits.getLsbD k)
      else (s.reg sel).getLsbD k := by
  rw [set, write_reg, read]
  by_cases hsel : sel = s.select.toNat
  · subst hsel
    rw [Function.update_self, Csr.getLsbD_set, if_pos rfl]
  · rw [Function.update_of_ne hsel, if_neg hsel]

/-- `_clear(bits)` changes the selected register only, by clearing `bits`. -/
theorem getLsbD_clear_reg (bits : Usize x) (s : File x) (sel k : Nat) :
    ((s.clear bits).reg sel).getLsbD k =
      if sel = s.select.toNat then ((s.reg sel).getLsbD k && !bits.getLsbD k)
      else (s.reg sel).getLsbD k := by
  rw [clear, write_reg, read]
  by_cases hsel : sel = s.select.toNat
  · subst hsel
    rw [Function.update_self, Csr.getLsbD_clear, if_pos rfl]
  · rw [Function.update_of_ne hsel, if_neg hsel]

end File

section Slot

variable (first : Register) (hfirst : first.toNat < 256) (i : Usize x) (s : File x)
include hfirst

/-- `read_eip` and `read_eie` return the bit at the interrupt's slot. -/
theorem readBit_fst :
    (readBit first i s).1 =
      (s.reg (slot x first.toNat i.toNat).1).getLsbD (slot x first.toNat i.toNat).2 := by
  have hw : 0 < x.bits := by
    have := x.le_bits
    omega
  rw [readBit_eq, File.read, File.writeSelect_reg, File.writeSelect_select, selectOf,
    toNat_select first i hfirst,
    BitVec.shiftRight_and_one_beq _ _ hw, toNat_intRegisterBit_snd first.toNat]

/-- `set_eip` and `set_eie` set the bit at the interrupt's slot and no other. -/
theorem getLsbD_setBit (sel k : Nat) :
    ((setBit first i s).reg sel).getLsbD k =
      if sel = (slot x first.toNat i.toNat).1 ∧ k = (slot x first.toNat i.toNat).2 then true
      else (s.reg sel).getLsbD k := by
  have hk := slot_snd_lt x first.toNat i.toNat
  rw [setBit_eq, File.getLsbD_set_reg, File.writeSelect_reg, File.writeSelect_select, selectOf,
    toNat_select first i hfirst]
  rw [BitVec.getLsbD_one_shiftLeft_eq, toNat_intRegisterBit_snd first.toNat]
  by_cases hsel : sel = (slot x first.toNat i.toNat).1
  · by_cases hbit : k = (slot x first.toNat i.toNat).2
    · simp [hsel, hbit, hk]
    · simp [hsel, hbit]
  · simp [hsel]

/-- `clear_eip` and `clear_eie` clear the bit at the interrupt's slot and no other. -/
theorem getLsbD_clearBit (sel k : Nat) :
    ((clearBit first i s).reg sel).getLsbD k =
      if sel = (slot x first.toNat i.toNat).1 ∧ k = (slot x first.toNat i.toNat).2 then false
      else (s.reg sel).getLsbD k := by
  have hk := slot_snd_lt x first.toNat i.toNat
  rw [clearBit_eq, File.getLsbD_clear_reg, File.writeSelect_reg, File.writeSelect_select,
    selectOf, toNat_select first i hfirst]
  rw [BitVec.getLsbD_one_shiftLeft_eq, toNat_intRegisterBit_snd first.toNat]
  by_cases hsel : sel = (slot x first.toNat i.toNat).1
  · by_cases hbit : k = (slot x first.toNat i.toNat).2
    · simp [hsel, hbit, hk]
    · simp [hsel, hbit]
  · simp [hsel]

end Slot

/-! ### The four writers -/

/-- `set_eip`, `clear_eip`, `set_eie` and `clear_eie`. -/
inductive Writer where
  | setEip
  | clearEip
  | setEie
  | clearEie
  deriving DecidableEq, Repr

def Writer.run : Writer → Usize x → File x → File x
  | .setEip => Ireg.setEip
  | .clearEip => Ireg.clearEip
  | .setEie => Ireg.setEie
  | .clearEie => Ireg.clearEie

/-- The reader of the writer's own array: `read_eip` or `read_eie`. -/
def Writer.reader : Writer → Usize x → File x → Bool × File x
  | .setEip | .clearEip => readEip
  | .setEie | .clearEie => readEie

/-- The reader of the other array. -/
def Writer.otherReader : Writer → Usize x → File x → Bool × File x
  | .setEip | .clearEip => readEie
  | .setEie | .clearEie => readEip

/-- The first register of the writer's array. -/
def Writer.first : Writer → Register
  | .setEip | .clearEip => .eip 0
  | .setEie | .clearEie => .eie 0

/-- The bit each writer leaves behind. -/
def Writer.value : Writer → Bool
  | .setEip | .setEie => true
  | .clearEip | .clearEie => false

theorem Writer.getLsbD_run (w : Writer) (i : Usize x) (s : File x) (sel k : Nat) :
    ((w.run i s).reg sel).getLsbD k =
      if sel = (slot x w.first.toNat i.toNat).1 ∧ k = (slot x w.first.toNat i.toNat).2 then
        w.value
      else (s.reg sel).getLsbD k := by
  cases w with
  | setEip => exact getLsbD_setBit _ (by decide) i s sel k
  | clearEip => exact getLsbD_clearBit _ (by decide) i s sel k
  | setEie => exact getLsbD_setBit _ (by decide) i s sel k
  | clearEie => exact getLsbD_clearBit _ (by decide) i s sel k

theorem Writer.reader_fst (w : Writer) (j : Usize x) (s : File x) :
    (w.reader j s).1 =
      (s.reg (slot x w.first.toNat j.toNat).1).getLsbD (slot x w.first.toNat j.toNat).2 := by
  cases w <;> exact readBit_fst _ (by decide) j s

/-- The first register of the other array. -/
def Writer.other : Writer → Register
  | .setEip | .clearEip => .eie 0
  | .setEie | .clearEie => .eip 0

theorem Writer.otherReader_fst (w : Writer) (j : Usize x) (s : File x) :
    (w.otherReader j s).1 =
      (s.reg (slot x w.other.toNat j.toNat).1).getLsbD (slot x w.other.toNat j.toNat).2 := by
  cases w <;> exact readBit_fst _ (by decide) j s

/-- The pending array starts at `0x80` and the enable array at `0xc0`. -/
theorem Writer.first_other (w : Writer) :
    (w.first.toNat = 0x80 ∧ w.other.toNat = 0xc0) ∨
      (w.first.toNat = 0xc0 ∧ w.other.toNat = 0x80) := by
  cases w <;> decide

/-- A writer leaves the bit of every other interrupt of its array as it was. -/
theorem Writer.reader_run_of_ne (w : Writer) {i j : Usize x} (hji : j ≠ i) (s : File x) :
    (w.reader j (w.run i s)).1 = (w.reader j s).1 := by
  have hslot : slot x w.first.toNat j.toNat ≠ slot x w.first.toNat i.toNat :=
    fun heq => hji (BitVec.eq_of_toNat_eq (slot_injective x w.first.toNat heq))
  rw [Writer.reader_fst, Writer.reader_fst, Writer.getLsbD_run,
    if_neg fun ⟨h1, h2⟩ => hslot (Prod.ext h1 h2)]

theorem Writer.reader_run_self (w : Writer) (i : Usize x) (s : File x) :
    (w.reader i (w.run i s)).1 = w.value := by
  rw [Writer.reader_fst, Writer.getLsbD_run, if_pos ⟨rfl, rfl⟩]

/-- A writer leaves the select CSR naming the register of the interrupt's slot. -/
theorem Writer.run_select (w : Writer) (i : Usize x) (s : File x) :
    (w.run i s).select.toNat = (slot x w.first.toNat i.toNat).1 := by
  have hfirst : w.first.toNat < 256 := by cases w <;> decide
  have hsel : (w.run i s).select = selectOf w.first i := by cases w <;> rfl
  rw [hsel, selectOf, toNat_select w.first i hfirst]

/-- For the interrupts the AIA defines, below 2048, each of `set_eip`,
`clear_eip`, `set_eie` and `clear_eie`, on either XLEN and from every state of
the register file, writes one bit of the registers only: the bit at the
interrupt's slot, which lies in the writer's own array of 64 registers (an
even one on RV64); it leaves the select CSR naming that register; the
matching reader then returns the written value; and every other interrupt
reads as before, in both arrays. -/
theorem writer_frame (w : Writer) (i : Usize x) (hi : i.toNat < 2048) (s : File x) :
    (∀ sel k, ¬ (sel = (slot x w.first.toNat i.toNat).1 ∧ k = (slot x w.first.toNat i.toNat).2) →
      ((w.run i s).reg sel).getLsbD k = (s.reg sel).getLsbD k) ∧
    (w.run i s).select.toNat = (slot x w.first.toNat i.toNat).1 ∧
    (w.reader i (w.run i s)).1 = w.value ∧
    (w.first.toNat ≤ (slot x w.first.toNat i.toNat).1 ∧
      (slot x w.first.toNat i.toNat).1 < w.first.toNat + 64 ∧
      (slot x w.first.toNat i.toNat).2 < x.bits ∧
      (x = .rv64 → ((slot x w.first.toNat i.toNat).1 - w.first.toNat) % 2 = 0)) ∧
    (∀ j : Usize x, j.toNat < 2048 → j ≠ i → (w.reader j (w.run i s)).1 = (w.reader j s).1) ∧
    (∀ j : Usize x, j.toNat < 2048 →
      (w.otherReader j (w.run i s)).1 = (w.otherReader j s).1) := by
  have hmem := slot_mem x w.first.toNat hi
  refine ⟨fun sel k hne => ?_, Writer.run_select w i s, ?_, hmem, fun j hj hji => ?_,
    fun j hj => ?_⟩
  · rw [Writer.getLsbD_run, if_neg hne]
  · rw [Writer.reader_fst, Writer.getLsbD_run, if_pos ⟨rfl, rfl⟩]
  · -- another interrupt of the same array has another slot
    have hslot : slot x w.first.toNat j.toNat ≠ slot x w.first.toNat i.toNat :=
      fun heq => hji (BitVec.eq_of_toNat_eq (slot_injective x w.first.toNat heq))
    have hne : ¬ ((slot x w.first.toNat j.toNat).1 = (slot x w.first.toNat i.toNat).1 ∧
        (slot x w.first.toNat j.toNat).2 = (slot x w.first.toNat i.toNat).2) :=
      fun ⟨h1, h2⟩ => hslot (Prod.ext h1 h2)
    rw [Writer.reader_fst, Writer.reader_fst, Writer.getLsbD_run, if_neg hne]
  · -- the other array's 64 registers do not meet this one's
    have hjmem := slot_mem x w.other.toNat hj
    have harrays := w.first_other
    have hne : ¬ ((slot x w.other.toNat j.toNat).1 = (slot x w.first.toNat i.toNat).1 ∧
        (slot x w.other.toNat j.toNat).2 = (slot x w.first.toNat i.toNat).2) := by
      omega
    rw [Writer.otherReader_fst, Writer.otherReader_fst, Writer.getLsbD_run, if_neg hne]

/-- A register file with every register zero. -/
def zeroFile (x : Xlen) : File x := ⟨0, fun _ => 0⟩

theorem writer_frame_eip5 :
    (5 : Usize .rv64).toNat < 2048 ∧
    ((∀ sel k, ¬ (sel = (slot .rv64 Writer.setEip.first.toNat 5).1 ∧
          k = (slot .rv64 Writer.setEip.first.toNat 5).2) →
        ((Writer.setEip.run 5 (zeroFile .rv64)).reg sel).getLsbD k =
          ((zeroFile .rv64).reg sel).getLsbD k) ∧
      (Writer.setEip.run 5 (zeroFile .rv64)).select.toNat =
        (slot .rv64 Writer.setEip.first.toNat 5).1 ∧
      (Writer.setEip.reader 5 (Writer.setEip.run 5 (zeroFile .rv64))).1 = Writer.setEip.value ∧
      (Writer.setEip.first.toNat ≤ (slot .rv64 Writer.setEip.first.toNat 5).1 ∧
        (slot .rv64 Writer.setEip.first.toNat 5).1 < Writer.setEip.first.toNat + 64 ∧
        (slot .rv64 Writer.setEip.first.toNat 5).2 < Xlen.rv64.bits ∧
        (Xlen.rv64 = .rv64 →
          ((slot .rv64 Writer.setEip.first.toNat 5).1 - Writer.setEip.first.toNat) % 2 = 0)) ∧
      (∀ j : Usize .rv64, j.toNat < 2048 → j ≠ 5 →
        (Writer.setEip.reader j (Writer.setEip.run 5 (zeroFile .rv64))).1 =
          (Writer.setEip.reader j (zeroFile .rv64)).1) ∧
      (∀ j : Usize .rv64, j.toNat < 2048 →
        (Writer.setEip.otherReader j (Writer.setEip.run 5 (zeroFile .rv64))).1 =
          (Writer.setEip.otherReader j (zeroFile .rv64)).1)) :=
  have hi : (5 : Usize .rv64).toNat < 2048 := by decide
  ⟨hi, writer_frame Writer.setEip 5 hi (zeroFile .rv64)⟩

/-- Nothing bounds the interrupt number: on RV64 interrupt 2049 has the slot
of interrupt 1 in the enable array, so `set_eip(2049)` enables interrupt 1,
from every state of the file; in the zero file that changes what
`read_eie(1)` returns. -/
theorem setEip_overruns :
    slot .rv64 (Register.eip 0).toNat 2049 = slot .rv64 (Register.eie 0).toNat 1 ∧
    (∀ s : File .rv64, (readEie 1 (setEip 2049 s)).1 = true) ∧
    (readEie 1 (zeroFile .rv64)).1 = false := by
  have hslot : slot .rv64 (Register.eip 0).toNat 2049 = slot .rv64 (Register.eie 0).toNat 1 := by
    decide
  refine ⟨hslot, fun s => ?_, by decide⟩
  have hread := readBit_fst (.eie 0) (by decide) (1 : Usize .rv64) (setEip 2049 s)
  have hset := getLsbD_setBit (.eip 0) (by decide) (2049 : Usize .rv64) s
  have hone : (1 : Usize .rv64).toNat = 1 := rfl
  have htwo : (2049 : Usize .rv64).toNat = 2049 := rfl
  rw [readEie, hread, setEip, hset, hone, htwo, hslot, if_pos ⟨rfl, rfl⟩]

end Ireg

end Riscv
