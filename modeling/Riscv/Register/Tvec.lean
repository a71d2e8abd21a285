import Riscv.Register.Csr
import Riscv.Library.RustInt

/-!
The trap-vector base-address registers `mtvec`, `stvec` and `utvec`
(`register/mtvec.rs`, `stvec.rs`, `utvec.rs`). The three modules are the same
code on different CSRs: `address()` subtracts the low two bits from the word,
`trap_mode()` decodes them, and `write(addr, mode)` writes `addr + mode as
usize`. `TrapMode` is declared in `mtvec` and re-exported by the other two.
The shared code is `Tvec`; each register applies it to its own word.

`write` adds the mode instead of masking it in, and does not check the
address, so the round trip holds exactly for 4-byte aligned addresses. An
aligned address never overflows the addition, since it is at most
`usize::MAX - 3`.
-/

namespace Riscv

open Rust (Profile)

/-- Trap mode -/
inductive TrapMode where
  | direct
  | vectored
  deriving DecidableEq, Repr

/-- The discriminant, `mode as usize`. -/
def TrapMode.discriminant : TrapMode → Nat
  | direct => 0
  | vectored => 1

theorem TrapMode.discriminant_lt (m : TrapMode) : m.discriminant < 2 := by
  cases m <;> decide

namespace Tvec

variable {x : Xlen}

/-- Returns the trap-vector base-address; `none` where the subtraction panics. -/
def address (p : Profile) (bits : Usize x) : Option (Usize x) :=
  p.sub bits (bits &&& 0b11)

/-- Returns the trap-vector mode -/
def trapMode (bits : Usize x) : Option TrapMode :=
  let mode := bits &&& 0b11
  match mode.toNat with
  | 0 => some .direct
  | 1 => some .vectored
  | _ => none

/-- Writes the CSR: the word written, or `none` where the addition panics. -/
def write (p : Profile) (addr : Usize x) (mode : TrapMode) : Option (Usize x) :=
  p.add addr (BitVec.ofNat x.bits mode.discriminant)

/-! ### The low two bits -/

theorem four_dvd_two_pow (x : Xlen) : 4 ∣ 2 ^ x.bits := by
  have hbits := x.le_bits
  calc 4 = 2 ^ 2 := rfl
    _ ∣ 2 ^ x.bits := Nat.pow_dvd_pow 2 (by omega)

theorem toNat_and_three (bits : Usize x) : (bits &&& 0b11).toNat = bits.toNat % 4 :=
  BitVec.toNat_and_low_mask bits _ (k := 2) (x.toNat_ofNat_of_lt (by decide))

theorem toNat_discriminant (x : Xlen) (m : TrapMode) :
    (BitVec.ofNat x.bits m.discriminant).toNat = m.discriminant :=
  x.toNat_ofNat_of_lt (lt_of_lt_of_le m.discriminant_lt (by decide))

/-- `address()` never panics: it clears the low two bits. -/
theorem address_spec (p : Profile) (bits : Usize x) :
    ∃ a, address p bits = some a ∧ a.toNat = bits.toNat - bits.toNat % 4 := by
  have hle : (bits &&& 0b11).toNat ≤ bits.toNat := by
    rw [toNat_and_three]
    exact Nat.mod_le _ _
  obtain ⟨a, ha, hval⟩ := p.sub_of_le hle
  exact ⟨a, ha, by rw [hval, toNat_and_three]⟩

theorem address_aligned {p : Profile} {bits a : Usize x} (h : address p bits = some a) :
    a.toNat % 4 = 0 := by
  obtain ⟨a', ha', hval⟩ := address_spec p bits
  rw [h, Option.some_inj] at ha'
  subst ha'
  have := Nat.mod_lt bits.toNat (by decide : 0 < 4)
  have := Nat.div_add_mod bits.toNat 4
  omega

theorem trapMode_eq_some {bits : Usize x} {m : TrapMode} :
    trapMode bits = some m ↔ bits.toNat % 4 = m.discriminant := by
  simp only [trapMode, toNat_and_three]
  -- the match is on the two low bits; the modes are the values 0 and 1
  rcases hmod : bits.toNat % 4 with _ | _ | k <;> cases m <;> simp [TrapMode.discriminant]

/-! ### `write` on an aligned address -/

/-- An aligned address is at most `usize::MAX - 3`, so adding the mode never
overflows. -/
theorem write_of_aligned (p : Profile) {addr : Usize x} (h : addr.toNat % 4 = 0)
    (m : TrapMode) :
    ∃ bits, write p addr m = some bits ∧ bits.toNat = addr.toNat + m.discriminant := by
  have hlt := addr.isLt
  have hdvd := four_dvd_two_pow x
  have hm := m.discriminant_lt
  have hfit : addr.toNat + (BitVec.ofNat x.bits m.discriminant).toNat < 2 ^ x.bits := by
    rw [toNat_discriminant]
    omega
  obtain ⟨hwrite, hval⟩ := p.add_of_lt hfit
  exact ⟨_, hwrite, by rw [hval, toNat_discriminant]⟩

/-- `write(addr, mode)` followed by `address()` and `trap_mode()` gives back
`addr` and `mode`, with no overflow, exactly when `addr` is aligned. -/
theorem round_trip_iff_aligned (p : Profile) (addr : Usize x) (m : TrapMode) :
    (∃ bits, write p addr m = some bits ∧ bits.toNat = addr.toNat + m.discriminant ∧
      address p bits = some addr ∧ trapMode bits = some m) ↔ addr.toNat % 4 = 0 := by
  constructor
  · rintro ⟨bits, -, -, haddr, -⟩
    exact address_aligned haddr
  · intro h
    obtain ⟨bits, hwrite, hval⟩ := write_of_aligned p h m
    have hm := m.discriminant_lt
    have hmode : bits.toNat % 4 = m.discriminant := by omega
    obtain ⟨a, ha, haval⟩ := address_spec p bits
    have haddr : a = addr := BitVec.eq_of_toNat_eq (by omega)
    exact ⟨bits, hwrite, hval, haddr ▸ ha, trapMode_eq_some.mpr hmode⟩

/-- Every word with a defined mode is what `write` writes for its own address
and mode. -/
theorem address_write (p : Profile) (bits : Usize x) (m : TrapMode)
    (h : trapMode bits = some m) :
    ∃ a, address p bits = some a ∧ write p a m = some bits := by
  have hmode := trapMode_eq_some.mp h
  obtain ⟨a, ha, haval⟩ := address_spec p bits
  obtain ⟨c, hc, hcval⟩ := write_of_aligned p (address_aligned ha) m
  have hbits : c = bits := BitVec.eq_of_toNat_eq (by have := Nat.mod_le bits.toNat 4; omega)
  exact ⟨a, ha, hbits ▸ hc⟩

end Tvec

/-- mtvec register -/
structure Mtvec (x : Xlen) where
  bits : Usize x

/-- stvec register -/
structure Stvec (x : Xlen) where
  bits : Usize x

/-- utvec register -/
structure Utvec (x : Xlen) where
  bits : Usize x

variable {x : Xlen}

/-- Returns the trap-vector base-address -/
def Mtvec.address (p : Profile) (r : Mtvec x) : Option (Usize x) := Tvec.address p r.bits
/-- Returns the trap-vector mode -/
def Mtvec.trapMode (r : Mtvec x) : Option TrapMode := Tvec.trapMode r.bits
/-- Writes the CSR -/
def Mtvec.write (p : Profile) (addr : Usize x) (mode : TrapMode) : Option (Usize x) :=
  Tvec.write p addr mode

/-- Returns the trap-vector base-address -/
def Stvec.address (p : Profile) (r : Stvec x) : Option (Usize x) := Tvec.address p r.bits
/-- Returns the trap-vector mode -/
def Stvec.trapMode (r : Stvec x) : Option TrapMode := Tvec.trapMode r.bits
/-- Writes the CSR -/
def Stvec.write (p : Profile) (addr : Usize x) (mode : TrapMode) : Option (Usize x) :=
  Tvec.write p addr mode

/-- Returns the trap-vector base-address -/
def Utvec.address (p : Profile) (r : Utvec x) : Option (Usize x) := Tvec.address p r.bits
/-- Returns the trap-vector mode -/
def Utvec.trapMode (r : Utvec x) : Option TrapMode := Tvec.trapMode r.bits
/-- Writes the CSR -/
def Utvec.write (p : Profile) (addr : Usize x) (mode : TrapMode) : Option (Usize x) :=
  Tvec.write p addr mode

/-- For each of `mtvec`, `stvec` and `utvec`, in both build profiles: the word
`write(addr, mode)` writes is `addr + mode` without overflow and decodes back
to `addr` and `mode` exactly when `addr` is 4-byte aligned; and every word
whose mode is defined is what `write` writes for its own address and mode. -/
theorem tvec_write_round_trip :
    ((∀ (p : Profile) (addr : Usize x) (m : TrapMode),
        (∃ bits, Mtvec.write p addr m = some bits ∧ bits.toNat = addr.toNat + m.discriminant ∧
          (Mtvec.mk bits).address p = some addr ∧ (Mtvec.mk bits).trapMode = some m) ↔
        addr.toNat % 4 = 0) ∧
      ∀ (p : Profile) (r : Mtvec x) (m : TrapMode), r.trapMode = some m →
        ∃ a, r.address p = some a ∧ Mtvec.write p a m = some r.bits) ∧
    ((∀ (p : Profile) (addr : Usize x) (m : TrapMode),
        (∃ bits, Stvec.write p addr m = some bits ∧ bits.toNat = addr.toNat + m.discriminant ∧
          (Stvec.mk bits).address p = some addr ∧ (Stvec.mk bits).trapMode = some m) ↔
        addr.toNat % 4 = 0) ∧
      ∀ (p : Profile) (r : Stvec x) (m : TrapMode), r.trapMode = some m →
        ∃ a, r.address p = some a ∧ Stvec.write p a m = some r.bits) ∧
    ((∀ (p : Profile) (addr : Usize x) (m : TrapMode),
        (∃ bits, Utvec.write p addr m = some bits ∧ bits.toNat = addr.toNat + m.discriminant ∧
          (Utvec.mk bits).address p = some addr ∧ (Utvec.mk bits).trapMode = some m) ↔
        addr.toNat % 4 = 0) ∧
      ∀ (p : Profile) (r : Utvec x) (m : TrapMode), r.trapMode = some m →
        ∃ a, r.address p = some a ∧ Utvec.write p a m = some r.bits) :=
  -- all three registers are the shared code on their own word
  ⟨⟨Tvec.round_trip_iff_aligned, fun p r m h => Tvec.address_write p r.bits m h⟩,
    ⟨Tvec.round_trip_iff_aligned, fun p r m h => Tvec.address_write p r.bits m h⟩,
    ⟨Tvec.round_trip_iff_aligned, fun p r m h => Tvec.address_write p r.bits m h⟩⟩

theorem tvec_write_round_trip_vectored :
    (∃ bits, Mtvec.write (x := .rv64) .debug 0x80000000 .vectored = some bits ∧
      bits.toNat = (0x80000000 : Usize .rv64).toNat + TrapMode.vectored.discriminant ∧
      (Mtvec.mk bits).address .debug = some 0x80000000 ∧
      (Mtvec.mk bits).trapMode = some .vectored) ∧
    (Stvec.mk (0x80000001 : Usize .rv64)).trapMode = some .vectored ∧
    ∃ a, (Stvec.mk (0x80000001 : Usize .rv64)).address .release = some a ∧
      Stvec.write .release a .vectored = some 0x80000001 :=
  have hmode : (Stvec.mk (0x80000001 : Usize .rv64)).trapMode = some .vectored := by decide
  ⟨(tvec_write_round_trip.1.1 .debug 0x80000000 .vectored).mpr (by decide), hmode,
    tvec_write_round_trip.2.1.2 .release _ .vectored hmode⟩

/-- `write` on an unaligned address: `addr = 1` with `Direct` writes a word
that reads back as address 0 in `Vectored` mode, in both builds; and
`usize::MAX` with `Vectored` overflows, panicking in a debug build and
writing 0 in a release build. -/
theorem Mtvec.write_unaligned :
    (∀ p : Profile, Mtvec.write (x := .rv64) p 1 .direct = some 1 ∧
      (Mtvec.mk (1 : Usize .rv64)).address p = some 0 ∧
      (Mtvec.mk (1 : Usize .rv64)).trapMode = some .vectored) ∧
    Mtvec.write (x := .rv64) .debug (BitVec.allOnes 64) .vectored = none ∧
    Mtvec.write (x := .rv64) .release (BitVec.allOnes 64) .vectored = some 0 := by
  refine ⟨fun p => ?_, by decide, by decide⟩
  cases p <;> decide

end Riscv
