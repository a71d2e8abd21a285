import Riscv.Register.Csr
import Riscv.Library.RustInt

/-!
The machine ISA register `misa` (`register/misa.rs`). `read` returns `None`
when the CSR reads as zero, so a `Misa` carries a non-zero word, as the
crate's `NonZeroUsize` does.

`has_extension` computes `extension as u8 - 65`: the cast keeps the low byte
of the code point, and the subtraction is `u8` arithmetic, which panics on
underflow in a debug build and wraps in a release build. `hasExtension_eq`
says what it returns for every character in both builds.
-/

namespace Riscv

/-- misa register -/
structure Misa (x : Xlen) where
  bits : Usize x
  bits_ne_zero : bits ≠ 0

/-- Machine XLEN -/
inductive MXL where
  | xlen32
  | xlen64
  | xlen128
  deriving DecidableEq, Repr

namespace Misa

open Rust (Profile)

variable {x : Xlen}

/-- The `match value` of `mxl`; `none` is its `unreachable!()` arm. -/
def MXL.ofValue (value : BitVec 8) : Option MXL :=
  match value.toNat with
  | 1 => some .xlen32
  | 2 => some .xlen64
  | 3 => some .xlen128
  | _ => none

/-- Returns the machine xlen. -/
def mxl : {x : Xlen} → Misa x → Option MXL
  | .rv32, r => MXL.ofValue ((r.bits >>> 30).setWidth 8)
  | .rv64, r => MXL.ofValue ((r.bits >>> 62).setWidth 8)

/-- `has_extension`, under the overflow behaviour of the build. -/
def hasExtension (p : Profile) (r : Misa x) (extension : Char) : Option Bool := do
  let bit ← p.sub (BitVec.ofNat 8 extension.toNat) 65
  if bit > 25 then
    return false
  pure (r.bits &&& (1 : Usize x) <<< bit.toNat == (1 : Usize x) <<< bit.toNat)

/-- `misa::read`: `NonZeroUsize::new(r).map(|bits| Misa { bits })`. -/
def read (value : Usize x) : Option (Misa x) :=
  if h : value = 0 then none else some ⟨value, h⟩

theorem read_eq_none_iff (value : Usize x) : read value = none ↔ value = 0 := by
  unfold read
  by_cases h : value = 0
  · rw [dif_pos h]
    exact ⟨fun _ => h, fun _ => rfl⟩
  · rw [dif_neg h]
    exact ⟨fun hsome => (nomatch hsome), fun hzero => absurd hzero h⟩

/-- Below `'A'` the `u8` subtraction underflows: the debug build panics, and
the release build wraps past 25 and reports `false`. -/
theorem hasExtension_of_lt (p : Profile) (r : Misa x) (c : Char) (hlow : c.toNat % 256 < 65) :
    hasExtension p r c =
      match p with
        | .debug => none
        | .release => some false := by
  have hsixtyfive : (65 : BitVec 8).toNat = 65 := rfl
  have hlt : (BitVec.ofNat 8 c.toNat).toNat < (65 : BitVec 8).toNat := by
    rw [BitVec.toNat_ofNat, hsixtyfive]
    exact hlow
  cases p with
  | debug =>
      rw [hasExtension, Profile.sub_debug_of_lt hlt, Option.bind_eq_bind, Option.bind_none]
  | release =>
      -- the wrapped difference is at least `256 - 65`, past the last letter
      obtain ⟨hsub, hwrap⟩ := Profile.sub_release_of_lt hlt
      have hpast : (25 : BitVec 8) < BitVec.ofNat 8 c.toNat - 65 := by
        rw [BitVec.lt_def, hwrap, hsixtyfive, BitVec.toNat_ofNat]
        have htwentyfive : (25 : BitVec 8).toNat = 25 := rfl
        omega
      rw [hasExtension, hsub, Option.bind_eq_bind, Option.bind_some, if_pos hpast]
      rfl

/-- From `'A'` on the subtraction is exact in both builds, and the result is
bit `b - 65` of the word when `b - 65` is at most 25, else `false`. -/
theorem hasExtension_of_ge (p : Profile) (r : Misa x) (c : Char) (hhigh : 65 ≤ c.toNat % 256) :
    hasExtension p r c =
      some (decide (c.toNat % 256 - 65 ≤ 25) && r.bits.getLsbD (c.toNat % 256 - 65)) := by
  have hbits := x.le_bits
  have htwentyfive : (25 : BitVec 8).toNat = 25 := rfl
  obtain ⟨bit, hsub, hbit⟩ := Profile.sub_of_le p (a := BitVec.ofNat 8 c.toNat)
    (b := 65) (by rw [BitVec.toNat_ofNat]; exact hhigh)
  rw [BitVec.toNat_ofNat, show (65 : BitVec 8).toNat = 65 from rfl] at hbit
  rw [hasExtension, hsub, Option.bind_eq_bind, Option.bind_some]
  by_cases hletter : c.toNat % 256 - 65 ≤ 25
  · have hin : ¬ (25 : BitVec 8) < bit := by
      rw [BitVec.lt_def, hbit, htwentyfive]
      omega
    rw [if_neg hin, hbit, decide_eq_true hletter, Bool.true_and]
    exact congrArg some (BitVec.and_one_shiftLeft_beq r.bits (by omega))
  · have hout : (25 : BitVec 8) < bit := by
      rw [BitVec.lt_def, hbit, htwentyfive]
      omega
    rw [if_pos hout, decide_eq_false hletter, Bool.false_and]
    rfl

/-- What `has_extension` returns, by the low byte `b` of the code point, in
both builds. -/
theorem hasExtension_eq (p : Profile) (r : Misa x) (c : Char) :
    hasExtension p r c =
      if c.toNat % 256 < 65 then
        (match p with
          | .debug => none
          | .release => some false)
      else some (decide (c.toNat % 256 - 65 ≤ 25) && r.bits.getLsbD (c.toNat % 256 - 65)) := by
  by_cases hlow : c.toNat % 256 < 65
  · rw [if_pos hlow, hasExtension_of_lt p r c hlow]
  · rw [if_neg hlow, hasExtension_of_ge p r c (by omega)]

/-- On the uppercase ASCII letters `has_extension` reads the letter's bit, in
both builds. -/
theorem hasExtension_upper (p : Profile) (r : Misa x) (c : Char)
    (hc : 65 ≤ c.toNat ∧ c.toNat ≤ 90) :
    hasExtension p r c = some (r.bits.getLsbD (c.toNat - 65)) := by
  have hmod : c.toNat % 256 = c.toNat := Nat.mod_eq_of_lt (by omega)
  rw [hasExtension_of_ge p r c (by omega), hmod, decide_eq_true (by omega), Bool.true_and]

/-- `has_extension` misreads characters outside ASCII and panics below `'A'`:
`'Ł'` (U+0141) has low byte `0x41`, so it reports the `A` extension in both
builds, and `'0'` makes the debug build panic. -/
theorem hasExtension_misreads (r : Misa x) (hA : r.bits.getLsbD 0 = true) :
    (∀ p : Profile, hasExtension p r (Char.ofNat 0x141) = some true) ∧
      hasExtension .debug r '0' = none := by
  have hlstroke : (Char.ofNat 0x141).toNat % 256 = 65 := by decide
  have hzero : ('0').toNat % 256 = 48 := rfl
  refine ⟨fun p => ?_, ?_⟩
  · rw [hasExtension_eq, hlstroke, if_neg (by decide), hA]
    rfl
  · rw [hasExtension_eq, hzero, if_pos (by decide)]

/-- The `misa` word of an RV64GC hart: `A`, `C`, `D`, `F`, `I`, `M`, `S`, `U`. -/
def rv64gc : Misa .rv64 := ⟨0x800000000014112D, by decide⟩

theorem hasExtension_misreads_rv64gc :
    rv64gc.bits.getLsbD 0 = true ∧
    (∀ p : Profile, hasExtension p rv64gc (Char.ofNat 0x141) = some true) ∧
      hasExtension .debug rv64gc '0' = none :=
  have hA : rv64gc.bits.getLsbD 0 = true := by decide
  ⟨hA, hasExtension_misreads rv64gc hA⟩

end Misa

end Riscv
