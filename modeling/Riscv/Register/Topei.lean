import Riscv.Register.Ireg
import Riscv.Library.BitField

/-!
The top external interrupt registers `mtopei` and `stopei`
(`register/mtopei.rs`, `register/stopei.rs`). A read of the CSR, or the
`csrrw` of `claim()`, returns the highest-priority interrupt that is pending
and enabled in the hart's interrupt file. The two modules define the same
struct word for word, apart from the CSR number, so one `Topei` models either.

`identity()` is `get_bits(16..26)` and `priority()` is `get_bits(0..10)`:
ten bits each. The interrupt file has identities up to 2047, which
`mireg`/`sireg` address as bits of their own (`Ireg.slot_mem`), and the
Advanced Interrupt Architecture that both modules cite returns the identity in
bits 26:16 and, as its priority, the same number in bits 10:0 (`report`). For
an identity from 1024 on, both getters drop its top bit, so a handler that
claims it and then masks the source with `clear_eie(identity)` masks another
interrupt. What the interrupt file does on a claim is not modelled: `claim()`
only returns the word.
-/

namespace Riscv

/-- mtopei register -/
structure Topei (x : Xlen) where
  bits : Usize x

namespace Topei

variable {x : Xlen} (bf : BitField)

/-- Interrupt identity -/
def identity (r : Topei x) : Usize x := bf.getBits r.bits (.exclusive 16 26)

/-- Interrupt priority -/
def priority (r : Topei x) : Usize x := bf.getBits r.bits (.exclusive 0 10)

/-- The word the interrupt file returns for the interrupt with identity `i`:
the identity in bits 26:16 and the priority, equal to it, in bits 10:0. -/
def report (i : Nat) : Topei x := ⟨BitVec.ofNat x.bits (i * 2 ^ 16 + i)⟩

variable {bf}

theorem toNat_identity (hbf : bf.Lawful) (r : Topei x) :
    (identity bf r).toNat = r.bits.toNat / 2 ^ 16 % 2 ^ 10 := by
  have hw := x.le_bits
  rw [identity, hbf.getBits_exclusive _ ⟨by omega, by omega⟩,
    BitVec.toNat_field _ _ _ (by omega)]

theorem toNat_priority (hbf : bf.Lawful) (r : Topei x) :
    (priority bf r).toNat = r.bits.toNat % 2 ^ 10 := by
  have hw := x.le_bits
  rw [priority, hbf.getBits_exclusive _ ⟨by omega, by omega⟩,
    BitVec.toNat_field _ _ _ (by omega), Nat.pow_zero, Nat.div_one]

theorem toNat_report {i : Nat} (hi : i < 2048) : (report (x := x) i).bits.toNat = i * 2 ^ 16 + i :=
  Xlen.toNat_ofNat_of_lt x (by omega)

/-- Both getters read an identity below 2048 modulo 1024. -/
theorem identity_report (hbf : bf.Lawful) {i : Nat} (hi : i < 2048) :
    (identity bf (report (x := x) i)).toNat = i % 1024 ∧
      (priority bf (report (x := x) i)).toNat = i % 1024 := by
  have hdiv : (i * 2 ^ 16 + i) / 2 ^ 16 = i := by
    rw [Nat.mul_comm, Nat.mul_add_div (by decide), Nat.div_eq_of_lt (by omega), Nat.add_zero]
  rw [toNat_identity hbf, toNat_priority hbf, toNat_report hi, hdiv]
  omega

/-- For every identity the interrupt file can report, below 2048, on either
XLEN: `identity()` and `priority()` return it modulo 1024. From 1024 on, a
handler's `clear_eie(identity)` then leaves the reported interrupt enabled, as
it was in every state of the file, and disables interrupt `identity - 1024`
in its place. -/
theorem identity_truncates (hbf : bf.Lawful) {i : Nat} (hi : i < 2048) (s : Ireg.File x) :
    (identity bf (report (x := x) i)).toNat = i % 1024 ∧
    (priority bf (report (x := x) i)).toNat = i % 1024 ∧
    (1024 ≤ i →
      (Ireg.readEie (BitVec.ofNat x.bits i)
          (Ireg.clearEie (identity bf (report (x := x) i)) s)).1 =
        (Ireg.readEie (BitVec.ofNat x.bits i) s).1 ∧
      (Ireg.readEie (BitVec.ofNat x.bits (i - 1024))
          (Ireg.clearEie (identity bf (report (x := x) i)) s)).1 = false) := by
  obtain ⟨hid, hprio⟩ := identity_report (x := x) hbf hi
  refine ⟨hid, hprio, fun hlo => ⟨?_, ?_⟩⟩
  · -- the reported interrupt and the one the handler names differ
    have hne : BitVec.ofNat x.bits i ≠ identity bf (report (x := x) i) := by
      intro heq
      have htoNat := congrArg BitVec.toNat heq
      rw [Xlen.toNat_ofNat_of_lt x (by omega), hid] at htoNat
      omega
    exact Ireg.Writer.reader_run_of_ne .clearEie hne s
  · have heq : BitVec.ofNat x.bits (i - 1024) = identity bf (report (x := x) i) := by
      apply BitVec.eq_of_toNat_eq
      rw [Xlen.toNat_ofNat_of_lt x (by omega), hid]
      omega
    rw [heq]
    exact Ireg.Writer.reader_run_self .clearEie _ s

/-- Interrupt 1500, reported on RV64 and read through the documented
`bit_field` operations, comes back as 476. -/
theorem identity_truncates_1500 :
    (1500 : Nat) < 2048 ∧
    ((identity BitField.documented (report (x := .rv64) 1500)).toNat = 1500 % 1024 ∧
      (priority BitField.documented (report (x := .rv64) 1500)).toNat = 1500 % 1024 ∧
      (1024 ≤ 1500 →
        (Ireg.readEie (BitVec.ofNat Xlen.rv64.bits 1500)
            (Ireg.clearEie (identity BitField.documented (report (x := .rv64) 1500))
              (Ireg.zeroFile .rv64))).1 =
          (Ireg.readEie (BitVec.ofNat Xlen.rv64.bits 1500) (Ireg.zeroFile .rv64)).1 ∧
        (Ireg.readEie (BitVec.ofNat Xlen.rv64.bits (1500 - 1024))
            (Ireg.clearEie (identity BitField.documented (report (x := .rv64) 1500))
              (Ireg.zeroFile .rv64))).1 = false)) :=
  ⟨by decide, identity_truncates BitField.documented_lawful (by decide) (Ireg.zeroFile .rv64)⟩

end Topei

end Riscv
