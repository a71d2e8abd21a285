import Riscv.Register.Csr

/-!
The supervisor address translation and protection register `satp`
(`register/satp.rs`). Each XLEN has its own layout, written out in the source
as a pair of `cfg` variants of every function: on RV32 the mode is bit 31, the
ASID bits `22..31` and the PPN bits `0..22`; on RV64 the mode is bits
`60..64`, the ASID bits `44..60` and the PPN bits `0..44`. `Mode` is a
different enum on each, so here it is a family indexed by the XLEN.

`set` builds the word from zero with three `set_bits` calls, from the mode
down. Both layouts tile the word as `[0, ppnLen)`, `[ppnLen, ppnLen + asidLen)`
and the rest, and the round trip is proved once over that tiling.
-/

namespace Riscv

/-- satp register -/
structure Satp (x : Xlen) where
  bits : Usize x

/-- The width of the PPN field of `satp`, which starts at bit 0. -/
def Xlen.ppnLen : Xlen → Nat
  | rv32 => 22
  | rv64 => 44

/-- The width of the ASID field of `satp`, which follows the PPN; the mode
field takes the rest of the word. -/
def Xlen.asidLen : Xlen → Nat
  | rv32 => 9
  | rv64 => 16

namespace Satp

/-- The translation modes of each XLEN. -/
inductive Mode : Xlen → Type where
  | bare {x : Xlen} : Mode x
  | sv32 : Mode .rv32
  | sv39 : Mode .rv64
  | sv48 : Mode .rv64
  | sv57 : Mode .rv64
  | sv64 : Mode .rv64

/-- `mode as usize` -/
def Mode.toNat {x : Xlen} : Mode x → Nat
  | bare => 0
  | sv32 => 1
  | sv39 => 8
  | sv48 => 9
  | sv57 => 10
  | sv64 => 11

variable {x : Xlen} (bf : BitField)

/-- Current address-translation scheme; `none` is the `unreachable!()` arm. -/
def mode : {x : Xlen} → Satp x → Option (Mode x)
  | .rv32, r =>
      match bf.getBit r.bits 31 with
      | false => some .bare
      | true => some .sv32
  | .rv64, r =>
      match (bf.getBits r.bits (.exclusive 60 64)).toNat with
      | 0 => some .bare
      | 8 => some .sv39
      | 9 => some .sv48
      | 10 => some .sv57
      | 11 => some .sv64
      | _ => none

/-- Address space identifier -/
def asid : {x : Xlen} → Satp x → Usize x
  | .rv32, r => bf.getBits r.bits (.exclusive 22 31)
  | .rv64, r => bf.getBits r.bits (.exclusive 44 60)

/-- Physical page number -/
def ppn : {x : Xlen} → Satp x → Usize x
  | .rv32, r => bf.getBits r.bits (.exclusive 0 22)
  | .rv64, r => bf.getBits r.bits (.exclusive 0 44)

/-- `satp::set`: the word written, or `none` where `set_bits` panics. -/
def set : {x : Xlen} → Mode x → Usize x → Usize x → Option (Usize x)
  | .rv32, mode, asid, ppn => do
      let bits ← bf.setBits (0 : Usize .rv32) (.exclusive 31 32) (BitVec.ofNat _ mode.toNat)
      let bits ← bf.setBits bits (.exclusive 22 31) asid
      bf.setBits bits (.exclusive 0 22) ppn
  | .rv64, mode, asid, ppn => do
      let bits ← bf.setBits (0 : Usize .rv64) (.exclusive 60 64) (BitVec.ofNat _ mode.toNat)
      let bits ← bf.setBits bits (.exclusive 44 60) asid
      bf.setBits bits (.exclusive 0 44) ppn

/-! ### The layout as a tiling, and the mode encodings as a table -/

/-- The modes of each XLEN by their encodings in the mode field. -/
def Mode.decode : (x : Xlen) → Nat → Option (Mode x)
  | _, 0 => some .bare
  | .rv32, 1 => some .sv32
  | .rv64, 8 => some .sv39
  | .rv64, 9 => some .sv48
  | .rv64, 10 => some .sv57
  | .rv64, 11 => some .sv64
  | _, _ => none

/-- The first bit of the mode field. -/
def modeLo (x : Xlen) : Nat := x.ppnLen + x.asidLen

/-- The width of the mode field, up to the top of the word. -/
def modeLen (x : Xlen) : Nat := x.bits - modeLo x

/-- The three fields are non-empty and tile the word. -/
theorem layout_valid (x : Xlen) :
    0 < x.ppnLen ∧ 0 < x.asidLen ∧ modeLo x = x.ppnLen + x.asidLen ∧ modeLo x < x.bits ∧
      modeLen x = x.bits - modeLo x := by
  cases x <;> decide

@[simp] theorem Mode.decode_toNat (m : Mode x) : Mode.decode x m.toNat = some m := by
  cases m <;> rfl

theorem Mode.toNat_of_decode {n : Nat} {m : Mode x} (h : Mode.decode x n = some m) :
    m.toNat = n := by
  unfold Mode.decode at h
  split at h <;> first | (cases h; rfl) | cases h

theorem Mode.toNat_lt (m : Mode x) : m.toNat < 2 ^ modeLen x := by
  cases m with
  | bare => exact Nat.two_pow_pos _
  | _ => decide

variable {bf}

/-- `mode` decodes the mode field through the table. -/
theorem mode_eq (hbf : bf.Lawful) (r : Satp x) :
    r.mode bf = Mode.decode x (r.bits.field (modeLo x) (modeLen x)).toNat := by
  cases x with
  | rv32 =>
      -- the RV32 getter reads bit 31 alone; the field is that bit
      have hbit : (r.bits.field 31 1).toNat = (r.bits.getLsbD 31).toNat :=
        BitVec.toNat_field_one r.bits 31 (by decide)
      show _ = Mode.decode .rv32 (r.bits.field 31 1).toNat
      rw [hbit, mode, hbf.getBit_eq _ _ (by decide)]
      cases r.bits.getLsbD 31 <;> rfl
  | rv64 =>
      show _ = Mode.decode .rv64 (r.bits.field 60 (64 - 60)).toNat
      rw [mode, hbf.getBits_exclusive _ ⟨by decide, by decide⟩]
      -- the two tables agree on every encoding, and are `none` from 12 on
      generalize (r.bits.field 60 (64 - 60)).toNat = n
      match n with
      | 0 | 1 | 2 | 3 | 4 | 5 | 6 | 7 | 8 | 9 | 10 | 11 => rfl
      | n + 12 => rfl

theorem asid_eq (hbf : bf.Lawful) (r : Satp x) :
    r.asid bf = r.bits.field x.ppnLen x.asidLen := by
  cases x with
  | rv32 => exact hbf.getBits_exclusive _ ⟨by decide, by decide⟩
  | rv64 => exact hbf.getBits_exclusive _ ⟨by decide, by decide⟩

theorem ppn_eq (hbf : bf.Lawful) (r : Satp x) :
    r.ppn bf = r.bits.field 0 x.ppnLen := by
  cases x with
  | rv32 => exact hbf.getBits_exclusive _ ⟨by decide, by decide⟩
  | rv64 => exact hbf.getBits_exclusive _ ⟨by decide, by decide⟩

/-- Both variants of `set` are the same three writes at the ranges of the layout. -/
theorem set_eq_bind (mode : Mode x) (asid ppn : Usize x) :
    set bf mode asid ppn =
      (bf.setBits 0 (.exclusive (modeLo x) x.bits) (BitVec.ofNat x.bits mode.toNat)).bind
        fun bits => (bf.setBits bits (.exclusive x.ppnLen (modeLo x)) asid).bind
          fun bits => bf.setBits bits (.exclusive 0 x.ppnLen) ppn := by
  cases x <;> rfl

/-- When the ASID and the PPN fit their fields, `set` writes the three fields
into zero, from the mode down. -/
theorem set_eq (hbf : bf.Lawful) (mode : Mode x) (asid ppn : Usize x)
    (hasid : asid.toNat < 2 ^ x.asidLen) (hppn : ppn.toNat < 2 ^ x.ppnLen) :
    set bf mode asid ppn =
      some ((((0 : Usize x).replaceField (modeLo x) (modeLen x)
        (BitVec.ofNat x.bits mode.toNat)).replaceField x.ppnLen x.asidLen asid).replaceField
          0 x.ppnLen ppn) := by
  obtain ⟨hppnLen, hasidLen, hlo, hmodeLo, hlen⟩ := layout_valid x
  have hasidSub : modeLo x - x.ppnLen = x.asidLen := by omega
  have hmode : (BitVec.ofNat x.bits mode.toNat).toNat < 2 ^ (x.bits - modeLo x) := by
    rw [BitVec.toNat_ofNat, ← hlen]
    exact lt_of_le_of_lt (Nat.mod_le _ _) mode.toNat_lt
  rw [set_eq_bind, hbf.setBits_exclusive _ _ ⟨hmodeLo, le_refl _⟩ hmode, Option.bind_some,
    hbf.setBits_exclusive _ _ ⟨by omega, by omega⟩ (by rwa [hasidSub]), Option.bind_some,
    hbf.setBits_exclusive _ _ ⟨hppnLen, by omega⟩ (by rwa [Nat.sub_zero]), hasidSub,
    Nat.sub_zero, hlen]

/-- `set` panics exactly when the ASID or the PPN does not fit its field; here
the direction that matters, that it then writes nothing. -/
theorem set_eq_none (hbf : bf.Lawful) (mode : Mode x) (asid ppn : Usize x)
    (h : 2 ^ x.asidLen ≤ asid.toNat ∨ 2 ^ x.ppnLen ≤ ppn.toNat) :
    set bf mode asid ppn = none := by
  obtain ⟨hppnLen, hasidLen, hlo, hmodeLo, hlen⟩ := layout_valid x
  have hasidLen' : (BitRange.exclusive x.ppnLen (modeLo x)).len = x.asidLen := by
    rw [BitRange.len_exclusive]
    omega
  have hppnLen' : (BitRange.exclusive 0 x.ppnLen).len = x.ppnLen := Nat.sub_zero _
  have hmode : (BitVec.ofNat x.bits mode.toNat).toNat < 2 ^ (x.bits - modeLo x) := by
    rw [BitVec.toNat_ofNat, ← hlen]
    exact lt_of_le_of_lt (Nat.mod_le _ _) mode.toNat_lt
  have hasidRange : (BitRange.exclusive x.ppnLen (modeLo x)).Valid x.bits :=
    ⟨show x.ppnLen < modeLo x by omega, show modeLo x ≤ x.bits by omega⟩
  have hppnRange : (BitRange.exclusive 0 x.ppnLen).Valid x.bits :=
    ⟨hppnLen, show x.ppnLen ≤ x.bits by omega⟩
  rw [set_eq_bind, hbf.setBits_exclusive _ _ ⟨hmodeLo, le_refl _⟩ hmode, Option.bind_some]
  by_cases hasid : asid.toNat < 2 ^ x.asidLen
  · -- the ASID is written, and the PPN write panics
    have hppn : 2 ^ x.ppnLen ≤ ppn.toNat := by omega
    rw [hbf.setBits_of_lt _ _ hasidRange (by rwa [hasidLen']), Option.bind_some,
      hbf.setBits_of_le _ _ hppnRange (by rwa [hppnLen'])]
  · -- the ASID write panics
    rw [hbf.setBits_of_le _ _ hasidRange (by rw [hasidLen']; omega), Option.bind_none]

/-! ### The round trip -/

theorem decode_set (hbf : bf.Lawful) (mode : Mode x) (asid ppn : Usize x)
    (hasid : asid.toNat < 2 ^ x.asidLen) (hppn : ppn.toNat < 2 ^ x.ppnLen) :
    ∃ bits, set bf mode asid ppn = some bits ∧ (Satp.mk bits).mode bf = some mode ∧
      (Satp.mk bits).asid bf = asid ∧ (Satp.mk bits).ppn bf = ppn := by
  obtain ⟨hppnLen, hasidLen, hlo, hmodeLo, hlen⟩ := layout_valid x
  have hmode : (BitVec.ofNat x.bits mode.toNat).toNat = mode.toNat := by
    have hpow : 2 ^ modeLen x ≤ 2 ^ x.bits := Nat.pow_le_pow_right (by decide) (by omega)
    rw [BitVec.toNat_ofNat, Nat.mod_eq_of_lt (lt_of_lt_of_le mode.toNat_lt hpow)]
  refine ⟨_, set_eq hbf mode asid ppn hasid hppn, ?_, ?_, ?_⟩
  · -- the mode field is disjoint from the two fields written after it
    have hfield : ((((0 : Usize x).replaceField (modeLo x) (modeLen x)
        (BitVec.ofNat x.bits mode.toNat)).replaceField x.ppnLen x.asidLen asid).replaceField
          0 x.ppnLen ppn).field (modeLo x) (modeLen x) = BitVec.ofNat x.bits mode.toNat := by
      rw [BitVec.field_replaceField_of_disjoint _ _ (.inr (by omega)),
        BitVec.field_replaceField_of_disjoint _ _ (.inr (by omega)),
        BitVec.field_replaceField_self _ _ (by omega),
        BitVec.field_zero_of_lt (by rw [hmode]; exact mode.toNat_lt)]
    rw [mode_eq hbf, hfield, hmode, Mode.decode_toNat]
  · rw [asid_eq hbf, BitVec.field_replaceField_of_disjoint _ _ (.inr (by omega)),
      BitVec.field_replaceField_self _ _ (by omega), BitVec.field_zero_of_lt hasid]
  · rw [ppn_eq hbf, BitVec.field_replaceField_self _ _ (by omega), BitVec.field_zero_of_lt hppn]

theorem set_decode (hbf : bf.Lawful) (r : Satp x) (mode : Mode x) (h : r.mode bf = some mode) :
    set bf mode (r.asid bf) (r.ppn bf) = some r.bits := by
  obtain ⟨hppnLen, hasidLen, hlo, hmodeLo, hlen⟩ := layout_valid x
  rw [mode_eq hbf] at h
  have hmode : BitVec.ofNat x.bits mode.toNat = r.bits.field (modeLo x) (modeLen x) := by
    rw [Mode.toNat_of_decode h, BitVec.ofNat_toNat, BitVec.setWidth_eq]
  rw [asid_eq hbf, ppn_eq hbf,
    set_eq hbf mode _ _ (BitVec.toNat_field_lt _ _ _) (BitVec.toNat_field_lt _ _ _), hmode,
    hlen, hlo]
  exact congrArg some (BitVec.replaceField_field_tile r.bits (by omega))

/-- `satp::set` and the getters are inverse on both layouts: a mode, ASID and
PPN that fit are written and read back exactly; every word with a defined mode
is what `set` writes from its own fields; and an ASID or PPN that does not fit
makes `set` panic, so nothing is written. -/
theorem set_round_trip (hbf : bf.Lawful) :
    (∀ (mode : Mode x) (asid ppn : Usize x), asid.toNat < 2 ^ x.asidLen →
      ppn.toNat < 2 ^ x.ppnLen →
      ∃ bits, set bf mode asid ppn = some bits ∧ (Satp.mk bits).mode bf = some mode ∧
        (Satp.mk bits).asid bf = asid ∧ (Satp.mk bits).ppn bf = ppn) ∧
    (∀ (r : Satp x) (mode : Mode x), r.mode bf = some mode →
      set bf mode (r.asid bf) (r.ppn bf) = some r.bits) ∧
    (∀ (mode : Mode x) (asid ppn : Usize x),
      2 ^ x.asidLen ≤ asid.toNat ∨ 2 ^ x.ppnLen ≤ ppn.toNat → set bf mode asid ppn = none) :=
  ⟨decode_set hbf, set_decode hbf, set_eq_none hbf⟩

theorem set_round_trip_sv39 :
    (5 : Usize .rv64).toNat < 2 ^ Xlen.rv64.asidLen ∧
    (0x1234 : Usize .rv64).toNat < 2 ^ Xlen.rv64.ppnLen ∧
    ∃ bits, set BitField.documented Mode.sv39 5 0x1234 = some bits ∧
      (Satp.mk bits).mode BitField.documented = some Mode.sv39 ∧
      (Satp.mk bits).asid BitField.documented = 5 ∧
      (Satp.mk bits).ppn BitField.documented = 0x1234 :=
  have hasid : (5 : Usize .rv64).toNat < 2 ^ Xlen.rv64.asidLen := by decide
  have hppn : (0x1234 : Usize .rv64).toNat < 2 ^ Xlen.rv64.ppnLen := by decide
  ⟨hasid, hppn,
    (set_round_trip BitField.documented_lawful).1 Mode.sv39 5 0x1234 hasid hppn⟩

end Satp

end Riscv
