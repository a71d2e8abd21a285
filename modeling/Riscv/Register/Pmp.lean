import Riscv.Register.Csr

/-!
Physical memory protection configuration (`register/pmpcfgx.rs` and the
`set_pmp!`/`clear_pmp!` macros). A `pmpcfgN` register packs one configuration
byte per PMP entry, four on RV32 and eight on RV64: entry `index` is the byte
at bits `8 * index ..= 8 * index + 7`. `set_pmp` and `clear_pmp` rewrite that
byte with `set_bits`, and `Pmpcsr::into_config` reads it back with `get_bits`
and splits it into permission bits `0..=2`, range bits `3..=4` and lock bit 7.
The `pmpcfg0` to `pmpcfg3` modules expand the same macros, so one model covers
all of them. The asserts on `index` and the `unreachable!()` arms are `none`.
-/

namespace Riscv

/-- Permission enum contains all possible permission modes for pmp registers -/
inductive Permission where
  | NONE
  | R
  | W
  | RW
  | X
  | RX
  | WX
  | RWX
  deriving DecidableEq, Repr

/-- Range enum contains all possible addressing modes for pmp registers -/
inductive Range where
  | OFF
  | TOR
  | NA4
  | NAPOT
  deriving DecidableEq, Repr

namespace Permission

/-- `permission as usize` -/
def toNat : Permission → Nat
  | NONE => 0b000
  | R => 0b001
  | W => 0b010
  | RW => 0b011
  | X => 0b100
  | RX => 0b101
  | WX => 0b110
  | RWX => 0b111

/-- The `match` of `into_config` on the permission bits. -/
def decode : Nat → Option Permission
  | 0 => some NONE
  | 1 => some R
  | 2 => some W
  | 3 => some RW
  | 4 => some X
  | 5 => some RX
  | 6 => some WX
  | 7 => some RWX
  | _ => none

theorem toNat_lt (p : Permission) : p.toNat < 8 := by
  cases p <;> decide

@[simp] theorem decode_toNat (p : Permission) : decode p.toNat = some p := by
  cases p <;> rfl

theorem decode_isSome {n : Nat} (h : n < 8) : (decode n).isSome := by
  interval_cases n <;> rfl

end Permission

namespace Range

/-- `range as usize` -/
def toNat : Range → Nat
  | OFF => 0b00
  | TOR => 0b01
  | NA4 => 0b10
  | NAPOT => 0b11

/-- The `match` of `into_config` on the range bits. -/
def decode : Nat → Option Range
  | 0 => some OFF
  | 1 => some TOR
  | 2 => some NA4
  | 3 => some NAPOT
  | _ => none

theorem toNat_lt (r : Range) : r.toNat < 4 := by
  cases r <;> decide

@[simp] theorem decode_toNat (r : Range) : decode r.toNat = some r := by
  cases r <;> rfl

theorem decode_isSome {n : Nat} (h : n < 4) : (decode n).isSome := by
  interval_cases n <;> rfl

end Range

/-- Pmp struct holds a high-level representation of a single pmp configuration -/
structure Pmp where
  byte : BitVec 8
  permission : Permission
  range : Range
  locked : Bool
  deriving DecidableEq

/-- The contents of a `pmpcfgN` register. -/
structure Pmpcsr (x : Xlen) where
  bits : Usize x

/-- The entries per `pmpcfgN` register, the bound the asserts check. -/
def Xlen.pmpEntries : Xlen → Nat
  | .rv32 => 4
  | .rv64 => 8

theorem Xlen.pmp_byte_le {x : Xlen} {index : Nat} (h : index < x.pmpEntries) :
    8 * index + 8 ≤ x.bits := by
  cases x <;> simp only [Xlen.pmpEntries, Xlen.bits] at h ⊢ <;> omega

/-- `(locked as usize) << 7 | (range as usize) << 3 | (permission as usize)`,
at any width. -/
def pmpByte (w : Nat) (range : Range) (permission : Permission) (locked : Bool) : BitVec w :=
  (locked.toNat : BitVec w) <<< 7 ||| (range.toNat : BitVec w) <<< 3 ||| (permission.toNat : BitVec w)

/-- The byte of a configuration as a number: lock bit, range and permission
do not overlap. -/
theorem toNat_pmpByte {w : Nat} (hw : 8 ≤ w) (range : Range) (permission : Permission)
    (locked : Bool) :
    (pmpByte w range permission locked).toNat =
      locked.toNat * 2 ^ 7 + range.toNat * 2 ^ 3 + permission.toNat := by
  have hpow : 2 ^ 8 ≤ 2 ^ w := Nat.pow_le_pow_right (by decide) hw
  have hl : locked.toNat < 2 := Bool.toNat_lt locked
  have hr := range.toNat_lt
  have hp := permission.toNat_lt
  have hcast : ∀ n, n < 2 ^ 8 → ((n : Nat) : BitVec w).toNat = n := by
    intro n hn
    rw [BitVec.natCast_eq_ofNat, BitVec.toNat_ofNat, Nat.mod_eq_of_lt (by omega)]
  have hlock : ((locked.toNat : BitVec w) <<< 7).toNat = locked.toNat * 2 ^ 7 := by
    rw [BitVec.toNat_shiftLeft_of_lt _ (by rw [hcast _ (by omega)]; omega), hcast _ (by omega)]
  have hrange : ((range.toNat : BitVec w) <<< 3).toNat = range.toNat * 2 ^ 3 := by
    rw [BitVec.toNat_shiftLeft_of_lt _ (by rw [hcast _ (by omega)]; omega), hcast _ (by omega)]
  have hhigh : ((locked.toNat : BitVec w) <<< 7 ||| (range.toNat : BitVec w) <<< 3).toNat =
      locked.toNat * 2 ^ 7 + range.toNat * 2 ^ 3 := by
    rw [BitVec.toNat_or_of_dvd _ _ (k := 7) (by rw [hlock]; exact Dvd.intro_left _ rfl)
      (by rw [hrange]; omega), hlock, hrange]
  rw [pmpByte, BitVec.toNat_or_of_dvd _ _ (k := 3) (by rw [hhigh]; omega)
    (by rw [hcast _ (by omega)]; omega), hhigh, hcast _ (by omega)]

/-- The byte fits in eight bits. -/
theorem toNat_pmpByte_lt {w : Nat} (hw : 8 ≤ w) (range : Range) (permission : Permission)
    (locked : Bool) : (pmpByte w range permission locked).toNat < 2 ^ 8 := by
  rw [toNat_pmpByte hw]
  have := range.toNat_lt
  have := permission.toNat_lt
  have := Bool.toNat_lt locked
  omega

/-- Built in a wider word and narrowed to eight bits, it is the byte built at width 8. -/
theorem setWidth_pmpByte {w : Nat} (hw : 8 ≤ w) (range : Range) (permission : Permission)
    (locked : Bool) :
    (pmpByte w range permission locked).setWidth 8 = pmpByte 8 range permission locked := by
  apply BitVec.eq_of_toNat_eq
  rw [BitVec.toNat_setWidth, Nat.mod_eq_of_lt (toNat_pmpByte_lt hw range permission locked),
    toNat_pmpByte hw, toNat_pmpByte (le_refl 8)]

section Model

variable {x : Xlen} (bf : BitField)

/-- The body of `into_config` after the byte is read: the permission bits
`0..=2`, the range bits `3..=4` and the lock bit 7, each matched to its enum. -/
def Pmp.decode (byte : BitVec 8) : Option Pmp :=
  match Permission.decode (bf.getBits byte (.inclusive 0 2)).toNat,
      Range.decode (bf.getBits byte (.inclusive 3 4)).toNat with
  | some permission, some range => some { byte, permission, range, locked := bf.getBit byte 7 }
  | _, _ => none

/-- `Pmpcsr::into_config`: the configuration of entry `index`. -/
def Pmpcsr.intoConfig (r : Pmpcsr x) (index : Nat) : Option Pmp :=
  if index < x.pmpEntries then
    let byte : BitVec 8 := (bf.getBits r.bits (.inclusive (8 * index) (8 * index + 7))).setWidth 8
    Pmp.decode bf byte
  else none

/-- `set_pmp`: rewrite the byte of entry `index` in the register word `value`. -/
def setPmp (index : Nat) (range : Range) (permission : Permission) (locked : Bool)
    (value : Usize x) : Option (Usize x) :=
  if index < x.pmpEntries then
    let byte : Usize x := pmpByte x.bits range permission locked
    bf.setBits value (.inclusive (8 * index) (8 * index + 7)) byte
  else none

/-- `clear_pmp`: zero the byte of entry `index` in the register word `value`. -/
def clearPmp (index : Nat) (value : Usize x) : Option (Usize x) :=
  if index < x.pmpEntries then
    bf.setBits value (.inclusive (8 * index) (8 * index + 7)) 0
  else none

end Model

/-- The configuration a byte encodes, read arithmetically: permission from
bits `0..=2`, range from bits `3..=4`, lock from bit 7. -/
def Pmp.ofByte (byte : BitVec 8) : Option Pmp :=
  match Permission.decode (byte.toNat % 8), Range.decode (byte.toNat / 8 % 4) with
  | some permission, some range => some { byte, permission, range, locked := byte.getLsbD 7 }
  | _, _ => none

/-- Every byte decodes: the permission and range matches of `into_config` are
exhaustive on the bits they get. -/
theorem Pmp.ofByte_isSome (byte : BitVec 8) : (Pmp.ofByte byte).isSome := by
  have hp := Permission.decode_isSome (Nat.mod_lt byte.toNat (by omega : 0 < 8))
  have hr := Range.decode_isSome (Nat.mod_lt (byte.toNat / 8) (by omega : 0 < 4))
  rw [Option.isSome_iff_exists] at hp hr
  obtain ⟨permission, hpermission⟩ := hp
  obtain ⟨range, hrange⟩ := hr
  simp only [Pmp.ofByte, hpermission, hrange, Option.isSome_some]

/-- The byte written for a configuration decodes to that configuration. -/
theorem Pmp.ofByte_pmpByte (range : Range) (permission : Permission) (locked : Bool) :
    Pmp.ofByte (pmpByte 8 range permission locked) =
      some ⟨pmpByte 8 range permission locked, permission, range, locked⟩ := by
  have hbyte := toNat_pmpByte (le_refl 8) range permission locked
  have hr := range.toNat_lt
  have hp := permission.toNat_lt
  have hpermission : (pmpByte 8 range permission locked).toNat % 8 = permission.toNat := by
    rw [hbyte]
    omega
  have hrange : (pmpByte 8 range permission locked).toNat / 8 % 4 = range.toNat := by
    rw [hbyte]
    omega
  have hlocked : (pmpByte 8 range permission locked).getLsbD 7 = locked := by
    rw [← BitVec.testBit_toNat, Nat.testBit_eq_decide_div_mod_eq, hbyte]
    cases locked <;> simp <;> omega
  simp only [Pmp.ofByte, hpermission, hrange, Permission.decode_toNat, Range.decode_toNat,
    hlocked]

section Proofs

variable {x : Xlen} {bf : BitField}

/-- The range `8 * index ..= 8 * index + 7` of an admitted entry lies inside the word. -/
theorem pmp_range_valid {index : Nat} (hi : index < x.pmpEntries) :
    (BitRange.inclusive (8 * index) (8 * index + 7)).Valid x.bits := by
  have hle := Xlen.pmp_byte_le hi
  constructor
  · simp only [BitRange.start_inclusive, BitRange.stop_inclusive]
    omega
  · simp only [BitRange.stop_inclusive]
    omega

/-- The source's decoding of a byte agrees with the arithmetic one. -/
theorem Pmp.decode_eq_ofByte (hbf : bf.Lawful) (byte : BitVec 8) :
    Pmp.decode bf byte = Pmp.ofByte byte := by
  have hpermission : (bf.getBits byte (.inclusive 0 2)).toNat = byte.toNat % 8 := by
    rw [hbf.getBits_eq _ _ ⟨by decide, by decide⟩]
    change (byte.field 0 3).toNat = _
    rw [BitVec.toNat_field byte 0 3 (by omega)]
    omega
  have hrange : (bf.getBits byte (.inclusive 3 4)).toNat = byte.toNat / 8 % 4 := by
    rw [hbf.getBits_eq _ _ ⟨by decide, by decide⟩]
    change (byte.field 3 2).toNat = _
    rw [BitVec.toNat_field byte 3 2 (by omega)]
    omega
  have hlocked : bf.getBit byte 7 = byte.getLsbD 7 := hbf.getBit_eq byte 7 (by omega)
  rw [Pmp.decode, Pmp.ofByte, hpermission, hrange, hlocked]

/-- `into_config` decodes the byte of its entry and nothing else of the word. -/
theorem Pmpcsr.intoConfig_eq_ofByte (hbf : bf.Lawful) (r : Pmpcsr x) {index : Nat}
    (hi : index < x.pmpEntries) :
    r.intoConfig bf index = Pmp.ofByte ((r.bits.field (8 * index) 8).setWidth 8) := by
  have hlen : 8 * index + 7 + 1 - 8 * index = 8 := by omega
  have hbyte : bf.getBits r.bits (.inclusive (8 * index) (8 * index + 7)) =
      r.bits.field (8 * index) 8 := by
    rw [hbf.getBits_eq _ _ (pmp_range_valid hi), BitRange.start_inclusive,
      BitRange.len_inclusive, hlen]
  rw [Pmpcsr.intoConfig, if_pos hi, hbyte, Pmp.decode_eq_ofByte hbf]

/-- `into_config` never reaches its `unreachable!()` arms: it returns a
configuration for every word and every admitted index. -/
theorem Pmpcsr.intoConfig_isSome (hbf : bf.Lawful) (r : Pmpcsr x) {index : Nat}
    (hi : index < x.pmpEntries) : (r.intoConfig bf index).isSome := by
  rw [r.intoConfig_eq_ofByte hbf hi]
  exact Pmp.ofByte_isSome _

/-- Rewriting the byte of entry `index` with `set_bits` leaves every other entry's
configuration as it was and gives entry `index` the byte written. -/
theorem intoConfig_of_setBits (hbf : bf.Lawful) {value new byte : Usize x} {index : Nat}
    (hi : index < x.pmpEntries) (hbyte : byte.toNat < 2 ^ 8)
    (hset : bf.setBits value (.inclusive (8 * index) (8 * index + 7)) byte = some new) :
    Pmpcsr.intoConfig bf ⟨new⟩ index = Pmp.ofByte (byte.setWidth 8) ∧
      ∀ j, j < x.pmpEntries → j ≠ index →
        Pmpcsr.intoConfig bf ⟨new⟩ j = Pmpcsr.intoConfig bf ⟨value⟩ j := by
  have hlen : 8 * index + 7 + 1 - 8 * index = 8 := by omega
  obtain ⟨-, rfl⟩ := hbf.setBits_eq_some (pmp_range_valid hi) hset
  simp only [BitRange.start_inclusive, BitRange.len_inclusive, hlen]
  constructor
  · rw [Pmpcsr.intoConfig_eq_ofByte hbf _ hi,
      BitVec.field_replaceField_self _ _ (Xlen.pmp_byte_le hi), BitVec.field_zero_of_lt hbyte]
  · intro j hj hne
    rw [Pmpcsr.intoConfig_eq_ofByte hbf _ hj, Pmpcsr.intoConfig_eq_ofByte hbf _ hj,
      BitVec.field_replaceField_of_disjoint _ _ (by omega)]

/-- `set_pmp` on an admitted entry: `into_config` then reports the byte
`l << 7 | r << 3 | p` with exactly the permission, range and lock written,
every other admitted entry is unchanged, and an index past the register's
entries panics. -/
theorem setPmp_intoConfig (hbf : bf.Lawful) (value : Usize x) (index : Nat) (range : Range)
    (permission : Permission) (locked : Bool) :
    (index < x.pmpEntries →
      ∃ new, setPmp bf index range permission locked value = some new ∧
        Pmpcsr.intoConfig bf ⟨new⟩ index =
          some ⟨pmpByte 8 range permission locked, permission, range, locked⟩ ∧
        ∀ j, j < x.pmpEntries → j ≠ index →
          Pmpcsr.intoConfig bf ⟨new⟩ j = Pmpcsr.intoConfig bf ⟨value⟩ j) ∧
    (x.pmpEntries ≤ index → setPmp bf index range permission locked value = none) := by
  have hw : 8 ≤ x.bits := le_trans (by decide) x.le_bits
  have hbyte := toNat_pmpByte_lt hw range permission locked
  constructor
  · intro hi
    have hlen : 8 * index + 7 + 1 - 8 * index = 8 := by omega
    obtain ⟨new, hnew⟩ : ∃ new, bf.setBits value (.inclusive (8 * index) (8 * index + 7))
        (pmpByte x.bits range permission locked) = some new :=
      ⟨_, hbf.setBits_of_lt value _ (pmp_range_valid hi) (by simpa [hlen] using hbyte)⟩
    obtain ⟨hself, hother⟩ := intoConfig_of_setBits hbf hi hbyte hnew
    refine ⟨new, by simp [setPmp, hi, hnew], ?_, hother⟩
    rw [hself, setWidth_pmpByte hw, Pmp.ofByte_pmpByte]
  · intro hi
    simp [setPmp, show ¬ index < x.pmpEntries by omega]

/-- `clear_pmp` on an admitted entry: `into_config` then reports byte 0, which is
`NONE`, `OFF` and unlocked, every other admitted entry is unchanged, and an
index past the register's entries panics. -/
theorem clearPmp_intoConfig (hbf : bf.Lawful) (value : Usize x) (index : Nat) :
    (index < x.pmpEntries →
      ∃ new, clearPmp bf index value = some new ∧
        Pmpcsr.intoConfig bf ⟨new⟩ index = some ⟨0, .NONE, .OFF, false⟩ ∧
        ∀ j, j < x.pmpEntries → j ≠ index →
          Pmpcsr.intoConfig bf ⟨new⟩ j = Pmpcsr.intoConfig bf ⟨value⟩ j) ∧
    (x.pmpEntries ≤ index → clearPmp bf index value = none) := by
  constructor
  · intro hi
    have hlen : 8 * index + 7 + 1 - 8 * index = 8 := by omega
    obtain ⟨new, hnew⟩ : ∃ new, bf.setBits value (.inclusive (8 * index) (8 * index + 7))
        (0 : Usize x) = some new :=
      ⟨_, hbf.setBits_of_lt value _ (pmp_range_valid hi) (by simp)⟩
    obtain ⟨hself, hother⟩ := intoConfig_of_setBits hbf hi (by simp) hnew
    refine ⟨new, by rw [clearPmp, if_pos hi]; exact hnew, ?_, hother⟩
    rw [hself, show (0 : Usize x).setWidth 8 = 0 from BitVec.setWidth_zero 8 x.bits]
    decide
  · intro hi
    simp [clearPmp, show ¬ index < x.pmpEntries by omega]

/-- The PMP entries of one `pmpcfgN` register are independent: for every prior
word and every admitted index, `set_pmp` makes `into_config` report exactly
the configuration written, `clear_pmp` makes it report byte 0, both leave
every other admitted entry as it was, and `into_config` returns a
configuration for every word and admitted index. -/
theorem pmpcfg_set_clear_into_config (hbf : bf.Lawful) (value : Usize x) (index : Nat)
    (hi : index < x.pmpEntries) (range : Range) (permission : Permission) (locked : Bool) :
    (∃ new, setPmp bf index range permission locked value = some new ∧
      Pmpcsr.intoConfig bf ⟨new⟩ index =
        some ⟨pmpByte 8 range permission locked, permission, range, locked⟩ ∧
      ∀ j, j < x.pmpEntries → j ≠ index →
        Pmpcsr.intoConfig bf ⟨new⟩ j = Pmpcsr.intoConfig bf ⟨value⟩ j) ∧
    (∃ new, clearPmp bf index value = some new ∧
      Pmpcsr.intoConfig bf ⟨new⟩ index = some ⟨0, .NONE, .OFF, false⟩ ∧
      ∀ j, j < x.pmpEntries → j ≠ index →
        Pmpcsr.intoConfig bf ⟨new⟩ j = Pmpcsr.intoConfig bf ⟨value⟩ j) ∧
    ∀ j, j < x.pmpEntries → (Pmpcsr.intoConfig bf ⟨value⟩ j).isSome :=
  ⟨(setPmp_intoConfig hbf value index range permission locked).1 hi,
    (clearPmp_intoConfig hbf value index).1 hi,
    fun _ hj => Pmpcsr.intoConfig_isSome hbf _ hj⟩

/-- The top entry of an RV64 register, whose lock bit is bit 63 of the word. -/
theorem pmpcfg_set_clear_into_config_top :
    7 < Xlen.rv64.pmpEntries ∧
    ((∃ new, setPmp BitField.documented 7 .NAPOT .RWX true (0 : Usize .rv64) = some new ∧
      Pmpcsr.intoConfig BitField.documented ⟨new⟩ 7 =
        some ⟨pmpByte 8 .NAPOT .RWX true, .RWX, .NAPOT, true⟩ ∧
      ∀ j, j < Xlen.rv64.pmpEntries → j ≠ 7 →
        Pmpcsr.intoConfig BitField.documented ⟨new⟩ j =
          Pmpcsr.intoConfig BitField.documented ⟨(0 : Usize .rv64)⟩ j) ∧
    (∃ new, clearPmp BitField.documented 7 (0 : Usize .rv64) = some new ∧
      Pmpcsr.intoConfig BitField.documented ⟨new⟩ 7 = some ⟨0, .NONE, .OFF, false⟩ ∧
      ∀ j, j < Xlen.rv64.pmpEntries → j ≠ 7 →
        Pmpcsr.intoConfig BitField.documented ⟨new⟩ j =
          Pmpcsr.intoConfig BitField.documented ⟨(0 : Usize .rv64)⟩ j) ∧
    ∀ j, j < Xlen.rv64.pmpEntries →
      (Pmpcsr.intoConfig BitField.documented ⟨(0 : Usize .rv64)⟩ j).isSome) :=
  ⟨by decide, pmpcfg_set_clear_into_config BitField.documented_lawful 0 7 (by decide) .NAPOT .RWX
    true⟩

end Proofs

end Riscv
