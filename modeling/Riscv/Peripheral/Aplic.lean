import Riscv.Library.ReprC
import Riscv.Library.BitVecField
import Riscv.Library.RustInt
import Riscv.Register.Csr

/-!
The register block of the Advanced Platform-Level Interrupt Controller
(`peripheral/aplic.rs`). `Aplic` is a `#[repr(C)]` struct of `u32` registers
and arrays of them, padded so that each field sits where the AIA places it,
and a driver writes it through volatile stores. Here the block is the `u32` at
each byte offset, a field's place is its `repr(C)` offset (`ReprC`), and a
writer is a call that returns or panics (`Rust.assert`), keeping what it wrote
before a panic.

Every writer checks its arguments with `assert!` before its first store, so a
rejected call leaves the block as it was; an accepted one stores to the
register the layout assigns, with the fields of the written word packed so that
each reads back as its argument.
-/

namespace Riscv

open Rust (Profile assert checked)

/-- APLIC register block: the `u32` at each byte offset. -/
structure Aplic where
  word : Nat → BitVec 32

namespace Aplic

/-- The fields of the register block, in declaration order. -/
inductive Field where
  | domaincfg
  | sourcecfg
  | padding0
  | mmsiaddrcfg
  | mmsiaddrcfgh
  | smsiaddrcfg
  | smsiaddrcfgh
  | padding1
  | setip
  | padding2
  | setipnum
  | padding3
  | inClrip
  | padding4
  | clripnum
  | padding5
  | setie
  | padding6
  | setienum
  | padding7
  | clrie
  | padding8
  | clrienum
  | padding9
  | setipnumLe
  | setipnumBe
  | padding10
  | genmsi
  | target
  deriving DecidableEq, Repr

namespace Field

/-- The number of `u32`s in the field; a scalar register is one. -/
def len : Field → Nat
  | sourcecfg | target => 1023
  | padding0 => 752
  | padding1 => 12
  | setip | inClrip | setie | clrie => 32
  | padding2 | padding4 | padding6 | padding8 => 23
  | padding3 | padding5 | padding7 | padding9 => 8
  | padding10 => 1022
  | domaincfg | mmsiaddrcfg | mmsiaddrcfgh | smsiaddrcfg | smsiaddrcfgh | setipnum | clripnum
  | setienum | clrienum | setipnumLe | setipnumBe | genmsi => 1

/-- The fields in declaration order. -/
def all : List Field :=
  [domaincfg, sourcecfg, padding0, mmsiaddrcfg, mmsiaddrcfgh, smsiaddrcfg, smsiaddrcfgh,
    padding1, setip, padding2, setipnum, padding3, inClrip, padding4, clripnum, padding5,
    setie, padding6, setienum, padding7, clrie, padding8, clrienum, padding9, setipnumLe,
    setipnumBe, padding10, genmsi, target]

/-- The byte offset of element `i` of the field: `offset_of!` plus `i` `u32`s. -/
def slot (f : Field) (i : Nat) : Nat := ReprC.slot 4 len all f i

theorem mem_all (f : Field) : f ∈ all := by
  cases f <;> decide

/-- The crate's tests `sizeof_register_block` and `offset_of`. -/
example : ReprC.size 4 len all = 0x4000 ∧
    domaincfg.slot 0 = 0x0000 ∧ sourcecfg.slot 0 = 0x0004 ∧ mmsiaddrcfg.slot 0 = 0x1BC0 ∧
    mmsiaddrcfgh.slot 0 = 0x1BC4 ∧ smsiaddrcfg.slot 0 = 0x1BC8 ∧
    smsiaddrcfgh.slot 0 = 0x1BCC ∧ setip.slot 0 = 0x1C00 ∧ setipnum.slot 0 = 0x1CDC ∧
    inClrip.slot 0 = 0x1D00 ∧ clripnum.slot 0 = 0x1DDC ∧ setie.slot 0 = 0x1E00 ∧
    setienum.slot 0 = 0x1EDC ∧ clrie.slot 0 = 0x1F00 ∧ clrienum.slot 0 = 0x1FDC ∧
    setipnumLe.slot 0 = 0x2000 ∧ setipnumBe.slot 0 = 0x2004 ∧ genmsi.slot 0 = 0x3000 ∧
    target.slot 0 = 0x3004 := by
  decide

/-- An array field `f` at byte offset `base`: element `i` sits `4 * i` further. -/
theorem slot_eq {f : Field} {base : Nat} (h : ReprC.offset 4 len all f = base) (i : Nat) :
    f.slot i = base + 4 * i := by
  rw [slot, ReprC.slot, h]

theorem slot_sourcecfg (i : Nat) : sourcecfg.slot i = 4 * (i + 1) := by
  rw [slot_eq (by decide : ReprC.offset 4 len all sourcecfg = 4)]
  omega

theorem slot_target (i : Nat) : target.slot i = 0x3000 + 4 * (i + 1) := by
  rw [slot_eq (by decide : ReprC.offset 4 len all target = 0x3004)]
  omega

theorem slot_msiaddrcfg : mmsiaddrcfg.slot 0 = 0x1BC0 ∧ mmsiaddrcfgh.slot 0 = 0x1BC4 ∧
    smsiaddrcfg.slot 0 = 0x1BC8 ∧ smsiaddrcfgh.slot 0 = 0x1BCC := by
  decide

/-- Different registers of the block occupy disjoint words inside its 16 KiB. -/
theorem slot_disjoint {f g : Field} {i j : Nat} (hi : i < f.len) (hj : j < g.len)
    (hne : f ≠ g ∨ i ≠ j) : f.slot i + 4 ≤ g.slot j ∨ g.slot j + 4 ≤ f.slot i :=
  ReprC.slot_disjoint (mem_all f) (mem_all g) hi hj hne

theorem slot_add_le {f : Field} {i : Nat} (hi : i < f.len) : f.slot i + 4 ≤ 0x4000 :=
  ReprC.slot_add_le_size (mem_all f) hi

theorem slot_aligned (f : Field) (i : Nat) : f.slot i % 4 = 0 :=
  Nat.mod_eq_zero_of_dvd (ReprC.dvd_slot all f i)

end Field

/-- A volatile store of `v` to the `u32` at byte offset `off`. -/
def store (s : Aplic) (off : Nat) (v : BitVec 32) : Aplic := ⟨Function.update s.word off v⟩

/-- Register `i` of field `f`. -/
def reg (s : Aplic) (f : Field) (i : Nat) : BitVec 32 := s.word (f.slot i)

/-- `self.f[i].write(v)`, with the bounds check of the array index; a scalar
register is element 0. -/
def writeReg (f : Field) (i : Nat) (v : BitVec 32) : EStateM Unit Aplic Unit := fun s =>
  if i < f.len then .ok () (s.store (f.slot i) v) else .error () s

@[simp] theorem word_store (s : Aplic) (off : Nat) (v : BitVec 32) (o : Nat) :
    (s.store off v).word o = if o = off then v else s.word o :=
  Function.update_apply s.word off v o

/-- A store to one register changes that register and no other. -/
theorem reg_store_slot {f g : Field} {i j : Nat} (hi : i < f.len) (hj : j < g.len)
    (v : BitVec 32) (s : Aplic) :
    (s.store (f.slot i) v).reg g j = if g = f ∧ j = i then v else s.reg g j := by
  rw [reg, word_store]
  by_cases h : g = f ∧ j = i
  · obtain ⟨rfl, rfl⟩ := h
    simp
  · have hne : g.slot j ≠ f.slot i := by
      have := Field.slot_disjoint hj hi (by tauto)
      omega
    rw [if_neg hne, if_neg h, reg]

theorem writeReg_of_lt {f : Field} {i : Nat} (h : i < f.len) (v : BitVec 32) (s : Aplic) :
    writeReg f i v s = .ok () (s.store (f.slot i) v) := if_pos h

/-- The shape of every asserting writer once its asserts are merged into one
condition `Q`: a store to the register at `off`, else a panic that leaves the
block as it was. The condition must put the index in bounds. -/
theorem ite_writeReg {Q P : Prop} [Decidable Q] [Decidable P] (hQP : Q ↔ P) {f : Field}
    {i off : Nat} (hi : P → i < f.len ∧ f.slot i = off) (v : BitVec 32) (s : Aplic) :
    (if Q then writeReg f i v s else .error () s) =
      if P then .ok () (s.store off v) else .error () s := by
  by_cases h : P
  · obtain ⟨hlt, hoff⟩ := hi h
    rw [if_pos (hQP.mpr h), if_pos h, writeReg_of_lt hlt, hoff]
  · rw [if_neg (mt hQP.mp h), if_neg h]

inductive InterruptEnable where
  | disabled
  | enabled
  deriving DecidableEq, Repr

inductive DeliveryMode where
  | directDeliveryMode
  | msiDeliveryMode
  deriving DecidableEq, Repr

inductive Endian where
  | littleEndian
  | bigEndian
  deriving DecidableEq, Repr

inductive SourceModes where
  | inactive
  | detached
  | edgeRising
  | edgeFalling
  | levelHigh
  | levelLow
  deriving DecidableEq, Repr

/-- `ie as u32`. -/
def InterruptEnable.discriminant : InterruptEnable → BitVec 32
  | disabled => 0
  | enabled => (1 : BitVec 32) <<< 8

/-- `dm as u32`. -/
def DeliveryMode.discriminant : DeliveryMode → BitVec 32
  | directDeliveryMode => 0
  | msiDeliveryMode => (1 : BitVec 32) <<< 2

/-- `be as u32`. -/
def Endian.discriminant : Endian → BitVec 32
  | littleEndian => 0
  | bigEndian => 1

/-- `mode as u32`. -/
def SourceModes.discriminant : SourceModes → BitVec 32
  | inactive => 0
  | detached => 1
  | edgeRising => 4
  | edgeFalling => 5
  | levelHigh => 6
  | levelLow => 7

variable {x : Xlen}

/-- Sets the domain configuration -/
def setDomaincfg (ie : InterruptEnable) (dm : DeliveryMode) (be : Endian) :
    EStateM Unit Aplic Unit :=
  let domaincfg := ie.discriminant ||| dm.discriminant ||| be.discriminant
  writeReg .domaincfg 0 domaincfg

/-- `set_mmsiaddrcfg` and `set_smsiaddrcfg`: the same code on the register
pair `lo`, `hi`. The shifts are of a `usize`; the one by 44 overflows on a
32-bit target. -/
def setMsiaddrcfg (lo hi : Field) (p : Profile) (msiAddr : Usize x) (cfgh : BitVec 32) :
    EStateM Unit Aplic Unit := do
  let low ← checked (p.shr msiAddr 12)
  writeReg lo 0 (low.setWidth 32)
  let high ← checked (p.shr msiAddr 44)
  writeReg hi 0 (high.setWidth 32 ||| (cfgh &&& 0xfffff000))

/-- Sets up the Machine MSI address configuration -/
def setMmsiaddrcfg (p : Profile) (msiAddr : Usize x) (mmsiaddrcfgh : BitVec 32) :
    EStateM Unit Aplic Unit :=
  setMsiaddrcfg .mmsiaddrcfg .mmsiaddrcfgh p msiAddr mmsiaddrcfgh

/-- Sets up the Supervisor MSI address configuration -/
def setSmsiaddrcfg (p : Profile) (msiAddr : Usize x) (smsiaddrcfgh : BitVec 32) :
    EStateM Unit Aplic Unit :=
  setMsiaddrcfg .smsiaddrcfg .smsiaddrcfgh p msiAddr smsiaddrcfgh

-- `int as usize - 1` cannot underflow once the assert has passed, so it is
-- the subtraction of naturals.

/-- Delegate the interrupt to the specified child APLIC -/
def sourcecfgDelegate (int child : BitVec 32) : EStateM Unit Aplic Unit := do
  assert (int > 0 && int < 1024)
  assert (child < 1024)
  let sourcecfg : BitVec 32 := (1 : BitVec 32) <<< 10 ||| child
  writeReg .sourcecfg (int.toNat - 1) sourcecfg

/-- Set the interrupt source configuration -/
def setSourcecfg (int : BitVec 32) (mode : SourceModes) : EStateM Unit Aplic Unit := do
  assert (int > 0 && int < 1024)
  let sourcecfg : BitVec 32 := mode.discriminant
  writeReg .sourcecfg (int.toNat - 1) sourcecfg

/-- Sets an interrupt target for an active source in MSI delivery mode -/
def setTargetMsi (int hart guest eiid : BitVec 32) : EStateM Unit Aplic Unit := do
  assert (int > 0 && int < 1024)
  assert (hart < 16384)
  assert (guest < 32)
  assert (eiid < 1024)
  let target : BitVec 32 := (hart <<< 18) ||| (guest <<< 12) ||| eiid
  writeReg .target (int.toNat - 1) target

/-- Masks (disables) a specific interrupt id -/
def mask (int : BitVec 32) : EStateM Unit Aplic Unit := do
  assert (int > 0 && int < 1024)
  writeReg .clrienum 0 int

/-- Unmasks (enables) a specific interrupt id -/
def unmask (int : BitVec 32) : EStateM Unit Aplic Unit := do
  assert (int > 0 && int < 1024)
  writeReg .setienum 0 int

/-- The `repr(C)` layout of the register block: it is 16 KiB; every register,
element `i < f.len` of a field `f`, is an aligned word inside it; two
different registers never overlap; and a store to one register's word leaves
every other register as it was. -/
theorem aplic_layout_sound :
    ReprC.size 4 Field.len Field.all = 0x4000 ∧
    (∀ (f : Field) (i : Nat), i < f.len → f.slot i % 4 = 0 ∧ f.slot i + 4 ≤ 0x4000) ∧
    (∀ (f g : Field) (i j : Nat), i < f.len → j < g.len → (f ≠ g ∨ i ≠ j) →
      f.slot i + 4 ≤ g.slot j ∨ g.slot j + 4 ≤ f.slot i) ∧
    (∀ (f g : Field) (i j : Nat) (v : BitVec 32) (s : Aplic), i < f.len → j < g.len →
      (s.store (f.slot i) v).reg g j = if g = f ∧ j = i then v else s.reg g j) :=
  ⟨by decide, fun f i hi => ⟨Field.slot_aligned f i, Field.slot_add_le hi⟩,
    fun _ _ _ _ hi hj hne => Field.slot_disjoint hi hj hne,
    fun _ _ _ _ v s hi hj => reg_store_slot hi hj v s⟩

theorem aplic_layout_sound_target :
    1022 < Field.target.len ∧ 0 < Field.sourcecfg.len ∧
      (Field.target.slot 1022 % 4 = 0 ∧ Field.target.slot 1022 + 4 ≤ 0x4000) ∧
      (Field.target.slot 1022 + 4 ≤ Field.sourcecfg.slot 0 ∨
        Field.sourcecfg.slot 0 + 4 ≤ Field.target.slot 1022) :=
  have ht : 1022 < Field.target.len := by decide
  have hs : 0 < Field.sourcecfg.len := by decide
  ⟨ht, hs, aplic_layout_sound.2.1 _ _ ht,
    aplic_layout_sound.2.2.1 _ _ _ _ ht hs (.inl (by decide))⟩

/-! ### The packed words -/

/-- The target word as a number: the three fields are packed without overlap. -/
theorem toNat_target {hart guest eiid : BitVec 32} (hh : hart.toNat < 16384)
    (hg : guest.toNat < 32) (he : eiid.toNat < 1024) :
    (hart <<< 18 ||| guest <<< 12 ||| eiid).toNat =
      hart.toNat * 2 ^ 18 + guest.toNat * 2 ^ 12 + eiid.toNat := by
  have hhart : (hart <<< 18).toNat = hart.toNat * 2 ^ 18 :=
    BitVec.toNat_shiftLeft_of_lt _ (by omega)
  have hguest : (guest <<< 12).toNat = guest.toNat * 2 ^ 12 :=
    BitVec.toNat_shiftLeft_of_lt _ (by omega)
  have hhigh : (hart <<< 18 ||| guest <<< 12).toNat =
      hart.toNat * 2 ^ 18 + guest.toNat * 2 ^ 12 := by
    rw [BitVec.toNat_or_of_dvd _ _ (k := 18) (by rw [hhart]; exact Nat.dvd_mul_left _ _)
      (by rw [hguest]; omega), hhart, hguest]
  rw [BitVec.toNat_or_of_dvd _ _ (k := 12) (by rw [hhigh]; omega) (by omega), hhigh]

/-- Bits 31:18, 17:12 and 10:0 of the target word read back as the hart index,
the guest index and the EIID. -/
theorem target_fields {hart guest eiid : BitVec 32} (hh : hart.toNat < 16384)
    (hg : guest.toNat < 32) (he : eiid.toNat < 1024) :
    (hart <<< 18 ||| guest <<< 12 ||| eiid) >>> 18 = hart ∧
      ((hart <<< 18 ||| guest <<< 12 ||| eiid) >>> 12) &&& 0x3f = guest ∧
      (hart <<< 18 ||| guest <<< 12 ||| eiid) &&& 0x7ff = eiid := by
  have hv := toNat_target hh hg he
  refine ⟨BitVec.eq_of_toNat_eq ?_, BitVec.eq_of_toNat_eq ?_, BitVec.eq_of_toNat_eq ?_⟩
  · rw [BitVec.toNat_ushiftRight_eq_div, hv]
    omega
  · rw [BitVec.toNat_and_low_mask _ _ (k := 6) (by decide), BitVec.toNat_ushiftRight_eq_div,
      hv]
    omega
  · rw [BitVec.toNat_and_low_mask _ _ (k := 11) (by decide), hv]
    omega

/-- The delegating `sourcecfg` word: D (bit 10) set, the child index in bits
9:0, and nothing above. -/
theorem sourcecfg_fields {child : BitVec 32} (hc : child.toNat < 1024) :
    ((1 : BitVec 32) <<< 10 ||| child).getLsbD 10 = true ∧
      ((1 : BitVec 32) <<< 10 ||| child) &&& 0x3ff = child ∧
      ((1 : BitVec 32) <<< 10 ||| child) >>> 11 = 0 := by
  have hv : ((1 : BitVec 32) <<< 10 ||| child).toNat = 2 ^ 10 + child.toNat :=
    BitVec.toNat_or_of_dvd _ _ (k := 10) (by decide) hc
  refine ⟨?_, BitVec.eq_of_toNat_eq ?_, BitVec.eq_of_toNat_eq ?_⟩
  · rw [BitVec.getLsbD_or, BitVec.getLsbD_one_shiftLeft_eq]
    simp
  · rw [BitVec.toNat_and_low_mask _ _ (k := 10) (by decide), hv]
    omega
  · rw [BitVec.toNat_ushiftRight_eq_div, hv]
    show _ = 0
    omega

/-- The domain configuration word: IE in bit 8, DM in bit 2, BE in bit 0. -/
theorem domaincfg_fields (ie : InterruptEnable) (dm : DeliveryMode) (be : Endian) :
    (ie.discriminant ||| dm.discriminant ||| be.discriminant).getLsbD 8 = decide (ie = .enabled) ∧
      (ie.discriminant ||| dm.discriminant ||| be.discriminant).getLsbD 2 =
        decide (dm = .msiDeliveryMode) ∧
      (ie.discriminant ||| dm.discriminant ||| be.discriminant).getLsbD 0 =
        decide (be = .bigEndian) := by
  cases ie <;> cases dm <;> cases be <;> decide

/-- The MSI address pair on a 64-bit target: for an address below `2 ^ 56`,
the high register's low 12 bits and the low register hold address bits 55:12,
and the high register's upper 20 bits are those of the configuration. -/
theorem msiaddrcfg_fields {msiAddr : BitVec 64} (h : msiAddr.toNat < 2 ^ 56) (cfgh : BitVec 32) :
    (((msiAddr >>> 44).setWidth 32 ||| (cfgh &&& 0xfffff000)) &&& 0xfff).setWidth 64 <<< 44 |||
        ((msiAddr >>> 12).setWidth 32).setWidth 64 <<< 12 = msiAddr &&& ~~~0xfff ∧
      ((msiAddr >>> 44).setWidth 32 ||| (cfgh &&& 0xfffff000)) &&& 0xfffff000 =
        cfgh &&& 0xfffff000 := by
  have hupper : (0xfffff000 : BitVec 32) = BitVec.allOnes 32 <<< 12 := by decide
  have hnot : (~~~0xfff : BitVec 64) = BitVec.allOnes 64 <<< 12 := by decide
  set hi := (msiAddr >>> 44).setWidth 32 ||| (cfgh &&& 0xfffff000) with hhi_def
  set lo := (msiAddr >>> 12).setWidth 32 with hlo_def
  -- the high register is the address's top bits or-ed into the configuration's upper bits
  have haddr : ((msiAddr >>> 44).setWidth 32).toNat = msiAddr.toNat / 2 ^ 44 := by
    rw [BitVec.toNat_setWidth, BitVec.toNat_ushiftRight_eq_div]
    omega
  have hcfg : (cfgh &&& 0xfffff000).toNat = cfgh.toNat / 2 ^ 12 * 2 ^ 12 := by
    rw [hupper, BitVec.toNat_and_allOnes_shiftLeft]
  have hhi : hi.toNat = cfgh.toNat / 2 ^ 12 * 2 ^ 12 + msiAddr.toNat / 2 ^ 44 := by
    rw [hhi_def, BitVec.or_comm, BitVec.toNat_or_of_dvd _ _ (k := 12)
      (by rw [hcfg]; exact Nat.dvd_mul_left _ _) (by rw [haddr]; omega), hcfg, haddr]
  have hlo : lo.toNat = msiAddr.toNat / 2 ^ 12 % 2 ^ 32 := by
    rw [hlo_def, BitVec.toNat_setWidth, BitVec.toNat_ushiftRight_eq_div]
  -- in 64 bits, the two registers put back address bits 55:44 and 43:12
  have htop : ((hi &&& 0xfff).setWidth 64).toNat = msiAddr.toNat / 2 ^ 44 := by
    rw [BitVec.toNat_setWidth, BitVec.toNat_and_low_mask _ _ (k := 12) (by decide), hhi]
    omega
  have hbottom : (lo.setWidth 64).toNat = msiAddr.toNat / 2 ^ 12 % 2 ^ 32 := by
    rw [BitVec.toNat_setWidth, hlo]
    omega
  have htop' : ((hi &&& 0xfff).setWidth 64 <<< 44).toNat = msiAddr.toNat / 2 ^ 44 * 2 ^ 44 := by
    rw [BitVec.toNat_shiftLeft_of_lt _ (by rw [htop]; omega), htop]
  have hbottom' : (lo.setWidth 64 <<< 12).toNat = msiAddr.toNat / 2 ^ 12 % 2 ^ 32 * 2 ^ 12 := by
    rw [BitVec.toNat_shiftLeft_of_lt _ (by rw [hbottom]; omega), hbottom]
  refine ⟨BitVec.eq_of_toNat_eq ?_, BitVec.eq_of_toNat_eq ?_⟩
  · rw [BitVec.toNat_or_of_dvd _ _ (k := 44) (by rw [htop']; exact Nat.dvd_mul_left _ _)
      (by rw [hbottom']; omega), htop', hbottom', hnot, BitVec.toNat_and_allOnes_shiftLeft]
    omega
  · rw [hupper, BitVec.toNat_and_allOnes_shiftLeft, BitVec.toNat_and_allOnes_shiftLeft, hhi]
    omega

/-! ### What each writer does -/

theorem setTargetMsi_eq (int hart guest eiid : BitVec 32) (s : Aplic) :
    setTargetMsi int hart guest eiid s =
      if 0 < int.toNat ∧ int.toNat < 1024 ∧ hart.toNat < 16384 ∧ guest.toNat < 32 ∧
          eiid.toNat < 1024 then
        .ok () (s.store (0x3000 + 4 * int.toNat) (hart <<< 18 ||| guest <<< 12 ||| eiid))
      else .error () s := by
  simp only [setTargetMsi, Rust.assert_bind, ← ite_and, Bool.and_eq_true, decide_eq_true_eq,
    gt_iff_lt, BitVec.lt_def]
  -- `target[int - 1]` is at `0x3004 + 4 * (int - 1)`
  exact ite_writeReg (by simp [and_assoc])
    (fun h => ⟨by simp only [Field.len]; omega, by rw [Field.slot_target]; omega⟩) _ _

theorem sourcecfgDelegate_eq (int child : BitVec 32) (s : Aplic) :
    sourcecfgDelegate int child s =
      if 0 < int.toNat ∧ int.toNat < 1024 ∧ child.toNat < 1024 then
        .ok () (s.store (4 * int.toNat) ((1 : BitVec 32) <<< 10 ||| child))
      else .error () s := by
  simp only [sourcecfgDelegate, Rust.assert_bind, ← ite_and, decide_eq_true_eq, gt_iff_lt,
    BitVec.lt_def]
  -- `sourcecfg[int - 1]` is at `4 + 4 * (int - 1)`
  exact ite_writeReg (by simp [and_assoc])
    (fun h => ⟨by simp only [Field.len]; omega, by rw [Field.slot_sourcecfg]; omega⟩) _ _

theorem setSourcecfg_eq (int : BitVec 32) (mode : SourceModes) (s : Aplic) :
    setSourcecfg int mode s =
      if 0 < int.toNat ∧ int.toNat < 1024 then
        .ok () (s.store (4 * int.toNat) mode.discriminant)
      else .error () s := by
  simp only [setSourcecfg, Rust.assert_bind, gt_iff_lt, BitVec.lt_def]
  exact ite_writeReg (by simp)
    (fun h => ⟨by simp only [Field.len]; omega, by rw [Field.slot_sourcecfg]; omega⟩) _ _

theorem mask_eq (int : BitVec 32) (s : Aplic) :
    mask int s = if 0 < int.toNat ∧ int.toNat < 1024 then .ok () (s.store 0x1FDC int)
      else .error () s := by
  simp only [mask, Rust.assert_bind, gt_iff_lt, BitVec.lt_def]
  exact ite_writeReg (by simp) (fun _ => ⟨by decide, by decide⟩) _ _

theorem unmask_eq (int : BitVec 32) (s : Aplic) :
    unmask int s = if 0 < int.toNat ∧ int.toNat < 1024 then .ok () (s.store 0x1EDC int)
      else .error () s := by
  simp only [unmask, Rust.assert_bind, gt_iff_lt, BitVec.lt_def]
  exact ite_writeReg (by simp) (fun _ => ⟨by decide, by decide⟩) _ _

theorem setDomaincfg_eq (ie : InterruptEnable) (dm : DeliveryMode) (be : Endian) (s : Aplic) :
    setDomaincfg ie dm be s =
      .ok () (s.store 0 (ie.discriminant ||| dm.discriminant ||| be.discriminant)) :=
  writeReg_of_lt (by decide) _ s

/-- On a target whose `usize` has more than 44 bits both shifts are in range,
so the pair is written in both profiles. -/
theorem setMsiaddrcfg_eq {lo hi : Field} (hlo : lo.len = 1) (hhi : hi.len = 1) (p : Profile)
    (msiAddr : Usize .rv64) (cfgh : BitVec 32) (s : Aplic) :
    setMsiaddrcfg lo hi p msiAddr cfgh s =
      .ok () ((s.store (lo.slot 0) ((msiAddr >>> 12).setWidth 32)).store (hi.slot 0)
        ((msiAddr >>> 44).setWidth 32 ||| (cfgh &&& 0xfffff000))) := by
  simp only [setMsiaddrcfg, p.shr_of_lt msiAddr (by decide : 12 < 64),
    p.shr_of_lt msiAddr (by decide : 44 < 64), Rust.checked_some_bind]
  rw [Rust.bind_of_ok (writeReg_of_lt (by omega) _ s), Rust.checked_some_bind,
    writeReg_of_lt (by omega)]

/-- The APLIC configuration writers store only where the AIA layout assigns.
`set_target_msi`, `sourcecfg_delegate`, `set_sourcecfg`, `mask` and `unmask`
panic, leaving the block as it was, exactly when one of their asserts fails;
otherwise each stores one word: `target[int]` and `sourcecfg[int]` at their
byte offsets, with fields that read back as the arguments, and `clrienum` and
`setienum` with the source number. `set_domaincfg` always stores the
configuration word. On a 64-bit target, for every MSI address below `2 ^ 56`,
`set_mmsiaddrcfg` and `set_smsiaddrcfg` store exactly their register pair,
which holds the address's bits 55:12 and the upper 20 bits of the
configuration. -/
theorem aplic_writers_store_assigned :
    (∀ (int hart guest eiid : BitVec 32) (s : Aplic),
      (¬ (0 < int.toNat ∧ int.toNat < 1024 ∧ hart.toNat < 16384 ∧ guest.toNat < 32 ∧
          eiid.toNat < 1024) →
        setTargetMsi int hart guest eiid s = .error () s) ∧
      (0 < int.toNat ∧ int.toNat < 1024 ∧ hart.toNat < 16384 ∧ guest.toNat < 32 ∧
          eiid.toNat < 1024 →
        ∃ v, setTargetMsi int hart guest eiid s = .ok () (s.store (0x3000 + 4 * int.toNat) v) ∧
          v >>> 18 = hart ∧ (v >>> 12) &&& 0x3f = guest ∧ v &&& 0x7ff = eiid)) ∧
    (∀ (int child : BitVec 32) (s : Aplic),
      (¬ (0 < int.toNat ∧ int.toNat < 1024 ∧ child.toNat < 1024) →
        sourcecfgDelegate int child s = .error () s) ∧
      (0 < int.toNat ∧ int.toNat < 1024 ∧ child.toNat < 1024 →
        ∃ v, sourcecfgDelegate int child s = .ok () (s.store (4 * int.toNat) v) ∧
          v.getLsbD 10 = true ∧ v &&& 0x3ff = child)) ∧
    (∀ (int : BitVec 32) (mode : SourceModes) (s : Aplic),
      (¬ (0 < int.toNat ∧ int.toNat < 1024) → setSourcecfg int mode s = .error () s) ∧
      (0 < int.toNat ∧ int.toNat < 1024 →
        setSourcecfg int mode s = .ok () (s.store (4 * int.toNat) mode.discriminant))) ∧
    (∀ (int : BitVec 32) (s : Aplic),
      (¬ (0 < int.toNat ∧ int.toNat < 1024) →
        mask int s = .error () s ∧ unmask int s = .error () s) ∧
      (0 < int.toNat ∧ int.toNat < 1024 →
        mask int s = .ok () (s.store 0x1FDC int) ∧
          unmask int s = .ok () (s.store 0x1EDC int))) ∧
    (∀ (ie : InterruptEnable) (dm : DeliveryMode) (be : Endian) (s : Aplic),
      ∃ v, setDomaincfg ie dm be s = .ok () (s.store 0 v) ∧
        v.getLsbD 8 = decide (ie = .enabled) ∧ v.getLsbD 2 = decide (dm = .msiDeliveryMode) ∧
        v.getLsbD 0 = decide (be = .bigEndian)) ∧
    (∀ (p : Profile) (msiAddr : Usize .rv64) (cfgh : BitVec 32) (s : Aplic),
      msiAddr.toNat < 2 ^ 56 →
      (∃ lo hi, setMmsiaddrcfg p msiAddr cfgh s = .ok () ((s.store 0x1BC0 lo).store 0x1BC4 hi) ∧
        (hi &&& 0xfff).setWidth 64 <<< 44 ||| lo.setWidth 64 <<< 12 =
          msiAddr &&& ~~~(0xfff : Usize .rv64) ∧
        hi &&& 0xfffff000 = cfgh &&& 0xfffff000) ∧
      (∃ lo hi, setSmsiaddrcfg p msiAddr cfgh s = .ok () ((s.store 0x1BC8 lo).store 0x1BCC hi) ∧
        (hi &&& 0xfff).setWidth 64 <<< 44 ||| lo.setWidth 64 <<< 12 =
          msiAddr &&& ~~~(0xfff : Usize .rv64) ∧
        hi &&& 0xfffff000 = cfgh &&& 0xfffff000)) := by
  refine ⟨fun int hart guest eiid s => ?_, fun int child s => ?_, fun int mode s => ?_,
    fun int s => ?_, fun ie dm be s => ?_, fun p msiAddr cfgh s h => ?_⟩
  · rw [setTargetMsi_eq]
    exact ⟨fun hno => if_neg hno,
      fun hok => ⟨_, if_pos hok, target_fields hok.2.2.1 hok.2.2.2.1 hok.2.2.2.2⟩⟩
  · rw [sourcecfgDelegate_eq]
    refine ⟨fun hno => if_neg hno, fun hok => ?_⟩
    obtain ⟨hd, hchild, -⟩ := sourcecfg_fields hok.2.2
    exact ⟨_, if_pos hok, hd, hchild⟩
  · rw [setSourcecfg_eq]
    exact ⟨fun hno => if_neg hno, fun hok => if_pos hok⟩
  · rw [mask_eq, unmask_eq]
    exact ⟨fun hno => ⟨if_neg hno, if_neg hno⟩, fun hok => ⟨if_pos hok, if_pos hok⟩⟩
  · exact ⟨_, setDomaincfg_eq ie dm be s, domaincfg_fields ie dm be⟩
  · -- both writers are the shared code on their own pair of scalar registers
    obtain ⟨hm, hmh, hs, hsh⟩ := Field.slot_msiaddrcfg
    have hfields := msiaddrcfg_fields h cfgh
    refine ⟨⟨_, _, ?_, hfields⟩, ⟨_, _, ?_, hfields⟩⟩
    · rw [setMmsiaddrcfg, setMsiaddrcfg_eq rfl rfl, hm, hmh]
      rfl
    · rw [setSmsiaddrcfg, setMsiaddrcfg_eq rfl rfl, hs, hsh]
      rfl

theorem aplic_writers_store_assigned_reset :
    (∃ v, setTargetMsi 5 1 0 5 ⟨fun _ => 0⟩ =
        .ok () ((⟨fun _ => 0⟩ : Aplic).store (0x3000 + 4 * (5 : BitVec 32).toNat) v) ∧
      v >>> 18 = 1 ∧ (v >>> 12) &&& 0x3f = 0 ∧ v &&& 0x7ff = 5) ∧
    (∃ v, sourcecfgDelegate 5 2 ⟨fun _ => 0⟩ =
        .ok () ((⟨fun _ => 0⟩ : Aplic).store (4 * (5 : BitVec 32).toNat) v) ∧
      v.getLsbD 10 = true ∧ v &&& 0x3ff = 2) ∧
    (∃ lo hi, setMmsiaddrcfg .debug (0x28000000 : Usize .rv64) 0 ⟨fun _ => 0⟩ =
        .ok () (((⟨fun _ => 0⟩ : Aplic).store 0x1BC0 lo).store 0x1BC4 hi) ∧
      (hi &&& 0xfff).setWidth 64 <<< 44 ||| lo.setWidth 64 <<< 12 =
        (0x28000000 : Usize .rv64) &&& ~~~(0xfff : Usize .rv64) ∧
      hi &&& 0xfffff000 = 0 &&& 0xfffff000) :=
  ⟨(aplic_writers_store_assigned.1 5 1 0 5 ⟨fun _ => 0⟩).2 (by decide),
    (aplic_writers_store_assigned.2.1 5 2 ⟨fun _ => 0⟩).2 (by decide),
    (aplic_writers_store_assigned.2.2.2.2.2 .debug 0x28000000 0 ⟨fun _ => 0⟩ (by decide)).1⟩

/-! ### A driver's calls

A driver configures the APLIC with calls of these writers, one after another.
Whatever the calls and their arguments, and whether or not one of them
panics, no word of the block changes but the registers some writer stores to:
the pending and enable arrays, `genmsi`, the paddings and everything past the
block stay as they were. -/

/-- One call of a writer, with its arguments. -/
inductive Call (x : Xlen) where
  | setDomaincfg (ie : InterruptEnable) (dm : DeliveryMode) (be : Endian)
  | setMmsiaddrcfg (msiAddr : Usize x) (mmsiaddrcfgh : BitVec 32)
  | setSmsiaddrcfg (msiAddr : Usize x) (smsiaddrcfgh : BitVec 32)
  | sourcecfgDelegate (int child : BitVec 32)
  | setSourcecfg (int : BitVec 32) (mode : SourceModes)
  | setTargetMsi (int hart guest eiid : BitVec 32)
  | mask (int : BitVec 32)
  | unmask (int : BitVec 32)

def Call.run (p : Profile) : Call x → EStateM Unit Aplic Unit
  | .setDomaincfg ie dm be => Aplic.setDomaincfg ie dm be
  | .setMmsiaddrcfg msiAddr cfgh => Aplic.setMmsiaddrcfg p msiAddr cfgh
  | .setSmsiaddrcfg msiAddr cfgh => Aplic.setSmsiaddrcfg p msiAddr cfgh
  | .sourcecfgDelegate int child => Aplic.sourcecfgDelegate int child
  | .setSourcecfg int mode => Aplic.setSourcecfg int mode
  | .setTargetMsi int hart guest eiid => Aplic.setTargetMsi int hart guest eiid
  | .mask int => Aplic.mask int
  | .unmask int => Aplic.unmask int

/-- The calls one after another; the first panic ends the run. -/
def runCalls (p : Profile) : List (Call x) → EStateM Unit Aplic Unit
  | [] => pure ()
  | c :: cs => c.run p >>= fun _ => runCalls p cs

/-- The registers some writer stores to. -/
def Field.written : Field → Bool
  | .domaincfg | .sourcecfg | .mmsiaddrcfg | .mmsiaddrcfgh | .smsiaddrcfg | .smsiaddrcfgh
  | .setienum | .clrienum | .target => true
  | _ => false

/-- `s'` has the words of `s` everywhere but at the registers some writer
stores to. -/
def KeepsUnwritten (s s' : Aplic) : Prop :=
  ∀ off, (∀ (f : Field) (i : Nat), f.written → i < f.len → f.slot i ≠ off) →
    s'.word off = s.word off

theorem keepsUnwritten_refl (s : Aplic) : KeepsUnwritten s s :=
  fun _ _ => rfl

theorem keepsUnwritten_trans (s t u : Aplic) (hst : KeepsUnwritten s t)
    (htu : KeepsUnwritten t u) : KeepsUnwritten s u :=
  fun off hoff => (htu off hoff).trans (hst off hoff)

theorem preserves_writeReg {f : Field} (hf : f.written) (i : Nat) (v : BitVec 32) :
    Rust.Preserves KeepsUnwritten (writeReg f i v) := by
  intro s off hoff
  by_cases hi : i < f.len
  · rw [writeReg_of_lt hi, Rust.after, word_store, if_neg (hoff f i hf hi).symm]
  · rw [writeReg, if_neg hi, Rust.after]

/-- The step lemma: no writer stores outside the written registers. Each
writer is checks and arithmetic, which store nothing, followed by stores to
written registers. -/
theorem Call.preserves (p : Profile) (c : Call x) :
    Rust.Preserves KeepsUnwritten (c.run p) := by
  have hassert := Rust.preserves_assert (R := KeepsUnwritten) keepsUnwritten_refl
  have hchecked := fun {α : Type} (r : Option α) =>
    Rust.preserves_checked (R := KeepsUnwritten) keepsUnwritten_refl r
  have hbind := fun {α β : Type} {m : EStateM Unit Aplic α} {k : α → EStateM Unit Aplic β} =>
    @Rust.Preserves.bind Aplic α β KeepsUnwritten keepsUnwritten_trans m k
  cases c <;> simp only [Call.run, Aplic.setDomaincfg, Aplic.setMmsiaddrcfg,
    Aplic.setSmsiaddrcfg, setMsiaddrcfg, Aplic.sourcecfgDelegate, Aplic.setSourcecfg,
    Aplic.setTargetMsi, Aplic.mask, Aplic.unmask]
  case setDomaincfg => exact preserves_writeReg (by rfl) _ _
  case setMmsiaddrcfg =>
    exact hbind (hchecked _) fun _ => hbind (preserves_writeReg (by rfl) _ _) fun _ =>
      hbind (hchecked _) fun _ => preserves_writeReg (by rfl) _ _
  case setSmsiaddrcfg =>
    exact hbind (hchecked _) fun _ => hbind (preserves_writeReg (by rfl) _ _) fun _ =>
      hbind (hchecked _) fun _ => preserves_writeReg (by rfl) _ _
  case sourcecfgDelegate =>
    exact hbind (hassert _) fun _ => hbind (hassert _) fun _ => preserves_writeReg (by rfl) _ _
  case setSourcecfg => exact hbind (hassert _) fun _ => preserves_writeReg (by rfl) _ _
  case setTargetMsi =>
    exact hbind (hassert _) fun _ => hbind (hassert _) fun _ => hbind (hassert _) fun _ =>
      hbind (hassert _) fun _ => preserves_writeReg (by rfl) _ _
  case mask => exact hbind (hassert _) fun _ => preserves_writeReg (by rfl) _ _
  case unmask => exact hbind (hassert _) fun _ => preserves_writeReg (by rfl) _ _

/-- The run lemma, by induction on the calls. -/
theorem runCalls_preserves (p : Profile) (cs : List (Call x)) :
    Rust.Preserves KeepsUnwritten (runCalls p cs) := by
  induction cs with
  | nil => exact Rust.preserves_pure keepsUnwritten_refl ()
  | cons c cs ih => exact Rust.Preserves.bind keepsUnwritten_trans (c.preserves p) fun _ => ih

/-- Every sequence of writer calls, on either target and in either build,
whether it returns or stops at a panic, leaves every word past the 16 KiB
block and every register no writer stores to (the pending and enable arrays,
`setipnum`, `clripnum`, the `setipnum_le`/`_be` pair, `genmsi` and the
paddings) as it was. -/
theorem calls_keep_unwritten (p : Profile) (cs : List (Call x)) (s : Aplic) :
    (∀ off, 0x4000 ≤ off → (Rust.after (runCalls p cs s)).word off = s.word off) ∧
    (∀ (g : Field) (j : Nat), g.written = false → j < g.len →
      (Rust.after (runCalls p cs s)).reg g j = s.reg g j) := by
  have hrun := runCalls_preserves p cs s
  refine ⟨fun off hoff => hrun off fun f i _ hi => ?_, fun g j hg hj => hrun _ fun f i hf hi => ?_⟩
  · -- every register ends inside the block
    have := Field.slot_add_le hi
    omega
  · -- a written register is another field than `g`, so its word is another word
    have hfg : f ≠ g := by
      rintro rfl
      rw [hf] at hg
      cases hg
    have := Field.slot_disjoint hi hj (.inl hfg)
    omega

theorem calls_keep_unwritten_setip :
    Field.setip.written = false ∧ 0 < Field.setip.len ∧
      (Rust.after (runCalls (x := .rv64) .debug [.setTargetMsi 1 0 0 1, .mask 1, .unmask 1]
        ⟨fun _ => 0⟩)).reg .setip 0 = (⟨fun _ => 0⟩ : Aplic).reg .setip 0 :=
  have hg : Field.setip.written = false := rfl
  have hj : 0 < Field.setip.len := by decide
  ⟨hg, hj, (calls_keep_unwritten .debug _ ⟨fun _ => 0⟩).2 .setip 0 hg hj⟩

end Aplic

end Riscv
