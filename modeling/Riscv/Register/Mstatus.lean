import Riscv.Register.Csr

/-!
The status registers `mstatus`, `sstatus` and `ustatus` (`register/mstatus.rs`,
`register/sstatus.rs`, `register/ustatus.rs`). Their getters read single bits
through `get_bit` and the two-bit fields `MPP`, `FS` and `XS` through
`get_bits`; their helpers set or clear one mask through `csrrs`/`csrrc`, and
`set_mpp` and `set_fs` rewrite a two-bit field with `set_bits`. A getter's
`unreachable!()` arm is `none`.
-/

namespace Riscv

/-- mstatus register -/
structure Mstatus (x : Xlen) where
  bits : Usize x

namespace Mstatus

inductive XS where
  | allOff
  | noneDirtyOrClean
  | noneDirtySomeClean
  | someDirty
  deriving DecidableEq, Repr

inductive FS where
  | off
  | initial
  | clean
  | dirty
  deriving DecidableEq, Repr

inductive MPP where
  | machine
  | supervisor
  | user
  deriving DecidableEq, Repr

inductive SPP where
  | supervisor
  | user
  deriving DecidableEq, Repr

def FS.toNat : FS → Nat
  | off => 0
  | initial => 1
  | clean => 2
  | dirty => 3

def MPP.toNat : MPP → Nat
  | machine => 3
  | supervisor => 1
  | user => 0

/-- The `match` of `fs()`, with its `unreachable!()` arm as `none`. -/
def FS.decode : Nat → Option FS
  | 0 => some off
  | 1 => some initial
  | 2 => some clean
  | 3 => some dirty
  | _ => none

/-- The `match` of `xs()`. -/
def XS.decode : Nat → Option XS
  | 0 => some allOff
  | 1 => some noneDirtyOrClean
  | 2 => some noneDirtySomeClean
  | 3 => some someDirty
  | _ => none

/-- The `match` of `mpp()`: the encoding `0b10` is `unreachable!()`. -/
def MPP.decode : Nat → Option MPP
  | 0 => some user
  | 1 => some supervisor
  | 3 => some machine
  | _ => none

@[simp] theorem FS.decode_toNat (fs : FS) : FS.decode fs.toNat = some fs := by
  cases fs <;> rfl

@[simp] theorem MPP.decode_toNat (mpp : MPP) : MPP.decode mpp.toNat = some mpp := by
  cases mpp <;> rfl

theorem FS.toNat_lt (fs : FS) : fs.toNat < 4 := by
  cases fs <;> decide

theorem MPP.toNat_lt (mpp : MPP) : mpp.toNat < 4 := by
  cases mpp <;> decide

variable {x : Xlen} (bf : BitField)

def uie (r : Mstatus x) : Bool := bf.getBit r.bits 0

def sie (r : Mstatus x) : Bool := bf.getBit r.bits 1

def mie (r : Mstatus x) : Bool := bf.getBit r.bits 3

def upie (r : Mstatus x) : Bool := bf.getBit r.bits 4

def spie (r : Mstatus x) : Bool := bf.getBit r.bits 5

def mpie (r : Mstatus x) : Bool := bf.getBit r.bits 7

/-- Supervisor Previous Privilege Mode -/
def spp (r : Mstatus x) : SPP :=
  match bf.getBit r.bits 8 with
  | true => .supervisor
  | false => .user

/-- Machine Previous Privilege Mode -/
def mpp (r : Mstatus x) : Option MPP :=
  MPP.decode (bf.getBits r.bits (.exclusive 11 13)).toNat

/-- Floating-point extension state -/
def fs (r : Mstatus x) : Option FS :=
  FS.decode (bf.getBits r.bits (.exclusive 13 15)).toNat

/-- Additional extension state -/
def xs (r : Mstatus x) : Option XS :=
  XS.decode (bf.getBits r.bits (.exclusive 15 17)).toNat

def mprv (r : Mstatus x) : Bool := bf.getBit r.bits 17

def sum (r : Mstatus x) : Bool := bf.getBit r.bits 18

def mxr (r : Mstatus x) : Bool := bf.getBit r.bits 19

def tvm (r : Mstatus x) : Bool := bf.getBit r.bits 20

def tw (r : Mstatus x) : Bool := bf.getBit r.bits 21

def tsr (r : Mstatus x) : Bool := bf.getBit r.bits 22

def sd (r : Mstatus x) : Bool := bf.getBit r.bits (x.bits - 1)

def read (value : Usize x) : Mstatus x := ⟨value⟩

def setUie : Usize x → Usize x := Csr.set (1 <<< 0)
def clearUie : Usize x → Usize x := Csr.clear (1 <<< 0)
def setSie : Usize x → Usize x := Csr.set (1 <<< 1)
def clearSie : Usize x → Usize x := Csr.clear (1 <<< 1)
def setMie : Usize x → Usize x := Csr.set (1 <<< 3)
def clearMie : Usize x → Usize x := Csr.clear (1 <<< 3)
def setUpie : Usize x → Usize x := Csr.set (1 <<< 4)
def setSpie : Usize x → Usize x := Csr.set (1 <<< 5)
def setMpie : Usize x → Usize x := Csr.set (1 <<< 7)
def setMprv : Usize x → Usize x := Csr.set (1 <<< 17)
def clearMprv : Usize x → Usize x := Csr.clear (1 <<< 17)
def setSum : Usize x → Usize x := Csr.set (1 <<< 18)
def clearSum : Usize x → Usize x := Csr.clear (1 <<< 18)
def setMxr : Usize x → Usize x := Csr.set (1 <<< 19)
def clearMxr : Usize x → Usize x := Csr.clear (1 <<< 19)
def setTvm : Usize x → Usize x := Csr.set (1 <<< 20)
def clearTvm : Usize x → Usize x := Csr.clear (1 <<< 20)
def setTw : Usize x → Usize x := Csr.set (1 <<< 21)
def clearTw : Usize x → Usize x := Csr.clear (1 <<< 21)
def setTsr : Usize x → Usize x := Csr.set (1 <<< 22)
def clearTsr : Usize x → Usize x := Csr.clear (1 <<< 22)

/-- Supervisor Previous Privilege Mode -/
def setSpp : SPP → Usize x → Usize x
  | .supervisor => Csr.set (1 <<< 8)
  | .user => Csr.clear (1 <<< 8)

/-- Machine Previous Privilege Mode: `value.set_bits(11..13, mpp as usize)`. -/
def setMpp (mpp : MPP) (value : Usize x) : Option (Usize x) :=
  bf.setBits value (.exclusive 11 13) (BitVec.ofNat x.bits mpp.toNat)

/-- Floating-point extension state: `value.set_bits(13..15, fs as usize)`. -/
def setFs (fs : FS) (value : Usize x) : Option (Usize x) :=
  bf.setBits value (.exclusive 13 15) (BitVec.ofNat x.bits fs.toNat)

variable {bf}

/-- `set_mpp` completes for every mode, `mpp()` then reports that mode, and
no bit outside `11..13` changes. -/
theorem setMpp_spec (hbf : bf.Lawful) (value : Usize x) (mpp : MPP) :
    ∃ new, setMpp bf mpp value = some new ∧ (read new).mpp bf = some mpp ∧
      ∀ i, i < 11 ∨ 13 ≤ i → new.getLsbD i = value.getLsbD i := by
  obtain ⟨new, hset, hget, hframe⟩ :=
    Csr.setBits_exclusive_of_lt hbf value (by decide : 11 < 13 ∧ 13 ≤ 32) mpp.toNat_lt
  refine ⟨new, hset, ?_, hframe⟩
  simp [Mstatus.mpp, read, hget]

/-- `set_fs` completes for every state, `fs()` then reports that state, and
no bit outside `13..15` changes. -/
theorem setFs_spec (hbf : bf.Lawful) (value : Usize x) (fs : FS) :
    ∃ new, setFs bf fs value = some new ∧ (read new).fs bf = some fs ∧
      ∀ i, i < 13 ∨ 15 ≤ i → new.getLsbD i = value.getLsbD i := by
  obtain ⟨new, hset, hget, hframe⟩ :=
    Csr.setBits_exclusive_of_lt hbf value (by decide : 13 < 15 ∧ 15 ≤ 32) fs.toNat_lt
  refine ⟨new, hset, ?_, hframe⟩
  simp [Mstatus.fs, read, hget]

/-- `clear_mie` leaves machine interrupts disabled. -/
theorem mie_clearMie (hbf : bf.Lawful) (value : Usize x) :
    (read (clearMie value)).mie bf = false := by
  have h3 : 3 < x.bits := x.lt_bits (by decide)
  rw [read, mie, hbf.getBit_eq _ 3 h3, clearMie, Csr.getLsbD_clear, Csr.getLsbD_one_shiftLeft]
  simp [h3]

/-- `set_mie` leaves machine interrupts enabled. -/
theorem mie_setMie (hbf : bf.Lawful) (value : Usize x) :
    (read (setMie value)).mie bf = true := by
  have h3 : 3 < x.bits := x.lt_bits (by decide)
  rw [read, mie, hbf.getBit_eq _ 3 h3, setMie, Csr.getLsbD_set, Csr.getLsbD_one_shiftLeft]
  simp [h3]

/-- `set_mie` and `clear_mie` write bit 3 and no other. -/
theorem getLsbD_setMie_of_ne (value : Usize x) {i : Nat} (hi : i ≠ 3) :
    (setMie value).getLsbD i = value.getLsbD i := by
  rw [setMie, Csr.getLsbD_set, Csr.getLsbD_one_shiftLeft]
  simp [Ne.symm hi]

theorem getLsbD_clearMie_of_ne (value : Usize x) {i : Nat} (hi : i ≠ 3) :
    (clearMie value).getLsbD i = value.getLsbD i := by
  rw [clearMie, Csr.getLsbD_clear, Csr.getLsbD_one_shiftLeft]
  simp [Ne.symm hi]

/-- `mie()` reads bit 3 only. -/
theorem mie_eq (hbf : bf.Lawful) (value : Usize x) :
    (read value).mie bf = value.getLsbD 3 := by
  have h3 : 3 < x.bits := x.lt_bits (by decide)
  simp [Mstatus.mie, read, hbf.getBit_eq _ 3 h3]

end Mstatus

/-- Supervisor Status Register -/
structure Sstatus (x : Xlen) where
  bits : Usize x

namespace Sstatus

open Mstatus (FS)

inductive SPP where
  | supervisor
  | user
  deriving DecidableEq, Repr

variable {x : Xlen} (bf : BitField)

def uie (r : Sstatus x) : Bool := bf.getBit r.bits 0

def sie (r : Sstatus x) : Bool := bf.getBit r.bits 1

def upie (r : Sstatus x) : Bool := bf.getBit r.bits 4

def spie (r : Sstatus x) : Bool := bf.getBit r.bits 5

/-- Supervisor Previous Privilege Mode -/
def spp (r : Sstatus x) : SPP :=
  match bf.getBit r.bits 8 with
  | true => .supervisor
  | false => .user

/-- The status of the floating-point unit -/
def fs (r : Sstatus x) : Option FS :=
  FS.decode (bf.getBits r.bits (.exclusive 13 15)).toNat

/-- The status of additional user-mode extensions and associated state, decoded
with the `FS` names. -/
def xs (r : Sstatus x) : Option FS :=
  FS.decode (bf.getBits r.bits (.exclusive 15 17)).toNat

def sum (r : Sstatus x) : Bool := bf.getBit r.bits 18

def mxr (r : Sstatus x) : Bool := bf.getBit r.bits 19

def sd (r : Sstatus x) : Bool := bf.getBit r.bits (x.bits - 1)

def read (value : Usize x) : Sstatus x := ⟨value⟩

def setUie : Usize x → Usize x := Csr.set (1 <<< 0)
def clearUie : Usize x → Usize x := Csr.clear (1 <<< 0)
def setSie : Usize x → Usize x := Csr.set (1 <<< 1)
def clearSie : Usize x → Usize x := Csr.clear (1 <<< 1)
def setUpie : Usize x → Usize x := Csr.set (1 <<< 4)
def setSpie : Usize x → Usize x := Csr.set (1 <<< 5)
def setSum : Usize x → Usize x := Csr.set (1 <<< 18)
def clearSum : Usize x → Usize x := Csr.clear (1 <<< 18)
def setMxr : Usize x → Usize x := Csr.set (1 <<< 19)
def clearMxr : Usize x → Usize x := Csr.clear (1 <<< 19)

/-- Supervisor Previous Privilege Mode -/
def setSpp : SPP → Usize x → Usize x
  | .supervisor => Csr.set (1 <<< 8)
  | .user => Csr.clear (1 <<< 8)

/-- The status of the floating-point unit: `value.set_bits(13..15, fs as usize)`. -/
def setFs (fs : FS) (value : Usize x) : Option (Usize x) :=
  bf.setBits value (.exclusive 13 15) (BitVec.ofNat x.bits fs.toNat)

variable {bf}

/-- `sstatus::set_fs` completes, `fs()` reports the state written, and no bit
outside `13..15` changes. -/
theorem setFs_spec (hbf : bf.Lawful) (value : Usize x) (fs : FS) :
    ∃ new, setFs bf fs value = some new ∧ (read new).fs bf = some fs ∧
      ∀ i, i < 13 ∨ 15 ≤ i → new.getLsbD i = value.getLsbD i := by
  obtain ⟨new, hset, hget, hframe⟩ :=
    Csr.setBits_exclusive_of_lt hbf value (by decide : 13 < 15 ∧ 15 ≤ 32) fs.toNat_lt
  refine ⟨new, hset, ?_, hframe⟩
  simp [Sstatus.fs, read, hget]

end Sstatus

/-- ustatus register -/
structure Ustatus (x : Xlen) where
  bits : Usize x

namespace Ustatus

variable {x : Xlen} (bf : BitField)

def uie (r : Ustatus x) : Bool := bf.getBit r.bits 0

def upie (r : Ustatus x) : Bool := bf.getBit r.bits 4

def read (value : Usize x) : Ustatus x := ⟨value⟩

def setUie : Usize x → Usize x := Csr.set (1 <<< 0)
def clearUie : Usize x → Usize x := Csr.clear (1 <<< 0)
def setUpie : Usize x → Usize x := Csr.set (1 <<< 4)

end Ustatus

/-! ### The single-bit fields and their helpers -/

/-- The single-bit fields of the status registers that have `set_clear_csr!`
or `set_csr!` helpers. -/
inductive Mstatus.Flag where
  | uie
  | sie
  | mie
  | upie
  | spie
  | mpie
  | mprv
  | sum
  | mxr
  | tvm
  | tw
  | tsr
  deriving DecidableEq, Repr

namespace Mstatus.Flag

/-- The field's bit, the same in `mstatus`, `sstatus` and `ustatus`. -/
def bit : Flag → Nat
  | uie => 0
  | sie => 1
  | mie => 3
  | upie => 4
  | spie => 5
  | mpie => 7
  | mprv => 17
  | sum => 18
  | mxr => 19
  | tvm => 20
  | tw => 21
  | tsr => 22

def ofBit : Nat → Option Flag
  | 0 => some uie
  | 1 => some sie
  | 3 => some mie
  | 4 => some upie
  | 5 => some spie
  | 7 => some mpie
  | 17 => some mprv
  | 18 => some sum
  | 19 => some mxr
  | 20 => some tvm
  | 21 => some tw
  | 22 => some tsr
  | _ => none

theorem ofBit_bit (f : Flag) : ofBit f.bit = some f := by
  cases f <;> rfl

theorem bit_injective : Function.Injective bit := by
  intro f g h
  apply Option.some_injective
  rw [← ofBit_bit f, h, ofBit_bit]

/-- No flag lies in `spp` (bit 8) or in `mpp`, `fs`, `xs` (bits 11 to 16). -/
theorem bit_mem (f : Flag) : f.bit < 8 ∨ (17 ≤ f.bit ∧ f.bit ≤ 22) := by
  cases f <;> decide

theorem bit_lt (x : Xlen) (f : Flag) : f.bit < x.bits := by
  have := x.le_bits
  rcases bit_mem f with h | h <;> omega

def layout (x : Xlen) : FlagLayout Flag x.bits := ⟨bit, bit_injective, bit_lt x⟩

end Mstatus.Flag

namespace Mstatus

/-- `upie`, `spie` and `mpie` have only a `set_*` helper. -/
def interface {x : Xlen} (bf : BitField) : FlagLayout.Interface Flag x.bits where
  get
    | .uie => some fun v => (read v).uie bf
    | .sie => some fun v => (read v).sie bf
    | .mie => some fun v => (read v).mie bf
    | .upie => some fun v => (read v).upie bf
    | .spie => some fun v => (read v).spie bf
    | .mpie => some fun v => (read v).mpie bf
    | .mprv => some fun v => (read v).mprv bf
    | .sum => some fun v => (read v).sum bf
    | .mxr => some fun v => (read v).mxr bf
    | .tvm => some fun v => (read v).tvm bf
    | .tw => some fun v => (read v).tw bf
    | .tsr => some fun v => (read v).tsr bf
  write
    | .uie, true => some setUie
    | .uie, false => some clearUie
    | .sie, true => some setSie
    | .sie, false => some clearSie
    | .mie, true => some setMie
    | .mie, false => some clearMie
    | .upie, true => some setUpie
    | .spie, true => some setSpie
    | .mpie, true => some setMpie
    | .mprv, true => some setMprv
    | .mprv, false => some clearMprv
    | .sum, true => some setSum
    | .sum, false => some clearSum
    | .mxr, true => some setMxr
    | .mxr, false => some clearMxr
    | .tvm, true => some setTvm
    | .tvm, false => some clearTvm
    | .tw, true => some setTw
    | .tw, false => some clearTw
    | .tsr, true => some setTsr
    | .tsr, false => some clearTsr
    | _, _ => none

end Mstatus

namespace Sstatus

def interface {x : Xlen} (bf : BitField) : FlagLayout.Interface Mstatus.Flag x.bits where
  get
    | .uie => some fun v => (read v).uie bf
    | .sie => some fun v => (read v).sie bf
    | .upie => some fun v => (read v).upie bf
    | .spie => some fun v => (read v).spie bf
    | .sum => some fun v => (read v).sum bf
    | .mxr => some fun v => (read v).mxr bf
    | _ => none
  write
    | .uie, true => some setUie
    | .uie, false => some clearUie
    | .sie, true => some setSie
    | .sie, false => some clearSie
    | .upie, true => some setUpie
    | .spie, true => some setSpie
    | .sum, true => some setSum
    | .sum, false => some clearSum
    | .mxr, true => some setMxr
    | .mxr, false => some clearMxr
    | _, _ => none

end Sstatus

namespace Ustatus

def interface {x : Xlen} (bf : BitField) : FlagLayout.Interface Mstatus.Flag x.bits where
  get
    | .uie => some fun v => (read v).uie bf
    | .upie => some fun v => (read v).upie bf
    | _ => none
  write
    | .uie, true => some setUie
    | .uie, false => some clearUie
    | .upie, true => some setUpie
    | _, _ => none

end Ustatus

section StatusHelpers

variable {x : Xlen} {bf : BitField}

-- As for the interrupt registers, one case per getter and per helper, each
-- closed by the lemma of `Csr` for its kind.
theorem Mstatus.interface_agrees (hbf : bf.Lawful) :
    (Mstatus.Flag.layout x).Agrees (Mstatus.interface bf) := by
  apply Csr.agrees_of_masks _ hbf
  · intro f g hg
    cases f <;> cases hg <;> rfl
  · intro f b h hh
    cases f <;> cases b <;> cases hh <;> rfl

theorem Sstatus.interface_agrees (hbf : bf.Lawful) :
    (Mstatus.Flag.layout x).Agrees (Sstatus.interface bf) := by
  apply Csr.agrees_of_masks _ hbf
  · intro f g hg
    cases f <;> cases hg <;> rfl
  · intro f b h hh
    cases f <;> cases b <;> cases hh <;> rfl

theorem Ustatus.interface_agrees (hbf : bf.Lawful) :
    (Mstatus.Flag.layout x).Agrees (Ustatus.interface bf) := by
  apply Csr.agrees_of_masks _ hbf
  · intro f g hg
    cases f <;> cases hg <;> rfl
  · intro f b h hh
    cases f <;> cases b <;> cases hh <;> rfl

/-- A getter that decodes the field `lo..hi` reads only `lo..hi`. -/
theorem readsOnly_decode {α : Type} (hbf : bf.Lawful) (decode : Nat → α) {lo hi : Nat}
    (hr : lo < hi ∧ hi ≤ x.bits) :
    BitVec.ReadsOnly (fun v : Usize x => decode (bf.getBits v (.exclusive lo hi)).toNat)
      (fun i => lo ≤ i ∧ i < hi) :=
  (hbf.readsOnly_getBits (r := .exclusive lo hi) hr).comp (fun v : Usize x => decode v.toNat)

theorem Mstatus.readsOnly_spp (hbf : bf.Lawful) :
    BitVec.ReadsOnly (fun v : Usize x => (read v).spp bf) (· = 8) := by
  intro a b hab
  have h8 : 8 < x.bits := x.lt_bits (by decide)
  simp only [read, spp, hbf.getBit_eq _ 8 h8, hab 8 rfl]

theorem Sstatus.readsOnly_spp (hbf : bf.Lawful) :
    BitVec.ReadsOnly (fun v : Usize x => (read v).spp bf) (· = 8) := by
  intro a b hab
  have h8 : 8 < x.bits := x.lt_bits (by decide)
  simp only [read, spp, hbf.getBit_eq _ 8 h8, hab 8 rfl]

/-- A single-bit helper of `mstatus` leaves `spp`, `mpp`, `fs`, `xs` and `sd`
as they were. -/
theorem Mstatus.helper_keeps_fields (hbf : bf.Lawful) {f : Mstatus.Flag} {b : Bool}
    {h : Usize x → Usize x} (hh : (Mstatus.interface bf).write f b = some h) (v : Usize x) :
    (read (h v)).spp bf = (read v).spp bf ∧ (read (h v)).mpp bf = (read v).mpp bf ∧
      (read (h v)).fs bf = (read v).fs bf ∧ (read (h v)).xs bf = (read v).xs bf ∧
      (read (h v)).sd bf = (read v).sd bf := by
  have hw := (Mstatus.interface_agrees hbf).2 f b h hh
  have hbit := f.bit_mem
  have hbits := x.le_bits
  refine ⟨?_, ?_, ?_, ?_, ?_⟩
  · exact hw.apply_readsOnly (r := fun v => (read v).spp bf)
      (readsOnly_spp hbf) (by change ¬ f.bit = 8; omega) v
  · exact hw.apply_readsOnly (r := fun v => (read v).mpp bf)
      (readsOnly_decode hbf MPP.decode (by omega)) (by change ¬ (11 ≤ f.bit ∧ f.bit < 13); omega) v
  · exact hw.apply_readsOnly (r := fun v => (read v).fs bf)
      (readsOnly_decode hbf FS.decode (by omega)) (by change ¬ (13 ≤ f.bit ∧ f.bit < 15); omega) v
  · exact hw.apply_readsOnly (r := fun v => (read v).xs bf)
      (readsOnly_decode hbf XS.decode (by omega)) (by change ¬ (15 ≤ f.bit ∧ f.bit < 17); omega) v
  · exact hw.apply_readsOnly (r := fun v => (read v).sd bf)
      (hbf.readsOnly_getBit (by omega : x.bits - 1 < x.bits)) (by change ¬ f.bit = x.bits - 1; omega) v

/-- A single-bit helper of `sstatus` leaves `spp`, `fs`, `xs` and `sd` as they were. -/
theorem Sstatus.helper_keeps_fields (hbf : bf.Lawful) {f : Mstatus.Flag} {b : Bool}
    {h : Usize x → Usize x} (hh : (Sstatus.interface bf).write f b = some h) (v : Usize x) :
    (read (h v)).spp bf = (read v).spp bf ∧ (read (h v)).fs bf = (read v).fs bf ∧
      (read (h v)).xs bf = (read v).xs bf ∧ (read (h v)).sd bf = (read v).sd bf := by
  have hw := (Sstatus.interface_agrees hbf).2 f b h hh
  have hbit := f.bit_mem
  have hbits := x.le_bits
  refine ⟨?_, ?_, ?_, ?_⟩
  · exact hw.apply_readsOnly (r := fun v => (read v).spp bf)
      (readsOnly_spp hbf) (by change ¬ f.bit = 8; omega) v
  · exact hw.apply_readsOnly (r := fun v => (read v).fs bf)
      (readsOnly_decode hbf Mstatus.FS.decode (by omega))
      (by change ¬ (13 ≤ f.bit ∧ f.bit < 15); omega) v
  · exact hw.apply_readsOnly (r := fun v => (read v).xs bf)
      (readsOnly_decode hbf Mstatus.FS.decode (by omega))
      (by change ¬ (15 ≤ f.bit ∧ f.bit < 17); omega) v
  · exact hw.apply_readsOnly (r := fun v => (read v).sd bf)
      (hbf.readsOnly_getBit (by omega : x.bits - 1 < x.bits)) (by change ¬ f.bit = x.bits - 1; omega) v

/-- Every single-bit helper of `mstatus`, `sstatus` and `ustatus` makes the
getter it names return the value written and leaves every other single-bit
getter of the register unchanged; in `mstatus` and `sstatus` it also leaves
the fields `spp`, `mpp`, `fs`, `xs` and `sd` as they were. -/
theorem status_helpers_frame (hbf : bf.Lawful) :
    (∀ I ∈ [Mstatus.interface (x := x) bf, Sstatus.interface bf, Ustatus.interface bf],
      ∀ (f f' : Mstatus.Flag) (b : Bool) h g, I.write f b = some h → I.get f' = some g →
        ∀ v, g (h v) = if f = f' then b else g v) ∧
    (∀ f b h, (Mstatus.interface bf).write f b = some h → ∀ v : Usize x,
      (Mstatus.read (h v)).spp bf = (Mstatus.read v).spp bf ∧
        (Mstatus.read (h v)).mpp bf = (Mstatus.read v).mpp bf ∧
        (Mstatus.read (h v)).fs bf = (Mstatus.read v).fs bf ∧
        (Mstatus.read (h v)).xs bf = (Mstatus.read v).xs bf ∧
        (Mstatus.read (h v)).sd bf = (Mstatus.read v).sd bf) ∧
    (∀ f b h, (Sstatus.interface bf).write f b = some h → ∀ v : Usize x,
      (Sstatus.read (h v)).spp bf = (Sstatus.read v).spp bf ∧
        (Sstatus.read (h v)).fs bf = (Sstatus.read v).fs bf ∧
        (Sstatus.read (h v)).xs bf = (Sstatus.read v).xs bf ∧
        (Sstatus.read (h v)).sd bf = (Sstatus.read v).sd bf) := by
  refine ⟨?_, fun f b h hh v => Mstatus.helper_keeps_fields hbf hh v,
    fun f b h hh v => Sstatus.helper_keeps_fields hbf hh v⟩
  intro I hI f f' b h g hh hg v
  have hagrees : (Mstatus.Flag.layout x).Agrees I := by
    simp only [List.mem_cons, List.not_mem_nil, or_false] at hI
    rcases hI with rfl | rfl | rfl
    · exact Mstatus.interface_agrees hbf
    · exact Sstatus.interface_agrees hbf
    · exact Ustatus.interface_agrees hbf
  exact hagrees.frame hh hg v

theorem status_helpers_frame_documented :
    BitField.documented.Lawful ∧
    (∀ I ∈ [Mstatus.interface (x := .rv64) .documented, Sstatus.interface .documented,
        Ustatus.interface .documented],
      ∀ (f f' : Mstatus.Flag) (b : Bool) h g, I.write f b = some h → I.get f' = some g →
        ∀ v, g (h v) = if f = f' then b else g v) ∧
    (∀ f b h, (Mstatus.interface .documented).write f b = some h → ∀ v : Usize .rv64,
      (Mstatus.read (h v)).spp .documented = (Mstatus.read v).spp .documented ∧
        (Mstatus.read (h v)).mpp .documented = (Mstatus.read v).mpp .documented ∧
        (Mstatus.read (h v)).fs .documented = (Mstatus.read v).fs .documented ∧
        (Mstatus.read (h v)).xs .documented = (Mstatus.read v).xs .documented ∧
        (Mstatus.read (h v)).sd .documented = (Mstatus.read v).sd .documented) ∧
    (∀ f b h, (Sstatus.interface .documented).write f b = some h → ∀ v : Usize .rv64,
      (Sstatus.read (h v)).spp .documented = (Sstatus.read v).spp .documented ∧
        (Sstatus.read (h v)).fs .documented = (Sstatus.read v).fs .documented ∧
        (Sstatus.read (h v)).xs .documented = (Sstatus.read v).xs .documented ∧
        (Sstatus.read (h v)).sd .documented = (Sstatus.read v).sd .documented) :=
  ⟨BitField.documented_lawful, status_helpers_frame BitField.documented_lawful⟩

end StatusHelpers

end Riscv
