import Riscv.Register.Csr

/-!
The interrupt-flag registers `mie`, `mip`, `mideleg`, `sie` and `uie`
(`register/mie.rs`, `mip.rs`, `mideleg.rs`, `sie.rs`, `uie.rs`). Each has one
getter per interrupt source, a `get_bit` of the source's bit, and a
`set_clear_csr!` pair of helpers with the mask `1 << bit`; `mip` has getters
for the machine-level sources but no helpers for them, and `mideleg`, `sie`
and `uie` know only some of the sources.

Every register places a source at the same bit, the interrupt's cause number.
`Irq.layout` is that placement, and `Interface` is a register's getters and
helpers indexed by source, `none` where the register has none; each
register's interface agrees with the layout, so by `FlagLayout.Agrees.frame`
a helper of source `i` changes the getter of `i` and no other getter of the
register.
-/

namespace Riscv

/-- The interrupt sources, named as the getters name them. -/
inductive Irq where
  | usoft
  | ssoft
  | msoft
  | utimer
  | stimer
  | mtimer
  | uext
  | sext
  | mext
  deriving DecidableEq, Repr

namespace Irq

/-- The source's bit in every interrupt-flag register. -/
def bit : Irq → Nat
  | usoft => 0
  | ssoft => 1
  | msoft => 3
  | utimer => 4
  | stimer => 5
  | mtimer => 7
  | uext => 8
  | sext => 9
  | mext => 11

/-- The source whose bit is `n`. -/
def ofBit : Nat → Option Irq
  | 0 => some usoft
  | 1 => some ssoft
  | 3 => some msoft
  | 4 => some utimer
  | 5 => some stimer
  | 7 => some mtimer
  | 8 => some uext
  | 9 => some sext
  | 11 => some mext
  | _ => none

theorem ofBit_bit (i : Irq) : ofBit i.bit = some i := by
  cases i <;> rfl

theorem bit_injective : Function.Injective bit := by
  intro i j h
  apply Option.some_injective
  rw [← ofBit_bit i, h, ofBit_bit]

theorem bit_lt (x : Xlen) (i : Irq) : i.bit < x.bits :=
  lt_of_lt_of_le (by cases i <;> decide) x.le_bits

def layout (x : Xlen) : FlagLayout Irq x.bits := ⟨bit, bit_injective, bit_lt x⟩

end Irq

/-- mie register -/
structure Mie (x : Xlen) where
  bits : Usize x

namespace Mie

variable {x : Xlen} (bf : BitField)

def usoft (r : Mie x) : Bool := bf.getBit r.bits 0

def ssoft (r : Mie x) : Bool := bf.getBit r.bits 1

def msoft (r : Mie x) : Bool := bf.getBit r.bits 3

def utimer (r : Mie x) : Bool := bf.getBit r.bits 4

def stimer (r : Mie x) : Bool := bf.getBit r.bits 5

def mtimer (r : Mie x) : Bool := bf.getBit r.bits 7

def uext (r : Mie x) : Bool := bf.getBit r.bits 8

def sext (r : Mie x) : Bool := bf.getBit r.bits 9

def mext (r : Mie x) : Bool := bf.getBit r.bits 11

def read (value : Usize x) : Mie x := ⟨value⟩

def setUsoft : Usize x → Usize x := Csr.set (1 <<< 0)
def clearUsoft : Usize x → Usize x := Csr.clear (1 <<< 0)
def setSsoft : Usize x → Usize x := Csr.set (1 <<< 1)
def clearSsoft : Usize x → Usize x := Csr.clear (1 <<< 1)
def setMsoft : Usize x → Usize x := Csr.set (1 <<< 3)
def clearMsoft : Usize x → Usize x := Csr.clear (1 <<< 3)
def setUtimer : Usize x → Usize x := Csr.set (1 <<< 4)
def clearUtimer : Usize x → Usize x := Csr.clear (1 <<< 4)
def setStimer : Usize x → Usize x := Csr.set (1 <<< 5)
def clearStimer : Usize x → Usize x := Csr.clear (1 <<< 5)
def setMtimer : Usize x → Usize x := Csr.set (1 <<< 7)
def clearMtimer : Usize x → Usize x := Csr.clear (1 <<< 7)
def setUext : Usize x → Usize x := Csr.set (1 <<< 8)
def clearUext : Usize x → Usize x := Csr.clear (1 <<< 8)
def setSext : Usize x → Usize x := Csr.set (1 <<< 9)
def clearSext : Usize x → Usize x := Csr.clear (1 <<< 9)
def setMext : Usize x → Usize x := Csr.set (1 <<< 11)
def clearMext : Usize x → Usize x := Csr.clear (1 <<< 11)

def interface : FlagLayout.Interface Irq x.bits where
  get
    | .usoft => some fun v => (read v).usoft bf
    | .ssoft => some fun v => (read v).ssoft bf
    | .msoft => some fun v => (read v).msoft bf
    | .utimer => some fun v => (read v).utimer bf
    | .stimer => some fun v => (read v).stimer bf
    | .mtimer => some fun v => (read v).mtimer bf
    | .uext => some fun v => (read v).uext bf
    | .sext => some fun v => (read v).sext bf
    | .mext => some fun v => (read v).mext bf
  write
    | .usoft, true => some setUsoft
    | .usoft, false => some clearUsoft
    | .ssoft, true => some setSsoft
    | .ssoft, false => some clearSsoft
    | .msoft, true => some setMsoft
    | .msoft, false => some clearMsoft
    | .utimer, true => some setUtimer
    | .utimer, false => some clearUtimer
    | .stimer, true => some setStimer
    | .stimer, false => some clearStimer
    | .mtimer, true => some setMtimer
    | .mtimer, false => some clearMtimer
    | .uext, true => some setUext
    | .uext, false => some clearUext
    | .sext, true => some setSext
    | .sext, false => some clearSext
    | .mext, true => some setMext
    | .mext, false => some clearMext

end Mie

/-- mip register -/
structure Mip (x : Xlen) where
  bits : Usize x

namespace Mip

variable {x : Xlen} (bf : BitField)

def usoft (r : Mip x) : Bool := bf.getBit r.bits 0

def ssoft (r : Mip x) : Bool := bf.getBit r.bits 1

def msoft (r : Mip x) : Bool := bf.getBit r.bits 3

def utimer (r : Mip x) : Bool := bf.getBit r.bits 4

def stimer (r : Mip x) : Bool := bf.getBit r.bits 5

def mtimer (r : Mip x) : Bool := bf.getBit r.bits 7

def uext (r : Mip x) : Bool := bf.getBit r.bits 8

def sext (r : Mip x) : Bool := bf.getBit r.bits 9

def mext (r : Mip x) : Bool := bf.getBit r.bits 11

def read (value : Usize x) : Mip x := ⟨value⟩

def setUsoft : Usize x → Usize x := Csr.set (1 <<< 0)
def clearUsoft : Usize x → Usize x := Csr.clear (1 <<< 0)
def setSsoft : Usize x → Usize x := Csr.set (1 <<< 1)
def clearSsoft : Usize x → Usize x := Csr.clear (1 <<< 1)
def setUtimer : Usize x → Usize x := Csr.set (1 <<< 4)
def clearUtimer : Usize x → Usize x := Csr.clear (1 <<< 4)
def setStimer : Usize x → Usize x := Csr.set (1 <<< 5)
def clearStimer : Usize x → Usize x := Csr.clear (1 <<< 5)
def setUext : Usize x → Usize x := Csr.set (1 <<< 8)
def clearUext : Usize x → Usize x := Csr.clear (1 <<< 8)
def setSext : Usize x → Usize x := Csr.set (1 <<< 9)
def clearSext : Usize x → Usize x := Csr.clear (1 <<< 9)

/-- The machine-level pending bits have getters and no helpers. -/
def interface : FlagLayout.Interface Irq x.bits where
  get
    | .usoft => some fun v => (read v).usoft bf
    | .ssoft => some fun v => (read v).ssoft bf
    | .msoft => some fun v => (read v).msoft bf
    | .utimer => some fun v => (read v).utimer bf
    | .stimer => some fun v => (read v).stimer bf
    | .mtimer => some fun v => (read v).mtimer bf
    | .uext => some fun v => (read v).uext bf
    | .sext => some fun v => (read v).sext bf
    | .mext => some fun v => (read v).mext bf
  write
    | .usoft, true => some setUsoft
    | .usoft, false => some clearUsoft
    | .ssoft, true => some setSsoft
    | .ssoft, false => some clearSsoft
    | .utimer, true => some setUtimer
    | .utimer, false => some clearUtimer
    | .stimer, true => some setStimer
    | .stimer, false => some clearStimer
    | .uext, true => some setUext
    | .uext, false => some clearUext
    | .sext, true => some setSext
    | .sext, false => some clearSext
    | _, _ => none

end Mip

/-- mideleg register -/
structure Mideleg (x : Xlen) where
  bits : Usize x

namespace Mideleg

variable {x : Xlen} (bf : BitField)

def usoft (r : Mideleg x) : Bool := bf.getBit r.bits 0

def ssoft (r : Mideleg x) : Bool := bf.getBit r.bits 1

def utimer (r : Mideleg x) : Bool := bf.getBit r.bits 4

def stimer (r : Mideleg x) : Bool := bf.getBit r.bits 5

def uext (r : Mideleg x) : Bool := bf.getBit r.bits 8

def sext (r : Mideleg x) : Bool := bf.getBit r.bits 9

def read (value : Usize x) : Mideleg x := ⟨value⟩

def setUsoft : Usize x → Usize x := Csr.set (1 <<< 0)
def clearUsoft : Usize x → Usize x := Csr.clear (1 <<< 0)
def setSsoft : Usize x → Usize x := Csr.set (1 <<< 1)
def clearSsoft : Usize x → Usize x := Csr.clear (1 <<< 1)
def setUtimer : Usize x → Usize x := Csr.set (1 <<< 4)
def clearUtimer : Usize x → Usize x := Csr.clear (1 <<< 4)
def setStimer : Usize x → Usize x := Csr.set (1 <<< 5)
def clearStimer : Usize x → Usize x := Csr.clear (1 <<< 5)
def setUext : Usize x → Usize x := Csr.set (1 <<< 8)
def clearUext : Usize x → Usize x := Csr.clear (1 <<< 8)
def setSext : Usize x → Usize x := Csr.set (1 <<< 9)
def clearSext : Usize x → Usize x := Csr.clear (1 <<< 9)

def interface : FlagLayout.Interface Irq x.bits where
  get
    | .usoft => some fun v => (read v).usoft bf
    | .ssoft => some fun v => (read v).ssoft bf
    | .utimer => some fun v => (read v).utimer bf
    | .stimer => some fun v => (read v).stimer bf
    | .uext => some fun v => (read v).uext bf
    | .sext => some fun v => (read v).sext bf
    | _ => none
  write
    | .usoft, true => some setUsoft
    | .usoft, false => some clearUsoft
    | .ssoft, true => some setSsoft
    | .ssoft, false => some clearSsoft
    | .utimer, true => some setUtimer
    | .utimer, false => some clearUtimer
    | .stimer, true => some setStimer
    | .stimer, false => some clearStimer
    | .uext, true => some setUext
    | .uext, false => some clearUext
    | .sext, true => some setSext
    | .sext, false => some clearSext
    | _, _ => none

end Mideleg

/-- sie register -/
structure Sie (x : Xlen) where
  bits : Usize x

namespace Sie

variable {x : Xlen} (bf : BitField)

def usoft (r : Sie x) : Bool := bf.getBit r.bits 0

def ssoft (r : Sie x) : Bool := bf.getBit r.bits 1

def utimer (r : Sie x) : Bool := bf.getBit r.bits 4

def stimer (r : Sie x) : Bool := bf.getBit r.bits 5

def uext (r : Sie x) : Bool := bf.getBit r.bits 8

def sext (r : Sie x) : Bool := bf.getBit r.bits 9

def read (value : Usize x) : Sie x := ⟨value⟩

def setUsoft : Usize x → Usize x := Csr.set (1 <<< 0)
def clearUsoft : Usize x → Usize x := Csr.clear (1 <<< 0)
def setSsoft : Usize x → Usize x := Csr.set (1 <<< 1)
def clearSsoft : Usize x → Usize x := Csr.clear (1 <<< 1)
def setUtimer : Usize x → Usize x := Csr.set (1 <<< 4)
def clearUtimer : Usize x → Usize x := Csr.clear (1 <<< 4)
def setStimer : Usize x → Usize x := Csr.set (1 <<< 5)
def clearStimer : Usize x → Usize x := Csr.clear (1 <<< 5)
def setUext : Usize x → Usize x := Csr.set (1 <<< 8)
def clearUext : Usize x → Usize x := Csr.clear (1 <<< 8)
def setSext : Usize x → Usize x := Csr.set (1 <<< 9)
def clearSext : Usize x → Usize x := Csr.clear (1 <<< 9)

def interface : FlagLayout.Interface Irq x.bits where
  get
    | .usoft => some fun v => (read v).usoft bf
    | .ssoft => some fun v => (read v).ssoft bf
    | .utimer => some fun v => (read v).utimer bf
    | .stimer => some fun v => (read v).stimer bf
    | .uext => some fun v => (read v).uext bf
    | .sext => some fun v => (read v).sext bf
    | _ => none
  write
    | .usoft, true => some setUsoft
    | .usoft, false => some clearUsoft
    | .ssoft, true => some setSsoft
    | .ssoft, false => some clearSsoft
    | .utimer, true => some setUtimer
    | .utimer, false => some clearUtimer
    | .stimer, true => some setStimer
    | .stimer, false => some clearStimer
    | .uext, true => some setUext
    | .uext, false => some clearUext
    | .sext, true => some setSext
    | .sext, false => some clearSext
    | _, _ => none

end Sie

/-- uie register -/
structure Uie (x : Xlen) where
  bits : Usize x

namespace Uie

variable {x : Xlen} (bf : BitField)

def usoft (r : Uie x) : Bool := bf.getBit r.bits 0

def utimer (r : Uie x) : Bool := bf.getBit r.bits 4

def uext (r : Uie x) : Bool := bf.getBit r.bits 8

def read (value : Usize x) : Uie x := ⟨value⟩

def setUsoft : Usize x → Usize x := Csr.set (1 <<< 0)
def clearUsoft : Usize x → Usize x := Csr.clear (1 <<< 0)
def setUtimer : Usize x → Usize x := Csr.set (1 <<< 4)
def clearUtimer : Usize x → Usize x := Csr.clear (1 <<< 4)
def setUext : Usize x → Usize x := Csr.set (1 <<< 8)
def clearUext : Usize x → Usize x := Csr.clear (1 <<< 8)

def interface : FlagLayout.Interface Irq x.bits where
  get
    | .usoft => some fun v => (read v).usoft bf
    | .utimer => some fun v => (read v).utimer bf
    | .uext => some fun v => (read v).uext bf
    | _ => none
  write
    | .usoft, true => some setUsoft
    | .usoft, false => some clearUsoft
    | .utimer, true => some setUtimer
    | .utimer, false => some clearUtimer
    | .uext, true => some setUext
    | .uext, false => some clearUext
    | _, _ => none

end Uie

section Agreement

variable {x : Xlen} {bf : BitField}

-- Each agreement is one case per getter and one per helper; in every case the
-- literal bit is the source's `bit`, so the lemmas of `Csr` apply as they are.
theorem Mie.interface_agrees (hbf : bf.Lawful) :
    (Irq.layout x).Agrees (Mie.interface bf) := by
  apply Csr.agrees_of_masks _ hbf
  · intro i g hg
    cases i <;> cases hg <;> rfl
  · intro i b h hh
    cases i <;> cases b <;> cases hh <;> rfl

theorem Mip.interface_agrees (hbf : bf.Lawful) :
    (Irq.layout x).Agrees (Mip.interface bf) := by
  apply Csr.agrees_of_masks _ hbf
  · intro i g hg
    cases i <;> cases hg <;> rfl
  · intro i b h hh
    cases i <;> cases b <;> cases hh <;> rfl

theorem Mideleg.interface_agrees (hbf : bf.Lawful) :
    (Irq.layout x).Agrees (Mideleg.interface bf) := by
  apply Csr.agrees_of_masks _ hbf
  · intro i g hg
    cases i <;> cases hg <;> rfl
  · intro i b h hh
    cases i <;> cases b <;> cases hh <;> rfl

theorem Sie.interface_agrees (hbf : bf.Lawful) :
    (Irq.layout x).Agrees (Sie.interface bf) := by
  apply Csr.agrees_of_masks _ hbf
  · intro i g hg
    cases i <;> cases hg <;> rfl
  · intro i b h hh
    cases i <;> cases b <;> cases hh <;> rfl

theorem Uie.interface_agrees (hbf : bf.Lawful) :
    (Irq.layout x).Agrees (Uie.interface bf) := by
  apply Csr.agrees_of_masks _ hbf
  · intro i g hg
    cases i <;> cases hg <;> rfl
  · intro i b h hh
    cases i <;> cases b <;> cases hh <;> rfl

/-- The five interrupt registers' getters and helpers all agree with the
one layout of interrupt sources. -/
theorem interfaces_agree (hbf : bf.Lawful) :
    ∀ I ∈ [Mie.interface (x := x) bf, Mip.interface bf, Mideleg.interface bf, Sie.interface bf,
        Uie.interface bf], (Irq.layout x).Agrees I := by
  intro I hI
  simp only [List.mem_cons, List.not_mem_nil, or_false] at hI
  rcases hI with rfl | rfl | rfl | rfl | rfl
  · exact Mie.interface_agrees hbf
  · exact Mip.interface_agrees hbf
  · exact Mideleg.interface_agrees hbf
  · exact Sie.interface_agrees hbf
  · exact Uie.interface_agrees hbf

/-- For `mie`, `mip`, `mideleg`, `sie` and `uie`: a helper of source `i` that
writes `b` makes the register's getter of `i` return `b` and leaves its getter
of every other source unchanged. -/
theorem interrupt_helpers_frame (hbf : bf.Lawful) :
    ∀ I ∈ [Mie.interface (x := x) bf, Mip.interface bf, Mideleg.interface bf, Sie.interface bf,
        Uie.interface bf],
      ∀ (i j : Irq) (b : Bool) h g, I.write i b = some h → I.get j = some g →
        ∀ v, g (h v) = if i = j then b else g v := by
  intro I hI i j b h g hh hg v
  exact (interfaces_agree hbf I hI).frame hh hg v

theorem interrupt_helpers_frame_documented :
    BitField.documented.Lawful ∧
    ∀ I ∈ [Mie.interface (x := .rv64) .documented, Mip.interface .documented,
        Mideleg.interface .documented, Sie.interface .documented, Uie.interface .documented],
      ∀ (i j : Irq) (b : Bool) h g, I.write i b = some h → I.get j = some g →
        ∀ v, g (h v) = if i = j then b else g v :=
  ⟨BitField.documented_lawful, interrupt_helpers_frame BitField.documented_lawful⟩

/-- For `mie`, `mip`, `mideleg`, `sie` and `uie`, over any sequence of helper
calls a program makes on the register: when the register has every helper
called, the getter of each source then returns the value last written to that
source, or what it returned before if no call wrote it. -/
theorem interrupt_helpers_run (hbf : bf.Lawful) :
    ∀ I ∈ [Mie.interface (x := x) bf, Mip.interface bf, Mideleg.interface bf, Sie.interface bf,
        Uie.interface bf],
      ∀ (ws : List (Irq × Bool)) (j : Irq) g v v', I.runWrites ws v = some v' →
        I.get j = some g → g v' = (FlagLayout.lastWrite ws j).getD (g v) := by
  intro I hI ws j g v v' hrun hg
  exact (interfaces_agree hbf I hI).runWrites hg ws v v' hrun

theorem interrupt_helpers_run_documented :
    BitField.documented.Lawful ∧
    ∀ I ∈ [Mie.interface (x := .rv64) .documented, Mip.interface .documented,
        Mideleg.interface .documented, Sie.interface .documented, Uie.interface .documented],
      ∀ (ws : List (Irq × Bool)) (j : Irq) g v v', I.runWrites ws v = some v' →
        I.get j = some g → g v' = (FlagLayout.lastWrite ws j).getD (g v) :=
  ⟨BitField.documented_lawful, interrupt_helpers_run BitField.documented_lawful⟩

end Agreement

end Riscv
