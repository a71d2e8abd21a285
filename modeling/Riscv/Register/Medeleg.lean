import Riscv.Register.Csr

/-!
The machine exception delegation register `medeleg` (`register/medeleg.rs`).
Each delegable exception has a getter, a `get_bit` of the exception's code,
and a `set_clear_csr!` pair of helpers with the mask `1 << code`. The codes
follow the privileged specification's exception table: 10 and 14 are
reserved and have no getter and no helpers.
-/

namespace Riscv

/-- medeleg register -/
structure Medeleg (x : Xlen) where
  bits : Usize x

namespace Medeleg

variable {x : Xlen} (bf : BitField)

def instructionMisaligned (r : Medeleg x) : Bool := bf.getBit r.bits 0
def instructionFault (r : Medeleg x) : Bool := bf.getBit r.bits 1
def illegalInstruction (r : Medeleg x) : Bool := bf.getBit r.bits 2
def breakpoint (r : Medeleg x) : Bool := bf.getBit r.bits 3
def loadMisaligned (r : Medeleg x) : Bool := bf.getBit r.bits 4
def loadFault (r : Medeleg x) : Bool := bf.getBit r.bits 5
def storeMisaligned (r : Medeleg x) : Bool := bf.getBit r.bits 6
def storeFault (r : Medeleg x) : Bool := bf.getBit r.bits 7
def userEnvCall (r : Medeleg x) : Bool := bf.getBit r.bits 8
def supervisorEnvCall (r : Medeleg x) : Bool := bf.getBit r.bits 9
def machineEnvCall (r : Medeleg x) : Bool := bf.getBit r.bits 11
def instructionPageFault (r : Medeleg x) : Bool := bf.getBit r.bits 12
def loadPageFault (r : Medeleg x) : Bool := bf.getBit r.bits 13
def storePageFault (r : Medeleg x) : Bool := bf.getBit r.bits 15

def read (value : Usize x) : Medeleg x := ⟨value⟩

def setInstructionMisaligned : Usize x → Usize x := Csr.set (1 <<< 0)
def clearInstructionMisaligned : Usize x → Usize x := Csr.clear (1 <<< 0)
def setInstructionFault : Usize x → Usize x := Csr.set (1 <<< 1)
def clearInstructionFault : Usize x → Usize x := Csr.clear (1 <<< 1)
def setIllegalInstruction : Usize x → Usize x := Csr.set (1 <<< 2)
def clearIllegalInstruction : Usize x → Usize x := Csr.clear (1 <<< 2)
def setBreakpoint : Usize x → Usize x := Csr.set (1 <<< 3)
def clearBreakpoint : Usize x → Usize x := Csr.clear (1 <<< 3)
def setLoadMisaligned : Usize x → Usize x := Csr.set (1 <<< 4)
def clearLoadMisaligned : Usize x → Usize x := Csr.clear (1 <<< 4)
def setLoadFault : Usize x → Usize x := Csr.set (1 <<< 5)
def clearLoadFault : Usize x → Usize x := Csr.clear (1 <<< 5)
def setStoreMisaligned : Usize x → Usize x := Csr.set (1 <<< 6)
def clearStoreMisaligned : Usize x → Usize x := Csr.clear (1 <<< 6)
def setStoreFault : Usize x → Usize x := Csr.set (1 <<< 7)
def clearStoreFault : Usize x → Usize x := Csr.clear (1 <<< 7)
def setUserEnvCall : Usize x → Usize x := Csr.set (1 <<< 8)
def clearUserEnvCall : Usize x → Usize x := Csr.clear (1 <<< 8)
def setSupervisorEnvCall : Usize x → Usize x := Csr.set (1 <<< 9)
def clearSupervisorEnvCall : Usize x → Usize x := Csr.clear (1 <<< 9)
def setMachineEnvCall : Usize x → Usize x := Csr.set (1 <<< 11)
def clearMachineEnvCall : Usize x → Usize x := Csr.clear (1 <<< 11)
def setInstructionPageFault : Usize x → Usize x := Csr.set (1 <<< 12)
def clearInstructionPageFault : Usize x → Usize x := Csr.clear (1 <<< 12)
def setLoadPageFault : Usize x → Usize x := Csr.set (1 <<< 13)
def clearLoadPageFault : Usize x → Usize x := Csr.clear (1 <<< 13)
def setStorePageFault : Usize x → Usize x := Csr.set (1 <<< 15)
def clearStorePageFault : Usize x → Usize x := Csr.clear (1 <<< 15)

/-- The delegable exceptions, named as the getters name them. -/
inductive Flag where
  | instructionMisaligned
  | instructionFault
  | illegalInstruction
  | breakpoint
  | loadMisaligned
  | loadFault
  | storeMisaligned
  | storeFault
  | userEnvCall
  | supervisorEnvCall
  | machineEnvCall
  | instructionPageFault
  | loadPageFault
  | storePageFault
  deriving DecidableEq, Repr

/-- The exception code, which is the exception's bit in `medeleg`. -/
def Flag.code : Flag → Nat
  | .instructionMisaligned => 0
  | .instructionFault => 1
  | .illegalInstruction => 2
  | .breakpoint => 3
  | .loadMisaligned => 4
  | .loadFault => 5
  | .storeMisaligned => 6
  | .storeFault => 7
  | .userEnvCall => 8
  | .supervisorEnvCall => 9
  | .machineEnvCall => 11
  | .instructionPageFault => 12
  | .loadPageFault => 13
  | .storePageFault => 15

/-- The delegable exception with code `n`. -/
def Flag.ofCode : Nat → Option Flag
  | 0 => some .instructionMisaligned
  | 1 => some .instructionFault
  | 2 => some .illegalInstruction
  | 3 => some .breakpoint
  | 4 => some .loadMisaligned
  | 5 => some .loadFault
  | 6 => some .storeMisaligned
  | 7 => some .storeFault
  | 8 => some .userEnvCall
  | 9 => some .supervisorEnvCall
  | 11 => some .machineEnvCall
  | 12 => some .instructionPageFault
  | 13 => some .loadPageFault
  | 15 => some .storePageFault
  | _ => none

theorem Flag.ofCode_code (f : Flag) : Flag.ofCode f.code = some f := by
  cases f <;> rfl

theorem Flag.code_of_ofCode {n : Nat} {f : Flag} (h : Flag.ofCode n = some f) : f.code = n := by
  match n with
  | 0 | 1 | 2 | 3 | 4 | 5 | 6 | 7 | 8 | 9 | 11 | 12 | 13 | 15 => cases h; rfl
  | 10 | 14 => cases h
  | n + 16 => cases h

theorem Flag.code_injective : Function.Injective Flag.code := by
  intro f g h
  apply Option.some_injective
  rw [← Flag.ofCode_code f, h, Flag.ofCode_code]

theorem Flag.code_lt (f : Flag) : f.code < 16 := by
  cases f <;> decide

def Flag.layout (x : Xlen) : FlagLayout Flag x.bits :=
  ⟨Flag.code, Flag.code_injective, fun f => by have := f.code_lt; have := x.le_bits; omega⟩

def interface : FlagLayout.Interface Flag x.bits where
  get
    | .instructionMisaligned => some fun v => (read v).instructionMisaligned bf
    | .instructionFault => some fun v => (read v).instructionFault bf
    | .illegalInstruction => some fun v => (read v).illegalInstruction bf
    | .breakpoint => some fun v => (read v).breakpoint bf
    | .loadMisaligned => some fun v => (read v).loadMisaligned bf
    | .loadFault => some fun v => (read v).loadFault bf
    | .storeMisaligned => some fun v => (read v).storeMisaligned bf
    | .storeFault => some fun v => (read v).storeFault bf
    | .userEnvCall => some fun v => (read v).userEnvCall bf
    | .supervisorEnvCall => some fun v => (read v).supervisorEnvCall bf
    | .machineEnvCall => some fun v => (read v).machineEnvCall bf
    | .instructionPageFault => some fun v => (read v).instructionPageFault bf
    | .loadPageFault => some fun v => (read v).loadPageFault bf
    | .storePageFault => some fun v => (read v).storePageFault bf
  write
    | .instructionMisaligned, true => some setInstructionMisaligned
    | .instructionMisaligned, false => some clearInstructionMisaligned
    | .instructionFault, true => some setInstructionFault
    | .instructionFault, false => some clearInstructionFault
    | .illegalInstruction, true => some setIllegalInstruction
    | .illegalInstruction, false => some clearIllegalInstruction
    | .breakpoint, true => some setBreakpoint
    | .breakpoint, false => some clearBreakpoint
    | .loadMisaligned, true => some setLoadMisaligned
    | .loadMisaligned, false => some clearLoadMisaligned
    | .loadFault, true => some setLoadFault
    | .loadFault, false => some clearLoadFault
    | .storeMisaligned, true => some setStoreMisaligned
    | .storeMisaligned, false => some clearStoreMisaligned
    | .storeFault, true => some setStoreFault
    | .storeFault, false => some clearStoreFault
    | .userEnvCall, true => some setUserEnvCall
    | .userEnvCall, false => some clearUserEnvCall
    | .supervisorEnvCall, true => some setSupervisorEnvCall
    | .supervisorEnvCall, false => some clearSupervisorEnvCall
    | .machineEnvCall, true => some setMachineEnvCall
    | .machineEnvCall, false => some clearMachineEnvCall
    | .instructionPageFault, true => some setInstructionPageFault
    | .instructionPageFault, false => some clearInstructionPageFault
    | .loadPageFault, true => some setLoadPageFault
    | .loadPageFault, false => some clearLoadPageFault
    | .storePageFault, true => some setStorePageFault
    | .storePageFault, false => some clearStorePageFault

variable {bf}

theorem interface_agrees (hbf : bf.Lawful) : (Flag.layout x).Agrees (interface bf) := by
  apply Csr.agrees_of_masks _ hbf
  · intro f g hg
    cases f <;> cases hg <;> rfl
  · intro f b h hh
    cases f <;> cases b <;> cases hh <;> rfl

/-- Every `set_*`/`clear_*` helper of `medeleg` makes its own getter return
`true`/`false` and leaves the getter of every other exception unchanged. -/
theorem medeleg_helpers (hbf : bf.Lawful) :
    ∀ (f f' : Flag) (b : Bool) h g, (interface (x := x) bf).write f b = some h →
      (interface bf).get f' = some g → ∀ v, g (h v) = if f = f' then b else g v := by
  intro f f' b h g hh hg v
  exact (interface_agrees hbf).frame hh hg v

theorem medeleg_helpers_documented :
    BitField.documented.Lawful ∧
    ∀ (f f' : Flag) (b : Bool) h g, (interface (x := .rv64) .documented).write f b = some h →
      (interface .documented).get f' = some g → ∀ v, g (h v) = if f = f' then b else g v :=
  ⟨BitField.documented_lawful, medeleg_helpers BitField.documented_lawful⟩

end Medeleg

end Riscv
