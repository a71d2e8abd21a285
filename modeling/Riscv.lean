import Riscv.Library.BitVecField
import Riscv.Library.BitField
import Riscv.Library.RustInt
import Riscv.Library.SplitRead
import Riscv.Library.BitFlags
import Riscv.Register.Csr
import Riscv.Register.Mstatus
import Riscv.Register.Menvcfg
import Riscv.Register.Fcsr
import Riscv.Register.Pmp
import Riscv.Interrupt
import Riscv.Register.Satp
import Riscv.Register.Scause
import Riscv.Register.Misa
import Riscv.Register.Counter
import Riscv.Delay
import Riscv.Register.Ireg
import Riscv.Register.Mie
import Riscv.Register.Counteren
import Riscv.Register.Medeleg
import Riscv.Library.Interleave
import Riscv.Singleton
import Riscv.Register.Mcause
import Riscv.Register.Tvec
import Riscv.Library.ReprC
import Riscv.Peripheral.Aplic
import Riscv.Register.IregTrap
import Riscv.Peripheral.AplicConfig
import Riscv.Register.Topei
