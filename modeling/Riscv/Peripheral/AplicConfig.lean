import Riscv.Peripheral.Aplic

/-!
What a driver configures through the APLIC writers, one level above the
register block: the domain configuration, each source's mode or delegation,
each source's MSI target, and the machine and supervisor MSI address
configurations. `config` reads this level off a block, each register in the
format the AIA gives it; `Call.spec` says what each call is for, accepting the
arguments that the writers' asserts accept.

The writers refine it (`calls_refine_config`): on a 64-bit target, for MSI
addresses below `2 ^ 56`, every run of calls returns or panics as the
specification's run does, in a block that reads as the specification's
configuration. `mask` and `unmask` store to `clrienum` and `setienum`, which
the AIA makes actions on the enable bits rather than configuration; they
change nothing of this level.
-/

namespace Riscv

namespace Aplic

open Rust (Profile)

/-- The source mode that the `SM` field (bits 2:0) of `sourcecfg` holds; the
AIA reserves the values 2 and 3. -/
def SourceModes.ofSM : Nat → Option SourceModes
  | 0 => some .inactive
  | 1 => some .detached
  | 4 => some .edgeRising
  | 5 => some .edgeFalling
  | 6 => some .levelHigh
  | 7 => some .levelLow
  | _ => none

/-- A source's configuration: delegated to a child domain, active in a source
mode, or in a reserved mode. -/
inductive SourceCfg where
  | delegate (child : Nat)
  | mode (m : SourceModes)
  | reserved
  deriving DecidableEq, Repr

/-- `D` is bit 10; a delegated source has its child index in bits 9:0. -/
def SourceCfg.decode (w : BitVec 32) : SourceCfg :=
  if w.getLsbD 10 then .delegate (w &&& 0x3ff).toNat
  else
    match SourceModes.ofSM (w &&& 7).toNat with
    | some m => .mode m
    | none => .reserved

/-- A source's MSI target: hart index, guest index and external interrupt
identity. -/
structure Target where
  hart : Nat
  guest : Nat
  eiid : Nat
  deriving DecidableEq, Repr

/-- Hart index in bits 31:18, guest index in bits 17:12, EIID in bits 10:0. -/
def Target.decode (w : BitVec 32) : Target :=
  ⟨(w >>> 18).toNat, ((w >>> 12) &&& 0x3f).toNat, (w &&& 0x7ff).toNat⟩

structure Domain where
  ie : InterruptEnable
  dm : DeliveryMode
  be : Endian
  deriving DecidableEq, Repr

/-- IE in bit 8, DM in bit 2, BE in bit 0. -/
def Domain.decode (w : BitVec 32) : Domain :=
  ⟨if w.getLsbD 8 then .enabled else .disabled,
    if w.getLsbD 2 then .msiDeliveryMode else .directDeliveryMode,
    if w.getLsbD 0 then .bigEndian else .littleEndian⟩

/-- An MSI address configuration: the page address of the interrupt files and
the upper 20 bits of the high register (the lock bit and the index widths). -/
structure MsiCfg where
  addr : BitVec 64
  cfg : BitVec 32
  deriving DecidableEq, Repr

/-- Address bits 55:44 are the high register's low 12 bits and bits 43:12 the
low register. -/
def MsiCfg.decode (lo hi : BitVec 32) : MsiCfg :=
  ⟨(hi &&& 0xfff).setWidth 64 <<< 44 ||| lo.setWidth 64 <<< 12, hi &&& 0xfffff000⟩

/-- What an MSI address call asks for: the address's page, and the upper 20
bits of the configuration. -/
def MsiCfg.ofAddr {x : Xlen} (msiAddr : Usize x) (cfgh : BitVec 32) : MsiCfg :=
  ⟨msiAddr.setWidth 64 &&& ~~~0xfff, cfgh &&& 0xfffff000⟩

/-- What the writers configure. Source `n`, from 1 to 1023, is entry `n - 1`. -/
structure Config where
  domain : Domain
  source : Fin 1023 → SourceCfg
  target : Fin 1023 → Target
  mmsi : MsiCfg
  smsi : MsiCfg

namespace Config

/-- The configuration that the registers `r` hold. -/
def read (r : Field → Nat → BitVec 32) : Config where
  domain := Domain.decode (r .domaincfg 0)
  source i := SourceCfg.decode (r .sourcecfg i)
  target i := Target.decode (r .target i)
  mmsi := MsiCfg.decode (r .mmsiaddrcfg 0) (r .mmsiaddrcfgh 0)
  smsi := MsiCfg.decode (r .smsiaddrcfg 0) (r .smsiaddrcfgh 0)

def setSource (i : Nat) (v : SourceCfg) (c : Config) : Config :=
  { c with source := fun j => if j.val = i then v else c.source j }

def setTarget (i : Nat) (t : Target) (c : Config) : Config :=
  { c with target := fun j => if j.val = i then t else c.target j }

end Config

/-- The configuration a block holds. -/
def config (s : Aplic) : Config := Config.read s.reg

variable {x : Xlen}

/-- The calls that the writers accept: the checks of their asserts. -/
def Call.valid : Call x → Bool
  | .setDomaincfg .. | .setMmsiaddrcfg .. | .setSmsiaddrcfg .. => true
  | .sourcecfgDelegate int child =>
      decide (0 < int.toNat ∧ int.toNat < 1024 ∧ child.toNat < 1024)
  | .setSourcecfg int _ | .mask int | .unmask int => decide (0 < int.toNat ∧ int.toNat < 1024)
  | .setTargetMsi int hart guest eiid =>
      decide (0 < int.toNat ∧ int.toNat < 1024 ∧ hart.toNat < 16384 ∧ guest.toNat < 32 ∧
        eiid.toNat < 1024)

/-- What an accepted call configures. -/
def Call.update : Call x → Config → Config
  | .setDomaincfg ie dm be, c => { c with domain := ⟨ie, dm, be⟩ }
  | .setMmsiaddrcfg msiAddr cfgh, c => { c with mmsi := MsiCfg.ofAddr msiAddr cfgh }
  | .setSmsiaddrcfg msiAddr cfgh, c => { c with smsi := MsiCfg.ofAddr msiAddr cfgh }
  | .sourcecfgDelegate int child, c => c.setSource (int.toNat - 1) (.delegate child.toNat)
  | .setSourcecfg int mode, c => c.setSource (int.toNat - 1) (.mode mode)
  | .setTargetMsi int hart guest eiid, c =>
      c.setTarget (int.toNat - 1) ⟨hart.toNat, guest.toNat, eiid.toNat⟩
  | .mask _, c | .unmask _, c => c

/-- A call at the configuration level: rejected, or accepted and applied. -/
def Call.spec (c : Call x) : EStateM Unit Config Unit := fun cfg =>
  if c.valid then .ok () (c.update cfg) else .error () cfg

/-- The calls one after another; the first rejected call ends the run. -/
def specCalls : List (Call x) → EStateM Unit Config Unit
  | [] => pure ()
  | c :: cs => c.spec >>= fun _ => specCalls cs

/-- An MSI address call's address is a physical address, below `2 ^ 56`. -/
def Call.addrFits : Call x → Bool
  | .setMmsiaddrcfg msiAddr _ | .setSmsiaddrcfg msiAddr _ => decide (msiAddr.toNat < 2 ^ 56)
  | _ => true

/-! ### The configuration after a store -/

namespace Config

/-- The configuration reads registers inside their fields only. -/
theorem read_congr {r r' : Field → Nat → BitVec 32} (h : ∀ g j, j < g.len → r g j = r' g j) :
    read r = read r' := by
  have hsource : ∀ j : Fin 1023, r .sourcecfg j = r' .sourcecfg j := fun j => h _ _ j.isLt
  have htarget : ∀ j : Fin 1023, r .target j = r' .target j := fun j => h _ _ j.isLt
  simp only [read, hsource, htarget, h .domaincfg 0 Nat.one_pos, h .mmsiaddrcfg 0 Nat.one_pos,
    h .mmsiaddrcfgh 0 Nat.one_pos, h .smsiaddrcfg 0 Nat.one_pos, h .smsiaddrcfgh 0 Nat.one_pos]

variable (r : Field → Nat → BitVec 32) (v : BitVec 32)

theorem read_update_domaincfg :
    read (fun g j => if g = .domaincfg ∧ j = 0 then v else r g j) =
      { read r with domain := Domain.decode v } := by
  simp [read]

theorem read_update_sourcecfg (i : Nat) :
    read (fun g j => if g = .sourcecfg ∧ j = i then v else r g j) =
      (read r).setSource i (SourceCfg.decode v) := by
  simp only [read, setSource, true_and, reduceCtorEq, false_and, if_false, Config.mk.injEq,
    and_true]
  exact funext fun j => apply_ite _ _ _ _

theorem read_update_target (i : Nat) :
    read (fun g j => if g = .target ∧ j = i then v else r g j) =
      (read r).setTarget i (Target.decode v) := by
  simp only [read, setTarget, true_and, reduceCtorEq, false_and, if_false, Config.mk.injEq,
    and_true]
  exact funext fun j => apply_ite _ _ _ _

/-- The MSI address pair `lo`, `hi` stored one after the other. -/
theorem read_update_mmsi (a : BitVec 32) :
    read (fun g j => if g = .mmsiaddrcfgh ∧ j = 0 then v else
        if g = .mmsiaddrcfg ∧ j = 0 then a else r g j) =
      { read r with mmsi := MsiCfg.decode a v } := by
  simp [read]

theorem read_update_smsi (a : BitVec 32) :
    read (fun g j => if g = .smsiaddrcfgh ∧ j = 0 then v else
        if g = .smsiaddrcfg ∧ j = 0 then a else r g j) =
      { read r with smsi := MsiCfg.decode a v } := by
  simp [read]

/-- `setienum` and `clrienum` are not configuration. -/
theorem read_update_action {f : Field} (hf : f = .setienum ∨ f = .clrienum) (i : Nat) :
    read (fun g j => if g = f ∧ j = i then v else r g j) = read r := by
  rcases hf with rfl | rfl <;> simp [read]

end Config

/-- A store to a register reads as that register's new word. -/
theorem config_store {f : Field} {i off : Nat} (hi : i < f.len) (hoff : f.slot i = off)
    (v : BitVec 32) (s : Aplic) :
    config (s.store off v) = Config.read fun g j => if g = f ∧ j = i then v else s.reg g j := by
  rw [← hoff]
  exact Config.read_congr fun _ _ hj => reg_store_slot hi hj v s

/-- Two stores, to the scalar registers `lo` and then `hi`. -/
theorem config_store_pair {lo hi : Field} (hlo : lo.len = 1) (hhi : hi.len = 1) (a v : BitVec 32)
    (s : Aplic) :
    config ((s.store (lo.slot 0) a).store (hi.slot 0) v) =
      Config.read fun g j => if g = hi ∧ j = 0 then v else
        if g = lo ∧ j = 0 then a else s.reg g j := by
  rw [config_store (by omega) rfl]
  exact Config.read_congr fun g j hj => by rw [reg_store_slot (by omega) hj]

/-- Source `int`, from 1 to 1023, is entry `int - 1` of `sourcecfg`, at `4 * int`. -/
theorem sourcecfg_entry {int : Nat} (h : 0 < int ∧ int < 1024) :
    int - 1 < Field.sourcecfg.len ∧ Field.sourcecfg.slot (int - 1) = 4 * int := by
  refine ⟨by simp only [Field.len]; omega, ?_⟩
  rw [Field.slot_sourcecfg]
  omega

/-- Source `int` is entry `int - 1` of `target`, at `0x3000 + 4 * int`. -/
theorem target_entry {int : Nat} (h : 0 < int ∧ int < 1024) :
    int - 1 < Field.target.len ∧ Field.target.slot (int - 1) = 0x3000 + 4 * int := by
  refine ⟨by simp only [Field.len]; omega, ?_⟩
  rw [Field.slot_target]
  omega

/-- The shape of every asserting writer: a store to register `i` of `f` when
its checks `P` hold, a panic that leaves the block otherwise. It reads as a
call that accepts on `P` and then sets what the store reads as. -/
theorem mapState_ite_store {P : Prop} [Decidable P] {f : Field} {i off : Nat}
    (hi : P → i < f.len ∧ f.slot i = off) (v : BitVec 32) (s : Aplic) {c : Config}
    (hc : P → Config.read (fun g j => if g = f ∧ j = i then v else s.reg g j) = c) :
    Rust.mapState config (if P then .ok () (s.store off v) else .error () s) =
      if P then .ok () c else .error () (config s) := by
  by_cases h : P
  · obtain ⟨hlt, hoff⟩ := hi h
    rw [if_pos h, if_pos h, Rust.mapState, config_store hlt hoff, hc h]
  · rw [if_neg h, if_neg h]
    rfl

/-! ### The written words read back -/

theorem SourceCfg.decode_discriminant (mode : SourceModes) :
    SourceCfg.decode mode.discriminant = .mode mode := by
  cases mode <;> rfl

theorem SourceCfg.decode_delegate {child : BitVec 32} (hc : child.toNat < 1024) :
    SourceCfg.decode ((1 : BitVec 32) <<< 10 ||| child) = .delegate child.toNat := by
  obtain ⟨hd, hchild, -⟩ := sourcecfg_fields hc
  rw [SourceCfg.decode, if_pos hd, hchild]

theorem Target.decode_target {hart guest eiid : BitVec 32} (hh : hart.toNat < 16384)
    (hg : guest.toNat < 32) (he : eiid.toNat < 1024) :
    Target.decode (hart <<< 18 ||| guest <<< 12 ||| eiid) = ⟨hart.toNat, guest.toNat, eiid.toNat⟩ := by
  obtain ⟨hhart, hguest, heiid⟩ := target_fields hh hg he
  rw [Target.decode, hhart, hguest, heiid]

theorem Domain.decode_domaincfg (ie : InterruptEnable) (dm : DeliveryMode) (be : Endian) :
    Domain.decode (ie.discriminant ||| dm.discriminant ||| be.discriminant) = ⟨ie, dm, be⟩ := by
  cases ie <;> cases dm <;> cases be <;> rfl

theorem MsiCfg.decode_msiaddrcfg {msiAddr : Usize .rv64} (h : msiAddr.toNat < 2 ^ 56)
    (cfgh : BitVec 32) :
    MsiCfg.decode ((msiAddr >>> 12).setWidth 32)
        ((msiAddr >>> 44).setWidth 32 ||| (cfgh &&& 0xfffff000)) =
      MsiCfg.ofAddr msiAddr cfgh := by
  obtain ⟨haddr, hcfg⟩ := msiaddrcfg_fields h cfgh
  have hwidth : msiAddr.setWidth 64 = msiAddr := BitVec.setWidth_eq msiAddr
  rw [MsiCfg.ofAddr, hwidth]
  exact congrArg₂ MsiCfg.mk haddr hcfg

/-! ### The refinement -/

/-- A call's specification, with its acceptance as a proposition. -/
theorem Call.spec_eq (c : Call x) (cfg : Config) :
    c.spec cfg = if c.valid then .ok () (c.update cfg) else .error () cfg := rfl

/-- The step lemma: on a 64-bit target, each writer call refines its
specification, a panic included. -/
theorem Call.simulates (p : Profile) (c : Call .rv64) (hc : c.addrFits) :
    Rust.Simulates config (c.run p) c.spec := by
  intro s
  rw [Call.spec_eq]
  cases c with
  | setDomaincfg ie dm be =>
      simp only [Call.valid, Call.update, if_true]
      rw [Call.run, setDomaincfg_eq, Rust.mapState,
        config_store Nat.one_pos (by rfl : Field.domaincfg.slot 0 = 0),
        Config.read_update_domaincfg, Domain.decode_domaincfg]
      rfl
  | setMmsiaddrcfg msiAddr cfgh =>
      simp only [Call.valid, Call.update, if_true]
      rw [Call.run, Aplic.setMmsiaddrcfg, setMsiaddrcfg_eq rfl rfl, Rust.mapState,
        config_store_pair rfl rfl, Config.read_update_mmsi,
        MsiCfg.decode_msiaddrcfg (of_decide_eq_true hc)]
      rfl
  | setSmsiaddrcfg msiAddr cfgh =>
      simp only [Call.valid, Call.update, if_true]
      rw [Call.run, Aplic.setSmsiaddrcfg, setMsiaddrcfg_eq rfl rfl, Rust.mapState,
        config_store_pair rfl rfl, Config.read_update_smsi,
        MsiCfg.decode_msiaddrcfg (of_decide_eq_true hc)]
      rfl
  | sourcecfgDelegate int child =>
      rw [Call.run, sourcecfgDelegate_eq]
      simp only [Call.valid, Call.update, decide_eq_true_eq]
      refine mapState_ite_store (fun h => sourcecfg_entry ⟨h.1, h.2.1⟩) _ s fun h => ?_
      rw [Config.read_update_sourcecfg, SourceCfg.decode_delegate h.2.2]
      rfl
  | setSourcecfg int mode =>
      rw [Call.run, setSourcecfg_eq]
      simp only [Call.valid, Call.update, decide_eq_true_eq]
      refine mapState_ite_store sourcecfg_entry _ s fun _ => ?_
      rw [Config.read_update_sourcecfg, SourceCfg.decode_discriminant]
      rfl
  | setTargetMsi int hart guest eiid =>
      rw [Call.run, setTargetMsi_eq]
      simp only [Call.valid, Call.update, decide_eq_true_eq]
      refine mapState_ite_store (fun h => target_entry ⟨h.1, h.2.1⟩) _ s fun h => ?_
      rw [Config.read_update_target, Target.decode_target h.2.2.1 h.2.2.2.1 h.2.2.2.2]
      rfl
  | mask int =>
      rw [Call.run, mask_eq]
      simp only [Call.valid, Call.update, decide_eq_true_eq]
      exact mapState_ite_store (f := .clrienum) (i := 0) (fun _ => ⟨Nat.one_pos, rfl⟩) _ s
        fun _ => Config.read_update_action s.reg int (.inr rfl) 0
  | unmask int =>
      rw [Call.run, unmask_eq]
      simp only [Call.valid, Call.update, decide_eq_true_eq]
      exact mapState_ite_store (f := .setienum) (i := 0) (fun _ => ⟨Nat.one_pos, rfl⟩) _ s
        fun _ => Config.read_update_action s.reg int (.inl rfl) 0

/-- The APLIC writers refine the configuration level. On a 64-bit target, in
either build, for every sequence of writer calls whose MSI addresses are below
`2 ^ 56` and from every block: the run returns exactly when the
specification accepts every call, and stops at the same call otherwise; and
the block it ends in, returned or panicked, reads as the configuration the
specification ends in. -/
theorem calls_refine_config (p : Profile) (cs : List (Call .rv64))
    (hcs : ∀ c ∈ cs, c.addrFits) (s : Aplic) :
    Rust.mapState config (runCalls p cs s) = specCalls cs (config s) := by
  induction cs generalizing s with
  | nil => rfl
  | cons c cs ih =>
      have hc := hcs c List.mem_cons_self
      have hrest : ∀ c' ∈ cs, c'.addrFits := fun c' hc' => hcs c' (List.mem_cons_of_mem c hc')
      exact Rust.Simulates.bind (c.simulates p hc) (fun _ => ih hrest) s

theorem calls_refine_config_boot :
    (∀ c ∈ ([.setDomaincfg .enabled .msiDeliveryMode .littleEndian,
        .setMmsiaddrcfg 0x24000000 0, .setSourcecfg 5 .edgeRising, .setTargetMsi 5 0 0 5,
        .unmask 5] : List (Call .rv64)), c.addrFits) ∧
      ∀ s, Rust.mapState config (runCalls (x := .rv64) .debug [.setDomaincfg .enabled .msiDeliveryMode
          .littleEndian, .setMmsiaddrcfg 0x24000000 0, .setSourcecfg 5 .edgeRising,
          .setTargetMsi 5 0 0 5, .unmask 5] s) =
        specCalls (x := .rv64) [.setDomaincfg .enabled .msiDeliveryMode .littleEndian,
          .setMmsiaddrcfg 0x24000000 0, .setSourcecfg 5 .edgeRising, .setTargetMsi 5 0 0 5,
          .unmask 5] (config s) :=
  have hcs : ∀ c ∈ ([.setDomaincfg .enabled .msiDeliveryMode .littleEndian,
      .setMmsiaddrcfg 0x24000000 0, .setSourcecfg 5 .edgeRising, .setTargetMsi 5 0 0 5,
      .unmask 5] : List (Call .rv64)), c.addrFits := by decide
  ⟨hcs, calls_refine_config .debug _ hcs⟩

end Aplic

end Riscv
