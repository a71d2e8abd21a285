import Riscv.Register.Counter
import Riscv.Library.RustInt

/-!
`McycleDelay` (`delay.rs`), the delay provider over the `mcycle` counter.
`DelayUs<u64>::delay_us` reads `mcycle::read64()` once as `t0`, computes a
cycle budget `us * ticks_second / 1_000_000` in `u64`, and busy-waits until
`read64().wrapping_sub(t0)` exceeds it. The other eight impls convert their
argument and call it, `delay_ms` after multiplying by 1000.

Each run is one `Counter` (`Register/Counter.lean`): every read of the
counter happens at the next instant. Both loops, the wait and `read64`'s own,
are modelled with fuel. The product can overflow `u64`: the debug build then
panics and the release build wraps, as `Rust.Profile` says.
-/

namespace Riscv

open Rust (Profile)

/-- Machine mode cycle counter (`mcycle`) as a delay provider -/
structure McycleDelay where
  ticksSecond : BitVec 32

namespace McycleDelay

variable (p : Profile) (x : Xlen) (c : Counter) (fuel : Nat)

/-- The cycle budget of `DelayUs<u64>::delay_us`:
`(us * (self.ticks_second as u64)) / 1_000_000`. -/
def clock (d : McycleDelay) (us : BitVec 64) : Option (BitVec 64) := do
  let product ← p.mul us (d.ticksSecond.setWidth 64)
  pure (product / 1000000)

/-- `while mcycle::read64().wrapping_sub(t0) <= clock {}`, for at most `n`
iterations from instant `t`: the instant after the read that ends it. -/
def wait (t0 clock : BitVec 64) : Nat → Nat → Option Nat
  | 0, _ => none
  | n + 1, t => do
      let (now, t') ← Counter.read64 x c fuel t
      if now - t0 ≤ clock then wait t0 clock n t' else some t'

/-- `DelayUs<u64>::delay_us`, called at instant `t`: the instant it returns at. -/
def delayUs (d : McycleDelay) (us : BitVec 64) (t : Nat) : Option Nat := do
  let (t0, t1) ← Counter.read64 x c fuel t
  let clock ← clock p d us
  wait x c fuel t0 clock fuel t1

/-- `DelayUs<u32>::delay_us`: `self.delay_us(us as u64)`. -/
def delayUsU32 (d : McycleDelay) (us : BitVec 32) (t : Nat) : Option Nat :=
  delayUs p x c fuel d (us.setWidth 64) t

/-- `DelayUs<i32>::delay_us`: `assert!(us >= 0); self.delay_us(us as u32)`. -/
def delayUsI32 (d : McycleDelay) (us : BitVec 32) (t : Nat) : Option Nat :=
  if BitVec.sle 0 us then delayUsU32 p x c fuel d us t else none

/-- `DelayUs<u16>::delay_us`: `self.delay_us(us as u32)`. -/
def delayUsU16 (d : McycleDelay) (us : BitVec 16) (t : Nat) : Option Nat :=
  delayUsU32 p x c fuel d (us.setWidth 32) t

/-- `DelayUs<u8>::delay_us`: `self.delay_us(us as u32)`. -/
def delayUsU8 (d : McycleDelay) (us : BitVec 8) (t : Nat) : Option Nat :=
  delayUsU32 p x c fuel d (us.setWidth 32) t

/-- `DelayMs<u32>::delay_ms`: `self.delay_us((ms as u64) * 1000)`. -/
def delayMsU32 (d : McycleDelay) (ms : BitVec 32) (t : Nat) : Option Nat := do
  let us ← p.mul (ms.setWidth 64) 1000
  delayUs p x c fuel d us t

/-- `DelayMs<i32>::delay_ms`: `assert!(ms >= 0); self.delay_ms(ms as u32)`. -/
def delayMsI32 (d : McycleDelay) (ms : BitVec 32) (t : Nat) : Option Nat :=
  if BitVec.sle 0 ms then delayMsU32 p x c fuel d ms t else none

/-- `DelayMs<u16>::delay_ms`: `self.delay_ms(ms as u32)`. -/
def delayMsU16 (d : McycleDelay) (ms : BitVec 16) (t : Nat) : Option Nat :=
  delayMsU32 p x c fuel d (ms.setWidth 32) t

/-- `DelayMs<u8>::delay_ms`: `self.delay_ms(ms as u32)`. -/
def delayMsU8 (d : McycleDelay) (ms : BitVec 8) (t : Nat) : Option Nat :=
  delayMsU32 p x c fuel d (ms.setWidth 32) t

/-! ### The budget and the wait -/

variable {p x c fuel}

/-- A budget whose product fits `u64` is computed exactly, in both builds. -/
theorem clock_of_lt (d : McycleDelay) (us : BitVec 64)
    (h : us.toNat * d.ticksSecond.toNat < 2 ^ 64) :
    ∃ k, clock p d us = some k ∧ k.toNat = us.toNat * d.ticksSecond.toNat / 1000000 := by
  have hticks : (d.ticksSecond.setWidth 64).toNat = d.ticksSecond.toNat :=
    BitVec.toNat_setWidth_of_le (by decide)
  obtain ⟨product, hmul, hproduct⟩ := Profile.mul_of_lt p (a := us)
    (b := d.ticksSecond.setWidth 64) (by rwa [hticks])
  refine ⟨product / 1000000, ?_, ?_⟩
  · rw [clock, hmul, Option.bind_eq_bind, Option.bind_some]
    rfl
  · rw [BitVec.toNat_udiv, hproduct, hticks]
    rfl

/-- The wait ends only at a read that finds the counter more than `clock`
past `t0`. -/
theorem wait_exit {t0 k : BitVec 64} {n t t' : Nat} (h : wait x c fuel t0 k n t = some t') :
    ∃ s now, t ≤ s ∧ Counter.read64 x c fuel s = some (now, t') ∧ k < now - t0 := by
  induction n generalizing t with
  | zero => cases h
  | succ n ih =>
      rcases hread : Counter.read64 x c fuel t with _ | ⟨now, t1⟩
      · rw [wait, hread, Option.bind_eq_bind, Option.bind_none] at h
        cases h
      · obtain ⟨i, hti, hit1, -⟩ := Counter.read64_sample x c fuel t hread
        rw [wait, hread, Option.bind_eq_bind, Option.bind_some] at h
        dsimp only at h
        by_cases hle : now - t0 ≤ k
        · -- the counter has not gone past the budget: the loop reads again
          rw [if_pos hle] at h
          obtain ⟨s, now', hts, hs, hk⟩ := ih h
          exact ⟨s, now', by omega, hs, hk⟩
        · rw [if_neg hle] at h
          cases h
          exact ⟨t, now, le_refl t, hread, BitVec.not_le.mp hle⟩

/-- `DelayUs<u64>::delay_us` returns only after the counter has advanced by
more than the budget: between the read of `t0`, at instant `i`, and the read
that ends the wait, at instant `j`. -/
theorem delayUs_waits (d : McycleDelay) (us : BitVec 64) {t t' : Nat}
    (h : delayUs p x c fuel d us t = some t') :
    ∃ k i j, clock p d us = some k ∧ t ≤ i ∧ i < j ∧ j < t' ∧
      k.toNat < (c.value j).toNat - (c.value i).toNat := by
  rcases hfirst : Counter.read64 x c fuel t with _ | ⟨t0, t1⟩
  · rw [delayUs, hfirst, Option.bind_eq_bind, Option.bind_none] at h
    cases h
  rw [delayUs, hfirst, Option.bind_eq_bind, Option.bind_some] at h
  dsimp only at h
  rcases hclock : clock p d us with _ | k
  · rw [hclock, Option.bind_eq_bind, Option.bind_none] at h
    cases h
  rw [hclock, Option.bind_eq_bind, Option.bind_some] at h
  obtain ⟨i, hti, hit1, rfl⟩ := Counter.read64_sample x c fuel t hfirst
  obtain ⟨s, now, hts, hs, hk⟩ := wait_exit h
  obtain ⟨j, hsj, hjt', rfl⟩ := Counter.read64_sample x c fuel s hs
  -- the counter never decreases, so the wrapping difference is the exact one
  have hmono : (c.value i).toNat ≤ (c.value j).toNat := c.mono (by omega)
  have hsub : (c.value j - c.value i).toNat = (c.value j).toNat - (c.value i).toNat :=
    BitVec.toNat_sub_of_le (BitVec.le_def.mpr hmono)
  refine ⟨k, i, j, rfl, hti, by omega, hjt', ?_⟩
  rw [← hsub]
  exact BitVec.lt_def.mp hk

/-- When the product fits `u64`, `DelayUs<u64>::delay_us` returns only after
the counter has advanced by more than `us * ticks_second / 1_000_000`. -/
theorem delayUs_waits_exact (d : McycleDelay) (us : BitVec 64) {t t' : Nat}
    (hfits : us.toNat * d.ticksSecond.toNat < 2 ^ 64) (h : delayUs p x c fuel d us t = some t') :
    ∃ i j, t ≤ i ∧ i < j ∧ j < t' ∧
      us.toNat * d.ticksSecond.toNat / 1000000 < (c.value j).toNat - (c.value i).toNat := by
  obtain ⟨k, i, j, hclock, hti, hij, hjt, hk⟩ := delayUs_waits d us h
  obtain ⟨k', hclock', hk'⟩ := clock_of_lt (p := p) d us hfits
  rw [hclock, Option.some.injEq] at hclock'
  subst hclock'
  rw [hk'] at hk
  exact ⟨i, j, hti, hij, hjt, hk⟩

/-- `DelayUs<u32>::delay_us`: the product of two `u32` values always fits. -/
theorem delayUsU32_waits (d : McycleDelay) (us : BitVec 32) {t t' : Nat}
    (h : delayUsU32 p x c fuel d us t = some t') :
    ∃ i j, t ≤ i ∧ i < j ∧ j < t' ∧
      us.toNat * d.ticksSecond.toNat / 1000000 < (c.value j).toNat - (c.value i).toNat := by
  have hus : (us.setWidth 64).toNat = us.toNat := BitVec.toNat_setWidth_of_le (by decide)
  have hfits : (us.setWidth 64).toNat * d.ticksSecond.toNat < 2 ^ 64 := by
    rw [hus]
    calc us.toNat * d.ticksSecond.toNat < 2 ^ 32 * 2 ^ 32 :=
          Nat.mul_lt_mul'' us.isLt d.ticksSecond.isLt
      _ = 2 ^ 64 := by norm_num
  rw [← hus]
  exact delayUs_waits_exact d _ hfits h

/-- `DelayUs<i32>::delay_us`: a negative argument fails the assertion, and any
other is a `u32` request. -/
theorem delayUsI32_waits (d : McycleDelay) (us : BitVec 32) {t t' : Nat}
    (h : delayUsI32 p x c fuel d us t = some t') :
    BitVec.sle 0 us = true ∧ ∃ i j, t ≤ i ∧ i < j ∧ j < t' ∧
      us.toNat * d.ticksSecond.toNat / 1000000 < (c.value j).toNat - (c.value i).toNat := by
  unfold delayUsI32 at h
  split at h
  · exact ⟨by assumption, delayUsU32_waits d us h⟩
  · cases h

theorem delayUsU16_waits (d : McycleDelay) (us : BitVec 16) {t t' : Nat}
    (h : delayUsU16 p x c fuel d us t = some t') :
    ∃ i j, t ≤ i ∧ i < j ∧ j < t' ∧
      us.toNat * d.ticksSecond.toNat / 1000000 < (c.value j).toNat - (c.value i).toNat := by
  have hus : (us.setWidth 32).toNat = us.toNat := BitVec.toNat_setWidth_of_le (by decide)
  rw [← hus]
  exact delayUsU32_waits d _ h

theorem delayUsU8_waits (d : McycleDelay) (us : BitVec 8) {t t' : Nat}
    (h : delayUsU8 p x c fuel d us t = some t') :
    ∃ i j, t ≤ i ∧ i < j ∧ j < t' ∧
      us.toNat * d.ticksSecond.toNat / 1000000 < (c.value j).toNat - (c.value i).toNat := by
  have hus : (us.setWidth 32).toNat = us.toNat := BitVec.toNat_setWidth_of_le (by decide)
  rw [← hus]
  exact delayUsU32_waits d _ h

/-- `DelayMs<u32>::delay_ms` when `ms * 1000 * ticks_second` fits `u64`; the
multiplication by 1000 itself always fits. -/
theorem delayMsU32_waits (d : McycleDelay) (ms : BitVec 32) {t t' : Nat}
    (hfits : ms.toNat * 1000 * d.ticksSecond.toNat < 2 ^ 64)
    (h : delayMsU32 p x c fuel d ms t = some t') :
    ∃ i j, t ≤ i ∧ i < j ∧ j < t' ∧
      ms.toNat * 1000 * d.ticksSecond.toNat / 1000000 < (c.value j).toNat - (c.value i).toNat := by
  have hms : (ms.setWidth 64).toNat = ms.toNat := BitVec.toNat_setWidth_of_le (by decide)
  have hthousand : (1000 : BitVec 64).toNat = 1000 := rfl
  have hsmall : (ms.setWidth 64).toNat * (1000 : BitVec 64).toNat < 2 ^ 64 := by
    rw [hms, hthousand]
    have := ms.isLt
    omega
  obtain ⟨us, hmul, hus⟩ := Profile.mul_of_lt p hsmall
  rw [delayMsU32, hmul, Option.bind_eq_bind, Option.bind_some] at h
  rw [hms, hthousand] at hus
  rw [← hus] at hfits ⊢
  exact delayUs_waits_exact d us hfits h

/-- `DelayMs<u16>::delay_ms`: below `2 ^ 16` milliseconds the product fits. -/
theorem delayMsU16_waits (d : McycleDelay) (ms : BitVec 16) {t t' : Nat}
    (h : delayMsU16 p x c fuel d ms t = some t') :
    ∃ i j, t ≤ i ∧ i < j ∧ j < t' ∧
      ms.toNat * 1000 * d.ticksSecond.toNat / 1000000 < (c.value j).toNat - (c.value i).toNat := by
  have hms : (ms.setWidth 32).toNat = ms.toNat := BitVec.toNat_setWidth_of_le (by decide)
  have hfits : (ms.setWidth 32).toNat * 1000 * d.ticksSecond.toNat < 2 ^ 64 := by
    have hus : (ms.setWidth 32).toNat * 1000 < 2 ^ 26 := by
      rw [hms]
      have := ms.isLt
      omega
    calc (ms.setWidth 32).toNat * 1000 * d.ticksSecond.toNat < 2 ^ 26 * 2 ^ 32 :=
          Nat.mul_lt_mul'' hus d.ticksSecond.isLt
      _ ≤ 2 ^ 64 := by norm_num
  rw [← hms]
  exact delayMsU32_waits d _ hfits h

theorem delayMsU8_waits (d : McycleDelay) (ms : BitVec 8) {t t' : Nat}
    (h : delayMsU8 p x c fuel d ms t = some t') :
    ∃ i j, t ≤ i ∧ i < j ∧ j < t' ∧
      ms.toNat * 1000 * d.ticksSecond.toNat / 1000000 < (c.value j).toNat - (c.value i).toNat := by
  have hms : (ms.setWidth 32).toNat = ms.toNat := BitVec.toNat_setWidth_of_le (by decide)
  have hfits : (ms.setWidth 32).toNat * 1000 * d.ticksSecond.toNat < 2 ^ 64 := by
    have hus : (ms.setWidth 32).toNat * 1000 < 2 ^ 18 := by
      rw [hms]
      have := ms.isLt
      omega
    calc (ms.setWidth 32).toNat * 1000 * d.ticksSecond.toNat < 2 ^ 18 * 2 ^ 32 :=
          Nat.mul_lt_mul'' hus d.ticksSecond.isLt
      _ ≤ 2 ^ 64 := by norm_num
  rw [← hms]
  exact delayMsU32_waits d _ hfits h

/-! ### Where the budget overflows -/

/-- The debug build panics on a budget whose product does not fit `u64`, once
the first read of the counter has returned. -/
theorem delayUs_debug_of_le (d : McycleDelay) (us : BitVec 64) {t : Nat}
    (hread : (Counter.read64 x c fuel t).isSome)
    (hover : 2 ^ 64 ≤ us.toNat * d.ticksSecond.toNat) :
    delayUs .debug x c fuel d us t = none := by
  have hticks : (d.ticksSecond.setWidth 64).toNat = d.ticksSecond.toNat :=
    BitVec.toNat_setWidth_of_le (by decide)
  have hclock : clock .debug d us = none := by
    rw [clock, Profile.mul_debug_of_le (by rwa [hticks]), Option.bind_eq_bind, Option.bind_none]
  obtain ⟨⟨t0, t1⟩, hfirst⟩ := Option.isSome_iff_exists.mp hread
  rw [delayUs, hfirst, Option.bind_eq_bind, Option.bind_some]
  dsimp only
  rw [hclock, Option.bind_eq_bind, Option.bind_none]

/-- A 1 GHz core. -/
def gigahertz : McycleDelay := ⟨1000000000⟩

/-- A counter that stands still, then jumps just past the wrapped budget of
`delay_ms(u32::MAX)` on a 1 GHz core. -/
def jump : Counter where
  value t := if t = 0 then 0 else 15322669899385
  mono t t' h := by
    by_cases ht : t = 0
    · simp [ht]
    · have ht' : t' ≠ 0 := by omega
      simp [ht, ht']

/-- `delay_ms(u32::MAX)` on a 1 GHz core: `ms * 1000 * ticks_second` is about
`4.3 * 10 ^ 21`, past `u64`. The debug build panics; the release build wraps
the budget to 15322669899384 cycles, and returns once the counter has advanced
past that, although the exact budget is 4294967295000000 cycles. -/
theorem delayMsU32_overflows :
    (∀ (x : Xlen) (c : Counter) (fuel t : Nat), (Counter.read64 x c fuel t).isSome →
      delayMsU32 .debug x c fuel gigahertz 0xFFFFFFFF t = none) ∧
    delayMsU32 .release .rv64 jump 1 gigahertz 0xFFFFFFFF 0 = some 2 ∧
      (jump.value 1).toNat - (jump.value 0).toNat < 0xFFFFFFFF * 1000 * 1000000000 / 1000000 := by
  refine ⟨?_, by decide, by decide⟩
  intro x c fuel t hread
  have hus : Profile.debug.mul ((0xFFFFFFFF : BitVec 32).setWidth 64) 1000 =
      some 4294967295000 := by decide
  rw [delayMsU32, hus, Option.bind_eq_bind, Option.bind_some]
  exact delayUs_debug_of_le gigahertz _ hread (by decide)

theorem delayMsU32_overflows_jump :
    (Counter.read64 .rv64 jump 1 0).isSome = true ∧
    delayMsU32 .debug .rv64 jump 1 gigahertz 0xFFFFFFFF 0 = none :=
  have hread : (Counter.read64 .rv64 jump 1 0).isSome = true := rfl
  ⟨hread, delayMsU32_overflows.1 .rv64 jump 1 0 hread⟩

/-! ### The wait returns

`wait_exit` says when the wait may end; here, that it does end. Each read
takes at least one instant, so once the reads reach an instant at which the
counter is more than the budget past `t0`, that read ends the wait. -/

/-- One iteration of the wait: a read, then the test of `wrapping_sub`. -/
theorem wait_succ {t0 k now : BitVec 64} {n t t1 : Nat}
    (hread : Counter.read64 x c fuel t = some (now, t1)) :
    wait x c fuel t0 k (n + 1) t = if now - t0 ≤ k then wait x c fuel t0 k n t1 else some t1 := by
  rw [wait, hread, Option.bind_eq_bind, Option.bind_some]

/-- Once the counter is more than `k` past `t0`, so is every later value. -/
theorem lt_sub_of_past {t0 k : BitVec 64} {T j : Nat}
    (hpast : t0.toNat + k.toNat < (c.value T).toNat) (hj : T ≤ j) : k < c.value j - t0 := by
  have hmono : (c.value T).toNat ≤ (c.value j).toNat := c.mono hj
  have hsub : (c.value j - t0).toNat = (c.value j).toNat - t0.toNat :=
    BitVec.toNat_sub_of_le (BitVec.le_def.mpr (by omega))
  rw [BitVec.lt_def, hsub]
  omega

/-- The wait returns within `T - t + 1` iterations when the counter is more
than `k` past `t0` at instant `T`. -/
theorem wait_returns {t0 k : BitVec 64} {T : Nat} (hfuel : 2 ^ 32 + 1 ≤ fuel)
    (hpast : t0.toNat + k.toNat < (c.value T).toNat) {n t : Nat} (hn : T - t < n) :
    ∃ t', wait x c fuel t0 k n t = some t' := by
  induction n generalizing t with
  | zero => omega
  | succ n ih =>
      obtain ⟨now, t1, hread⟩ := Counter.read64_isSome_of_le x c hfuel t
      obtain ⟨j, htj, hjt1, rfl⟩ := Counter.read64_sample x c fuel t hread
      rw [wait_succ hread]
      by_cases hle : c.value j - t0 ≤ k
      · -- this read came before `T`, and the next one starts after it
        have hjT : j < T := by
          by_contra hge
          exact BitVec.not_le.mpr (lt_sub_of_past hpast (Nat.le_of_not_lt hge)) hle
        rw [if_pos hle]
        exact ih (by omega)
      · exact ⟨t1, if_neg hle⟩

/-- `DelayUs<u64>::delay_us` returns, on either XLEN: once its first read has
returned `t0`, it returns if the counter gets more than the budget past `t0`
within the fuel of the wait. -/
theorem delayUs_returns (d : McycleDelay) (us : BitVec 64) {k t0 : BitVec 64} {t t1 T : Nat}
    (hfuel : 2 ^ 32 + 1 ≤ fuel) (hT : T < t1 + fuel)
    (hfirst : Counter.read64 x c fuel t = some (t0, t1)) (hclock : clock p d us = some k)
    (hpast : t0.toNat + k.toNat < (c.value T).toNat) :
    ∃ t', delayUs p x c fuel d us t = some t' := by
  rw [delayUs, hfirst, Option.bind_eq_bind, Option.bind_some]
  dsimp only
  rw [hclock, Option.bind_eq_bind, Option.bind_some]
  exact wait_returns hfuel hpast (by omega)

/-- A 1 MHz core. -/
def megahertz : McycleDelay := ⟨1000000⟩

/-- `delay_us(3)` at 1 MHz on RV32 over `carry`: the first read retries across
the carry and returns `t0` at instant 6, and the counter is 4 cycles past
`t0` at instant 8. -/
theorem delayUs_returns_carry :
    2 ^ 32 + 1 ≤ 2 ^ 32 + 1 ∧ 8 < 6 + (2 ^ 32 + 1) ∧
    Counter.read64 .rv32 Counter.carry (2 ^ 32 + 1) 0 = some (Counter.carry.value 4, 6) ∧
    clock .release megahertz 3 = some 3 ∧
    (Counter.carry.value 4).toNat + (3 : BitVec 64).toNat < (Counter.carry.value 8).toNat ∧
    ∃ t', delayUs .release .rv32 Counter.carry (2 ^ 32 + 1) megahertz 3 0 = some t' :=
  have hfirst : Counter.read64 .rv32 Counter.carry (2 ^ 32 + 1) 0 =
      some (Counter.carry.value 4, 6) := by decide
  have hclock : clock .release megahertz 3 = some 3 := by decide
  have hpast : (Counter.carry.value 4).toNat + (3 : BitVec 64).toNat <
      (Counter.carry.value 8).toNat := by decide
  ⟨le_refl _, by norm_num, hfirst, hclock, hpast,
    delayUs_returns megahertz 3 (le_refl _) (by norm_num) hfirst hclock hpast⟩

/-- On RV64 the wait reads the counter at `t`, `t + 1`, ... and stops at the
first of these instants at which it is more than `k` past `t0`. -/
theorem wait_rv64 {t0 k : BitVec 64} {s : Nat} (hpast : k < c.value s - t0) {n t : Nat}
    (hts : t ≤ s) (hn : s - t < n) (hbefore : ∀ j, t ≤ j → j < s → c.value j - t0 ≤ k) :
    wait .rv64 c fuel t0 k n t = some (s + 1) := by
  induction n generalizing t with
  | zero => omega
  | succ n ih =>
      rw [wait_succ (rfl : Counter.read64 .rv64 c fuel t = some (c.value t, t + 1))]
      rcases Nat.lt_or_eq_of_le hts with hlt | rfl
      · rw [if_pos (hbefore t (le_refl t) hlt)]
        exact ih hlt (by omega) fun j htj hjs => hbefore j (by omega) hjs
      · rw [if_neg (BitVec.not_le.mpr hpast)]

/-- On RV64 `read64` is one read of the counter's CSR: `delay_us` called at
`t` reads `t0` there, and returns one instant after the first later instant
`s` at which `read64().wrapping_sub(t0)` exceeds the budget, given fuel for
the reads up to `s`. It neither returns earlier nor waits longer. -/
theorem delayUs_rv64_first (d : McycleDelay) (us : BitVec 64) {k : BitVec 64} {t s : Nat}
    (hclock : clock p d us = some k) (hts : t < s) (hfuel : s - t ≤ fuel)
    (hpast : k < c.value s - c.value t)
    (hbefore : ∀ j, t < j → j < s → c.value j - c.value t ≤ k) :
    delayUs p .rv64 c fuel d us t = some (s + 1) := by
  have hfirst : Counter.read64 .rv64 c fuel t = some (c.value t, t + 1) := rfl
  rw [delayUs, hfirst, Option.bind_eq_bind, Option.bind_some]
  dsimp only
  rw [hclock, Option.bind_eq_bind, Option.bind_some]
  exact wait_rv64 hpast hts (by omega) fun j htj hjs => hbefore j htj hjs

/-- `delay_us(3)` at 1 MHz on RV64 over `carry`, from instant 0: the counter
is 1, 2, 3 cycles past `t0` at instants 1 to 3 and 4 at instant 4, so the call
returns at instant 5. -/
theorem delayUs_rv64_first_carry :
    clock .debug megahertz 3 = some 3 ∧ 0 < 4 ∧ 4 - 0 ≤ 4 ∧
    (3 : BitVec 64) < Counter.carry.value 4 - Counter.carry.value 0 ∧
    (∀ j, 0 < j → j < 4 → Counter.carry.value j - Counter.carry.value 0 ≤ 3) ∧
    delayUs .debug .rv64 Counter.carry 4 megahertz 3 0 = some 5 :=
  have hclock : clock .debug megahertz 3 = some 3 := by decide
  have hpast : (3 : BitVec 64) < Counter.carry.value 4 - Counter.carry.value 0 := by decide
  have hbefore : ∀ j, 0 < j → j < 4 → Counter.carry.value j - Counter.carry.value 0 ≤ 3 := by
    intro j hj0 hj4
    interval_cases j <;> decide
  ⟨hclock, by decide, by decide, hpast, hbefore,
    delayUs_rv64_first megahertz 3 hclock (by decide) (by decide) hpast hbefore⟩

end McycleDelay

end Riscv
