import Riscv.Register.Mstatus

/-!
Critical sections (`interrupt.rs`). `free` reads `mstatus`, disables machine
interrupts with `clear_mie`, runs its closure, and sets MIE again only when
the snapshot had it set. The closures that a program passes to `free` may
call `free` themselves, so a closure is modelled as a small program: steps of
its own code, each a function of the `mstatus` word, sequenced with `bind` and
with the nested `free` calls explicit. The state is the `mstatus` word.

The safety condition documented on `enable` is that a closure's own code
never enables interrupts; `Body.KeepsMie` states it as: no step of closure
code changes MIE. Under it, every step of every closure runs with MIE clear,
and every `free` call, at any depth, returns with MIE as it found it.
-/

namespace Riscv

namespace Interrupt

open Mstatus (read)

variable {x : Xlen} (bf : BitField)

/-- `interrupt::disable`: `mstatus::clear_mie()`. -/
def disable : Usize x → Usize x := Mstatus.clearMie

/-- `interrupt::enable`: `mstatus::set_mie()`. -/
def enable : Usize x → Usize x := Mstatus.setMie

/-- `interrupt::free`: the closure's result, and the `mstatus` word it leaves. -/
def free {R : Type} (f : Usize x → R × Usize x) (value : Usize x) : R × Usize x :=
  let mstatus := read value
  let (r, after) := f (disable value)
  (r, if mstatus.mie bf then enable after else after)

/-- The code of a closure, with its nested `free` calls explicit. -/
inductive Body (x : Xlen) : Type → Type 1 where
  | pure {α : Type} (a : α) : Body x α
  | step {α : Type} (f : Usize x → α × Usize x) : Body x α
  | free {α : Type} (body : Body x α) : Body x α
  | bind {α β : Type} (first : Body x α) (rest : α → Body x β) : Body x β

/-- Running a closure body; a nested `free` runs through `free` itself. -/
def Body.run {α : Type} : Body x α → Usize x → α × Usize x
  | .pure a, value => (a, value)
  | .step f, value => f value
  | .free body, value => Interrupt.free bf body.run value
  | .bind first rest, value => (rest (first.run value).1).run (first.run value).2

/-- The documented condition on closures: their own code never writes MIE. -/
def Body.KeepsMie {α : Type} : Body x α → Prop
  | .pure _ => True
  | .step f => ∀ value, (read (f value).2).mie bf = (read value).mie bf
  | .free body => body.KeepsMie
  | .bind first rest => first.KeepsMie ∧ ∀ a, (rest a).KeepsMie

/-- What a run shows: every step of closure code with the word it starts
from, and every `free` call with the word on entry, the words its closure
starts and finishes with, and the word on return. -/
inductive Event (x : Xlen) where
  | step (before : Usize x)
  | free (entry start finish exit : Usize x)

/-- The events of a run of a body, in order. -/
def Body.trace {α : Type} : Body x α → Usize x → List (Event x)
  | .pure _, _ => []
  | .step _, value => [.step value]
  | .free body, value =>
      body.trace (disable value) ++
        [.free value (disable value) (body.run bf (disable value)).2
          (Interrupt.free bf (body.run bf) value).2]
  | .bind first rest, value =>
      first.trace value ++ (rest (first.run bf value).1).trace (first.run bf value).2

/-- What the critical sections promise of each event: closure code runs with
MIE clear, and a `free` call returns with MIE as on entry, having changed no
other bit of `mstatus` itself. -/
def Event.Sound : Event x → Prop
  | .step before => (read before).mie bf = false
  | .free entry start finish exit =>
      (read exit).mie bf = (read entry).mie bf ∧
        ∀ i, i ≠ 3 → start.getLsbD i = entry.getLsbD i ∧ exit.getLsbD i = finish.getLsbD i

variable {bf}

theorem mie_disable (hbf : bf.Lawful) (value : Usize x) :
    (read (disable value)).mie bf = false :=
  Mstatus.mie_clearMie hbf value

/-- `free` itself writes only MIE: its closure starts from the entry word with
bit 3 cleared, and it returns the closure's word with at most bit 3 changed. -/
theorem free_frame {R : Type} (f : Usize x → R × Usize x) (value : Usize x) {i : Nat}
    (hi : i ≠ 3) :
    (disable value).getLsbD i = value.getLsbD i ∧
      (free bf f value).2.getLsbD i = (f (disable value)).2.getLsbD i := by
  refine ⟨Mstatus.getLsbD_clearMie_of_ne value hi, ?_⟩
  simp only [free]
  split
  · exact Mstatus.getLsbD_setMie_of_ne _ hi
  · rfl

/-- `free` returns its closure's result. -/
theorem free_fst {R : Type} (f : Usize x → R × Usize x) (value : Usize x) :
    (free bf f value).1 = (f (disable value)).1 := rfl

/-- A `free` whose closure returns with MIE clear leaves MIE as it found it. -/
theorem mie_free (hbf : bf.Lawful) {R : Type} (f : Usize x → R × Usize x) (value : Usize x)
    (hf : (read (f (disable value)).2).mie bf = false) :
    (read (free bf f value).2).mie bf = (read value).mie bf := by
  simp only [free]
  cases hmie : (read value).mie bf
  · simpa using hf
  · exact Mstatus.mie_setMie hbf _

/-- A closure that leaves the word alone makes `free` return the entry word:
MIE is cleared, then set again exactly when it was set. -/
theorem free_keeps_word (hbf : bf.Lawful) {R : Type} (r : R) (value : Usize x) :
    (free bf (fun v => (r, v)) value).2 = value := by
  apply BitVec.eq_of_getLsbD_eq
  intro i _
  by_cases h3 : i = 3
  · subst h3
    have hmie := mie_free hbf (fun v => (r, v)) value (mie_disable hbf value)
    rwa [Mstatus.mie_eq hbf, Mstatus.mie_eq hbf] at hmie
  · obtain ⟨hdisable, hfree⟩ := free_frame (fun v => (r, v)) value h3
    rw [hfree, hdisable]

/-- A body whose own code keeps MIE returns with MIE as it started: a nested
`free` starts its closure with MIE clear, so by induction that closure
returns with MIE clear and the `free` restores the entry value. -/
theorem Body.mie_run (hbf : bf.Lawful) {α : Type} (b : Body x α) (hb : b.KeepsMie bf)
    (value : Usize x) : (read (b.run bf value).2).mie bf = (read value).mie bf := by
  induction b generalizing value with
  | pure a => rfl
  | step f => exact hb value
  | free body ih =>
      apply mie_free hbf
      rw [ih hb, mie_disable hbf]
  | bind first rest ihfirst ihrest =>
      obtain ⟨hfirst, hrest⟩ := hb
      simp only [Body.run]
      rw [ihrest _ (hrest _), ihfirst hfirst]

/-- The event of one `free` call is sound when its closure keeps MIE. -/
theorem free_event_sound (hbf : bf.Lawful) {α : Type} (body : Body x α)
    (hbody : body.KeepsMie bf) (value : Usize x) :
    (Event.free value (disable value) (body.run bf (disable value)).2
      (free bf (body.run bf) value).2).Sound bf := by
  refine ⟨?_, fun i hi => free_frame (body.run bf) value hi⟩
  apply mie_free hbf
  rw [body.mie_run hbf hbody, mie_disable hbf]

/-- Inside a critical section every event is sound: the invariant is that MIE
is clear whenever closure code is about to run. A nested `free` starts its
closure with MIE clear again, and after any sub-body MIE is as before it. -/
theorem Body.trace_sound (hbf : bf.Lawful) {α : Type} (b : Body x α) (hb : b.KeepsMie bf)
    (value : Usize x) (hvalue : (read value).mie bf = false) :
    ∀ e ∈ b.trace bf value, e.Sound bf := by
  induction b generalizing value with
  | pure a =>
      simp [Body.trace]
  | step f =>
      intro e he
      simp only [Body.trace, List.mem_singleton] at he
      subst he
      exact hvalue
  | free body ih =>
      intro e he
      simp only [Body.trace, List.mem_append, List.mem_singleton] at he
      rcases he with hinner | rfl
      · exact ih hb (disable value) (mie_disable hbf value) e hinner
      · exact free_event_sound hbf body hb value
  | bind first rest ihfirst ihrest =>
      obtain ⟨hfirst, hrest⟩ := hb
      have hafter : (read (first.run bf value).2).mie bf = false := by
        rw [first.mie_run hbf hfirst, hvalue]
      intro e he
      simp only [Body.trace, List.mem_append] at he
      rcases he with hhead | htail
      · exact ihfirst hfirst value hvalue e hhead
      · exact ihrest _ (hrest _) _ hafter e htail

/-- `interrupt::free` around any finite nesting of critical sections whose
closures never write MIE, from any `mstatus` word: every step of closure code
runs with MIE clear; every `free` call, the outer one and each nested one,
returns with MIE as it was on entry and changes no other bit itself; and the
outer call returns its closure's result. -/
theorem free_nesting_sound (hbf : bf.Lawful) {α : Type} (b : Body x α) (hb : b.KeepsMie bf)
    (value : Usize x) :
    (∀ before, Event.step before ∈ (Body.free b).trace bf value →
      (read before).mie bf = false) ∧
    (∀ entry start finish exit, Event.free entry start finish exit ∈ (Body.free b).trace bf value →
      (read exit).mie bf = (read entry).mie bf ∧
        ∀ i, i ≠ 3 → start.getLsbD i = entry.getLsbD i ∧ exit.getLsbD i = finish.getLsbD i) ∧
    ((Body.free b).run bf value).1 = (b.run bf (disable value)).1 := by
  have hsound : ∀ e ∈ (Body.free b).trace bf value, e.Sound bf := by
    intro e he
    simp only [Body.trace, List.mem_append, List.mem_singleton] at he
    rcases he with hinner | rfl
    · exact b.trace_sound hbf hb (disable value) (mie_disable hbf value) e hinner
    · exact free_event_sound hbf b hb value
  refine ⟨fun before hstep => hsound _ hstep, fun entry start finish exit hfree => hsound _ hfree,
    free_fst (b.run bf) value⟩

/-- A closure with a step of its own followed by a nested critical section. -/
def nestedBody : Body .rv32 Nat :=
  .bind (.step fun value => (1, value)) fun n => .free (.pure (n + 1))

theorem free_nesting_sound_nested :
    nestedBody.KeepsMie BitField.documented ∧
    (∀ before, Event.step before ∈ (Body.free nestedBody).trace BitField.documented 8 →
      (read before).mie BitField.documented = false) ∧
    (∀ entry start finish exit, Event.free entry start finish exit ∈
        (Body.free nestedBody).trace BitField.documented 8 →
      (read exit).mie BitField.documented = (read entry).mie BitField.documented ∧
        ∀ i, i ≠ 3 → start.getLsbD i = entry.getLsbD i ∧ exit.getLsbD i = finish.getLsbD i) ∧
    ((Body.free nestedBody).run BitField.documented 8).1 =
      (nestedBody.run BitField.documented (disable 8)).1 :=
  have hkeeps : nestedBody.KeepsMie BitField.documented := ⟨fun _ => rfl, fun _ => trivial⟩
  ⟨hkeeps, free_nesting_sound BitField.documented_lawful nestedBody hkeeps 8⟩

end Interrupt

end Riscv
