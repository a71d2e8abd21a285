import Riscv.Interrupt
import Riscv.Library.Interleave

/-!
The `singleton!` macro (`macros.rs`). Each expansion owns a `static mut VAR:
Option<T>`, at first `None`. Inside `interrupt::free` the closure reads
`VAR.is_some()`; when `VAR` is empty it evaluates the expression, stores
`Some(expr)` and returns `VAR.as_mut()`, and otherwise it returns `None`. The
macro's documentation promises `Some` the first time and `None` after, and
warns that the macro is unsound on multi-core systems.

On one hart the closure runs with interrupts disabled, so it is one operation
on `VAR` (`closure`), and `free` around it leaves `mstatus` as it found it.
Over any sequence of calls exactly the calls that `onceResults` names return
`Some`, so at most one does (`singleton_once`).

On several harts `free` masks only the local hart's interrupts, so the
closure's three accesses of `VAR` interleave with those of other harts
(`Pc.step`); the `mstatus` accesses of `free` are each hart's own and are left
out there. A hart run alone does what `closure` does, so a schedule that runs
each hart's call back to back still gives at most one `Some`
(`harts_serial`). More generally, on every interleaving in which no two
harts are at once between their read of the empty `VAR` and their store, at
most one hart returns `Some` (`harts_exclusive`, from the invariant
`OnceInv`). A schedule in which every hart reads `VAR` before any stores to
it, then every hart stores and then every hart takes `VAR.as_mut()`, each
round in its own hart order, gives every hart `Some`, each referring to the
value stored last (`harts_race`).
-/

namespace Riscv

namespace Singleton

open Interleave

variable {α : Type}

/-- The closure that `singleton!` passes to `interrupt::free`, over the
expansion's `VAR`: what it returns, and `VAR` after it. It returns
`VAR.as_mut()`, here the value that reference points to. -/
def closure (expr : α) (var : Option α) : Option α × Option α :=
  let used := var.isSome
  if used then (none, var)
  else
    let var := some expr
    (var, var)

@[simp] theorem closure_some (expr a : α) : closure expr (some a) = (none, some a) := rfl

@[simp] theorem closure_none (expr : α) : closure expr none = (some expr, some expr) := rfl

/-- What a call of `singleton!` on one hart reads and writes: the hart's
`mstatus` and the expansion's `VAR`. -/
structure State (x : Xlen) (α : Type) where
  mstatus : Usize x
  var : Option α

variable {x : Xlen} (bf : BitField)

/-- `singleton!(: T = expr)` on one hart, with `expr` the value that the
expression gives at this call. -/
def singleton (expr : α) (s : State x α) : Option α × State x α :=
  let r := Interrupt.free bf (fun value => (closure expr s.var, value)) s.mstatus
  (r.1.1, ⟨r.2, r.1.2⟩)

/-- The calls a program makes of one expansion, in order, each with the value
its expression gives then. -/
def run (exprs : List α) (s : State x α) : List (Option α) × State x α :=
  runSeq (singleton bf) exprs s

/-- What a sequence of calls returns, as the macro's documentation has it: the
first call made while `VAR` is empty gets `Some` of its own value, and every
other call `None`. -/
def onceResults (var : Option α) : List α → List (Option α)
  | [] => []
  | expr :: exprs => (if var.isSome then none else some expr) :: exprs.map fun _ => none

/-- Once `VAR` is full every call returns `None` and leaves it full. -/
theorem runSeq_closure_of_some (a : α) (exprs : List α) :
    runSeq closure exprs (some a) = (exprs.map fun _ => none, some a) := by
  induction exprs with
  | nil => rfl
  | cons expr exprs ih => simp [ih]

/-- The closure, run over a sequence of calls, fills `VAR` at most once: the
results are `onceResults`, and `VAR` ends as it was or with the first value. -/
theorem runSeq_closure (var : Option α) (exprs : List α) :
    runSeq closure exprs var = (onceResults var exprs, var.or exprs.head?) := by
  cases exprs with
  | nil => cases var <;> rfl
  | cons expr exprs =>
      cases var with
      | none => simp [onceResults, runSeq_closure_of_some]
      | some a => simp [onceResults, runSeq_closure_of_some]

/-- At most one of the results is `Some`. -/
theorem countP_onceResults (var : Option α) (exprs : List α) :
    (onceResults var exprs).countP Option.isSome ≤ 1 := by
  cases exprs with
  | nil => simp [onceResults]
  | cons expr exprs =>
      have hrest : (exprs.map fun _ => (none : Option α)).countP Option.isSome = 0 := by
        simp
      rw [onceResults, List.countP_cons, hrest]
      split <;> simp

variable {bf}

/-- On one hart a call is the closure on `VAR`; `mstatus` is left as it was. -/
theorem singleton_eq (hbf : bf.Lawful) (expr : α) (s : State x α) :
    singleton bf expr s = ((closure expr s.var).1, ⟨s.mstatus, (closure expr s.var).2⟩) := by
  simp only [singleton, Interrupt.free_keeps_word hbf, Interrupt.free_fst]

/-- A run of calls on one hart is the closure run over `VAR`. -/
theorem run_eq (hbf : bf.Lawful) (exprs : List α) (s : State x α) :
    run bf exprs s = ((runSeq closure exprs s.var).1, ⟨s.mstatus, (runSeq closure exprs s.var).2⟩) := by
  induction exprs generalizing s with
  | nil => rfl
  | cons expr exprs ih =>
      simp only [run] at ih ⊢
      rw [runSeq_cons, runSeq_cons, singleton_eq hbf, ih]

/-- `singleton!` on one hart, from any `mstatus` and any `VAR`, over any
sequence of calls: the calls return what the documentation says (`Some` for
the first call made while `VAR` is empty, `None` for all others), so at most
one returns `Some`; `VAR` then holds the value it held, or else the first
call's, and `mstatus` is as it was. -/
theorem singleton_once (hbf : bf.Lawful) (exprs : List α) (s : State x α) :
    (run bf exprs s).1 = onceResults s.var exprs ∧
      (run bf exprs s).2 = ⟨s.mstatus, s.var.or exprs.head?⟩ ∧
      (run bf exprs s).1.countP Option.isSome ≤ 1 := by
  rw [run_eq hbf, runSeq_closure]
  exact ⟨rfl, rfl, countP_onceResults s.var exprs⟩

theorem singleton_once_documented :
    BitField.documented.Lawful ∧
    (run BitField.documented [false, false] (⟨0, none⟩ : State .rv64 Bool)).1 =
        onceResults none [false, false] ∧
      (run BitField.documented [false, false] (⟨0, none⟩ : State .rv64 Bool)).2 =
        ⟨0, (none : Option Bool).or [false, false].head?⟩ ∧
      (run BitField.documented [false, false] (⟨0, none⟩ : State .rv64 Bool)).1.countP
        Option.isSome ≤ 1 :=
  ⟨BitField.documented_lawful, singleton_once BitField.documented_lawful [false, false] ⟨0, none⟩⟩

/-- Where a hart is in the closure, between two of its accesses of `VAR`. -/
inductive Pc (α : Type) where
  /-- before `VAR.is_some()` -/
  | start (expr : α)
  /-- found `VAR` empty, before `VAR = Some(expr)` -/
  | storing (expr : α)
  /-- before `VAR.as_mut()` -/
  | stored
  /-- returned -/
  | done (r : Option α)

/-- One access of `VAR` by a hart in the closure; the branch on `used` is the
hart's own computation and goes with the read. A hart that has returned takes
no more steps. -/
def Pc.step : Pc α → Option α → Pc α × Option α
  | .start expr, var => (if var.isSome then .done none else .storing expr, var)
  | .storing expr, _ => (.stored, some expr)
  | .stored, var => (.done var, var)
  | .done r, var => (.done r, var)

/-- A hart that runs the closure's three accesses with no other hart between
them does what `closure` does. -/
theorem Pc.computes_closure : Computes Pc.step 3 Pc.start Pc.done (closure (α := α)) := by
  intro expr var
  cases var <;> rfl

/-- Each write of the round replaces the one before. -/
theorem foldl_store {ι : Type} (inp : ι → α) (ts : List ι) (hne : ts ≠ []) (var : Option α) :
    ts.foldl (fun _ i => some (inp i)) var = some (inp (ts.getLast hne)) := by
  induction ts generalizing var with
  | nil => exact absurd rfl hne
  | cons i ts ih =>
      cases ts with
      | nil => rfl
      | cons j ts =>
          rw [List.foldl_cons, List.getLast_cons (List.cons_ne_nil j ts)]
          exact ih (List.cons_ne_nil j ts) (some (inp i))

variable {ι : Type} [DecidableEq ι]

/-- Harts that each call `singleton!` once, one call after another, from any
`VAR`: they return what one hart's calls return (`onceResults`, so at most
one `Some`), and `VAR` ends as it was or with the first hart's value. -/
theorem harts_serial (inp : ι → α) (ts : List ι) (hts : ts.Nodup)
    (c : Config ι (Pc α) (Option α)) (hc : ∀ i ∈ ts, c.locals i = .start (inp i)) :
    ts.map (exec Pc.step (ts.flatMap fun i => List.replicate 3 i) c).locals =
        (onceResults c.shared (ts.map inp)).map Pc.done ∧
      (exec Pc.step (ts.flatMap fun i => List.replicate 3 i) c).shared =
        c.shared.or (ts.map inp).head? := by
  obtain ⟨hlocals, hshared⟩ := exec_serial Pc.computes_closure inp ts hts c hc
  rw [runSeq_closure] at hlocals hshared
  exact ⟨hlocals, hshared⟩

theorem harts_serial_two :
    [(0 : Fin 2), 1].Nodup ∧
    (∀ i ∈ [(0 : Fin 2), 1], (⟨fun i => .start i.val, none⟩ : Config (Fin 2) (Pc Nat) (Option Nat)).locals i =
      .start (Fin.val i)) ∧
    [(0 : Fin 2), 1].map (exec Pc.step ([(0 : Fin 2), 1].flatMap fun i => List.replicate 3 i)
        (⟨fun i => .start i.val, none⟩ : Config (Fin 2) (Pc Nat) (Option Nat))).locals =
        (onceResults none ([(0 : Fin 2), 1].map Fin.val)).map Pc.done ∧
      (exec Pc.step ([(0 : Fin 2), 1].flatMap fun i => List.replicate 3 i)
        (⟨fun i => .start i.val, none⟩ : Config (Fin 2) (Pc Nat) (Option Nat))).shared =
        (none : Option Nat).or ([(0 : Fin 2), 1].map Fin.val).head? := by
  have hnd : [(0 : Fin 2), 1].Nodup := by decide
  have hc : ∀ i ∈ [(0 : Fin 2), 1],
      (⟨fun i => .start i.val, none⟩ : Config (Fin 2) (Pc Nat) (Option Nat)).locals i =
        .start (Fin.val i) := fun _ _ => rfl
  exact ⟨hnd, hc, harts_serial Fin.val [(0 : Fin 2), 1] hnd _ hc⟩

/-- While `VAR` stays empty, harts at their start each read it and go on to store. -/
theorem exec_reads (inp : ι → α) (ts : List ι) (hts : ts.Nodup)
    (c : Config ι (Pc α) (Option α)) (hc : ∀ i ∈ ts, c.locals i = .start (inp i))
    (hvar : c.shared = none) :
    exec Pc.step ts c =
      ⟨fun j => if j ∈ ts then .storing (inp j) else c.locals j, none⟩ := by
  rw [exec_round (fun s => s = none) (fun i => .storing (inp i)) (fun _ s => s)
    (fun _ _ h => h) ts hts c hvar, hvar, List.foldl_fixed]
  rintro i hi s rfl
  rw [hc i hi]
  rfl

/-- Harts about to store each store their value; the last one stays. -/
theorem exec_stores (inp : ι → α) (ts : List ι) (hts : ts.Nodup)
    (c : Config ι (Pc α) (Option α)) (hc : ∀ i ∈ ts, c.locals i = .storing (inp i)) :
    exec Pc.step ts c =
      ⟨fun j => if j ∈ ts then .stored else c.locals j,
        ts.foldl (fun _ i => some (inp i)) c.shared⟩ := by
  rw [exec_round (fun _ => True) (fun _ => .stored) (fun i _ => some (inp i))
    (fun _ _ _ => trivial) ts hts c trivial]
  intro i hi s _
  rw [hc i hi]
  rfl

/-- Harts about to take `VAR.as_mut()` each return what `VAR` holds. -/
theorem exec_returns (ts : List ι) (hts : ts.Nodup) (c : Config ι (Pc α) (Option α))
    (hc : ∀ i ∈ ts, c.locals i = .stored) :
    exec Pc.step ts c = ⟨fun j => if j ∈ ts then .done c.shared else c.locals j, c.shared⟩ := by
  rw [exec_round (fun s => s = c.shared) (fun _ => .done c.shared) (fun _ s => s)
    (fun _ _ h => h) ts hts c rfl, List.foldl_fixed]
  rintro i hi s rfl
  rw [hc i hi]
  rfl

/-- The race the macro's documentation warns of: on several harts, when every
hart reads the empty `VAR` before any hart stores to it, then every hart
stores, then every hart takes `VAR.as_mut()`, with the harts of each round in
any order, every hart's call returns `Some`, and all of them the value stored
last, which `VAR` keeps; the other harts' values are lost. -/
theorem harts_race (inp : ι → α) (reads stores returns : List ι) (hreads : reads.Nodup)
    (hstores : stores.Perm reads) (hreturns : returns.Perm reads) (hne : stores ≠ [])
    (c : Config ι (Pc α) (Option α)) (hc : ∀ i ∈ reads, c.locals i = .start (inp i))
    (hvar : c.shared = none) :
    (∀ i ∈ reads, (exec Pc.step (reads ++ stores ++ returns) c).locals i =
      .done (some (inp (stores.getLast hne)))) ∧
    (exec Pc.step (reads ++ stores ++ returns) c).shared = some (inp (stores.getLast hne)) := by
  -- every hart reads `VAR` while it is still empty
  have hread := exec_reads inp reads hreads c hc hvar
  -- then every hart stores, and the last store stays
  have hstore := exec_stores inp stores (hstores.nodup_iff.mpr hreads) (exec Pc.step reads c)
    (fun j hj => by simp [hread, hstores.mem_iff.mp hj])
  rw [foldl_store inp stores hne] at hstore
  -- then every hart returns what `VAR` holds
  have hreturn := exec_returns returns (hreturns.nodup_iff.mpr hreads)
    (exec Pc.step stores (exec Pc.step reads c))
    (fun j hj => by simp [hstore, hstores.mem_iff.mpr (hreturns.mem_iff.mp hj)])
  rw [exec_append, exec_append, hreturn, hstore]
  exact ⟨fun i hi => by simp [hreturns.mem_iff.mpr hi], rfl⟩

/-- Two harts read in the order 0, 1, store in the order 1, 0 and return in
the order 0, 1: both return hart 0's value. -/
theorem harts_race_two :
    [(0 : Fin 2), 1].Nodup ∧ [(1 : Fin 2), 0].Perm [0, 1] ∧ [(0 : Fin 2), 1].Perm [0, 1] ∧
    [(1 : Fin 2), 0] ≠ [] ∧
    (∀ i ∈ [(0 : Fin 2), 1],
      (⟨fun i => .start i.val, none⟩ : Config (Fin 2) (Pc Nat) (Option Nat)).locals i =
        .start (Fin.val i)) ∧
    (⟨fun i => .start i.val, none⟩ : Config (Fin 2) (Pc Nat) (Option Nat)).shared = none ∧
    ((∀ i ∈ [(0 : Fin 2), 1], (exec Pc.step ([(0 : Fin 2), 1] ++ [1, 0] ++ [0, 1])
        (⟨fun i => .start i.val, none⟩ : Config (Fin 2) (Pc Nat) (Option Nat))).locals i =
      .done (some (Fin.val ([(1 : Fin 2), 0].getLast (List.cons_ne_nil _ _))))) ∧
      (exec Pc.step ([(0 : Fin 2), 1] ++ [1, 0] ++ [0, 1])
        (⟨fun i => .start i.val, none⟩ : Config (Fin 2) (Pc Nat) (Option Nat))).shared =
        some (Fin.val ([(1 : Fin 2), 0].getLast (List.cons_ne_nil _ _)))) := by
  have hnd : [(0 : Fin 2), 1].Nodup := by decide
  have hstores : [(1 : Fin 2), 0].Perm [0, 1] := by decide
  have hreturns : [(0 : Fin 2), 1].Perm [0, 1] := List.Perm.refl _
  have hc : ∀ i ∈ [(0 : Fin 2), 1],
      (⟨fun i => .start i.val, none⟩ : Config (Fin 2) (Pc Nat) (Option Nat)).locals i =
        .start (Fin.val i) := fun _ _ => rfl
  exact ⟨hnd, hstores, hreturns, List.cons_ne_nil _ _, hc, rfl,
    harts_race Fin.val [0, 1] [1, 0] [0, 1] hnd hstores hreturns (List.cons_ne_nil _ _) _ hc rfl⟩

/-! ### Every interleaving with exclusive windows -/

section Exclusive

/-- A hart past its store: about to take `VAR.as_mut()`, or returned `Some`. -/
def Pc.Past : Pc α → Prop
  | .stored => True
  | .done (some _) => True
  | _ => False

@[simp] theorem Pc.step_start_none (expr : α) : Pc.step (.start expr) none = (.storing expr, none) :=
  rfl

@[simp] theorem Pc.step_start_some (expr a : α) :
    Pc.step (.start expr) (some a) = (.done none, some a) := rfl

@[simp] theorem Pc.step_storing (expr : α) (var : Option α) :
    Pc.step (.storing expr) var = (.stored, some expr) := rfl

@[simp] theorem Pc.step_stored (var : Option α) : Pc.step .stored var = (.done var, var) := rfl

@[simp] theorem Pc.step_done (r var : Option α) : Pc.step (.done r) var = (.done r, var) := rfl

/-- No two harts are at once between their read of the empty `VAR` and their
store to it, as a lock around the closure on every hart would ensure. -/
def Exclusive (c : Config ι (Pc α) (Option α)) : Prop :=
  ∀ i j e e', c.locals i = .storing e → c.locals j = .storing e' → i = j

/-- The hart is between its read of the empty `VAR` and its store. -/
def Pc.isStoring : Pc α → Bool
  | .storing _ => true
  | _ => false

theorem Pc.isStoring_iff (p : Pc α) : p.isStoring = true ↔ ∃ e, p = .storing e := by
  cases p <;> simp [Pc.isStoring]

omit [DecidableEq ι] in
theorem exclusive_iff (c : Config ι (Pc α) (Option α)) :
    Exclusive c ↔
      ∀ i j, (c.locals i).isStoring = true → (c.locals j).isStoring = true → i = j := by
  simp only [Exclusive, Pc.isStoring_iff]
  constructor
  · rintro h i j ⟨e, hi⟩ ⟨e', hj⟩
    exact h i j e e' hi hj
  · intro h i j e e' hi hj
    exact h i j ⟨e, hi⟩ ⟨e', hj⟩

/-- Over finitely many harts, `Exclusive` is decided hart by hart. -/
instance [Fintype ι] (c : Config ι (Pc α) (Option α)) : Decidable (Exclusive c) :=
  decidable_of_iff _ (exclusive_iff c).symm

/-- What each point of a run keeps while `Exclusive` holds: a hart about to
store found `VAR` empty, and it still is; a hart past its store has filled
`VAR`, no other hart is past its store, and a hart that returned `Some`
returned what `VAR` holds. -/
structure OnceInv (c : Config ι (Pc α) (Option α)) : Prop where
  storing_empty : ∀ i e, c.locals i = .storing e → c.shared = none
  past_full : ∀ i, (c.locals i).Past → c.shared.isSome
  past_unique : ∀ i j, (c.locals i).Past → (c.locals j).Past → i = j
  returned_var : ∀ i a, c.locals i = .done (some a) → c.shared = some a

omit [DecidableEq ι] in
/-- Harts all at their start keep the invariant, whatever `VAR` holds. -/
theorem OnceInv.of_start (c : Config ι (Pc α) (Option α))
    (hstart : ∀ i, ∃ expr, c.locals i = .start expr) : OnceInv c := by
  refine ⟨fun i e h => ?_, fun i h => ?_, fun i j h _ => ?_, fun i a h => ?_⟩ <;>
    obtain ⟨expr, hi⟩ := hstart i <;> simp [hi, Pc.Past] at h

omit [DecidableEq ι] in
/-- A change that leaves `VAR` alone and moves one hart to `done none`, a
state no field of the invariant is about, keeps the invariant. -/
theorem OnceInv.of_returned_none {c c' : Config ι (Pc α) (Option α)} (hI : OnceInv c) {k : ι}
    (hk' : c'.locals k = .done none) (hother : ∀ i, i ≠ k → c'.locals i = c.locals i)
    (hv : c'.shared = c.shared) : OnceInv c' := by
  -- every hart that a field is about is another hart, unchanged
  have hne : ∀ i, c'.locals i ≠ .done none → c'.locals i = c.locals i := by
    intro i hi
    by_cases hik : i = k
    · exact absurd (hik ▸ hk') hi
    · exact hother i hik
  refine ⟨fun i e h => ?_, fun i h => ?_, fun i j hi hj => ?_, fun i a h => ?_⟩
  · rw [hne i (by rw [h]; simp)] at h
    rw [hv, hI.storing_empty i e h]
  · have hi : c'.locals i ≠ .done none := fun h' => by rw [h'] at h; exact h
    rw [hne i hi] at h
    rw [hv]
    exact hI.past_full i h
  · have hi' : c'.locals i ≠ .done none := fun h' => by rw [h'] at hi; exact hi
    have hj' : c'.locals j ≠ .done none := fun h' => by rw [h'] at hj; exact hj
    rw [hne i hi'] at hi
    rw [hne j hj'] at hj
    exact hI.past_unique i j hi hj
  · rw [hne i (by rw [h]; simp)] at h
    rw [hv, hI.returned_var i a h]

/-- A hart reads `VAR`: when it is empty the hart goes on to store, and no
hart is past a store yet; when it is full the hart returns `None`. -/
theorem OnceInv.step_read {c : Config ι (Pc α) (Option α)} (hI : OnceInv c) {k : ι} {expr : α}
    (hk : c.locals k = .start expr) : OnceInv (c.stepAt Pc.step k) := by
  have hother : ∀ i, i ≠ k → (c.stepAt Pc.step k).locals i = c.locals i :=
    fun i h => stepAt_locals_of_ne c h
  cases hv : c.shared with
  | none =>
      have hk' : (c.stepAt Pc.step k).locals k = .storing expr := by simp [hk, hv]
      have hv' : (c.stepAt Pc.step k).shared = none := by simp [hk, hv]
      have hnopast : ∀ i, ¬ ((c.stepAt Pc.step k).locals i).Past := by
        intro i hi
        by_cases hik : i = k
        · rw [hik, hk'] at hi
          exact hi
        · rw [hother i hik] at hi
          have hfull := hI.past_full i hi
          rw [hv] at hfull
          exact Bool.false_ne_true hfull
      refine ⟨fun _ _ _ => hv', fun i hi => absurd hi (hnopast i),
        fun i _ hi _ => absurd hi (hnopast i), fun i a hi => absurd ?_ (hnopast i)⟩
      rw [hi]
      trivial
  | some a =>
      apply hI.of_returned_none (k := k) _ hother
      · simp [hk, hv]
      · simp [hk, hv]

/-- A hart stores: its window was the only one open, so `VAR` was empty and
no other hart is past a store; now it alone is. -/
theorem OnceInv.step_store {c : Config ι (Pc α) (Option α)} (hI : OnceInv c) (hx : Exclusive c)
    {k : ι} {expr : α} (hk : c.locals k = .storing expr) : OnceInv (c.stepAt Pc.step k) := by
  have hother : ∀ i, i ≠ k → (c.stepAt Pc.step k).locals i = c.locals i :=
    fun i h => stepAt_locals_of_ne c h
  have hempty : c.shared = none := hI.storing_empty k expr hk
  have hk' : (c.stepAt Pc.step k).locals k = .stored := by simp [hk]
  have hv' : (c.stepAt Pc.step k).shared = some expr := by simp [hk]
  -- no other hart is past a store, since `VAR` was empty
  have honly : ∀ i, ((c.stepAt Pc.step k).locals i).Past → i = k := by
    intro i hi
    by_contra hik
    rw [hother i hik] at hi
    have hfull := hI.past_full i hi
    rw [hempty] at hfull
    exact Bool.false_ne_true hfull
  refine ⟨fun i e hi => ?_, fun i _ => by rw [hv']; rfl,
    fun i j hi hj => (honly i hi).trans (honly j hj).symm, fun i a hi => ?_⟩
  · -- another hart in its window would share it with this one
    have hik : i ≠ k := fun h => by rw [h, hk'] at hi; cases hi
    rw [hother i hik] at hi
    exact absurd (hx i k e expr hi hk) hik
  · have hik : i = k := honly i (by rw [hi]; trivial)
    rw [hik, hk'] at hi
    cases hi

/-- A hart takes `VAR.as_mut()`: it is past its store, so `VAR` is full, and
it returns what `VAR` holds. -/
theorem OnceInv.step_return {c : Config ι (Pc α) (Option α)} (hI : OnceInv c) {k : ι}
    (hk : c.locals k = .stored) : OnceInv (c.stepAt Pc.step k) := by
  have hother : ∀ i, i ≠ k → (c.stepAt Pc.step k).locals i = c.locals i :=
    fun i h => stepAt_locals_of_ne c h
  obtain ⟨a, hv⟩ := Option.isSome_iff_exists.mp (hI.past_full k (by rw [hk]; trivial))
  have hk' : (c.stepAt Pc.step k).locals k = .done (some a) := by simp [hk, hv]
  have hv' : (c.stepAt Pc.step k).shared = some a := by simp [hk, hv]
  -- hart `k` is past its store before and after, and every other hart is unchanged
  have hpast : ∀ i, ((c.stepAt Pc.step k).locals i).Past ↔ (c.locals i).Past := by
    intro i
    by_cases hik : i = k
    · rw [hik, hk', hk]
      exact iff_of_true trivial trivial
    · rw [hother i hik]
  refine ⟨fun i e hi => ?_, fun i _ => by rw [hv']; rfl,
    fun i j hi hj => hI.past_unique i j ((hpast i).mp hi) ((hpast j).mp hj), fun i b hi => ?_⟩
  · have hik : i ≠ k := fun h => by rw [h, hk'] at hi; cases hi
    rw [hother i hik] at hi
    rw [hv', ← hv]
    exact hI.storing_empty i e hi
  · by_cases hik : i = k
    · rw [hik, hk'] at hi
      cases hi
      exact hv'
    · rw [hother i hik] at hi
      rw [hv', ← hv]
      exact hI.returned_var i b hi

/-- One step of any hart keeps the invariant while no other hart's window is
open together with its own. -/
theorem OnceInv.step {c : Config ι (Pc α) (Option α)} (hI : OnceInv c) (hx : Exclusive c)
    (k : ι) : OnceInv (c.stepAt Pc.step k) := by
  cases hk : c.locals k with
  | start expr => exact hI.step_read hk
  | storing expr => exact hI.step_store hx hk
  | stored => exact hI.step_return hk
  | done r =>
      -- a hart that has returned changes nothing
      have hsame : c.stepAt Pc.step k = c := by
        ext i
        · by_cases hik : i = k
          · rw [hik, stepAt_locals_self, hk, Pc.step_done]
          · rw [stepAt_locals_of_ne c hik]
        · simp [hk]
      rw [hsame]
      exact hI

/-- `singleton!` on several harts, over every interleaving in which no two
harts are ever between their read of the empty `VAR` and their store at the
same time: at most one hart returns `Some`, and what it returns is what
`VAR` holds at the end. -/
theorem harts_exclusive (sch : List ι) (c : Config ι (Pc α) (Option α))
    (hstart : ∀ i, ∃ expr, c.locals i = .start expr) (hx : Always Pc.step Exclusive sch c) :
    (∀ i j a b, (exec Pc.step sch c).locals i = .done (some a) →
      (exec Pc.step sch c).locals j = .done (some b) → i = j) ∧
    ∀ i a, (exec Pc.step sch c).locals i = .done (some a) → (exec Pc.step sch c).shared = some a := by
  have hinv : OnceInv (exec Pc.step sch c) :=
    Always.exec (fun c i hI hx _ => hI.step hx i) sch c (OnceInv.of_start c hstart) hx
  refine ⟨fun i j a b hi hj => hinv.past_unique i j ?_ ?_, hinv.returned_var⟩
  · rw [hi]
    trivial
  · rw [hj]
    trivial

/-- Two harts, each starting one call from the empty `VAR`. -/
def twoHarts : Config Bool (Pc Nat) (Option Nat) := ⟨fun i => .start i.toNat, none⟩

/-- Hart `false` reads and stores, hart `true` then finds `VAR` full, and hart
`false` returns: no two windows overlap along the schedule. -/
theorem harts_exclusive_two :
    (∀ i, ∃ expr, twoHarts.locals i = .start expr) ∧
    Always Pc.step Exclusive [false, false, true, false, true] twoHarts ∧
    (∀ i j a b, (exec Pc.step [false, false, true, false, true] twoHarts).locals i =
        .done (some a) →
      (exec Pc.step [false, false, true, false, true] twoHarts).locals j = .done (some b) →
      i = j) ∧
    ∀ i a, (exec Pc.step [false, false, true, false, true] twoHarts).locals i = .done (some a) →
      (exec Pc.step [false, false, true, false, true] twoHarts).shared = some a := by
  have hstart : ∀ i, ∃ expr, twoHarts.locals i = .start expr := fun i => ⟨i.toNat, rfl⟩
  have hx : Always Pc.step Exclusive [false, false, true, false, true] twoHarts := by decide
  exact ⟨hstart, hx, harts_exclusive _ _ hstart hx⟩

end Exclusive

end Singleton

end Riscv
