import Mathlib.Logic.Function.Basic
import Mathlib.Data.List.Basic

/-!
# The operation scheduler coalesces its schedules

`OperationScheduler` keeps, for every operation it was told about, a delay and a flag
`has_been_scheduled`. `schedule` hands the scheduler a `RunAndClearScheduled` task only when
the flag is down, and raises it; the task lowers the flag before it runs the operation. The
operation's closure may call `schedule` again while it runs, on itself or on another
operation; here that is the next event, since the task has already left the scheduler's
queue and the flag is down.

`Coalesced` says that the number of pending tasks for every operation is the flag, read as
`0` or `1`. It holds initially and every event keeps it (`coalesced_step`), so it holds of
every reachable state, whatever order the scheduler runs its tasks in
(`operation_scheduler_coalesces`). A `CHECK` that fails stops the program: the step gives
`none` and the run ends there.
-/

namespace CacheInvalidation

/-- The identity of an operation: the `Closure*` that keys `operations_`. `0` is `NULL`. -/
abbrev Closure := Nat

/-- `OperationScheduleInfo`. The delay is a `TimeDelta`, in microseconds. -/
structure OperationScheduleInfo where
  delay : Int
  name : String
  hasBeenScheduled : Bool
  deriving DecidableEq, Repr

/-- A `RunAndClearScheduled(operation, op_info)` task handed to the scheduler with a
smeared delay. `op_info` is the map entry of `operation`, which is never erased. -/
structure ScheduledTask where
  delay : Int
  operation : Closure
  deriving DecidableEq, Repr

/-- The operation scheduler together with the tasks it handed to `scheduler_` that have not
run yet. -/
structure OperationScheduler where
  operations : Closure → Option OperationScheduleInfo
  pending : List ScheduledTask

namespace OperationScheduler

/-- The constructor: no operations and nothing scheduled. -/
def init : OperationScheduler :=
  ⟨fun _ => none, []⟩

/-- `SetOperation(delay, operation, name)`. -/
def setOperation (s : OperationScheduler) (delay : Int) (operation : Closure)
    (name : String) : Option OperationScheduler :=
  if s.operations operation = none ∧ 0 < delay ∧ operation ≠ 0 then
    some { s with operations := Function.update s.operations operation (some ⟨delay, name, false⟩) }
  else none

/-- `ChangeDelayForTest(operation, delay)`. -/
def changeDelayForTest (s : OperationScheduler) (operation : Closure) (delay : Int) :
    Option OperationScheduler :=
  match s.operations operation with
  | some info =>
    some { s with operations := Function.update s.operations operation (some { info with delay }) }
  | none => none

/-- `Schedule(operation)`. `smearedDelay` is what `smearer_.GetSmearedDelay` returned, a
random draw around the operation's delay. -/
def schedule (s : OperationScheduler) (operation : Closure) (smearedDelay : Int) :
    Option OperationScheduler :=
  match s.operations operation with
  | some info =>
    if !info.hasBeenScheduled then
      some ⟨Function.update s.operations operation (some { info with hasBeenScheduled := true }),
        s.pending ++ [⟨smearedDelay, operation⟩]⟩
    else some s
  | none => none

/-- The scheduler runs the pending `task`: `RunAndClearScheduled` lowers the flag; what the
operation's closure then calls are the events that follow. -/
def runAndClearScheduled (s : OperationScheduler) (task : ScheduledTask) :
    Option OperationScheduler :=
  if task ∈ s.pending then
    some ⟨Function.update s.operations task.operation
        ((s.operations task.operation).map ({ · with hasBeenScheduled := false })),
      s.pending.erase task⟩
  else none

/-- The calls the scheduler and the program make. -/
inductive Event
  | setOperation (delay : Int) (operation : Closure) (name : String)
  | changeDelayForTest (operation : Closure) (delay : Int)
  | schedule (operation : Closure) (smearedDelay : Int)
  | run (task : ScheduledTask)

/-- One event; `none` when a `CHECK` fails or the task is not pending. -/
def step (s : OperationScheduler) : Event → Option OperationScheduler
  | .setOperation delay operation name => s.setOperation delay operation name
  | .changeDelayForTest operation delay => s.changeDelayForTest operation delay
  | .schedule operation smearedDelay => s.schedule operation smearedDelay
  | .run task => s.runAndClearScheduled task

/-- The states a run from the constructor reaches. -/
inductive Reachable : OperationScheduler → Prop
  | init : Reachable init
  | step {s s' : OperationScheduler} (e : Event) : Reachable s → s.step e = some s' → Reachable s'

/-- The number of pending `RunAndClearScheduled` tasks for `operation`. -/
def pendingCount (s : OperationScheduler) (operation : Closure) : Nat :=
  s.pending.countP (·.operation == operation)

/-- The `has_been_scheduled` flag of `operation`, down for an unknown one. -/
def flag (s : OperationScheduler) (operation : Closure) : Bool :=
  ((s.operations operation).map (·.hasBeenScheduled)).getD false

/-- Every operation has exactly as many pending tasks as its flag says. -/
def Coalesced (s : OperationScheduler) : Prop :=
  ∀ operation, s.pendingCount operation = (s.flag operation).toNat

/-! ## Each call, once -/

theorem setOperation_spec {s s' : OperationScheduler} {delay : Int} {operation : Closure}
    {name : String} (h : s.setOperation delay operation name = some s') :
    (s.operations operation = none ∧ 0 < delay ∧ operation ≠ 0) ∧
      s' = { s with operations :=
        Function.update s.operations operation (some ⟨delay, name, false⟩) } := by
  unfold setOperation at h
  split at h
  · exact ⟨‹_›, (Option.some.inj h).symm⟩
  · cases h

theorem changeDelayForTest_spec {s s' : OperationScheduler} {operation : Closure}
    {delay : Int} (h : s.changeDelayForTest operation delay = some s') :
    ∃ info, s.operations operation = some info ∧
      s' = { s with operations := Function.update s.operations operation (some { info with delay }) } := by
  unfold changeDelayForTest at h
  split at h
  · exact ⟨_, ‹_›, (Option.some.inj h).symm⟩
  · cases h

theorem schedule_spec {s s' : OperationScheduler} {operation : Closure} {d : Int}
    (h : s.schedule operation d = some s') :
    ∃ info, s.operations operation = some info ∧
      ((info.hasBeenScheduled = false ∧
        s' = ⟨Function.update s.operations operation (some { info with hasBeenScheduled := true }),
          s.pending ++ [⟨d, operation⟩]⟩) ∨
       (info.hasBeenScheduled = true ∧ s' = s)) := by
  unfold schedule at h
  split at h
  · rename_i info hinfo
    refine ⟨info, hinfo, ?_⟩
    cases hb : info.hasBeenScheduled <;> simp only [hb, Bool.not_false, Bool.not_true,
      ite_true, ite_false, Bool.false_eq_true, Option.some.injEq] at h
    · exact .inl ⟨rfl, h.symm⟩
    · exact .inr ⟨rfl, h.symm⟩
  · cases h

theorem runAndClearScheduled_spec {s s' : OperationScheduler} {task : ScheduledTask}
    (h : s.runAndClearScheduled task = some s') :
    task ∈ s.pending ∧
      s' = ⟨Function.update s.operations task.operation
          ((s.operations task.operation).map ({ · with hasBeenScheduled := false })),
        s.pending.erase task⟩ := by
  unfold runAndClearScheduled at h
  split at h
  · exact ⟨‹_›, (Option.some.inj h).symm⟩
  · cases h

/-! ## Counting pending tasks -/

theorem flag_update (operations : Closure → Option OperationScheduleInfo) (op op' : Closure)
    (o : Option OperationScheduleInfo) (pending : List ScheduledTask) :
    flag ⟨Function.update operations op o, pending⟩ op' =
      if op' = op then (o.map (·.hasBeenScheduled)).getD false else flag ⟨operations, []⟩ op' := by
  by_cases h : op' = op
  · subst h; simp [flag]
  · simp [flag, h]

theorem countP_erase_add {pending : List ScheduledTask} {t : ScheduledTask} (ht : t ∈ pending)
    (op : Closure) :
    (pending.erase t).countP (·.operation == op) + (if t.operation = op then 1 else 0) =
      pending.countP (·.operation == op) := by
  rw [(List.perm_cons_erase ht).countP_eq, List.countP_cons]
  simp

/-- Running a task leaves its operation's flag down. -/
theorem flag_cleared (o : Option OperationScheduleInfo) :
    ((o.map ({ · with hasBeenScheduled := false })).map (·.hasBeenScheduled)).getD false = false := by
  cases o <;> rfl

/-! ## The invariant -/

theorem coalesced_init : init.Coalesced := by
  intro op
  simp [pendingCount, flag, init]

theorem coalesced_step {s s' : OperationScheduler} {e : Event} (hc : s.Coalesced)
    (h : s.step e = some s') : s'.Coalesced := by
  intro op
  have hop := hc op
  cases e with
  | setOperation delay operation name =>
    obtain ⟨⟨hnone, -⟩, rfl⟩ := setOperation_spec h
    by_cases ho : op = operation
    · subst ho; simp_all [pendingCount, flag]
    · simpa [pendingCount, flag_update, ho, flag] using hop
  | changeDelayForTest operation delay =>
    obtain ⟨info, hinfo, rfl⟩ := changeDelayForTest_spec h
    by_cases ho : op = operation
    · subst ho; simpa [pendingCount, flag, hinfo] using hop
    · simpa [pendingCount, flag_update, ho, flag] using hop
  | schedule operation d =>
    obtain ⟨info, hinfo, ⟨hb, rfl⟩ | ⟨-, rfl⟩⟩ := schedule_spec h
    · by_cases ho : op = operation
      · subst ho
        simp_all [pendingCount, flag, List.countP_append]
      · simpa [pendingCount, flag_update, ho, flag, List.countP_append, Ne.symm ho] using hop
    · exact hop
  | run task =>
    obtain ⟨hmem, rfl⟩ := runAndClearScheduled_spec h
    have hcount := countP_erase_add hmem op
    by_cases ho : op = task.operation
    · subst ho
      have hle := Bool.toNat_le (s.flag task.operation)
      simp only [pendingCount, flag_update, ite_true, flag_cleared, Bool.toNat_false] at hop hcount ⊢
      omega
    · simp only [pendingCount, flag_update, ho, Ne.symm ho, ite_false, Nat.add_zero] at hop hcount ⊢
      simpa [flag] using hcount.trans hop

theorem Reachable.coalesced {s : OperationScheduler} (r : s.Reachable) : s.Coalesced := by
  induction r with
  | init => exact coalesced_init
  | step e _ h ih => exact coalesced_step ih h

/-! ## Schedules coalesce -/

/-- After `Schedule(operation)` returns, exactly one task for it is pending: a call made
while one is pending is coalesced with it, never lost. -/
theorem pendingCount_schedule {s s' : OperationScheduler} (hc : s.Coalesced) {op : Closure}
    {d : Int} (h : s.schedule op d = some s') : s'.pendingCount op = 1 := by
  have hop := hc op
  obtain ⟨info, hinfo, ⟨hb, rfl⟩ | ⟨hb, rfl⟩⟩ := schedule_spec h <;>
    simp_all [pendingCount, flag, List.countP_append]

/-- In every reachable state, an operation registered by `SetOperation` has at most one
pending `RunAndClearScheduled` task, its flag is up exactly when one is pending, and one is
pending after every `Schedule` of it. -/
theorem operation_scheduler_coalesces {s : OperationScheduler} (r : s.Reachable) (op : Closure) :
    (∀ info, s.operations op = some info →
      s.pendingCount op ≤ 1 ∧ (info.hasBeenScheduled = true ↔ s.pendingCount op = 1)) ∧
    ∀ d s', s.schedule op d = some s' → s'.pendingCount op = 1 := by
  have hc := r.coalesced
  refine ⟨fun info hinfo => ?_, fun d s' h => pendingCount_schedule hc h⟩
  have hop := hc op
  simp only [flag, hinfo, Option.map_some', Option.getD_some] at hop
  rw [hop]
  cases info.hasBeenScheduled <;> simp

/-- Operation `1`, set with delay `5` and scheduled once. -/
theorem operation_scheduler_coalesces_scheduled_once :
    let s : OperationScheduler :=
      ⟨Function.update (Function.update (fun _ => none) 1 (some ⟨5, "op", false⟩)) 1
        (some ⟨5, "op", true⟩), [] ++ [⟨3, 1⟩]⟩
    s.Reachable ∧
    (∀ info, s.operations 1 = some info →
      s.pendingCount 1 ≤ 1 ∧ (info.hasBeenScheduled = true ↔ s.pendingCount 1 = 1)) ∧
    ∀ d s', s.schedule 1 d = some s' → s'.pendingCount 1 = 1 :=
  have r : OperationScheduler.Reachable
      ⟨Function.update (Function.update (fun _ => none) 1 (some ⟨5, "op", false⟩)) 1
        (some ⟨5, "op", true⟩), [] ++ [⟨3, 1⟩]⟩ :=
    .step (.schedule 1 3) (.step (.setOperation 5 1 "op") .init rfl) rfl
  ⟨r, operation_scheduler_coalesces r 1⟩

end OperationScheduler

end CacheInvalidation
