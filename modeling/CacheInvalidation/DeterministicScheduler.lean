import Mathlib.Data.List.Nodup
import Mathlib.Data.List.Perm.Basic

/-!
# The test scheduler runs each task once, never early, in enqueue order

`DeterministicScheduler` (`test/deterministic-scheduler.h`) is the `Scheduler` the unit tests
run the throttle on. `Schedule` pushes a `TaskEntry` (due time, enqueue id, task) on a
priority queue whose `operator<` puts the earliest time, then the lowest id, on top.
`RunReadyTasks` pops and runs the top entry while it is due, and the tasks it runs may
schedule more. `StopScheduler` runs the entries that are due and deletes the rest; from then
on `Schedule` deletes its task.

A closure is modelled by what it does when it runs (`runTask`): it changes the rest of the
program, a state `σ`, and hands tasks to `Schedule`. `popTop_spec` says `top()` is the entry
that orders first, and `runNextTask_eq_none` that `RunNextTask()` returns false exactly when
no entry is due, so `RunReadyTasks` leaves only future entries (`runReadyTasks_future`).

`History` is what a run has done: the entries run so far, each with the time it ran, against
the queue. Every event keeps it (`history_step`). So over every run no task runs before its
time, tasks due at the same time run in the order they were enqueued, as the comment on
`TaskEntry` says, no task runs twice, and until `StopScheduler` every task handed to
`Schedule` has run or is still queued (`scheduler_runs_tasks_once_on_time`). `InOrder` adds
that, while the clock only moves forward and no delay is negative, the tasks run exactly in
the order of their times, then ids (`scheduler_runs_in_due_order`).

`RunReadyTasks` loops until no entry is due, so it returns only if the tasks it runs stop
scheduling due work. When every task schedules only future work, each turn takes one due
entry off and adds none (`runReadyTasks_runs_due`): with room for the entries due it returns,
having run exactly those, in order (`scheduler_runs_ready_tasks_and_returns`). `StopScheduler`
is final: after it `Schedule` deletes every task and nothing runs again
(`scheduler_stops_for_good`).
-/

namespace CacheInvalidation

/-- `TaskEntry`: a task on the work queue, the time at which to run it, whether it was
scheduled "immediately", and the order in which it was enqueued. -/
structure TaskEntry (α : Type) where
  time : Int
  immediate : Bool
  id : Nat
  task : α
  deriving DecidableEq, Repr

namespace TaskEntry

variable {α : Type}

/-- `operator<`. The priority queue hands out its largest entry first, so an entry is the
smaller when it is due later, or due at the same time and enqueued later. -/
def lt (a b : TaskEntry α) : Bool :=
  decide (a.time > b.time) || (decide (a.time = b.time) && decide (a.id > b.id))

/-- `a` comes off the queue before `b`: it is due earlier, or at the same time and was
enqueued first. -/
def Before (a b : TaskEntry α) : Prop :=
  a.time < b.time ∨ (a.time = b.time ∧ a.id < b.id)

instance (a b : TaskEntry α) : Decidable (a.Before b) :=
  inferInstanceAs (Decidable (_ ∨ _))

theorem lt_eq_true {a b : TaskEntry α} : a.lt b = true ↔ b.Before a := by
  simp only [lt, Before, Bool.or_eq_true, Bool.and_eq_true, decide_eq_true_eq]
  omega

end TaskEntry

open TaskEntry

section Queue

variable {α : Type}

/-- `top()` with `pop()`: the largest entry under `operator<`, and the queue without it;
`none` on an empty queue. The queue is a list in no particular order. -/
def popTop : List (TaskEntry α) → Option (TaskEntry α × List (TaskEntry α))
  | [] => none
  | e :: q =>
    match popTop q with
    | none => some (e, [])
    | some (m, rest) => if e.lt m then some (m, e :: rest) else some (e, q)

theorem popTop_eq_none {q : List (TaskEntry α)} : popTop q = none ↔ q = [] := by
  cases q with
  | nil => simp [popTop]
  | cons e q =>
    simp only [popTop, reduceCtorEq, iff_false]
    split
    · simp
    · split <;> simp

/-- `top()` is the entry that orders first, and `pop()` removes just it. -/
theorem popTop_spec : ∀ {q : List (TaskEntry α)} {m : TaskEntry α} {rest : List (TaskEntry α)},
    popTop q = some (m, rest) → q.Perm (m :: rest) ∧ ∀ e ∈ rest, ¬ e.Before m
  | [], _, _, h => by simp [popTop] at h
  | e :: q, m, rest, h => by
    cases hq : popTop q with
    | none =>
      simp only [popTop, hq, Option.some.injEq, Prod.mk.injEq] at h
      obtain ⟨rfl, rfl⟩ := h
      rw [popTop_eq_none.1 hq]
      exact ⟨List.Perm.refl _, by simp⟩
    | some p =>
      obtain ⟨m', rest'⟩ := p
      obtain ⟨hperm, hfirst⟩ := popTop_spec hq
      simp only [popTop, hq] at h
      split at h
      · -- `e` is the smaller: `m'` stays on top
        rename_i hlt
        simp only [Option.some.injEq, Prod.mk.injEq] at h
        obtain ⟨rfl, rfl⟩ := h
        refine ⟨(hperm.cons e).trans (List.Perm.swap _ _ _), List.forall_mem_cons.2 ⟨?_, hfirst⟩⟩
        have := lt_eq_true.1 hlt
        unfold Before at *
        omega
      · -- otherwise `e` is on top
        rename_i hlt
        simp only [Option.some.injEq, Prod.mk.injEq] at h
        obtain ⟨rfl, rfl⟩ := h
        refine ⟨List.Perm.refl _, fun x hx => ?_⟩
        have hm : ¬ m'.Before e := fun hb => hlt (lt_eq_true.2 hb)
        rcases List.mem_cons.1 (hperm.subset hx) with rfl | hx
        · exact hm
        · have := hfirst x hx
          unfold Before at *
          omega

/-- The entries in the order repeated `top()` and `pop()` hand them out, from a queue of at
most `n`. -/
def popAll : Nat → List (TaskEntry α) → List (TaskEntry α)
  | 0, _ => []
  | n + 1, q =>
    match popTop q with
    | none => []
    | some (top, rest) => top :: popAll n rest

theorem popAll_length_le : ∀ (n : Nat) (q : List (TaskEntry α)), (popAll n q).length ≤ q.length
  | 0, _ => Nat.zero_le _
  | n + 1, q => by
    cases hq : popTop q with
    | none => simp [popAll, hq]
    | some p =>
      obtain ⟨top, rest⟩ := p
      have := (popTop_spec hq).1.length_eq
      have := popAll_length_le n rest
      simp only [popAll, hq, List.length_cons] at *
      omega

/-- Popping a queue of distinct ids until it is empty hands out every entry once, each
before all those after it. -/
theorem popAll_spec : ∀ {n : Nat} {q : List (TaskEntry α)}, q.length ≤ n →
    (q.map (·.id)).Nodup → (popAll n q).Perm q ∧ (popAll n q).Pairwise Before
  | 0, q, hn, _ => by
    rw [List.length_eq_zero.1 (Nat.le_zero.1 hn)]
    exact ⟨List.Perm.refl _, .nil⟩
  | n + 1, q, hn, hnd => by
    cases hq : popTop q with
    | none =>
      obtain rfl := popTop_eq_none.1 hq
      simp [popAll, popTop]
    | some p =>
      obtain ⟨top, rest⟩ := p
      obtain ⟨hperm, hfirst⟩ := popTop_spec hq
      have hnd' : (top.id :: rest.map (·.id)).Nodup := (hperm.map TaskEntry.id).nodup_iff.1 hnd
      obtain ⟨hp, hs⟩ := popAll_spec (n := n) (q := rest)
        (by have := hperm.length_eq; simp only [List.length_cons] at this; omega)
        (List.nodup_cons.1 hnd').2
      simp only [popAll, hq]
      refine ⟨(hp.cons top).trans hperm.symm, List.pairwise_cons.2 ⟨fun e he => ?_, hs⟩⟩
      have he' := hp.subset he
      have hne : top.id ≠ e.id := fun h => (List.nodup_cons.1 hnd').1 (h ▸ List.mem_map_of_mem _ he')
      have := hfirst e he'
      unfold Before at *
      omega

end Queue

/-- `DeterministicScheduler`'s state. `running_internal_` is read only by
`IsRunningOnThread()`, and nothing pushes onto `listener_work_queue_`; both are left out. -/
structure DeterministicScheduler (α : Type) where
  currentTime : Int
  currentId : Nat
  started : Bool
  stopped : Bool
  workQueue : List (TaskEntry α)
  deriving DecidableEq, Repr

namespace DeterministicScheduler

variable {α : Type}

/-- The constructor: nothing queued, ids from `0`, neither started nor stopped. The clock
starts at `Time`'s default value, which is not in src, so it is an argument. -/
def new (currentTime : Int) : DeterministicScheduler α :=
  ⟨currentTime, 0, false, false, []⟩

def startScheduler (s : DeterministicScheduler α) : DeterministicScheduler α :=
  { s with started := true }

def setTime (s : DeterministicScheduler α) (newTime : Int) : DeterministicScheduler α :=
  { s with currentTime := newTime }

def modifyTime (s : DeterministicScheduler α) (deltaTime : Int) : DeterministicScheduler α :=
  { s with currentTime := s.currentTime + deltaTime }

@[simp] theorem setTime_currentTime (s : DeterministicScheduler α) (newTime : Int) :
    (s.setTime newTime).currentTime = newTime := rfl

@[simp] theorem setTime_workQueue (s : DeterministicScheduler α) (newTime : Int) :
    (s.setTime newTime).workQueue = s.workQueue := rfl

@[simp] theorem modifyTime_currentTime (s : DeterministicScheduler α) (deltaTime : Int) :
    (s.modifyTime deltaTime).currentTime = s.currentTime + deltaTime := rfl

@[simp] theorem modifyTime_workQueue (s : DeterministicScheduler α) (deltaTime : Int) :
    (s.modifyTime deltaTime).workQueue = s.workQueue := rfl

/-- `Schedule(delay, task)`: `none` when `CHECK(started_)` fails. Once the scheduler is
stopped the task is deleted; before, it is queued at `now + delay` with the next id. -/
def schedule (s : DeterministicScheduler α) (delay : Int) (task : α) :
    Option (DeterministicScheduler α) :=
  if s.started then
    if s.stopped then some s
    else some { s with
      workQueue := s.workQueue ++ [⟨s.currentTime + delay, false, s.currentId, task⟩]
      currentId := s.currentId + 1 }
  else none

/-- A closure's `Schedule` calls, in order. -/
def scheduleAll (s : DeterministicScheduler α) : List (Int × α) → Option (DeterministicScheduler α)
  | [] => some s
  | (delay, task) :: calls => (s.schedule delay task).bind (·.scheduleAll calls)

/-- `RunNextTask()` up to running the task: `none` when it returns false; otherwise the entry
it popped, and the scheduler without it. -/
def runNextTask (s : DeterministicScheduler α) : Option (TaskEntry α × DeterministicScheduler α) :=
  match popTop s.workQueue with
  | some (top, rest) =>
    if top.time ≤ s.currentTime then some (top, { s with workQueue := rest }) else none
  | none => none

/-! ## `Schedule` and `RunNextTask` -/

theorem schedule_eq_some {s s' : DeterministicScheduler α} {delay : Int} {task : α} :
    s.schedule delay task = some s' ↔ s.started = true ∧
      ((s.stopped = true ∧ s' = s) ∨
        (s.stopped = false ∧ s' = { s with
          workQueue := s.workQueue ++ [⟨s.currentTime + delay, false, s.currentId, task⟩]
          currentId := s.currentId + 1 })) := by
  unfold schedule
  cases s.started <;> cases s.stopped <;> simp [eq_comm]

theorem schedule_currentTime {s s' : DeterministicScheduler α} {delay : Int} {task : α}
    (h : s.schedule delay task = some s') : s'.currentTime = s.currentTime := by
  rcases (schedule_eq_some.1 h).2 with ⟨-, rfl⟩ | ⟨-, rfl⟩ <;> rfl

theorem scheduleAll_currentTime : ∀ {s s' : DeterministicScheduler α} {calls : List (Int × α)},
    s.scheduleAll calls = some s' → s'.currentTime = s.currentTime
  | _, _, [], h => by cases h; rfl
  | _, _, (_, _) :: _, h => by
    obtain ⟨s₁, h₁, h₂⟩ := Option.bind_eq_some.1 h
    exact (scheduleAll_currentTime h₂).trans (schedule_currentTime h₁)

/-- Every entry after a closure's `Schedule` calls was queued before, or is due a delay of one
of them after the current time. -/
theorem scheduleAll_workQueue : ∀ {s s' : DeterministicScheduler α} {calls : List (Int × α)},
    s.scheduleAll calls = some s' →
      ∀ e ∈ s'.workQueue, e ∈ s.workQueue ∨ ∃ c ∈ calls, e.time = s.currentTime + c.1
  | _, _, [], h, e, he => by cases h; exact .inl he
  | s, _, (delay, task) :: calls, h, e, he => by
    obtain ⟨s₁, h₁, h₂⟩ := Option.bind_eq_some.1 h
    rcases scheduleAll_workQueue h₂ e he with he | ⟨c, hc, hce⟩
    · rcases (schedule_eq_some.1 h₁).2 with ⟨-, rfl⟩ | ⟨-, rfl⟩
      · exact .inl he
      · rcases List.mem_append.1 he with he | he
        · exact .inl he
        · rw [List.mem_singleton.1 he]
          exact .inr ⟨(delay, task), List.mem_cons_self _ _, rfl⟩
    · exact .inr ⟨c, List.mem_cons_of_mem _ hc, schedule_currentTime h₁ ▸ hce⟩

/-- A stopped scheduler deletes every task a closure hands to `Schedule`. -/
theorem scheduleAll_stopped : ∀ {s s' : DeterministicScheduler α} {calls : List (Int × α)},
    s.stopped = true → s.scheduleAll calls = some s' → s' = s
  | _, _, [], _, h => by cases h; rfl
  | _, _, (_, _) :: _, hst, h => by
    obtain ⟨s₁, h₁, h₂⟩ := Option.bind_eq_some.1 h
    obtain ⟨-, ⟨-, rfl⟩ | ⟨hf, -⟩⟩ := schedule_eq_some.1 h₁
    · exact scheduleAll_stopped hst h₂
    · rw [hst] at hf
      cases hf

/-- A closure's `Schedule` calls queue at most one entry each. -/
theorem scheduleAll_length : ∀ {s s' : DeterministicScheduler α} {calls : List (Int × α)},
    s.scheduleAll calls = some s' → s'.workQueue.length ≤ s.workQueue.length + calls.length
  | _, _, [], h => by cases h; exact Nat.le_refl _
  | _, _, (_, _) :: _, h => by
    obtain ⟨s₁, h₁, h₂⟩ := Option.bind_eq_some.1 h
    have := scheduleAll_length h₂
    rcases (schedule_eq_some.1 h₁).2 with ⟨-, rfl⟩ | ⟨-, rfl⟩ <;>
      simp only [List.length_cons, List.length_append, List.length_nil] at * <;> omega

theorem runNextTask_spec {s s' : DeterministicScheduler α} {top : TaskEntry α}
    (h : s.runNextTask = some (top, s')) :
    ∃ rest, s' = { s with workQueue := rest } ∧ top.time ≤ s.currentTime ∧
      s.workQueue.Perm (top :: rest) ∧ ∀ e ∈ rest, ¬ e.Before top := by
  unfold runNextTask at h
  split at h
  · rename_i m rest hq
    split at h
    · simp only [Option.some.injEq, Prod.mk.injEq] at h
      obtain ⟨rfl, rfl⟩ := h
      exact ⟨rest, rfl, ‹_›, popTop_spec hq⟩
    · cases h
  · cases h

/-- `RunNextTask()` returns false exactly when no queued entry is due. -/
theorem runNextTask_eq_none {s : DeterministicScheduler α} :
    s.runNextTask = none ↔ ∀ e ∈ s.workQueue, s.currentTime < e.time := by
  unfold runNextTask
  split
  · rename_i m rest hq
    obtain ⟨hperm, hfirst⟩ := popTop_spec hq
    split
    · simp only [reduceCtorEq, false_iff, not_forall]
      exact ⟨m, hperm.symm.subset (List.mem_cons_self _ _), by omega⟩
    · simp only [true_iff]
      intro e he
      rcases List.mem_cons.1 (hperm.subset he) with rfl | he
      · omega
      · have := hfirst e he
        unfold Before at this
        omega
  · rename_i hq
    simp [popTop_eq_none.1 hq]

/-- The entries due at the current time: those `RunNextTask()` may pop now. -/
def due (s : DeterministicScheduler α) : List (TaskEntry α) :=
  s.workQueue.filter fun e => e.time ≤ s.currentTime

/-- `RunNextTask()` takes one due entry off. -/
theorem runNextTask_due {s s' : DeterministicScheduler α} {top : TaskEntry α}
    (h : s.runNextTask = some (top, s')) : s.due.Perm (top :: s'.due) := by
  obtain ⟨rest, rfl, hle, hperm, -⟩ := runNextTask_spec h
  dsimp only [due]
  have := hperm.filter fun e => decide (e.time ≤ s.currentTime)
  rwa [List.filter_cons, if_pos (decide_eq_true hle)] at this

/-- On a started scheduler, `Schedule` with a positive delay makes no entry due and removes
none. -/
theorem schedule_due {s : DeterministicScheduler α} {delay : Int} (task : α)
    (hs : s.started = true) (hd : 0 < delay) :
    ∃ s', s.schedule delay task = some s' ∧ s'.currentTime = s.currentTime ∧
      s'.started = true ∧ s'.due = s.due ∧ s.workQueue ⊆ s'.workQueue := by
  cases hst : s.stopped
  · refine ⟨{ s with
      workQueue := s.workQueue ++ [⟨s.currentTime + delay, false, s.currentId, task⟩]
      currentId := s.currentId + 1 }, by simp [schedule, hs, hst], rfl, hs, ?_,
      List.subset_append_left _ _⟩
    simp only [due, List.filter_append, List.filter_cons, List.filter_nil]
    rw [if_neg (by simp only [decide_eq_true_eq]; omega), List.append_nil]
  · exact ⟨s, by simp [schedule, hs, hst], rfl, hs, rfl, List.Subset.refl _⟩

theorem scheduleAll_due : ∀ {s : DeterministicScheduler α} {calls : List (Int × α)},
    s.started = true → (∀ c ∈ calls, 0 < c.1) →
    ∃ s', s.scheduleAll calls = some s' ∧ s'.currentTime = s.currentTime ∧
      s'.started = true ∧ s'.due = s.due ∧ s.workQueue ⊆ s'.workQueue
  | s, [], hs, _ => ⟨s, rfl, rfl, hs, rfl, List.Subset.refl _⟩
  | _, (delay, task) :: _, hs, hd => by
    obtain ⟨s₁, h₁, ht₁, hs₁, hdue₁, hsub₁⟩ := schedule_due task hs (hd _ (List.mem_cons_self _ _))
    obtain ⟨s₂, h₂, ht₂, hs₂, hdue₂, hsub₂⟩ :=
      scheduleAll_due hs₁ fun c hc => hd c (List.mem_cons_of_mem _ hc)
    exact ⟨s₂, by simp only [scheduleAll, h₁, Option.some_bind, h₂], ht₂.trans ht₁, hs₂,
      hdue₂.trans hdue₁, hsub₁.trans hsub₂⟩

/-! ## Runs -/

section Run

variable {σ : Type} (runTask : σ → Int → α → σ × List (Int × α))

/-- `RunReadyTasks()`, with room for `fuel - 1` tasks: while an entry is due, pop it and run
its task at the current time, which changes the program and may schedule more. The program,
the scheduler and the entries run, in order; `none` when a `CHECK` fails or the fuel runs
out. -/
def runReadyTasks : Nat → σ → DeterministicScheduler α →
    Option (σ × DeterministicScheduler α × List (TaskEntry α))
  | 0, _, _ => none
  | fuel + 1, env, s =>
    match s.runNextTask with
    | none => some (env, s, [])
    | some (top, s') =>
      (s'.scheduleAll (runTask env s.currentTime top.task).2).bind fun s'' =>
        (runReadyTasks fuel (runTask env s.currentTime top.task).1 s'').map
          fun r => (r.1, r.2.1, top :: r.2.2)

/-- `StopScheduler()`: `stopped_` goes up, then the entries are popped in order; those
scheduled "immediately" or due are run, and every task they hand to `Schedule` is deleted. -/
def stopScheduler (env : σ) (s : DeterministicScheduler α) :
    σ × DeterministicScheduler α × List (TaskEntry α) :=
  let ran := (popAll s.workQueue.length s.workQueue).filter
    fun e => e.immediate || decide (e.time ≤ s.currentTime)
  (ran.foldl (fun env e => (runTask env s.currentTime e.task).1) env,
    { s with stopped := true, workQueue := [] }, ran)

/-- What a test does with the scheduler, and what code outside it does. -/
inductive Event (σ α : Type)
  | startScheduler
  | setTime (newTime : Int)
  | modifyTime (deltaTime : Int)
  /-- `RunReadyTasks()`, which returns after at most `fuel - 1` tasks. -/
  | runReadyTasks (fuel : Nat)
  | stopScheduler
  /-- Code outside the scheduler, at the current time: what it does to the program, and the
  tasks it hands to `Schedule`. -/
  | outside (move : σ → Int → σ × List (Int × α))

/-- One event: the program, the scheduler and the entries run; `none` when a `CHECK` fails or
`RunReadyTasks` does not return within its fuel. -/
def step (env : σ) (s : DeterministicScheduler α) :
    Event σ α → Option (σ × DeterministicScheduler α × List (TaskEntry α))
  | .startScheduler => some (env, s.startScheduler, [])
  | .setTime newTime => some (env, s.setTime newTime, [])
  | .modifyTime deltaTime => some (env, s.modifyTime deltaTime, [])
  | .runReadyTasks fuel => runReadyTasks runTask fuel env s
  | .stopScheduler => some (stopScheduler runTask env s)
  | .outside move =>
    (s.scheduleAll (move env s.currentTime).2).map fun s' => ((move env s.currentTime).1, s', [])

/-- A run of events: the entries run, each with the time it ran at. -/
def run (env : σ) (s : DeterministicScheduler α) :
    List (Event σ α) → Option (σ × DeterministicScheduler α × List (Int × TaskEntry α))
  | [] => some (env, s, [])
  | e :: es =>
    (step runTask env s e).bind fun r =>
      (run r.1 r.2.1 es).map fun r' => (r'.1, r'.2.1, r.2.2.map (s.currentTime, ·) ++ r'.2.2)

/-- A property of the program, the scheduler and the log that one turn of `RunReadyTasks`'s
loop keeps is kept by the whole loop, which leaves the clock where it was. -/
theorem runReadyTasks_preserves
    (P : σ → DeterministicScheduler α → List (Int × TaskEntry α) → Prop)
    (hturn : ∀ {env s s₁ s₂ top log}, P env s log → s.runNextTask = some (top, s₁) →
      s₁.scheduleAll (runTask env s.currentTime top.task).2 = some s₂ →
      P (runTask env s.currentTime top.task).1 s₂ (log ++ [(s.currentTime, top)])) :
    ∀ {fuel env env' s s' ran} (log), P env s log →
      runReadyTasks runTask fuel env s = some (env', s', ran) →
      P env' s' (log ++ ran.map (s.currentTime, ·)) ∧ s'.currentTime = s.currentTime
  | 0, _, _, _, _, _, _, _, h => by simp [runReadyTasks] at h
  | fuel + 1, env, env', s, s', ran, log, hp, h => by
    simp only [runReadyTasks] at h
    split at h
    · simp only [Option.some.injEq, Prod.mk.injEq] at h
      obtain ⟨rfl, rfl, rfl⟩ := h
      simpa using hp
    · rename_i top s₁ hn
      obtain ⟨s₂, hs₂, h⟩ := Option.bind_eq_some.1 h
      obtain ⟨⟨env₃, s₃, ran₃⟩, h₃, hr⟩ := Option.map_eq_some'.1 h
      simp only [Prod.mk.injEq] at hr
      obtain ⟨rfl, rfl, rfl⟩ := hr
      have ht : s₂.currentTime = s.currentTime := by
        obtain ⟨rest, rfl, -⟩ := runNextTask_spec hn
        exact (scheduleAll_currentTime hs₂ :)
      obtain ⟨hp₃, ht₃⟩ := runReadyTasks_preserves P hturn _ (hturn hp hn hs₂) h₃
      rw [ht] at hp₃ ht₃
      simpa using And.intro hp₃ ht₃

/-- `RunReadyTasks` returns only once no queued entry is due. -/
theorem runReadyTasks_future :
    ∀ {fuel : Nat} {env env' : σ} {s s' : DeterministicScheduler α} {ran : List (TaskEntry α)},
      runReadyTasks runTask fuel env s = some (env', s', ran) →
      ∀ e ∈ s'.workQueue, s'.currentTime < e.time
  | 0, _, _, _, _, _, h => by simp [runReadyTasks] at h
  | fuel + 1, env, env', s, s', ran, h => by
    simp only [runReadyTasks] at h
    split at h
    · rename_i hn
      simp only [Option.some.injEq, Prod.mk.injEq] at h
      obtain ⟨-, rfl, -⟩ := h
      exact runNextTask_eq_none.1 hn
    · obtain ⟨s₂, -, h⟩ := Option.bind_eq_some.1 h
      obtain ⟨⟨env₃, s₃, ran₃⟩, h₃, hr⟩ := Option.map_eq_some'.1 h
      simp only [Prod.mk.injEq] at hr
      obtain ⟨-, rfl, -⟩ := hr
      exact runReadyTasks_future h₃

/-- When every task schedules only future work, `RunReadyTasks` with room for the entries due
returns. It runs exactly those entries, each after none that orders before it, and leaves
queued every entry not yet due: a popped entry leaves the due ones, and a task adds none. -/
theorem runReadyTasks_runs_due (hpos : ∀ env now task, ∀ c ∈ (runTask env now task).2, 0 < c.1) :
    ∀ {fuel : Nat} (env : σ) {s : DeterministicScheduler α}, s.started = true →
      s.due.length < fuel → ∃ env' s' ran, runReadyTasks runTask fuel env s = some (env', s', ran) ∧
        ran.Perm s.due ∧ ran.Pairwise (fun a b => ¬ b.Before a) ∧
        ∀ e ∈ s.workQueue, s.currentTime < e.time → e ∈ s'.workQueue
  | 0, _, _, _, hfuel => absurd hfuel (Nat.not_lt_zero _)
  | fuel + 1, env, s, hs, hfuel => by
    cases hn : s.runNextTask with
    | none =>
      have hdue : s.due = [] := List.filter_eq_nil_iff.2 fun e he => by
        simpa using runNextTask_eq_none.1 hn e he
      exact ⟨env, s, [], by simp only [runReadyTasks, hn], by rw [hdue], .nil, fun e he _ => he⟩
    | some p =>
      obtain ⟨top, s₁⟩ := p
      have hdue₁ := runNextTask_due hn
      obtain ⟨rest, rfl, hle, hperm, hfirst⟩ := runNextTask_spec hn
      obtain ⟨s₂, hs₂, ht₂, hst₂, hdue₂, hsub₂⟩ :=
        scheduleAll_due (s := { s with workQueue := rest }) hs (hpos env s.currentTime top.task)
      have hfuel₂ : s₂.due.length < fuel := by simpa [hdue₂, hdue₁.length_eq] using hfuel
      obtain ⟨env', s', ran, hrun, hran, hpair, hkeep⟩ :=
        runReadyTasks_runs_due hpos (runTask env s.currentTime top.task).1 hst₂ hfuel₂
      rw [hdue₂] at hran
      refine ⟨env', s', top :: ran, ?_, (hran.cons top).trans hdue₁.symm,
        List.pairwise_cons.2 ⟨fun b hb => hfirst b (List.mem_filter.1 (hran.subset hb)).1, hpair⟩,
        fun e he hlt => ?_⟩
      · simp only [runReadyTasks, hn, hs₂, Option.some_bind, hrun, Option.map_some']
      · refine hkeep e (hsub₂ ((List.mem_cons.1 (hperm.subset he)).resolve_left ?_)) (ht₂ ▸ hlt)
        rintro rfl
        omega

theorem run_cons {env env'' : σ} {s s'' : DeterministicScheduler α} {e : Event σ α}
    {es : List (Event σ α)} {log : List (Int × TaskEntry α)}
    (h : run runTask env s (e :: es) = some (env'', s'', log)) :
    ∃ env' s' ran log', step runTask env s e = some (env', s', ran) ∧
      run runTask env' s' es = some (env'', s'', log') ∧ log = ran.map (s.currentTime, ·) ++ log' := by
  obtain ⟨⟨env', s', ran⟩, h₁, h⟩ := Option.bind_eq_some.1 h
  obtain ⟨⟨env₂, s₂, log'⟩, h₂, hr⟩ := Option.map_eq_some'.1 h
  simp only [Prod.mk.injEq] at hr
  obtain ⟨rfl, rfl, rfl⟩ := hr
  exact ⟨env', s', ran, log', h₁, h₂, rfl⟩

/-- A property of the program, the scheduler and the log that every event of a kind keeps is
kept by every run of such events. -/
theorem run_preserves (E : Event σ α → Prop)
    (P : σ → DeterministicScheduler α → List (Int × TaskEntry α) → Prop)
    (hstep : ∀ {env env' s s' e ran log}, E e → P env s log →
      step runTask env s e = some (env', s', ran) → P env' s' (log ++ ran.map (s.currentTime, ·))) :
    ∀ {es env env' s s'} (log) {log'}, (∀ e ∈ es, E e) → P env s log →
      run runTask env s es = some (env', s', log') → P env' s' (log ++ log')
  | [], _, _, _, _, _, _, _, hp, h => by
    simp only [run, Option.some.injEq, Prod.mk.injEq] at h
    obtain ⟨rfl, rfl, rfl⟩ := h
    simpa using hp
  | e :: es, _, _, _, _, _, _, he, hp, h => by
    obtain ⟨env₁, s₁, ran, log₁, h₁, h₂, rfl⟩ := run_cons runTask h
    have := run_preserves E P hstep _ (fun e' h' => he e' (List.mem_cons_of_mem _ h'))
      (hstep (he e (List.mem_cons_self _ _)) hp h₁) h₂
    simpa using this

/-- A stopped scheduler with nothing queued stays so, and runs nothing. -/
theorem step_stopped {env env' : σ} {s s' : DeterministicScheduler α} {e : Event σ α}
    {ran : List (TaskEntry α)} (hst : s.stopped = true) (hq : s.workQueue = [])
    (h : step runTask env s e = some (env', s', ran)) :
    s'.stopped = true ∧ s'.workQueue = [] ∧ ran = [] := by
  cases e with
  | runReadyTasks fuel =>
    cases fuel with
    | zero => cases h
    | succ fuel =>
      have hn : s.runNextTask = none := runNextTask_eq_none.2 fun e he => by rw [hq] at he; cases he
      simp only [step, runReadyTasks, hn, Option.some.injEq, Prod.mk.injEq] at h
      obtain ⟨-, rfl, rfl⟩ := h
      exact ⟨hst, hq, rfl⟩
  | stopScheduler =>
    simp only [step, stopScheduler, hq, Option.some.injEq, Prod.mk.injEq] at h
    obtain ⟨-, rfl, rfl⟩ := h
    exact ⟨rfl, rfl, rfl⟩
  | outside move =>
    obtain ⟨s₁, h₁, hr⟩ := Option.map_eq_some'.1 h
    simp only [Prod.mk.injEq] at hr
    obtain ⟨-, rfl, rfl⟩ := hr
    rw [scheduleAll_stopped hst h₁]
    exact ⟨hst, hq, rfl⟩
  | _ =>
    simp only [step, Option.some.injEq, Prod.mk.injEq] at h
    obtain ⟨-, rfl, rfl⟩ := h
    exact ⟨hst, hq, rfl⟩

/-- `StopScheduler()` is final. In a run from any state that starts with it, whatever follows
(code handing more tasks to `Schedule`, the clock moved, `RunReadyTasks()`, `StopScheduler()`
again), the only tasks that run are those `StopScheduler()` itself ran, at the time it was
called: every later `Schedule` deletes its task, and the queue stays empty. -/
theorem scheduler_stops_for_good {env env' : σ} {s s' : DeterministicScheduler α}
    {es : List (Event σ α)} {log : List (Int × TaskEntry α)}
    (h : run runTask env s (.stopScheduler :: es) = some (env', s', log)) :
    log = (stopScheduler runTask env s).2.2.map (s.currentTime, ·) ∧
      s'.workQueue = [] ∧ s'.stopped = true := by
  obtain ⟨env₁, s₁, ran, log₁, h₁, h₂, rfl⟩ := run_cons runTask h
  simp only [step, Option.some.injEq, Prod.ext_iff] at h₁
  obtain ⟨-, rfl, rfl⟩ := h₁
  obtain ⟨hst, hq, hlog⟩ := run_preserves runTask (fun _ => True)
    (fun _ s l => s.stopped = true ∧ s.workQueue = [] ∧ l = [])
    (fun _ ⟨hst, hq, hl⟩ hs => by
      obtain ⟨h₁, h₂, rfl⟩ := step_stopped runTask hst hq hs
      exact ⟨h₁, h₂, by rw [hl]; rfl⟩)
    [] (fun _ _ => trivial) ⟨rfl, rfl, rfl⟩ h₂
  rw [List.nil_append] at hlog
  rw [hlog, List.append_nil]
  exact ⟨rfl, hq, hst⟩

/-- A task that reschedules itself with no delay would keep `RunReadyTasks` running; once
stopped, the one due at `3` runs once, the one due at `5` is deleted, and nothing runs after. -/
theorem scheduler_stops_for_good_self_rescheduling :
    ∃ n s' log, run (fun n _ task => (n + 1, [(0, task)])) 0
        (⟨3, 2, true, false, [⟨5, false, 0, ()⟩, ⟨3, false, 1, ()⟩]⟩ : DeterministicScheduler Unit)
        [.stopScheduler, .outside fun n _ => (n, [(0, ())]), .modifyTime 10, .runReadyTasks 1] =
        some (n, s', log) ∧
      log.map (fun x => (x.1, x.2.time, x.2.id)) = [(3, 3, 1)] ∧
      log = (stopScheduler (fun n _ task => (n + 1, [(0, task)])) 0
        (⟨3, 2, true, false, [⟨5, false, 0, ()⟩, ⟨3, false, 1, ()⟩]⟩ :
          DeterministicScheduler Unit)).2.2.map ((3 : Int), ·) ∧
      s'.workQueue = [] ∧ s'.stopped = true := by
  obtain ⟨⟨n, s', log⟩, h⟩ := Option.isSome_iff_exists.1 (show (run
      (fun n _ task => (n + 1, [(0, task)])) 0
      (⟨3, 2, true, false, [⟨5, false, 0, ()⟩, ⟨3, false, 1, ()⟩]⟩ : DeterministicScheduler Unit)
      [.stopScheduler, .outside fun n _ => (n, [(0, ())]), .modifyTime 10,
        .runReadyTasks 1]).isSome by decide)
  have hlog : (run (fun n _ task => (n + 1, [(0, task)])) 0
      (⟨3, 2, true, false, [⟨5, false, 0, ()⟩, ⟨3, false, 1, ()⟩]⟩ : DeterministicScheduler Unit)
      [.stopScheduler, .outside fun n _ => (n, [(0, ())]), .modifyTime 10, .runReadyTasks 1]).map
      (fun r => r.2.2.map fun x => (x.1, x.2.time, x.2.id)) = some [(3, 3, 1)] := by decide
  rw [h] at hlog
  exact ⟨n, s', log, h, Option.some.inj hlog, scheduler_stops_for_good _ h⟩

/-! ## What a run has done -/

/-- The ids of the entries run and of those queued. -/
def ids (log : List (Int × TaskEntry α)) (q : List (TaskEntry α)) : List Nat :=
  log.map (·.2.id) ++ q.map (·.id)

/-- What a run has done, against the scheduler it leaves: `log` holds the entries run, each
with the time it ran. -/
structure History (s : DeterministicScheduler α) (log : List (Int × TaskEntry α)) : Prop where
  /-- No entry ran before its time. -/
  on_time : ∀ x ∈ log, x.2.time ≤ x.1
  /-- Of two entries due at the same time, the one enqueued first ran first, -/
  fifo : log.Pairwise fun x y => x.2.time = y.2.time → x.2.id < y.2.id
  /-- and before any queued one. -/
  ahead : ∀ x ∈ log, ∀ e ∈ s.workQueue, x.2.time = e.time → x.2.id < e.id
  /-- `Schedule` queues nothing "immediately". -/
  not_immediate : ∀ e ∈ s.workQueue, e.immediate = false
  /-- Every id run or queued was handed out, -/
  ids_lt : ∀ i ∈ ids log s.workQueue, i < s.currentId
  /-- once, -/
  nodup : (ids log s.workQueue).Nodup
  /-- and until the scheduler stops, every id handed out was run or is queued. -/
  complete : s.stopped = false → ∀ i < s.currentId, i ∈ ids log s.workQueue

/-- What a run whose clock only moves forward has done: the entries ran in order, each before
every queued one, and none after the current time. -/
structure InOrder (s : DeterministicScheduler α) (log : List (Int × TaskEntry α)) : Prop where
  sorted : log.Pairwise fun x y => x.2.Before y.2
  ahead : ∀ x ∈ log, ∀ e ∈ s.workQueue, x.2.Before e
  ran_le : ∀ x ∈ log, x.1 ≤ s.currentTime

theorem history_new (t₀ : Int) : History (new t₀ : DeterministicScheduler α) [] :=
  ⟨fun _ h => (nomatch h), .nil, fun _ h => (nomatch h), fun _ h => (nomatch h),
    fun _ h => (nomatch h), List.nodup_nil, fun _ i hi => absurd hi (Nat.not_lt_zero i)⟩

section Kept

variable {s s' : DeterministicScheduler α} {log : List (Int × TaskEntry α)}

theorem History.of_eq (h : History s log) (hq : s'.workQueue = s.workQueue)
    (hi : s'.currentId = s.currentId) (hs : s'.stopped = s.stopped) : History s' log :=
  ⟨h.on_time, h.fifo, hq ▸ h.ahead, hq ▸ h.not_immediate, hq ▸ hi ▸ h.ids_lt, hq ▸ h.nodup,
    hs ▸ hq ▸ hi ▸ h.complete⟩

/-- Queueing a fresh entry, not "immediate", with the next id. -/
theorem History.push (h : History s log) (e : TaskEntry α) (hi : e.id = s.currentId)
    (he : e.immediate = false) :
    History { s with workQueue := s.workQueue ++ [e], currentId := s.currentId + 1 } log := by
  have hids : ids log (s.workQueue ++ [e]) = ids log s.workQueue ++ [s.currentId] := by
    simp [ids, hi]
  refine ⟨h.on_time, h.fifo, fun x hx e' he' _ => ?_, ?_, ?_, ?_, fun hs i hi' => ?_⟩
  · rcases List.mem_append.1 he' with he' | he'
    · exact h.ahead x hx e' he' ‹_›
    · rw [List.mem_singleton.1 he', hi]
      exact h.ids_lt _ (List.mem_append_left _ (List.mem_map_of_mem _ hx))
  · intro e' he'
    rcases List.mem_append.1 he' with he' | he'
    · exact h.not_immediate e' he'
    · rw [List.mem_singleton.1 he', he]
  · simp only [hids, List.mem_append, List.mem_singleton]
    rintro i (hi' | rfl)
    · exact Nat.lt_succ_of_lt (h.ids_lt i hi')
    · exact Nat.lt_succ_self _
  · rw [hids]
    exact List.nodup_append.2 ⟨h.nodup, List.nodup_singleton _,
      fun _ hi' hj => (h.ids_lt _ hi').ne (List.mem_singleton.1 hj)⟩
  · simp only [hids, List.mem_append, List.mem_singleton]
    rcases Nat.lt_succ_iff_lt_or_eq.1 hi' with hi' | rfl
    · exact .inl (h.complete hs i hi')
    · exact .inr rfl

theorem History.schedule {delay : Int} {task : α} (h : History s log)
    (hs : s.schedule delay task = some s') : History s' log := by
  obtain ⟨-, ⟨-, rfl⟩ | ⟨-, rfl⟩⟩ := schedule_eq_some.1 hs
  · exact h
  · exact h.push _ rfl rfl

theorem History.scheduleAll : ∀ {s s' : DeterministicScheduler α} {calls : List (Int × α)},
    History s log → s.scheduleAll calls = some s' → History s' log
  | _, _, [], h, hs => by cases hs; exact h
  | _, _, (_, _) :: _, h, hs => by
    obtain ⟨s₁, h₁, h₂⟩ := Option.bind_eq_some.1 hs
    exact History.scheduleAll (h.schedule h₁) h₂

/-- The entry `RunNextTask` pops orders strictly before every entry it leaves. -/
theorem History.pop_before {top : TaskEntry α} (h : History s log)
    (hn : s.runNextTask = some (top, s')) : ∀ e ∈ s'.workQueue, top.Before e := by
  obtain ⟨rest, rfl, -, hperm, hfirst⟩ := runNextTask_spec hn
  have hnd : (top.id :: rest.map (·.id)).Nodup :=
    (hperm.map TaskEntry.id).nodup_iff.1 (List.nodup_append.1 h.nodup).2.1
  intro e he
  have hne : top.id ≠ e.id := fun heq => (List.nodup_cons.1 hnd).1 (heq ▸ List.mem_map_of_mem _ he)
  have := hfirst e he
  unfold Before at *
  omega

theorem History.pop {top : TaskEntry α} (h : History s log)
    (hn : s.runNextTask = some (top, s')) : History s' (log ++ [(s.currentTime, top)]) := by
  have hbefore := h.pop_before hn
  obtain ⟨rest, rfl, hdue, hperm, -⟩ := runNextTask_spec hn
  have hids : (ids (log ++ [(s.currentTime, top)]) rest).Perm (ids log s.workQueue) := by
    simpa [ids] using (hperm.map TaskEntry.id).symm.append_left (log.map (·.2.id))
  have hrest : ∀ e ∈ top :: rest, e ∈ s.workQueue := fun e he => hperm.symm.subset he
  refine ⟨?_, List.pairwise_append.2 ⟨h.fifo, List.pairwise_singleton _ _, fun x hx y hy => ?_⟩,
    fun x hx e he => ?_, fun e he => h.not_immediate e (hrest e (List.mem_cons_of_mem _ he)),
    fun i hi => h.ids_lt i (hids.subset hi), hids.nodup_iff.2 h.nodup,
    fun hs i hi => hids.symm.subset (h.complete hs i hi)⟩
  · intro x hx
    rcases List.mem_append.1 hx with hx | hx
    · exact h.on_time x hx
    · rw [List.mem_singleton.1 hx]
      exact hdue
  · rw [List.mem_singleton.1 hy]
    exact h.ahead x hx top (hrest top (List.mem_cons_self _ _))
  · rcases List.mem_append.1 hx with hx | hx
    · exact h.ahead x hx e (hrest e (List.mem_cons_of_mem _ he))
    · rw [List.mem_singleton.1 hx]
      have := hbefore e he
      unfold Before at this
      dsimp only
      omega

theorem InOrder.of_le (h : InOrder s log) (hq : s'.workQueue = s.workQueue)
    (ht : s.currentTime ≤ s'.currentTime) : InOrder s' log :=
  ⟨h.sorted, hq ▸ h.ahead, fun x hx => Int.le_trans (h.ran_le x hx) ht⟩

theorem InOrder.schedule {delay : Int} {task : α} (hH : History s log) (h : InOrder s log)
    (hd : 0 ≤ delay) (hs : s.schedule delay task = some s') : InOrder s' log := by
  obtain ⟨-, ⟨-, rfl⟩ | ⟨-, rfl⟩⟩ := schedule_eq_some.1 hs
  · exact h
  · refine ⟨h.sorted, fun x hx e he => ?_, h.ran_le⟩
    rcases List.mem_append.1 he with he | he
    · exact h.ahead x hx e he
    · rw [List.mem_singleton.1 he]
      have hid := hH.ids_lt _ (List.mem_append_left _ (List.mem_map_of_mem _ hx))
      have := Int.le_trans (hH.on_time x hx) (h.ran_le x hx)
      unfold Before
      dsimp only
      omega

theorem InOrder.scheduleAll : ∀ {s s' : DeterministicScheduler α} {calls : List (Int × α)},
    History s log → InOrder s log → (∀ c ∈ calls, 0 ≤ c.1) → s.scheduleAll calls = some s' →
      InOrder s' log
  | _, _, [], _, h, _, hs => by cases hs; exact h
  | _, _, (_, _) :: _, hH, h, hd, hs => by
    obtain ⟨s₁, h₁, h₂⟩ := Option.bind_eq_some.1 hs
    exact InOrder.scheduleAll (hH.schedule h₁) (h.schedule hH (hd _ (List.mem_cons_self _ _)) h₁)
      (fun c hc => hd c (List.mem_cons_of_mem _ hc)) h₂

theorem InOrder.pop {top : TaskEntry α} (hH : History s log) (h : InOrder s log)
    (hn : s.runNextTask = some (top, s')) : InOrder s' (log ++ [(s.currentTime, top)]) := by
  have hbefore := hH.pop_before hn
  obtain ⟨rest, rfl, -, hperm, -⟩ := runNextTask_spec hn
  have hrest : ∀ e ∈ top :: rest, e ∈ s.workQueue := fun e he => hperm.symm.subset he
  refine ⟨List.pairwise_append.2 ⟨h.sorted, List.pairwise_singleton _ _, fun x hx y hy => ?_⟩,
    fun x hx e he => ?_, fun x hx => ?_⟩
  · rw [List.mem_singleton.1 hy]
    exact h.ahead x hx top (hrest top (List.mem_cons_self _ _))
  · rcases List.mem_append.1 hx with hx | hx
    · exact h.ahead x hx e (hrest e (List.mem_cons_of_mem _ he))
    · rw [List.mem_singleton.1 hx]
      exact hbefore e he
  · rcases List.mem_append.1 hx with hx | hx
    · exact h.ran_le x hx
    · rw [List.mem_singleton.1 hx]

/-- The entries `StopScheduler` runs: part of the queue popped in order, all due. -/
theorem History.stop_ran (env : σ) (h : History s log) :
    ∃ l : List (TaskEntry α), l.Perm s.workQueue ∧ l.Pairwise Before ∧
      (stopScheduler runTask env s).2.2.Sublist l ∧
      ∀ e ∈ (stopScheduler runTask env s).2.2, e.time ≤ s.currentTime := by
  obtain ⟨hperm, hsorted⟩ :=
    popAll_spec (le_refl s.workQueue.length) (List.nodup_append.1 h.nodup).2.1
  refine ⟨_, hperm, hsorted, List.filter_sublist _, fun e he => ?_⟩
  have hdue := (List.mem_filter.1 he).2
  rw [h.not_immediate e (hperm.subset (List.mem_filter.1 he).1)] at hdue
  simpa using hdue

theorem History.stop (env : σ) (h : History s log) :
    History (stopScheduler runTask env s).2.1
      (log ++ (stopScheduler runTask env s).2.2.map (s.currentTime, ·)) := by
  obtain ⟨l, hperm, hsorted, hsub, hdue⟩ := h.stop_ran runTask env
  have hq : ∀ e ∈ (stopScheduler runTask env s).2.2, e ∈ s.workQueue :=
    fun e he => hperm.subset (hsub.subset he)
  have hids : (ids (log ++ (stopScheduler runTask env s).2.2.map (s.currentTime, ·)) []).Sublist
      (log.map (·.2.id) ++ l.map (·.id)) := by
    simpa [ids] using (hsub.map TaskEntry.id).append_left (log.map (·.2.id))
  have hperm' : (log.map (·.2.id) ++ l.map (·.id)).Perm (ids log s.workQueue) :=
    (hperm.map TaskEntry.id).append_left _
  refine ⟨?_, List.pairwise_append.2 ⟨h.fifo, ?_, ?_⟩, fun _ _ _ he => (nomatch he),
    fun _ he => (nomatch he), fun i hi => h.ids_lt i (hperm'.subset (hids.subset hi)),
    (hperm'.nodup_iff.2 h.nodup).sublist hids, fun hs => (nomatch hs)⟩
  · simp only [List.mem_append, List.mem_map]
    rintro x (hx | ⟨e, he, rfl⟩)
    · exact h.on_time x hx
    · exact hdue e he
  · exact List.pairwise_map.2 ((hsorted.sublist hsub).imp fun hb heq => by
      unfold Before at hb; dsimp only at heq ⊢; omega)
  · simp only [List.mem_map]
    rintro x hx _ ⟨e, he, rfl⟩
    exact h.ahead x hx e (hq e he)

theorem InOrder.stop (env : σ) (hH : History s log) (h : InOrder s log) :
    InOrder (stopScheduler runTask env s).2.1
      (log ++ (stopScheduler runTask env s).2.2.map (s.currentTime, ·)) := by
  obtain ⟨l, hperm, hsorted, hsub, -⟩ := hH.stop_ran runTask env
  refine ⟨List.pairwise_append.2 ⟨h.sorted, List.pairwise_map.2 (hsorted.sublist hsub), ?_⟩,
    fun _ _ _ he => (nomatch he), ?_⟩
  · simp only [List.mem_map]
    rintro x hx _ ⟨e, he, rfl⟩
    exact h.ahead x hx e (hperm.subset (hsub.subset he))
  · simp only [List.mem_append, List.mem_map]
    rintro x (hx | ⟨e, -, rfl⟩)
    · exact h.ran_le x hx
    · exact le_refl _

end Kept

/-! ## Over every run -/

/-- An event that keeps the clock going forward and schedules nothing in the past: `ModifyTime`
by a nonnegative delta, code that schedules with nonnegative delays, and no `SetTime` (a
`SetTime` forward is a `ModifyTime`). -/
def Event.Forward : Event σ α → Prop
  | .setTime _ => False
  | .modifyTime deltaTime => 0 ≤ deltaTime
  | .outside move => ∀ env now, ∀ c ∈ (move env now).2, 0 ≤ c.1
  | _ => True

theorem history_step {env env' : σ} {s s' : DeterministicScheduler α} {e : Event σ α}
    {ran : List (TaskEntry α)} {log : List (Int × TaskEntry α)} (h : History s log)
    (hs : step runTask env s e = some (env', s', ran)) :
    History s' (log ++ ran.map (s.currentTime, ·)) := by
  cases e with
  | runReadyTasks fuel =>
    exact (runReadyTasks_preserves runTask (fun _ s log => History s log)
      (fun hp hn hs₂ => (hp.pop hn).scheduleAll hs₂) log h hs).1
  | stopScheduler =>
    have := h.stop runTask env
    rwa [show stopScheduler runTask env s = (env', s', ran) from Option.some.inj hs] at this
  | outside move =>
    obtain ⟨s₁, h₁, hr⟩ := Option.map_eq_some'.1 hs
    simp only [Prod.mk.injEq] at hr
    obtain ⟨-, rfl, rfl⟩ := hr
    simpa using h.scheduleAll h₁
  | _ =>
    simp only [step, Option.some.injEq, Prod.mk.injEq] at hs
    obtain ⟨-, rfl, rfl⟩ := hs
    rw [List.map_nil, List.append_nil]
    exact h.of_eq rfl rfl rfl

theorem history_run {env env' : σ} {t₀ : Int} {es : List (Event σ α)}
    {s : DeterministicScheduler α} {log : List (Int × TaskEntry α)}
    (h : run runTask env (new t₀) es = some (env', s, log)) : History s log := by
  simpa using run_preserves runTask (fun _ => True) (fun _ s log => History s log)
    (fun _ hp hs => history_step runTask hp hs) [] (fun _ _ => trivial) (history_new t₀) h

theorem inOrder_step (hrun : ∀ env now task, ∀ c ∈ (runTask env now task).2, 0 ≤ c.1)
    {env env' : σ} {s s' : DeterministicScheduler α} {e : Event σ α}
    {ran : List (TaskEntry α)} {log : List (Int × TaskEntry α)} (he : e.Forward)
    (hH : History s log) (h : InOrder s log) (hs : step runTask env s e = some (env', s', ran)) :
    InOrder s' (log ++ ran.map (s.currentTime, ·)) := by
  cases e with
  | setTime _ => exact he.elim
  | modifyTime deltaTime =>
    simp only [step, Option.some.injEq, Prod.mk.injEq] at hs
    obtain ⟨-, rfl, rfl⟩ := hs
    rw [List.map_nil, List.append_nil]
    exact h.of_le rfl (by simp only [modifyTime, Event.Forward] at he ⊢; omega)
  | runReadyTasks fuel =>
    exact (runReadyTasks_preserves runTask (fun _ s log => History s log ∧ InOrder s log)
      (fun hp hn hs₂ => ⟨(hp.1.pop hn).scheduleAll hs₂,
        (hp.2.pop hp.1 hn).scheduleAll (hp.1.pop hn) (hrun _ _ _) hs₂⟩) log ⟨hH, h⟩ hs).1.2
  | stopScheduler =>
    have := h.stop runTask env hH
    rwa [show stopScheduler runTask env s = (env', s', ran) from Option.some.inj hs] at this
  | outside move =>
    obtain ⟨s₁, h₁, hr⟩ := Option.map_eq_some'.1 hs
    simp only [Prod.mk.injEq] at hr
    obtain ⟨-, rfl, rfl⟩ := hr
    simpa using h.scheduleAll hH (he _ _) h₁
  | startScheduler =>
    simp only [step, Option.some.injEq, Prod.mk.injEq] at hs
    obtain ⟨-, rfl, rfl⟩ := hs
    rw [List.map_nil, List.append_nil]
    exact h.of_le rfl (le_refl _)

/-- Over every run of the test scheduler, whatever its tasks do: no task runs before its
time; of two tasks due at the same time, the one enqueued first runs first; no task runs
twice; and until `StopScheduler`, every task handed to `Schedule` has run or is still
queued. -/
theorem scheduler_runs_tasks_once_on_time {env env' : σ} {t₀ : Int} {es : List (Event σ α)}
    {s : DeterministicScheduler α} {log : List (Int × TaskEntry α)}
    (h : run runTask env (new t₀) es = some (env', s, log)) :
    (∀ x ∈ log, x.2.time ≤ x.1) ∧
    log.Pairwise (fun x y => x.2.time = y.2.time → x.2.id < y.2.id) ∧
    (log.map (·.2.id)).Nodup ∧
    (s.stopped = false →
      (log.map (·.2.id) ++ s.workQueue.map (·.id)).Perm (List.range s.currentId)) := by
  have hh := history_run runTask h
  refine ⟨hh.on_time, hh.fifo, (List.nodup_append.1 hh.nodup).1, fun hs => ?_⟩
  exact (List.perm_ext_iff_of_nodup hh.nodup (List.nodup_range _)).2 fun i =>
    ⟨fun hi => List.mem_range.2 (hh.ids_lt i hi), fun hi => hh.complete hs i (List.mem_range.1 hi)⟩

/-- Two tasks due at `5` and one due at `3`, handed to `Schedule` at once and run at `10`:
the one due at `3` runs first, then the two due at `5` in the order they were enqueued. -/
theorem scheduler_runs_tasks_once_on_time_three_tasks :
    ∃ n s log, run (fun n _ _ => (n + 1, [])) 0 (new 0 : DeterministicScheduler Unit)
        [.startScheduler, .outside fun n _ => (n, [(5, ()), (5, ()), (3, ())]), .modifyTime 10,
          .runReadyTasks 4] = some (n, s, log) ∧
      log.map (fun x => (x.1, x.2.time, x.2.id)) = [(10, 3, 2), (10, 5, 0), (10, 5, 1)] ∧
      (∀ x ∈ log, x.2.time ≤ x.1) ∧
      log.Pairwise (fun x y => x.2.time = y.2.time → x.2.id < y.2.id) ∧
      (log.map (·.2.id)).Nodup ∧
      (s.stopped = false →
        (log.map (·.2.id) ++ s.workQueue.map (·.id)).Perm (List.range s.currentId)) := by
  obtain ⟨⟨n, s, log⟩, h⟩ := Option.isSome_iff_exists.1 (show (run (fun n _ _ => (n + 1, [])) 0
      (new 0 : DeterministicScheduler Unit) [.startScheduler,
        .outside fun n _ => (n, [(5, ()), (5, ()), (3, ())]), .modifyTime 10,
        .runReadyTasks 4]).isSome by decide)
  have hlog : (run (fun n _ _ => (n + 1, [])) 0 (new 0 : DeterministicScheduler Unit)
      [.startScheduler, .outside fun n _ => (n, [(5, ()), (5, ()), (3, ())]), .modifyTime 10,
        .runReadyTasks 4]).map (fun r => r.2.2.map fun x => (x.1, x.2.time, x.2.id)) =
      some [(10, 3, 2), (10, 5, 0), (10, 5, 1)] := by decide
  rw [h] at hlog
  exact ⟨n, s, log, h, Option.some.inj hlog, scheduler_runs_tasks_once_on_time _ h⟩

/-- While the clock only moves forward and no task is scheduled with a negative delay, the
test scheduler runs its tasks exactly in the order of their due times, and of tasks due at
the same time in the order they were enqueued. -/
theorem scheduler_runs_in_due_order (hrun : ∀ env now task, ∀ c ∈ (runTask env now task).2, 0 ≤ c.1)
    {env env' : σ} {t₀ : Int} {es : List (Event σ α)} {s : DeterministicScheduler α}
    {log : List (Int × TaskEntry α)} (hes : ∀ e ∈ es, e.Forward)
    (h : run runTask env (new t₀) es = some (env', s, log)) :
    log.Pairwise fun x y => x.2.Before y.2 := by
  have := run_preserves runTask Event.Forward (fun _ s log => History s log ∧ InOrder s log)
    (fun he hp hs => ⟨history_step runTask hp.1 hs, inOrder_step runTask hrun he hp.1 hp.2 hs⟩)
    [] hes ⟨history_new t₀, ⟨.nil, by simp [new], by simp⟩⟩ h
  simpa using this.2.sorted

/-- The first task to run schedules another with no delay, at `10`: it runs after the two
due at `5`, which were enqueued before it. -/
theorem scheduler_runs_in_due_order_follow_up :
    ∃ n s log,
      (∀ (n : Nat) (_ : Int) (task : Unit),
        ∀ c ∈ (n + 1, if n = 0 then [((0 : Int), task)] else []).2, 0 ≤ c.1) ∧
      (∀ e ∈ ([.startScheduler, .outside fun n _ => (n, [(5, ()), (5, ()), (3, ())]),
          .modifyTime 10, .runReadyTasks 5] : List (Event Nat Unit)), e.Forward) ∧
      run (fun n _ task => (n + 1, if n = 0 then [(0, task)] else [])) 0
        (new 0 : DeterministicScheduler Unit)
        [.startScheduler, .outside fun n _ => (n, [(5, ()), (5, ()), (3, ())]), .modifyTime 10,
          .runReadyTasks 5] = some (n, s, log) ∧
      log.map (fun x => (x.2.time, x.2.id)) = [(3, 2), (5, 0), (5, 1), (10, 3)] ∧
      log.Pairwise fun x y => x.2.Before y.2 := by
  obtain ⟨⟨n, s, log⟩, h⟩ := Option.isSome_iff_exists.1 (show
      (run (fun n _ task => (n + 1, if n = 0 then [(0, task)] else [])) 0
        (new 0 : DeterministicScheduler Unit) [.startScheduler,
          .outside fun n _ => (n, [(5, ()), (5, ()), (3, ())]), .modifyTime 10,
          .runReadyTasks 5]).isSome by decide)
  have hlog : (run (fun n _ task => (n + 1, if n = 0 then [(0, task)] else [])) 0
      (new 0 : DeterministicScheduler Unit) [.startScheduler,
        .outside fun n _ => (n, [(5, ()), (5, ()), (3, ())]), .modifyTime 10,
        .runReadyTasks 5]).map (fun r => r.2.2.map fun x => (x.2.time, x.2.id)) =
      some [(3, 2), (5, 0), (5, 1), (10, 3)] := by decide
  rw [h] at hlog
  have hrun : ∀ (n : Nat) (_ : Int) (task : Unit),
      ∀ c ∈ (n + 1, if n = 0 then [((0 : Int), task)] else []).2, 0 ≤ c.1 := by
    intro n _ task c hc
    dsimp only at hc
    split at hc
    · simp only [List.mem_singleton.1 hc, le_refl]
    · cases hc
  have hes : ∀ e ∈ ([.startScheduler, .outside fun n _ => (n, [(5, ()), (5, ()), (3, ())]),
      .modifyTime 10, .runReadyTasks 5] : List (Event Nat Unit)), e.Forward := by
    intro e he
    simp only [List.mem_cons, List.mem_singleton, List.not_mem_nil, or_false] at he
    rcases he with rfl | rfl | rfl | rfl
    · trivial
    · intro _ _ c hc
      simp only [List.mem_cons, List.mem_singleton, List.not_mem_nil, or_false] at hc
      rcases hc with rfl | rfl | rfl <;> decide
    · exact (by decide : (0 : Int) ≤ 10)
    · trivial
  exact ⟨n, s, log, hrun, hes, h, Option.some.inj hlog,
    scheduler_runs_in_due_order _ hrun hes h⟩

/-- From every state a run of the test scheduler reaches, once started: when every task
schedules only future work, `RunReadyTasks` with room for the entries due returns, as the
comment on it promises. It runs exactly the entries due when it was called, each once, in the
order of their times and then ids, and leaves queued every entry not yet due and none that
is due. -/
theorem scheduler_runs_ready_tasks_and_returns
    (hpos : ∀ env now task, ∀ c ∈ (runTask env now task).2, 0 < c.1)
    {env env₁ : σ} {t₀ : Int} {es : List (Event σ α)} {s : DeterministicScheduler α}
    {log : List (Int × TaskEntry α)} (h : run runTask env (new t₀) es = some (env₁, s, log))
    (hs : s.started = true) {fuel : Nat} (hfuel : s.due.length < fuel) :
    ∃ env' s' ran, runReadyTasks runTask fuel env₁ s = some (env', s', ran) ∧
      ran.Perm s.due ∧ ran.Pairwise Before ∧
      (∀ e ∈ s.workQueue, s.currentTime < e.time → e ∈ s'.workQueue) ∧
      ∀ e ∈ s'.workQueue, s.currentTime < e.time := by
  obtain ⟨env', s', ran, hr, hran, hpair, hkeep⟩ := runReadyTasks_runs_due runTask hpos env₁ hs hfuel
  -- the ids queued are distinct, so no two entries run tie
  have hnd : (ran.map TaskEntry.id).Nodup := (hran.map _).nodup_iff.2
    ((List.nodup_append.1 (history_run runTask h).nodup).2.1.sublist
      ((List.filter_sublist _).map _))
  have ht := (runReadyTasks_preserves runTask (fun _ _ _ => True) (fun _ _ _ => trivial) [] trivial
    hr).2
  refine ⟨env', s', ran, hr, hran, (hpair.and (List.pairwise_map.1 hnd)).imp fun ⟨h₁, h₂⟩ => ?_,
    hkeep, ht ▸ runReadyTasks_future runTask hr⟩
  unfold Before at *
  omega

/-- Every task reschedules itself `5` later, as a periodic task does. With tasks due at `0`,
`3`, `3` and `7` and the clock at `3`, `RunReadyTasks` with room for three tasks returns after
running the three due, the one due at `0` first, and leaves the one due at `7` and the three
rescheduled at `8` queued. -/
theorem scheduler_runs_ready_tasks_and_returns_periodic :
    ∃ n s log, (∀ (n : Nat) (_ : Int) (task : Unit), ∀ c ∈ (n + 1, [((5 : Int), task)]).2, 0 < c.1) ∧
      run (fun n _ task => (n + 1, [(5, task)])) 0 (new 0 : DeterministicScheduler Unit)
        [.startScheduler, .outside fun n _ => (n, [(0, ()), (3, ()), (3, ()), (7, ())]),
          .modifyTime 3] = some (n, s, log) ∧
      s.started = true ∧ s.due.length < 4 ∧
      ∃ n' s' ran, runReadyTasks (fun n _ task => (n + 1, [(5, task)])) 4 n s = some (n', s', ran) ∧
        ran.Perm s.due ∧ ran.Pairwise Before ∧
        (∀ e ∈ s.workQueue, s.currentTime < e.time → e ∈ s'.workQueue) ∧
        ∀ e ∈ s'.workQueue, s.currentTime < e.time := by
  obtain ⟨⟨n, s, log⟩, h⟩ := Option.isSome_iff_exists.1 (show (run (fun n _ task => (n + 1, [(5, task)]))
      0 (new 0 : DeterministicScheduler Unit) [.startScheduler,
        .outside fun n _ => (n, [(0, ()), (3, ()), (3, ()), (7, ())]), .modifyTime 3]).isSome by decide)
  have hout : (run (fun n _ task => (n + 1, [(5, task)])) 0 (new 0 : DeterministicScheduler Unit)
      [.startScheduler, .outside fun n _ => (n, [(0, ()), (3, ()), (3, ()), (7, ())]),
        .modifyTime 3]).map (fun r => (r.2.1.started, r.2.1.due.length)) = some (true, 3) := by
    decide
  rw [h] at hout
  simp only [Option.map_some', Option.some.injEq, Prod.mk.injEq] at hout
  have hpos : ∀ (n : Nat) (_ : Int) (task : Unit), ∀ c ∈ (n + 1, [((5 : Int), task)]).2, 0 < c.1 := by
    intro n _ task c hc
    rw [List.mem_singleton.1 hc]
    exact (by decide : (0 : Int) < 5)
  exact ⟨n, s, log, hpos, h, hout.1, by rw [hout.2]; decide,
    scheduler_runs_ready_tasks_and_returns _ hpos h hout.1 (by rw [hout.2]; decide)⟩

end Run

end DeterministicScheduler

end CacheInvalidation
