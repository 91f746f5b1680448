import Mathlib.Algebra.BigOperators.Ring.Finset
import Mathlib.Algebra.Order.BigOperators.Group.Finset
import Mathlib.Data.Fintype.Card
import NermalProxy.Proxy

/-! # The thread pool

`Dispatch` pushes a package and posts the semaphore under the lock; each thread of the
pool waits on the semaphore and only then takes the front of the list, without a look at
whether there is one.  `Context` stands for the handler and context of a package. -/

namespace NermalProxy.ThreadPool

open NermalProxy.Transition

/-- A package is told apart from others of the same content by the number of its dispatch. -/
structure WorkPackage (Context : Type*) where
  ticket : Nat
  context : Context
  deriving DecidableEq, Repr

/-- `m_workMutex`: only `Dispatch` holds it over more than one step. -/
inductive WorkMutex where
  | free
  /-- Held by a `Dispatch` that has not posted yet. -/
  | pushed
  | posted
  deriving DecidableEq, Repr

/-- Where a thread of the pool is in its loop. -/
inductive Thread (Context : Type*) where
  | waiting
  /-- Between `sem_wait` and `front`. -/
  | woken
  | holding (package : WorkPackage Context)
  deriving DecidableEq, Repr

structure Pool (Context : Type*) where
  poolSem : Nat
  workMutex : WorkMutex
  work : List (WorkPackage Context)
  threads : Fin threadPoolSize → Thread Context
  nextTicket : Nat

inductive PoolAction (Context : Type*) where
  | push (context : Context)
  | post
  | unlock
  | wait (thread : Fin threadPoolSize)
  | pop (thread : Fin threadPoolSize)
  | handle (thread : Fin threadPoolSize)

variable {Context : Type*}

namespace Pool

def initial : Pool Context where
  poolSem := 0
  workMutex := .free
  work := []
  threads := fun _ => .waiting
  nextTicket := 0

def set (pool : Pool Context) (thread : Fin threadPoolSize) (value : Thread Context) : Pool Context :=
  { pool with threads := Function.update pool.threads thread value }

def step (pool : Pool Context) : PoolAction Context → Option (Pool Context)
  | .push context =>
    match pool.workMutex with
    | .free => some { pool with
        workMutex := .pushed
        work := pool.work ++ [⟨pool.nextTicket, context⟩]
        nextTicket := pool.nextTicket + 1 }
    | _ => none
  | .post =>
    match pool.workMutex with
    | .pushed => some { pool with workMutex := .posted, poolSem := pool.poolSem + 1 }
    | _ => none
  | .unlock =>
    match pool.workMutex with
    | .posted => some { pool with workMutex := .free }
    | _ => none
  | .wait thread =>
    match pool.threads thread, pool.poolSem with
    | .waiting, posts + 1 => some ({ pool with poolSem := posts }.set thread .woken)
    | _, _ => none
  | .pop thread =>
    match pool.threads thread, pool.workMutex, pool.work with
    -- with an empty list `front` would be undefined
    | .woken, .free, package :: work => some ({ pool with work }.set thread (.holding package))
    | _, _, _ => none
  | .handle thread =>
    match pool.threads thread with
    | .holding _ => some (pool.set thread .waiting)
    | _ => none

end Pool

def poolSystem : System (Pool Context) (PoolAction Context) :=
  System.ofFunction (fun pool => pool = .initial) Pool.step

abbrev PoolHistory (Context : Type*) := List (Pool Context × PoolAction Context)

/-! ## What a run has done -/

def dispatches : Pool Context × PoolAction Context → Option (WorkPackage Context)
  | (pool, .push context) => some ⟨pool.nextTicket, context⟩
  | _ => none

def pops : Pool Context × PoolAction Context → Option (WorkPackage Context)
  | (pool, .pop _) => pool.work.head?
  | _ => none

def handles : Pool Context × PoolAction Context → Option (WorkPackage Context)
  | (pool, .handle thread) =>
    match pool.threads thread with
    | .holding package => some package
    | _ => none
  | _ => none

/-- The packages dispatched so far, oldest first. -/
def dispatched (history : PoolHistory Context) : List (WorkPackage Context) :=
  history.filterMap dispatches

/-- The packages that have left the list, in this order. -/
def popped (history : PoolHistory Context) : List (WorkPackage Context) := history.filterMap pops

/-- The packages whose handler has been called. -/
def handled (history : PoolHistory Context) : List (WorkPackage Context) := history.filterMap handles

/-! ## The steps by what they found -/

inductive Steps (pool : Pool Context) : PoolAction Context → Pool Context → Prop
  | push {context : Context} (free : pool.workMutex = .free) :
      Steps pool (.push context) { pool with
        workMutex := .pushed
        work := pool.work ++ [⟨pool.nextTicket, context⟩]
        nextTicket := pool.nextTicket + 1 }
  | post (held : pool.workMutex = .pushed) :
      Steps pool .post { pool with workMutex := .posted, poolSem := pool.poolSem + 1 }
  | unlock (held : pool.workMutex = .posted) : Steps pool .unlock { pool with workMutex := .free }
  | wait {thread : Fin threadPoolSize} {posts : Nat} (waits : pool.threads thread = .waiting)
      (posted : pool.poolSem = posts + 1) :
      Steps pool (.wait thread) ({ pool with poolSem := posts }.set thread .woken)
  | pop {thread : Fin threadPoolSize} {package : WorkPackage Context}
      {work : List (WorkPackage Context)} (woke : pool.threads thread = .woken)
      (free : pool.workMutex = .free) (front : pool.work = package :: work) :
      Steps pool (.pop thread) ({ pool with work }.set thread (.holding package))
  | handle {thread : Fin threadPoolSize} {package : WorkPackage Context}
      (holds : pool.threads thread = .holding package) :
      Steps pool (.handle thread) (pool.set thread .waiting)

theorem steps_of_step {pool next : Pool Context} {action : PoolAction Context}
    (stepped : pool.step action = some next) : Steps pool action next := by
  cases action with
  | push context =>
    simp only [Pool.step] at stepped
    split at stepped
    · rename_i free
      cases stepped
      exact .push free
    · cases stepped
  | post =>
    simp only [Pool.step] at stepped
    split at stepped
    · rename_i held
      cases stepped
      exact .post held
    · cases stepped
  | unlock =>
    simp only [Pool.step] at stepped
    split at stepped
    · rename_i held
      cases stepped
      exact .unlock held
    · cases stepped
  | wait thread =>
    simp only [Pool.step] at stepped
    split at stepped
    · rename_i waits posted
      cases stepped
      exact .wait waits posted
    · cases stepped
  | pop thread =>
    simp only [Pool.step] at stepped
    split at stepped
    · rename_i woke free front
      cases stepped
      exact .pop woke free front
    · cases stepped
  | handle thread =>
    simp only [Pool.step] at stepped
    split at stepped
    · rename_i holds
      cases stepped
      exact .handle holds
    · cases stepped

/-! ## Sums over the threads -/

section Sums

variable {M : Type*} [AddCommMonoid M] (f : Thread Context → M)
  (threads : Fin threadPoolSize → Thread Context)

def total : M := ∑ thread, f (threads thread)

/-- One thread's part of a sum is exchanged. -/
theorem total_update (thread : Fin threadPoolSize) (value : Thread Context) :
    total f (Function.update threads thread value) + f (threads thread) = total f threads + f value := by
  have same : Function.update threads thread value thread = value := Function.update_self ..
  have others : ∑ other ∈ Finset.univ.erase thread, f (Function.update threads thread value other) =
      ∑ other ∈ Finset.univ.erase thread, f (threads other) := by
    refine Finset.sum_congr rfl (fun other member => ?_)
    rw [Function.update_of_ne (Finset.ne_of_mem_erase member)]
  unfold total
  rw [← Finset.add_sum_erase _ _ (Finset.mem_univ thread), others, same,
    ← Finset.add_sum_erase Finset.univ (fun other => f (threads other)) (Finset.mem_univ thread)]
  ac_rfl

end Sums

/-- Threads between `sem_wait` and `front`. -/
def Thread.wakes : Thread Context → Nat
  | .woken => 1
  | _ => 0

def Thread.holds : Thread Context → Multiset (WorkPackage Context)
  | .holding package => {package}
  | _ => 0

/-- Packages that are pushed but not posted. -/
def WorkMutex.unposted : WorkMutex → Nat
  | .pushed => 1
  | _ => 0

/-- The books of a run.  `semaphore` is what keeps the list from running empty. -/
structure Books (history : PoolHistory Context) (pool : Pool Context) : Prop where
  semaphore : pool.poolSem + total Thread.wakes pool.threads + pool.workMutex.unposted = pool.work.length
  order : dispatched history = popped history ++ pool.work
  places : (popped history : Multiset (WorkPackage Context)) =
    (handled history : Multiset (WorkPackage Context)) + total Thread.holds pool.threads
  tickets : (dispatched history).map WorkPackage.ticket = List.range pool.nextTicket

variable {history : PoolHistory Context} {pool next : Pool Context} {action : PoolAction Context}

theorem semaphore_step (steps : Steps pool action next) (books : Books history pool) :
    next.poolSem + total Thread.wakes next.threads + next.workMutex.unposted = next.work.length := by
  have semaphore := books.semaphore
  cases steps with
  | push free =>
    simp only [free, WorkMutex.unposted] at semaphore
    simp only [WorkMutex.unposted, List.length_append, List.length_singleton]
    omega
  | post held =>
    simp only [held, WorkMutex.unposted] at semaphore
    simp only [WorkMutex.unposted]
    omega
  | unlock held =>
    simp only [held, WorkMutex.unposted] at semaphore
    simp only [WorkMutex.unposted]
    omega
  | wait waits posted =>
    rename_i thread posts
    have exchanged := total_update Thread.wakes pool.threads thread .woken
    simp only [waits, Thread.wakes] at exchanged
    simp only [Pool.set]
    omega
  | pop woke free front =>
    rename_i thread package work
    have exchanged := total_update Thread.wakes pool.threads thread (.holding package)
    simp only [woke, Thread.wakes] at exchanged
    simp only [front, List.length_cons] at semaphore
    simp only [Pool.set]
    omega
  | handle holds =>
    rename_i thread package
    have exchanged := total_update Thread.wakes pool.threads thread .waiting
    simp only [holds, Thread.wakes] at exchanged
    simp only [Pool.set]
    omega

theorem order_step (steps : Steps pool action next) (books : Books history pool) :
    dispatched (history ++ [(pool, action)]) = popped (history ++ [(pool, action)]) ++ next.work := by
  have order := books.order
  simp only [dispatched, popped, filterMap_snoc] at order ⊢
  cases steps with
  | pop woke free front => simp [dispatches, pops, front, order, Pool.set]
  | push free => simp [dispatches, pops, order]
  | _ => simp [dispatches, pops, order, Pool.set]

theorem places_step (steps : Steps pool action next) (books : Books history pool) :
    (popped (history ++ [(pool, action)]) : Multiset (WorkPackage Context)) =
      (handled (history ++ [(pool, action)]) : Multiset (WorkPackage Context)) +
        total Thread.holds next.threads := by
  have places := books.places
  simp only [popped, handled, filterMap_snoc, ← Multiset.coe_add] at places ⊢
  rw [places]
  cases steps with
  | wait waits posted =>
    rename_i thread posts
    have exchanged := total_update Thread.holds pool.threads thread .woken
    simp only [waits, Thread.holds, add_zero] at exchanged
    simp [pops, handles, Pool.set, exchanged]
  | pop woke free front =>
    rename_i thread package work
    have exchanged := total_update Thread.holds pool.threads thread (.holding package)
    simp only [woke, Thread.holds, add_zero] at exchanged
    simp [pops, handles, Pool.set, exchanged, front, add_assoc]
  | handle holds =>
    rename_i thread package
    have exchanged := total_update Thread.holds pool.threads thread .waiting
    simp only [holds, Thread.holds, add_zero] at exchanged
    simp [pops, handles, Pool.set, ← exchanged, holds]
    ac_rfl
  | _ => simp [pops, handles]

theorem tickets_step (steps : Steps pool action next) (books : Books history pool) :
    (dispatched (history ++ [(pool, action)])).map WorkPackage.ticket = List.range next.nextTicket := by
  have tickets := books.tickets
  simp only [dispatched, filterMap_snoc] at tickets ⊢
  cases steps with
  | push free => simp [dispatches, tickets, List.range_succ]
  | _ => simp [dispatches, tickets, Pool.set]

theorem books_of_run {allowed : Pool Context → PoolAction Context → Prop}
    (run : Run poolSystem allowed history pool) : Books history pool := by
  apply run.historyInvariant Books
  · rintro pool rfl
    exact ⟨by simp [Pool.initial, total, Thread.wakes, WorkMutex.unposted], rfl,
      by simp [popped, handled, Pool.initial, total, Thread.holds], rfl⟩
  · intro history pool action next _ books _ stepped
    have steps := steps_of_step stepped
    exact ⟨semaphore_step steps books, order_step steps books, places_step steps books,
      tickets_step steps books⟩

/-! ## Delivery -/

theorem part_le_total (f : Thread Context → Nat) (threads : Fin threadPoolSize → Thread Context)
    (thread : Fin threadPoolSize) : f (threads thread) ≤ total f threads := by
  unfold total
  rw [← Finset.add_sum_erase Finset.univ (fun other => f (threads other)) (Finset.mem_univ thread)]
  exact Nat.le_add_right _ _

theorem count_total [DecidableEq Context] (package : WorkPackage Context)
    (threads : Fin threadPoolSize → Thread Context) :
    (total Thread.holds threads).count package =
      (Finset.univ.filter (fun thread => threads thread = .holding package)).card := by
  rw [total, Multiset.count_sum', Finset.card_filter]
  refine Finset.sum_congr rfl (fun thread _ => ?_)
  cases threads thread with
  | holding other =>
    by_cases same : package = other
    · simp [Thread.holds, same]
    · have different : ¬ other = package := fun equal => same equal.symm
      simp [Thread.holds, same, different]
  | _ => simp [Thread.holds]

/-- A thread that has got past `sem_wait` finds a package, packages leave the list as they were
dispatched, and each one is queued, held by one thread or handled once. -/
theorem pool_delivery [DecidableEq Context] (run : Run poolSystem (fun _ _ => True) history pool) :
    (∀ thread, pool.threads thread = .woken → pool.work ≠ []) ∧
    dispatched history = popped history ++ pool.work ∧
    ∀ package ∈ dispatched history,
      pool.work.count package +
        (Finset.univ.filter (fun thread => pool.threads thread = .holding package)).card +
        (handled history).count package = 1 := by
  have books := books_of_run run
  refine ⟨fun thread woke empty => ?_, books.order, fun package member => ?_⟩
  · have wakes := part_le_total Thread.wakes pool.threads thread
    have semaphore := books.semaphore
    simp only [woke, Thread.wakes] at wakes
    simp only [empty, List.length_nil] at semaphore
    omega
  · have distinct : (dispatched history).Nodup := by
      apply List.Nodup.of_map WorkPackage.ticket
      rw [books.tickets]
      exact List.nodup_range
    have once := List.count_eq_one_of_mem distinct member
    have places := congrArg (Multiset.count package) books.places
    rw [Multiset.coe_count, Multiset.count_add, Multiset.coe_count, count_total] at places
    rw [books.order, List.count_append] at once
    omega

/-- One task is dispatched, and a thread has taken it. -/
theorem pool_delivery_taken : ∃ (history : PoolHistory Task) (pool : Pool Task),
    dispatched history = [⟨0, .asyncDetector 3⟩] ∧ pool.work.count ⟨0, .asyncDetector 3⟩ = 0 ∧
      (Finset.univ.filter
        (fun thread => pool.threads thread = .holding ⟨0, .asyncDetector 3⟩)).card = 1 := by
  let fifth : Fin threadPoolSize := ⟨4, by decide⟩
  let actions : List (PoolAction Task) :=
    [.push (.asyncDetector 3), .post, .unlock, .wait fifth, .pop fifth]
  have executed : ∃ history pool, runActions Pool.step [] .initial actions = some (history, pool) ∧
      dispatched history = [⟨0, .asyncDetector 3⟩] ∧ pool.work = [] ∧ handled history = [] :=
    ⟨_, _, rfl, rfl, rfl, rfl⟩
  obtain ⟨history, pool, executed, isDispatched, queued, done⟩ := executed
  have run : Run poolSystem (fun _ _ => True) history pool :=
    run_of_runActions (.start rfl) (fun _ _ _ => trivial) executed
  have once := (pool_delivery run).2.2 ⟨0, .asyncDetector 3⟩ (by simp [isDispatched])
  simp only [queued, done, List.count_nil] at once
  exact ⟨history, pool, isDispatched, by rw [queued, List.count_nil], by omega⟩

/-! ## The pool of the proxy -/

def Thread.busy : Thread Context → Nat
  | .holding _ => 1
  | _ => 0

/-- The state's queue and busy workers are those of the pool. -/
structure Represents (pool : Pool Task) (state : State) : Prop where
  queue : state.queue = pool.work.map WorkPackage.context
  workers : state.workers.length = total Thread.busy pool.threads

theorem busy_lt {threads : Fin threadPoolSize → Thread Context} (thread : Fin threadPoolSize)
    (idle : (threads thread).busy = 0) : total Thread.busy threads < threadPoolSize := by
  have all : ∑ _thread : Fin threadPoolSize, 1 = threadPoolSize := by simp
  rw [← all]
  refine Finset.sum_lt_sum (fun other _ => ?_) ⟨thread, Finset.mem_univ thread, ?_⟩
  · cases threads other <;> simp [Thread.busy]
  · rw [idle]
    exact Nat.one_pos

variable {state : State} {pool next : Pool Task}

/-- `State.dispatch` and `State.take` are what the steps of the pool amount to. -/
theorem represents_step {action : PoolAction Task} (represents : Represents pool state)
    (steps : Steps pool action next) :
    match action with
    | .push task => Represents next (state.dispatch task)
    | .pop _ => ∃ taken, state.take = some taken ∧ Represents next taken
    | .handle _ => ∀ idle : State, idle.queue = state.queue →
        idle.workers.length + 1 = state.workers.length → Represents next idle
    | _ => Represents next state := by
  cases steps with
  | push free => exact ⟨by simp [State.dispatch, represents.queue], represents.workers⟩
  | post held => exact ⟨represents.queue, represents.workers⟩
  | unlock held => exact ⟨represents.queue, represents.workers⟩
  | wait waits posted =>
    rename_i thread posts
    have exchanged := total_update Thread.busy pool.threads thread .woken
    simp only [waits, Thread.busy, add_zero] at exchanged
    exact ⟨represents.queue, represents.workers.trans exchanged.symm⟩
  | pop woke free front =>
    rename_i thread package work
    have exchanged := total_update Thread.busy pool.threads thread (.holding package)
    simp only [woke, Thread.busy, add_zero] at exchanged
    have room : state.workers.length < threadPoolSize := by
      rw [represents.workers]
      exact busy_lt thread (by rw [woke]; rfl)
    have queue : state.queue = package.context :: work.map WorkPackage.context := by
      rw [represents.queue, front, List.map_cons]
    have taken : state.take = some { state with
        queue := work.map WorkPackage.context
        workers := state.workers ++ [package.context.worker] } := by
      simp only [State.take, queue, if_pos room]
    refine ⟨_, taken, rfl, ?_⟩
    simp only [List.length_append, List.length_singleton, Pool.set, exchanged, represents.workers]
  | handle holds =>
    rename_i thread package
    have exchanged := total_update Thread.busy pool.threads thread .waiting
    simp only [holds, Thread.busy, add_zero] at exchanged
    intro idle queue fewer
    refine ⟨queue.trans represents.queue, ?_⟩
    have before := represents.workers
    simp only [Pool.set]
    omega

end NermalProxy.ThreadPool
