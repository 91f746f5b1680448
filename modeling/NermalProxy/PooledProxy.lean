import NermalProxy.Library.Simulation
import NermalProxy.TaskFrame
import NermalProxy.ThreadPool

/-! # The proxy over its thread pool

The runs of the proxy let a worker take the first task whenever fewer than all are busy.
Here the queue and the busy workers are those of the pool: a semaphore, a mutex, a list
of packages and its threads. -/

namespace NermalProxy

open NermalProxy.CString NermalProxy.KeyedList NermalProxy.Config NermalProxy.Transition
  NermalProxy.SocketManager NermalProxy.ThreadPool

/-- `proxy` is the state of the proxy but for its tasks; `running` is where a thread of the pool is
in the handler that it has called. -/
structure Pooled where
  proxy : State
  pool : Pool Task
  running : Fin threadPoolSize → Option Worker

inductive PooledAction where
  | main (action : Action)
  | post
  | unlock
  | wait (thread : Fin threadPoolSize)
  | pop (thread : Fin threadPoolSize)
  | work (thread : Fin threadPoolSize) (input : Input)

namespace Pooled

/-- A handler of the main thread; `Dispatch` is the last that it calls, and has pushed by then. -/
def handle (settings : Settings) (action : Action) (pooled : Pooled) : Option Pooled :=
  match pooled.proxy.step settings action with
  | none => none
  | some proxy =>
    match proxy.queue with
    | [] => some { pooled with proxy }
    | task :: _ =>
      (pooled.pool.step (.push task)).map
        (fun pool => { pooled with proxy := { proxy with queue := [] }, pool })

def step (settings : Settings) (pooled : Pooled) : PooledAction → Option Pooled
  | .main action =>
    -- with the mutex held, the main thread is still in `Dispatch`
    if action.onMain = true ∧ pooled.pool.workMutex = .free then pooled.handle settings action else none
  | .post => (pooled.pool.step .post).map (fun pool => { pooled with pool })
  | .unlock => (pooled.pool.step .unlock).map (fun pool => { pooled with pool })
  | .wait thread => (pooled.pool.step (.wait thread)).map (fun pool => { pooled with pool })
  | .pop thread =>
    match pooled.pool.work with
    | [] => none
    | package :: _ =>
      (pooled.pool.step (.pop thread)).map (fun pool => { pooled with
        pool, running := Function.update pooled.running thread (some package.context.worker) })
  | .work thread input =>
    match pooled.running thread with
    | none => none
    | some worker =>
      match worker.step input pooled.proxy with
      | none => none
      | some (proxy, some pc) =>
        some { pooled with
          proxy, running := Function.update pooled.running thread (some { worker with pc }) }
      | some (proxy, none) =>
        (pooled.pool.step (.handle thread)).map
          (fun pool => { proxy, pool, running := Function.update pooled.running thread none })

end Pooled

def pooledSystem (settings : Settings) : System Pooled PooledAction :=
  System.ofFunction
    (fun pooled => pooled.proxy.Initial ∧ pooled.pool = .initial ∧ pooled.running = fun _ => none)
    (Pooled.step settings)

/-! ## What both levels show -/

/-- What is done to the rest of the proxy. -/
inductive Visible where
  | main (action : Action)
  | work (worker : Worker) (input : Input)

def State.visible : State × Action → Option (State × Visible)
  | (_, .take) => none
  | (state, .work index input) =>
    (state.workers[index]?).map (fun worker => (state.withTasks [] [], .work worker input))
  | (state, action) => some (state.withTasks [] [], .main action)

def Pooled.visible : Pooled × PooledAction → Option (State × Visible)
  | (pooled, .main action) => some (pooled.proxy.withTasks [] [], .main action)
  | (pooled, .work thread input) =>
    (pooled.running thread).map (fun worker => (pooled.proxy.withTasks [] [], .work worker input))
  | _ => none

namespace Pooled

/-- The state that a pooled one stands for, with the threads in the order they took their tasks in. -/
structure Lists (pooled : Pooled) (threads : List (Fin threadPoolSize)) (state : State) : Prop where
  noTasks : pooled.proxy.queue = []
  same : state = pooled.proxy.withTasks (pooled.pool.work.map WorkPackage.context) state.workers
  distinct : threads.Nodup
  busy : ∀ thread, thread ∈ threads ↔ pooled.running thread ≠ none
  workers : threads.map pooled.running = state.workers.map some
  holds : ∀ thread, pooled.running thread ≠ none ↔
    ∃ package, pooled.pool.threads thread = .holding package

variable {settings : Settings} {pooled next : Pooled} {state : State} {threads : List (Fin threadPoolSize)}

/-- What the main thread does to the pooled state it does to the state behind it. -/
theorem lists_main {action : Action} (lists : pooled.Lists threads state)
    (stepped : pooled.step settings (.main action) = some next) :
    action.onMain = true ∧ ∃ after, state.step settings action = some after ∧ next.Lists threads after := by
  simp only [step] at stepped
  split at stepped
  · rename_i ready
    unfold handle at stepped
    cases handled : pooled.proxy.step settings action with
    | none => simp [handled] at stepped
    | some proxy =>
      have answered := @State.step_withTasks settings _ action ready.1 lists.noTasks
        (pooled.pool.work.map WorkPackage.context) state.workers
      rw [← lists.same, handled, Option.map_some] at answered
      refine ⟨ready.1, _, answered, ?_⟩
      obtain ⟨-, queue | ⟨task, queue⟩⟩ := State.step_dispatches ready.1 lists.noTasks handled
      · simp only [handled, queue, Option.some.injEq] at stepped
        cases stepped
        exact { lists with
          noTasks := queue
          same := by rw [queue, List.append_nil]; rfl }
      · simp only [handled, queue] at stepped
        obtain ⟨pool, pushed, rfl⟩ := Option.map_eq_some_iff.mp stepped
        cases ThreadPool.steps_of_step pushed with
        | push free =>
          exact { lists with
            noTasks := rfl
            same := by rw [queue, List.map_append]; rfl }
  · cases stepped

/-! ### The threads by their places -/

section Places

variable {Value : Type*} {running : Fin threadPoolSize → Value} {thread : Fin threadPoolSize} {index : Nat}

theorem map_update_of_notMem (absent : thread ∉ threads) (value : Value) :
    threads.map (Function.update running thread value) = threads.map running := by
  refine List.map_congr_left (fun other member => Function.update_of_ne ?_ _ _)
  rintro rfl
  exact absent member

theorem map_update (distinct : threads.Nodup) (at_ : threads[index]? = some thread) (value : Value) :
    threads.map (Function.update running thread value) = (threads.map running).set index value := by
  obtain ⟨inside, isThread⟩ := List.getElem?_eq_some_iff.mp at_
  refine List.ext_getElem (by simp) (fun place here there => ?_)
  rw [List.getElem_map, List.getElem_set, List.getElem_map]
  by_cases same : index = place
  · subst same
    rw [if_pos rfl, isThread, Function.update_self]
  · have within : place < threads.length := by simpa using here
    have other : threads[place] ≠ thread :=
      fun equal => same ((distinct.getElem_inj_iff).mp (isThread.trans equal.symm))
    rw [if_neg same, Function.update_of_ne other]

theorem notMem_eraseIdx (distinct : threads.Nodup) (at_ : threads[index]? = some thread)
    (other : Fin threadPoolSize) :
    other ∈ threads.eraseIdx index ↔ other ≠ thread ∧ other ∈ threads := by
  obtain ⟨inside, rfl⟩ := List.getElem?_eq_some_iff.mp at_
  rw [← distinct.erase_getElem, distinct.mem_erase_iff]

theorem holding_update {held : Fin threadPoolSize → Thread Task} {value : Thread Task}
    (before : ∀ package, held thread ≠ .holding package) (after : ∀ package, value ≠ .holding package)
    (other : Fin threadPoolSize) :
    (∃ package, Function.update held thread value other = .holding package) ↔
      ∃ package, held other = .holding package := by
  by_cases same : other = thread
  · subst same
    simp [Function.update_self, before, after]
  · rw [Function.update_of_ne same]

end Places

/-- A thread that is not in a handler has room to take a task. -/
theorem Lists.room {thread : Fin threadPoolSize} (lists : pooled.Lists threads state)
    (absent : thread ∉ threads) : state.workers.length < threadPoolSize := by
  have lengths := congrArg List.length lists.workers
  simp only [List.length_map] at lengths
  have all : (thread :: threads).length ≤ Fintype.card (Fin threadPoolSize) :=
    (List.nodup_cons.mpr ⟨absent, lists.distinct⟩).length_le_card
  simp only [List.length_cons, Fintype.card_fin] at all
  omega

theorem lists_post (lists : pooled.Lists threads state) (stepped : pooled.step settings .post = some next) :
    next.Lists threads state := by
  obtain ⟨pool, posted, rfl⟩ := Option.map_eq_some_iff.mp stepped
  cases ThreadPool.steps_of_step posted with
  | post held => exact { lists with }

theorem lists_unlock (lists : pooled.Lists threads state)
    (stepped : pooled.step settings .unlock = some next) : next.Lists threads state := by
  obtain ⟨pool, unlocked, rfl⟩ := Option.map_eq_some_iff.mp stepped
  cases ThreadPool.steps_of_step unlocked with
  | unlock held => exact { lists with }

theorem lists_wait {thread : Fin threadPoolSize} (lists : pooled.Lists threads state)
    (stepped : pooled.step settings (.wait thread) = some next) : next.Lists threads state := by
  obtain ⟨pool, waited, rfl⟩ := Option.map_eq_some_iff.mp stepped
  cases ThreadPool.steps_of_step waited with
  | wait waits posted =>
    exact { lists with
      holds := fun other => (lists.holds other).trans
        (holding_update (by simp [waits]) (by simp) other).symm }

/-- A thread that finds a package is a worker that takes the first task. -/
theorem lists_pop {thread : Fin threadPoolSize} (lists : pooled.Lists threads state)
    (stepped : pooled.step settings (.pop thread) = some next) :
    ∃ after, state.step settings .take = some after ∧ next.Lists (threads ++ [thread]) after := by
  simp only [step] at stepped
  split at stepped
  · cases stepped
  · rename_i package rest front
    obtain ⟨pool, popped, rfl⟩ := Option.map_eq_some_iff.mp stepped
    cases ThreadPool.steps_of_step popped with
    | pop woke free again =>
      cases front.symm.trans again
      have idle : pooled.running thread = none := by
        by_contra runs
        obtain ⟨held, holds⟩ := (lists.holds thread).mp runs
        cases woke.symm.trans holds
      have absent : thread ∉ threads := fun member => (lists.busy thread).mp member idle
      have room := lists.room absent
      have queue : state.queue = package.context :: rest.map WorkPackage.context := by
        rw [lists.same, front]
        rfl
      refine ⟨{ state with
        queue := rest.map WorkPackage.context
        workers := state.workers ++ [package.context.worker] }, ?_, ?_⟩
      · simp only [State.step, State.take, queue, if_pos room]
      · refine ⟨lists.noTasks, ?_, ?_, ?_, ?_, ?_⟩
        · rw [lists.same]
          rfl
        · exact List.nodup_append.mpr ⟨lists.distinct, List.nodup_singleton _, by
            rintro other member _ (_ | ⟨_, ⟨⟩⟩) rfl
            exact absent member⟩
        · intro other
          simp only [List.mem_append, List.mem_singleton]
          by_cases same : other = thread
          · simp [same, Function.update_self]
          · simp only [Function.update_of_ne same, lists.busy, same, or_false]
        · rw [List.map_append, map_update_of_notMem absent, lists.workers, List.map_append]
          simp [Function.update_self]
        · intro other
          by_cases same : other = thread
          · simp [same, Pool.set, Function.update_self]
          · simp only [Pool.set, Function.update_of_ne same]
            exact lists.holds other

theorem Lists.running_of_worker {index : Nat} {worker : Worker} (lists : pooled.Lists threads state)
    (at_ : state.workers[index]? = some worker) :
    ∃ thread, threads[index]? = some thread ∧ pooled.running thread = some worker := by
  have same := congrArg (·[index]?) lists.workers
  simp only [List.getElem?_map, at_, Option.map_some] at same
  exact Option.map_eq_some_iff.mp same

theorem Lists.worker_of_running {index : Nat} {thread : Fin threadPoolSize} {worker : Worker}
    (lists : pooled.Lists threads state) (at_ : threads[index]? = some thread)
    (runs : pooled.running thread = some worker) : state.workers[index]? = some worker := by
  have same := congrArg (·[index]?) lists.workers
  simp only [List.getElem?_map, at_, Option.map_some, runs] at same
  obtain ⟨other, found, equal⟩ := Option.map_eq_some_iff.mp same.symm
  rw [found, equal]

/-- A step of a thread in its handler is one of the worker in its place. -/
theorem lists_work {thread : Fin threadPoolSize} {input : Input} {index : Nat}
    (lists : pooled.Lists threads state) (at_ : threads[index]? = some thread)
    (stepped : pooled.step settings (.work thread input) = some next) :
    ∃ after later, state.step settings (.work index input) = some after ∧ next.Lists later after := by
  simp only [step] at stepped
  split at stepped
  · cases stepped
  · rename_i worker runs
    have placed := lists.worker_of_running at_ runs
    have answered := worker.step_withTasks input pooled.proxy
      (pooled.pool.work.map WorkPackage.context) state.workers
    rw [← lists.same] at answered
    split at stepped
    · cases stepped
    · rename_i proxy pc handled
      cases stepped
      rw [handled, Option.map_some] at answered
      have queue := (State.step_frame handled).queue
      have stillBusy : ∀ other,
          Function.update pooled.running thread (some { worker with pc }) other ≠ none ↔
            pooled.running other ≠ none := by
        intro other
        by_cases same : other = thread
        · simp [same, Function.update_self, runs]
        · rw [Function.update_of_ne same]
      refine ⟨{ proxy.withTasks (pooled.pool.work.map WorkPackage.context) state.workers with
        workers := state.workers.set index { worker with pc } }, threads, ?_, ?_⟩
      · simp only [State.step, State.work, placed, answered]
        rfl
      · exact {
          noTasks := queue.trans lists.noTasks
          same := rfl
          distinct := lists.distinct
          busy := fun other => (lists.busy other).trans (stillBusy other).symm
          workers := by
            simp only
            rw [map_update lists.distinct at_, lists.workers, List.map_set]
          holds := fun other => (stillBusy other).trans (lists.holds other) }
    · rename_i proxy handled
      obtain ⟨pool, ended, rfl⟩ := Option.map_eq_some_iff.mp stepped
      rw [handled, Option.map_some] at answered
      have queue := (State.step_frame handled).queue
      refine ⟨{ proxy.withTasks (pooled.pool.work.map WorkPackage.context) state.workers with
        workers := state.workers.eraseIdx index }, threads.eraseIdx index, ?_, ?_⟩
      · simp only [State.step, State.work, placed, answered]
        rfl
      · have left := notMem_eraseIdx lists.distinct at_
        have absent : thread ∉ threads.eraseIdx index := fun member => ((left thread).mp member).1 rfl
        cases ThreadPool.steps_of_step ended with
        | handle holds =>
          refine ⟨queue.trans lists.noTasks, rfl, lists.distinct.eraseIdx index, ?_, ?_, ?_⟩
          · intro other
            by_cases same : other = thread
            · simp [same, absent, Function.update_self]
            · simp only [Function.update_of_ne same, left, lists.busy, ne_eq, same, not_false_eq_true,
                true_and]
          · simp only
            rw [map_update_of_notMem absent, ← List.eraseIdx_map, lists.workers, List.eraseIdx_map]
          · intro other
            by_cases same : other = thread
            · simp [same, Pool.set, Function.update_self]
            · simp only [Pool.set, Function.update_of_ne same]
              exact lists.holds other

theorem lists_initial (isInitial : pooled.proxy.Initial) (pool : pooled.pool = .initial)
    (idle : pooled.running = fun _ => none) : pooled.Lists [] pooled.proxy := by
  obtain ⟨proxy, _, _⟩ := pooled
  cases pool
  cases idle
  obtain ⟨serverFd, commandFd, openFds, now, -, -, -, rfl⟩ := isInitial
  exact ⟨rfl, rfl, List.nodup_nil, by simp, rfl, by simp⟩

/-- Both levels have the same rest. -/
theorem Lists.rest (lists : pooled.Lists threads state) :
    state.withTasks [] [] = pooled.proxy.withTasks [] [] := by
  rw [lists.same]
  rfl

end Pooled

/-- What is required of the actions of the main thread. -/
def PooledAction.Permitted (permits : Action → Prop) : PooledAction → Prop
  | .main action => permits action
  | _ => True

def Action.Permitted (permits : Action → Prop) (action : Action) : Prop :=
  action.onMain = true → permits action

theorem State.visible_main {action : Action} (main : action.onMain = true) (state : State) :
    State.visible (state, action) = some (state.withTasks [] [], .main action) := by
  cases action with
  | take | work index input => cases main
  | _ => rfl

namespace Pooled

variable {settings : Settings} {permits : Action → Prop} {pooled next : Pooled} {state after : State}
  {history : History} {lifted : List (Pooled × PooledAction)} {threads : List (Fin threadPoolSize)}

/-- The proxy answers each step over the pool with one that shows the same, or with none. -/
theorem proxy_answers {action : PooledAction}
    (run : Run (proxySystem settings) (fun _ => Action.Permitted permits) history state)
    (lists : pooled.Lists threads state) (permitted : action.Permitted permits)
    (stepped : pooled.step settings action = some next) :
    ∃ more after, Run (proxySystem settings) (fun _ => Action.Permitted permits) (history ++ more) after ∧
      (∃ later, next.Lists later after) ∧
      more.filterMap State.visible = (Pooled.visible (pooled, action)).toList := by
  cases action with
  | main action =>
    obtain ⟨main, after, answered, still⟩ := lists_main lists stepped
    refine ⟨[(state, action)], after, run.snoc (fun _ => permitted) answered, ⟨threads, still⟩, ?_⟩
    simp [State.visible_main main, Pooled.visible, lists.rest]
  | post => exact ⟨[], state, by simpa using run, ⟨threads, lists_post lists stepped⟩, rfl⟩
  | unlock => exact ⟨[], state, by simpa using run, ⟨threads, lists_unlock lists stepped⟩, rfl⟩
  | wait thread => exact ⟨[], state, by simpa using run, ⟨threads, lists_wait lists stepped⟩, rfl⟩
  | pop thread =>
    obtain ⟨after, answered, still⟩ := lists_pop lists stepped
    exact ⟨[(state, .take)], after, run.snoc (fun main => by cases main) answered, ⟨_, still⟩, rfl⟩
  | work thread input =>
    have runs : pooled.running thread ≠ none := by
      intro idle
      simp [step, idle] at stepped
    obtain ⟨index, at_⟩ := List.mem_iff_getElem?.mp ((lists.busy thread).mpr runs)
    obtain ⟨worker, isWorker⟩ := Option.ne_none_iff_exists'.mp runs
    obtain ⟨after, later, answered, still⟩ := lists_work lists at_ stepped
    refine ⟨[(state, .work index input)], after, run.snoc (fun main => by cases main) answered,
      ⟨later, still⟩, ?_⟩
    simp [State.visible, Pooled.visible, lists.worker_of_running at_ isWorker, isWorker, lists.rest]

/-! ### What the pool can do for the proxy -/

/-- The pool is at rest: nothing is being dispatched, and no thread is on its way to a package. -/
structure Rests (pooled : Pooled) : Prop where
  free : pooled.pool.workMutex = .free
  unwoken : ∀ thread, pooled.pool.threads thread ≠ .woken
  posted : pooled.pool.poolSem = pooled.pool.work.length

/-- An event of the main thread, and what is left of `Dispatch` when it has dispatched a task. -/
theorem pool_answers_main {action : Action}
    (run : Run (pooledSystem settings) (fun _ => PooledAction.Permitted permits) lifted pooled)
    (lists : pooled.Lists threads state) (rests : pooled.Rests) (main : action.onMain = true)
    (permitted : permits action) (stepped : state.step settings action = some after) :
    ∃ more later, Run (pooledSystem settings) (fun _ => PooledAction.Permitted permits)
        (lifted ++ more) later ∧
      later.Lists threads after ∧ later.Rests ∧
        more.filterMap Pooled.visible = (State.visible (state, action)).toList := by
  have handled := @State.step_withTasks settings _ action main lists.noTasks
    (pooled.pool.work.map WorkPackage.context) state.workers
  rw [← lists.same, stepped] at handled
  obtain ⟨proxy, performed, -⟩ := Option.map_eq_some_iff.mp handled.symm
  have allowed : PooledAction.Permitted permits (.main action) := permitted
  obtain ⟨-, queue | ⟨task, queue⟩⟩ := State.step_dispatches main lists.noTasks performed
  · have first : pooled.step settings (.main action) = some { pooled with proxy } := by
      simp only [step, handle, main, rests.free, and_self, if_true, performed, queue]
    obtain ⟨-, final, answered, still⟩ := lists_main lists first
    cases stepped.symm.trans answered
    refine ⟨[(pooled, .main action)], _, run.snoc allowed first, still, { rests with }, ?_⟩
    simp [State.visible_main main, Pooled.visible, lists.rest]
  · let pushed : Pooled :=
      { pooled with
        proxy := { proxy with queue := [] }
        pool := { pooled.pool with
          workMutex := .pushed
          work := pooled.pool.work ++ [⟨pooled.pool.nextTicket, task⟩]
          nextTicket := pooled.pool.nextTicket + 1 } }
    let posted : Pooled :=
      { pushed with
        pool := { pushed.pool with workMutex := .posted, poolSem := pooled.pool.poolSem + 1 } }
    let unlocked : Pooled := { posted with pool := { posted.pool with workMutex := .free } }
    have first : pooled.step settings (.main action) = some pushed := by
      simp only [step, handle, main, rests.free, and_self, if_true, performed, queue, Pool.step,
        Option.map_some, pushed]
    have second : pushed.step settings .post = some posted := rfl
    have third : posted.step settings .unlock = some unlocked := rfl
    obtain ⟨-, final, answered, still⟩ := lists_main lists first
    cases stepped.symm.trans answered
    have posts : PooledAction.Permitted permits .post := trivial
    have unlocks : PooledAction.Permitted permits .unlock := trivial
    have longer := ((run.snoc allowed first).snoc posts second).snoc unlocks third
    rw [List.append_assoc, List.append_assoc] at longer
    refine ⟨_, unlocked, longer, lists_unlock (lists_post still second) third,
      ⟨rfl, rests.unwoken, ?_⟩, ?_⟩
    · simp [unlocked, posted, pushed, rests.posted]
    · simp [State.visible_main main, Pooled.visible, lists.rest]

/-- Where fewer than all threads are in a handler, one of them waits. -/
theorem exists_waiting (lists : pooled.Lists threads state) (rests : pooled.Rests)
    (room : state.workers.length < threadPoolSize) :
    ∃ thread, pooled.pool.threads thread = .waiting := by
  have few : threads.toFinset.card < (Finset.univ : Finset (Fin threadPoolSize)).card := by
    have lengths := congrArg List.length lists.workers
    simp only [List.length_map] at lengths
    rw [Finset.card_univ, Fintype.card_fin]
    exact lt_of_le_of_lt (List.toFinset_card_le threads) (lengths ▸ room)
  obtain ⟨thread, -, absent⟩ := Finset.exists_mem_notMem_of_card_lt_card few
  refine ⟨thread, ?_⟩
  cases at_ : pooled.pool.threads thread with
  | waiting => rfl
  | woken => exact absurd at_ (rests.unwoken thread)
  | holding package =>
    have busy := (lists.busy thread).mpr ((lists.holds thread).mpr ⟨package, at_⟩)
    exact absurd (List.mem_toFinset.mpr busy) absent

/-- A task that a worker takes: one of the threads gets past the semaphore, and then to the package. -/
theorem pool_answers_take
    (run : Run (pooledSystem settings) (fun _ => PooledAction.Permitted permits) lifted pooled)
    (lists : pooled.Lists threads state) (rests : pooled.Rests)
    (stepped : state.step settings .take = some after) :
    ∃ more later, Run (pooledSystem settings) (fun _ => PooledAction.Permitted permits)
        (lifted ++ more) later ∧
      (∃ threads, later.Lists threads after) ∧ later.Rests ∧ more.filterMap Pooled.visible = [] := by
  have taken := stepped
  simp only [State.step, State.take] at taken
  split at taken
  · cases taken
  · rename_i task queue first
    split at taken
    · rename_i room
      obtain ⟨thread, waits⟩ := exists_waiting lists rests room
      cases front : pooled.pool.work with
      | nil =>
        rw [lists.same] at first
        simp [State.withTasks, front] at first
      | cons package rest =>
        have posts : pooled.pool.poolSem = rest.length + 1 := by rw [rests.posted, front, List.length_cons]
        let woken : Pooled :=
          { pooled with pool := ({ pooled.pool with poolSem := rest.length }).set thread .woken }
        let popped : Pooled :=
          { pooled with
            pool := ({ woken.pool with work := rest }).set thread (.holding package)
            running := Function.update pooled.running thread (some package.context.worker) }
        have wait : pooled.step settings (.wait thread) = some woken := by
          simp only [step, Pool.step, waits, posts, Option.map_some, woken]
        have pop : woken.step settings (.pop thread) = some popped := by
          simp [step, Pool.step, woken, popped, Pool.set, front, rests.free]
        obtain ⟨final, answered, still⟩ := lists_pop (lists_wait lists wait) pop
        cases stepped.symm.trans answered
        have waiting : PooledAction.Permitted permits (.wait thread) := trivial
        have popping : PooledAction.Permitted permits (.pop thread) := trivial
        have longer := (run.snoc waiting wait).snoc popping pop
        rw [List.append_assoc] at longer
        refine ⟨_, popped, longer, ⟨_, still⟩, ⟨rests.free, ?_, rfl⟩, rfl⟩
        intro other
        by_cases same : other = thread
        · simp [same, popped, Pool.set]
        · simpa [popped, woken, Pool.set, same] using rests.unwoken other
    · cases taken

/-- A step of a worker is one of the thread in whose place it is. -/
theorem pool_answers_work {index : Nat} {input : Input}
    (run : Run (pooledSystem settings) (fun _ => PooledAction.Permitted permits) lifted pooled)
    (lists : pooled.Lists threads state) (rests : pooled.Rests)
    (stepped : state.step settings (.work index input) = some after) :
    ∃ more later, Run (pooledSystem settings) (fun _ => PooledAction.Permitted permits)
        (lifted ++ more) later ∧
      (∃ threads, later.Lists threads after) ∧ later.Rests ∧
        more.filterMap Pooled.visible = (State.visible (state, .work index input)).toList := by
  obtain ⟨worker, shared, pc, placed, worked, -⟩ := State.exists_of_work stepped
  obtain ⟨thread, at_, runs⟩ := lists.running_of_worker placed
  have handled := worker.step_withTasks input pooled.proxy
    (pooled.pool.work.map WorkPackage.context) state.workers
  rw [← lists.same, worked] at handled
  obtain ⟨⟨proxy, reached⟩, performed, -⟩ := Option.map_eq_some_iff.mp handled.symm
  obtain ⟨next, moved, nextRests⟩ :
      ∃ next, pooled.step settings (.work thread input) = some next ∧ next.Rests := by
    cases reached with
    | some pc =>
      refine ⟨{ pooled with
        proxy, running := Function.update pooled.running thread (some { worker with pc }) }, ?_,
        { rests with }⟩
      simp only [step, runs, performed]
    | none =>
      obtain ⟨package, holds⟩ := (lists.holds thread).mp (by simp [runs])
      refine ⟨{ proxy
                pool := pooled.pool.set thread .waiting
                running := Function.update pooled.running thread none }, ?_, rests.free, ?_, rests.posted⟩
      · simp only [step, runs, performed, Pool.step, holds, Option.map_some]
      · intro other
        by_cases same : other = thread
        · simp [same, Pool.set]
        · simpa [Pool.set, same] using rests.unwoken other
  obtain ⟨final, later, answered, still⟩ := lists_work lists at_ moved
  cases stepped.symm.trans answered
  have working : PooledAction.Permitted permits (.work thread input) := trivial
  refine ⟨[(pooled, .work thread input)], next, run.snoc working moved, ⟨later, still⟩, nextRests, ?_⟩
  simp [State.visible, Pooled.visible, placed, runs, lists.rest]

/-- Over the pool at rest each step of the proxy is answered, and the pool rests again. -/
theorem pool_answers {action : Action}
    (run : Run (pooledSystem settings) (fun _ => PooledAction.Permitted permits) lifted pooled)
    (lists : ∃ threads, pooled.Lists threads state) (rests : pooled.Rests)
    (permitted : action.Permitted permits) (stepped : state.step settings action = some after) :
    ∃ more later, Run (pooledSystem settings) (fun _ => PooledAction.Permitted permits)
        (lifted ++ more) later ∧
      ((∃ threads, later.Lists threads after) ∧ later.Rests) ∧
        more.filterMap Pooled.visible = (State.visible (state, action)).toList := by
  obtain ⟨threads, lists⟩ := lists
  by_cases main : action.onMain = true
  · obtain ⟨more, later, longer, still, resting, same⟩ :=
      pool_answers_main run lists rests main (permitted main) stepped
    exact ⟨more, later, longer, ⟨⟨threads, still⟩, resting⟩, same⟩
  · cases action with
    | take =>
      obtain ⟨more, later, longer, still, resting, same⟩ := pool_answers_take run lists rests stepped
      exact ⟨more, later, longer, ⟨still, resting⟩, same⟩
    | work index input =>
      obtain ⟨more, later, longer, still, resting, same⟩ := pool_answers_work run lists rests stepped
      exact ⟨more, later, longer, ⟨still, resting⟩, same⟩
    | _ => exact absurd rfl main

/-- What a step does to the pool is at most one step of its own. -/
theorem pool_step {action : PooledAction} (stepped : pooled.step settings action = some next) :
    next.pool = pooled.pool ∨ ∃ own, pooled.pool.step own = some next.pool := by
  cases action with
  | main action =>
    simp only [step, handle] at stepped
    split at stepped
    · split at stepped
      · cases stepped
      · split at stepped
        · cases stepped
          exact .inl rfl
        · obtain ⟨pool, pushed, rfl⟩ := Option.map_eq_some_iff.mp stepped
          exact .inr ⟨_, pushed⟩
    · cases stepped
  | post | unlock | wait thread =>
    obtain ⟨pool, own, rfl⟩ := Option.map_eq_some_iff.mp stepped
    exact .inr ⟨_, own⟩
  | pop thread =>
    simp only [step] at stepped
    split at stepped
    · cases stepped
    · obtain ⟨pool, popped, rfl⟩ := Option.map_eq_some_iff.mp stepped
      exact .inr ⟨_, popped⟩
  | work thread input =>
    simp only [step] at stepped
    split at stepped
    · cases stepped
    · split at stepped
      · cases stepped
      · cases stepped
        exact .inl rfl
      · obtain ⟨pool, ended, rfl⟩ := Option.map_eq_some_iff.mp stepped
        exact .inr ⟨_, ended⟩

/-- The pool of a run is that of a run of its own. -/
theorem pool_of_run {allowed : Pooled → PooledAction → Prop}
    (run : Run (pooledSystem settings) allowed lifted pooled) :
    ∃ history, Run poolSystem (fun _ _ => True) history pooled.pool := by
  apply run.invariant (fun pooled => ∃ history, Run poolSystem (fun _ _ => True) history pooled.pool)
  · rintro pooled ⟨-, isInitial, -⟩
    exact ⟨[], .start isInitial⟩
  · rintro pooled action next ⟨history, poolRun⟩ - stepped
    rcases pool_step stepped with same | ⟨own, taken⟩
    · exact ⟨history, same ▸ poolRun⟩
    · exact ⟨_, poolRun.snoc trivial taken⟩

/-- A thread that the semaphore lets pass finds a package. -/
theorem work_of_woken {history : PoolHistory Task} {pool : Pool Task} {thread : Fin threadPoolSize}
    (run : Run poolSystem (fun _ _ => True) history pool) (woke : pool.threads thread = .woken) :
    pool.work ≠ [] := by
  intro empty
  have semaphore := (books_of_run run).semaphore
  have wakes := part_le_total Thread.wakes pool.threads thread
  simp only [woke, Thread.wakes] at wakes
  simp only [empty, List.length_nil] at semaphore
  omega

/-- The proxy over its pool and the proxy that takes its tasks at once show the same, in either
direction; and over the pool a thread that has got past the semaphore always finds a package. -/
theorem pool_refines (permits : Action → Prop) :
    (∀ {lifted : List (Pooled × PooledAction)} {pooled : Pooled},
      Run (pooledSystem settings) (fun _ => PooledAction.Permitted permits) lifted pooled →
        (∀ thread, pooled.pool.threads thread = .woken → pooled.pool.work ≠ []) ∧
        ∃ history state, Run (proxySystem settings) (fun _ => Action.Permitted permits) history state ∧
          (∃ threads, pooled.Lists threads state) ∧
            history.filterMap State.visible = lifted.filterMap Pooled.visible) ∧
    ∀ {history : History} {state : State},
      Run (proxySystem settings) (fun _ => Action.Permitted permits) history state →
        ∃ lifted pooled, Run (pooledSystem settings) (fun _ => PooledAction.Permitted permits) lifted pooled ∧
          (∃ threads, pooled.Lists threads state) ∧
            lifted.filterMap Pooled.visible = history.filterMap State.visible := by
  refine ⟨fun {lifted pooled} run => ⟨fun thread woke => ?_, ?_⟩, fun {history state} run => ?_⟩
  · obtain ⟨history, poolRun⟩ := pool_of_run run
    exact work_of_woken poolRun woke
  · refine run.answered _ _ Pooled.visible State.visible
      (fun pooled state => ∃ threads, pooled.Lists threads state) ?_ ?_
    · rintro pooled ⟨isInitial, pool, idle⟩
      exact ⟨pooled.proxy, isInitial, [], lists_initial isInitial pool idle⟩
    · rintro _ pooled action next history state - answering ⟨threads, lists⟩ permitted stepped
      exact proxy_answers answering lists permitted stepped
  · obtain ⟨lifted, pooled, answering, ⟨lists, -⟩, same⟩ := run.answered (pooledSystem settings)
      (fun _ => PooledAction.Permitted permits) State.visible Pooled.visible
      (fun state pooled => (∃ threads, pooled.Lists threads state) ∧ pooled.Rests)
      (fun state isInitial => ⟨⟨state, .initial, fun _ => none⟩, ⟨isInitial, rfl, rfl⟩,
        ⟨[], lists_initial isInitial rfl rfl⟩, rfl, fun _ woke => (by cases woke), rfl⟩)
      (fun _ _ _ _ _ _ _ answering related permitted stepped =>
        pool_answers answering related.1 related.2 permitted stepped)
    exact ⟨lifted, pooled, answering, lists, same⟩

/-- The run over the pool in which a client is told that its origin has refused the connection. -/
theorem pool_refines_refuse : ∃ lifted pooled, Run (pooledSystem State.unrestricted)
    (fun _ => PooledAction.Permitted (fun action => ∀ state, Registers state action)) lifted pooled ∧
      pooled.proxy.responses = [(5, notFound)] ∧
        ∀ thread, pooled.pool.threads thread = .woken → pooled.pool.work ≠ [] := by
  have executed : ∃ history state,
      runActions (State.step State.unrestricted) [] (State.initial 3 4 [3, 4] 0) State.refuse =
        some (history, state) ∧ state.responses = [(5, notFound)] :=
    ⟨_, _, rfl, by decide⟩
  obtain ⟨history, state, executed, responses⟩ := executed
  have run : Run (proxySystem State.unrestricted)
      (fun _ => Action.Permitted (fun action => ∀ state, Registers state action)) history state :=
    run_of_runActions (.start State.initially) (fun action member _ _ => State.registers_refuse action member)
      executed
  obtain ⟨lifted, pooled, pooledRun, ⟨threads, lists⟩, -⟩ := (pool_refines _).2 run
  refine ⟨lifted, pooled, pooledRun, ?_, ((pool_refines _).1 pooledRun).1⟩
  rw [← responses, lists.same]
  rfl

end Pooled

end NermalProxy
