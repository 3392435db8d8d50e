import Mathlib.Tactic.Common

/-!
# Fair locks

A lock that goes to its waiters in the order in which they came, as `asyncio.Lock`
does: while somebody waits, nobody overtakes.
-/

namespace SsfTransmitter.Core

/-- Who holds the lock, and who waits for it. -/
structure FairLock (Task : Type*) where
  holder : Option Task
  queue : List Task

namespace FairLock

variable {Task : Type*} [DecidableEq Task]

/-- A lock that nobody uses. -/
def free : FairLock Task :=
  ⟨none, []⟩

/-- The lock is there for a task that comes now. -/
def available (lock : FairLock Task) : Bool :=
  lock.holder.isNone && lock.queue.isEmpty

/-- A task takes the lock, or waits. -/
def acquire (task : Task) (lock : FairLock Task) : FairLock Task :=
  if lock.available then { lock with holder := some task }
  else { lock with queue := lock.queue ++ [task] }

/-- The first waiter takes the lock once it is released. -/
def handOver (task : Task) (lock : FairLock Task) : Option (FairLock Task) :=
  if lock.holder.isNone && lock.queue.head? = some task then
    some ⟨some task, lock.queue.tail⟩
  else none

def release (lock : FairLock Task) : FairLock Task :=
  { lock with holder := none }

/-- A waiter gives up. -/
def withdraw (task : Task) (lock : FairLock Task) : FairLock Task :=
  { lock with queue := lock.queue.erase task }

variable {lock next : FairLock Task} {task : Task}

omit [DecidableEq Task] in
theorem holder_of_available (havailable : lock.available = true) : lock.holder = none :=
  Option.isNone_iff_eq_none.mp (Bool.and_eq_true_iff.mp havailable).1

omit [DecidableEq Task] in
theorem holder_acquire_of_available (havailable : lock.available = true) :
    (lock.acquire task).holder = some task := by
  rw [acquire, if_pos havailable]

omit [DecidableEq Task] in
theorem holder_acquire_of_not_available (havailable : ¬ lock.available = true) :
    (lock.acquire task).holder = lock.holder := by
  rw [acquire, if_neg havailable]

theorem handOver_eq_some (hnext : lock.handOver task = some next) :
    lock.holder = none ∧ next.holder = some task := by
  rw [handOver] at hnext
  split_ifs at hnext with hhead
  obtain rfl := Option.some.inj hnext
  exact ⟨Option.isNone_iff_eq_none.mp (Bool.and_eq_true_iff.mp hhead).1, rfl⟩

end FairLock

end SsfTransmitter.Core
