import SsfTransmitter.Service.World

/-!
# What a step can do

`Step` says once, case by case, what each action requires and what it leaves.
`Transaction` keeps of it what happens to the key, the tables and the log.
-/

namespace SsfTransmitter.Service

open SsfTransmitter.Core
open SsfTransmitter.Python
open SsfTransmitter.Store
open SsfTransmitter.Outbox

variable {Key Entropy : Type*} (fernet : Fernet Key Entropy) [PyRuntime]

inductive Step (world : World Key) : Action Key Entropy → World Key → Prop where
  | restart (key : Key) : Step world (.restart key) (restart fernet key world)
  | tick (now : ℕ) : Step world (.tick now) { world with clock := now }
  | webhook {task : ℕ} {events : List MappedEvent} {email : PyStr}
      {sign : ℕ → SetClaims → String} {streams : List Stream}
      (htask : world.tasks task = .idle)
      (hstreams : listStreams fernet world.key world.database = .ok streams) :
      Step world (.webhook task events email sign)
        (world.setTask task (.enqueuing (enqueueEvents sign
          (streams.filter fun stream => stream.status = .enabled) events email)))
  | stamp {task : ℕ} {deliveries : List (Stream × Dict)}
      (htask : world.tasks task = .enqueuing deliveries) :
      Step world (.stamp task) (world.setTask task (.stamped deliveries world.clock))
  | enqueue {task : ℕ} {deliveries : List (Stream × Dict)} {now : ℕ} (entropy : ℕ → Entropy)
      (htask : world.tasks task = .stamped deliveries now) :
      Step world (.enqueue task entropy)
        (world.transact task .idle
          (enqueueCommit fernet entropy deliveries now world).1
          (enqueueCommit fernet entropy deliveries now world).2)
  | request {task : ℕ} {operation : LockedOperation}
      (htask : world.tasks task = .idle) (hdirect : operation.isDirect = true) :
      Step world (.request task operation) (world.setTask task (.waiting operation))
  | patchById {task : ℕ} (streamId : String) (payload : StreamPayload)
      (htask : world.tasks task = .idle) :
      Step world (.patchById task streamId payload)
        (world.setTask task
          (afterLookup (getFirstStream fernet world.key world.database)
            (fun stream => stream.streamId = streamId)
            (fun _ => .update (some streamId) payload)))
  | deleteCurrent {task : ℕ} (htask : world.tasks task = .idle) :
      Step world (.deleteCurrent task)
        (world.setTask task
          (afterLookup (getFirstStream fernet world.key world.database)
            (fun _ => true) (fun stream => .delete stream.streamId)))
  | acquireOperation {task : ℕ} {operation : LockedOperation}
      (hlock : world.lock = none) (htask : world.tasks task = .waiting operation) :
      Step world (.acquire task) (world.enter task (.holding operation))
  | acquireItem {task : ℕ} {item : OutboxItem} {rest : List OutboxItem}
      (hlock : world.lock = none) (htask : world.tasks task = .batch (item :: rest)) :
      Step world (.acquire task) (world.enter task (.rereading item rest))
  | commit {task : ℕ} {operation : LockedOperation} (entropy : Entropy)
      (htask : world.tasks task = .holding operation) :
      Step world (.commit task entropy)
        (world.transact task
          (.replying operation
            (operation.commit fernet world.key entropy world.database).1)
          (operation.commit fernet world.key entropy world.database).2.1
          (operation.commit fernet world.key entropy world.database).2.2)
  | releaseOperation {task : ℕ} {operation : LockedOperation} {reply : Reply}
      (htask : world.tasks task = .replying operation reply) :
      Step world (.release task) (world.leave task .idle)
  | releaseItem {task : ℕ} {rest : List OutboxItem}
      (htask : world.tasks task = .leaving rest) :
      Step world (.release task) (world.leave task (.batch rest))
  | startDelivery {task : ℕ} (htask : world.tasks task = .idle) :
      Step world (.startDelivery task)
        (world.setTask task (.batch (getDueOutbox world.clock world.database)))
  | reread {task : ℕ} {item : OutboxItem} {rest : List OutboxItem}
      (htask : world.tasks task = .rereading item rest) :
      Step world (.reread task)
        (world.setTask task (afterReread fernet world.key rest
          (getDueOutboxItem world.clock item.id world.database)))
  | read {task : ℕ} {item : OutboxItem} {payload : Dict} {rest : List OutboxItem}
      {stream : Option Stream} (htask : world.tasks task = .reading item payload rest)
      (hstream : getStreamById fernet world.key item.streamId world.database =
        .ok stream) :
      Step world (.read task) (world.setTask task (afterRead item payload rest stream))
  | readFailed {task : ℕ} {item : OutboxItem} {payload : Dict}
      {rest : List OutboxItem} (htask : world.tasks task = .reading item payload rest) :
      Step world (.read task) (world.leave task .idle)
  | push {task : ℕ} {item : OutboxItem} {payload : Dict} {stream : Stream}
      {rest : List OutboxItem} (outcome : PushOutcome)
      (htask : world.tasks task = .pushing item payload stream rest) :
      Step world (.push task outcome)
        (world.transact task (.settling item (verdictOf outcome) rest)
          world.database [.pushed item.identity (outcome = .delivered)])
  | settle {task : ℕ} {item : OutboxItem} {verdict : Verdict}
      {rest : List OutboxItem} (htask : world.tasks task = .settling item verdict rest) :
      Step world (.settle task)
        (world.transact task (.leaving rest)
          (settleItem world.clock item verdict world.database) [])
  | requeueBlocked :
      Step world .requeueBlocked
        { world with database := requeueBlockedOutbox world.clock world.database }
  | deleteBlocked :
      Step world .deleteBlocked
        { world with
          database := deleteBlockedOutbox world.database
          log := world.log ++
            [.discardedBlocked (identities .blocked world.database)] }
  | abort (task : ℕ) : Step world (.abort task) (world.leave task .idle)

variable {fernet}

/-- The step function takes no step that `Step` does not describe. -/
theorem Step.of_step {world next : World Key} {action : Action Key Entropy}
    (hstep : step fernet world action = some next) :
    Step fernet world action next := by
  cases action with
  | restart key =>
      obtain rfl := Option.some.inj hstep
      exact .restart key
  | tick now =>
      obtain rfl := Option.some.inj hstep
      exact .tick now
  | webhook task events email sign =>
      simp only [step] at hstep
      split at hstep
      next htask hstreams =>
        obtain rfl := Option.some.inj hstep
        exact .webhook htask hstreams
      next => cases hstep
  | stamp task =>
      simp only [step] at hstep
      split at hstep
      next htask =>
        obtain rfl := Option.some.inj hstep
        exact .stamp htask
      next => cases hstep
  | enqueue task entropy =>
      simp only [step] at hstep
      split at hstep
      next htask =>
        obtain rfl := Option.some.inj hstep
        exact .enqueue entropy htask
      next => cases hstep
  | request task operation =>
      simp only [step] at hstep
      split at hstep
      next htask =>
        split_ifs at hstep with hdirect
        obtain rfl := Option.some.inj hstep
        exact .request htask hdirect
      next => cases hstep
  | patchById task streamId payload =>
      simp only [step] at hstep
      split at hstep
      next htask =>
        obtain rfl := Option.some.inj hstep
        exact .patchById streamId payload htask
      next => cases hstep
  | deleteCurrent task =>
      simp only [step] at hstep
      split at hstep
      next htask =>
        obtain rfl := Option.some.inj hstep
        exact .deleteCurrent htask
      next => cases hstep
  | acquire task =>
      simp only [step] at hstep
      split at hstep
      next hlock htask =>
        obtain rfl := Option.some.inj hstep
        exact .acquireOperation hlock htask
      next hlock htask =>
        obtain rfl := Option.some.inj hstep
        exact .acquireItem hlock htask
      next => cases hstep
  | commit task entropy =>
      simp only [step] at hstep
      split at hstep
      next htask =>
        obtain rfl := Option.some.inj hstep
        exact .commit entropy htask
      next => cases hstep
  | release task =>
      simp only [step] at hstep
      split at hstep
      next htask =>
        obtain rfl := Option.some.inj hstep
        exact .releaseOperation htask
      next htask =>
        obtain rfl := Option.some.inj hstep
        exact .releaseItem htask
      next => cases hstep
  | startDelivery task =>
      simp only [step] at hstep
      split at hstep
      next htask =>
        obtain rfl := Option.some.inj hstep
        exact .startDelivery htask
      next => cases hstep
  | reread task =>
      simp only [step] at hstep
      split at hstep
      next htask =>
        obtain rfl := Option.some.inj hstep
        exact .reread htask
      next => cases hstep
  | read task =>
      simp only [step] at hstep
      split at hstep
      next htask =>
        split at hstep
        next hstream =>
          obtain rfl := Option.some.inj hstep
          exact .read htask hstream
        next =>
          obtain rfl := Option.some.inj hstep
          exact .readFailed htask
      next => cases hstep
  | push task outcome =>
      simp only [step] at hstep
      split at hstep
      next htask =>
        obtain rfl := Option.some.inj hstep
        exact .push outcome htask
      next => cases hstep
  | settle task =>
      simp only [step] at hstep
      split at hstep
      next htask =>
        obtain rfl := Option.some.inj hstep
        exact .settle htask
      next => cases hstep
  | requeueBlocked =>
      obtain rfl := Option.some.inj hstep
      exact .requeueBlocked
  | deleteBlocked =>
      obtain rfl := Option.some.inj hstep
      exact .deleteBlocked
  | abort task =>
      obtain rfl := Option.some.inj hstep
      exact .abort task

variable (fernet) in
/-- The next key, tables and log of a step. -/
inductive Transaction (world : World Key) : Key → Database → List Event → Prop where
  | quiet : Transaction world world.key world.database world.log
  | restart (key : Key) :
      Transaction world key
        (quarantineUndecryptableReceiverTokens fernet key world.database) world.log
  | enqueue {task : ℕ} {deliveries : List (Stream × Dict)} {now : ℕ} (entropy : ℕ → Entropy)
      (htask : world.tasks task = .stamped deliveries now) :
      Transaction world world.key
        (enqueueCommit fernet entropy deliveries now world).1
        (world.log ++ (enqueueCommit fernet entropy deliveries now world).2)
  | commit {task : ℕ} {operation : LockedOperation} (entropy : Entropy)
      (htask : world.tasks task = .holding operation) :
      Transaction world world.key
        (operation.commit fernet world.key entropy world.database).2.1
        (world.log ++ (operation.commit fernet world.key entropy world.database).2.2)
  | push {task : ℕ} {item : OutboxItem} {payload : Dict} {stream : Stream}
      {rest : List OutboxItem} (outcome : PushOutcome)
      (htask : world.tasks task = .pushing item payload stream rest) :
      Transaction world world.key world.database
        (world.log ++ [.pushed item.identity (outcome = .delivered)])
  | settle {task : ℕ} {item : OutboxItem} {verdict : Verdict}
      {rest : List OutboxItem} (htask : world.tasks task = .settling item verdict rest) :
      Transaction world world.key
        (settleItem world.clock item verdict world.database) world.log
  | requeueBlocked :
      Transaction world world.key
        (requeueBlockedOutbox world.clock world.database) world.log
  | deleteBlocked :
      Transaction world world.key (deleteBlockedOutbox world.database)
        (world.log ++ [.discardedBlocked (identities .blocked world.database)])

theorem Step.transaction {world next : World Key} {action : Action Key Entropy}
    (hstep : Step fernet world action next) :
    Transaction fernet world next.key next.database next.log := by
  cases hstep with
  | restart key => exact .restart key
  | enqueue entropy htask => exact .enqueue entropy htask
  | commit entropy htask => exact .commit entropy htask
  | push outcome htask => exact .push outcome htask
  | settle htask =>
      simpa [World.transact, World.setTask] using .settle htask
  | requeueBlocked => exact .requeueBlocked
  | deleteBlocked => exact .deleteBlocked
  | _ => exact .quiet

/-! ## The lock -/

/-- The tasks in a locked section are the holder of the lock. -/
def LockDiscipline (world : World Key) : Prop :=
  ∀ task, (world.tasks task).locked = true ↔ world.lock = some task

namespace LockDiscipline

variable {world : World Key} {task : ℕ} {rest : Task}

omit [PyRuntime] in
/-- A task that stays inside or outside its locked section. -/
theorem setTask (hworld : LockDiscipline world)
    (hsame : rest.locked = (world.tasks task).locked) :
    LockDiscipline (world.setTask task rest) := by
  intro other
  by_cases hother : other = task
  · subst hother
    simpa [World.setTask, hsame] using hworld other
  · simpa [World.setTask, hother] using hworld other

omit [PyRuntime] in
theorem enter (hworld : LockDiscipline world) (hlock : world.lock = none)
    (hlocked : rest.locked = true) : LockDiscipline (world.enter task rest) := by
  intro other
  by_cases hother : other = task
  · subst hother
    simp [World.enter, World.setTask, hlocked]
  · have hfree := hworld other
    rw [hlock] at hfree
    simpa [World.enter, World.setTask, hother, Ne.symm hother] using hfree

omit [PyRuntime] in
theorem leave (hworld : LockDiscipline world) (hunlocked : rest.locked = false) :
    LockDiscipline (world.leave task rest) := by
  intro other
  by_cases hother : other = task
  · subst hother
    simp only [World.leave, World.setTask, Function.update_self, hunlocked,
      Bool.false_eq_true, false_iff]
    split_ifs with hlock
    · simp
    · exact hlock
  · have hsame := hworld other
    simp only [World.leave, World.setTask, Function.update_of_ne hother]
    split_ifs with hlock
    · rw [hsame, hlock]
      simp [Ne.symm hother]
    · exact hsame

omit [PyRuntime] in
/-- Only one task is in a locked section. -/
theorem eq_of_locked (hworld : LockDiscipline world) {left right : ℕ}
    (hleft : (world.tasks left).locked = true)
    (hright : (world.tasks right).locked = true) : left = right :=
  Option.some.inj (((hworld left).mp hleft).symm.trans ((hworld right).mp hright))

end LockDiscipline

omit [PyRuntime] in
@[simp]
theorem locked_afterLookup (current : Except StoreError (Option Stream))
    (matching : Stream → Bool) (operation : Stream → LockedOperation) :
    (afterLookup current matching operation).locked = false := by
  unfold afterLookup
  split
  · split_ifs <;> rfl
  · rfl

@[simp]
theorem locked_afterReread (key : Key) (rest : List OutboxItem)
    (current : Option OutboxItem) :
    (afterReread fernet key rest current).locked = true := by
  unfold afterReread
  split
  · rfl
  · split <;> rfl

omit [PyRuntime] in
@[simp]
theorem locked_afterRead (item : OutboxItem) (payload : Dict)
    (rest : List OutboxItem) (stream : Option Stream) :
    (afterRead item payload rest stream).locked = true := by
  unfold afterRead
  split <;> rfl

theorem LockDiscipline.next {world next : World Key} {action : Action Key Entropy}
    (hworld : LockDiscipline world) (hstep : Step fernet world action next) :
    LockDiscipline next := by
  cases hstep with
  | restart key => simp [LockDiscipline, restart, Task.locked]
  | tick now => exact hworld
  | webhook htask _ => exact hworld.setTask (by rw [htask]; rfl)
  | stamp htask => exact hworld.setTask (by rw [htask]; rfl)
  | enqueue entropy htask => exact hworld.setTask (by rw [htask]; rfl)
  | request htask _ => exact hworld.setTask (by rw [htask]; rfl)
  | patchById streamId payload htask =>
      exact hworld.setTask (by rw [htask, locked_afterLookup]; rfl)
  | deleteCurrent htask =>
      exact hworld.setTask (by rw [htask, locked_afterLookup]; rfl)
  | acquireOperation hlock htask => exact hworld.enter hlock rfl
  | acquireItem hlock htask => exact hworld.enter hlock rfl
  | commit entropy htask => exact hworld.setTask (by rw [htask]; rfl)
  | releaseOperation htask => exact hworld.leave rfl
  | releaseItem htask => exact hworld.leave rfl
  | startDelivery htask => exact hworld.setTask (by rw [htask]; rfl)
  | reread htask => exact hworld.setTask (by rw [htask, locked_afterReread]; rfl)
  | read htask _ => exact hworld.setTask (by rw [htask, locked_afterRead]; rfl)
  | readFailed htask => exact hworld.leave rfl
  | push outcome htask => exact hworld.setTask (by rw [htask]; rfl)
  | settle htask => exact hworld.setTask (by rw [htask]; rfl)
  | requeueBlocked => exact hworld
  | deleteBlocked => exact hworld
  | abort task => exact hworld.leave rfl

end SsfTransmitter.Service
