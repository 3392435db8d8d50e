import SsfTransmitter.Core.TransitionSystem
import SsfTransmitter.Outbox.Delivery
import SsfTransmitter.Store.Invariants

/-!
# The service as a transition system

One process, its tasks, the stream operation lock and the database file.  A task
is a request or a pass of the delivery worker; it rests at its `await`s, and
between two of them it runs alone.  Each SQLite transaction is one step.  The log
is not part of the program: it records what the steps did.
-/

namespace SsfTransmitter.Service

open SsfTransmitter.Core
open SsfTransmitter.Python
open SsfTransmitter.Store
open SsfTransmitter.Outbox

/-- The store operations that run under `stream_operation_lock`.  An update that
comes from `PATCH /ssf/streams/{stream_id}` carries the requested id. -/
inductive LockedOperation where
  | save (stream : Stream)
  | update (requestedId : Option String) (payload : StreamPayload)
  | delete (streamId : String)
  | discardPending

/-- What a locked operation returns. -/
inductive Reply where
  | saved
  | updated (result : Except StoreError (Option Stream))
  | deleted (found : Bool)
  | discarded (count : ℕ)

/-- Where a task rests.  Deliveries wait for the call of `enqueue_outbox`, and with the
time that it has read for its transaction. -/
inductive Task where
  | idle
  | enqueuing (deliveries : List (Stream × Dict))
  | stamped (deliveries : List (Stream × Dict)) (now : ℕ)
  | waiting (operation : LockedOperation)
  | holding (operation : LockedOperation)
  | replying (operation : LockedOperation) (reply : Reply)
  | batch (items : List OutboxItem)
  | rereading (item : OutboxItem) (rest : List OutboxItem)
  | reading (item : OutboxItem) (payload : Dict) (rest : List OutboxItem)
  | pushing (item : OutboxItem) (payload : Dict) (stream : Stream)
      (rest : List OutboxItem)
  | settling (item : OutboxItem) (verdict : Verdict) (rest : List OutboxItem)
  | leaving (rest : List OutboxItem)

/-- The rests between acquiring and releasing the lock. -/
def Task.locked : Task → Bool
  | .holding _ | .replying _ _ | .rereading _ _ | .reading _ _ _
  | .pushing _ _ _ _ | .settling _ _ _ | .leaving _ => true
  | .idle | .enqueuing _ | .stamped _ _ | .waiting _ | .batch _ => false

/-- What a step did to queued deliveries and to the stored stream. -/
inductive Event where
  | enqueued (items : List ItemIdentity)
  | pushed (item : ItemIdentity) (delivered : Bool)
  | saved
  | deleted (streamId : String)
  | reconfigured (streamId : String)
  | discardedPending (items : List ItemIdentity)
  | discardedBlocked (items : List ItemIdentity)
  deriving DecidableEq

structure World (Key : Type*) where
  key : Key
  database : Database
  clock : ℕ
  lock : Option ℕ
  tasks : ℕ → Task
  log : List Event

/-- The steps of the service.  A request arrives with everything the code reads
from it; a push ends with an outcome that the receiver and the network choose. -/
inductive Action (Key Entropy : Type*) where
  | restart (key : Key)
  | tick (now : ℕ)
  | webhook (task : ℕ) (events : List MappedEvent) (email : PyStr)
      (sign : ℕ → SetClaims → String)
  | stamp (task : ℕ)
  | enqueue (task : ℕ) (entropy : ℕ → Entropy)
  | request (task : ℕ) (operation : LockedOperation)
  | patchById (task : ℕ) (streamId : String) (payload : StreamPayload)
  | deleteCurrent (task : ℕ)
  | acquire (task : ℕ)
  | commit (task : ℕ) (entropy : Entropy)
  | release (task : ℕ)
  | startDelivery (task : ℕ)
  | reread (task : ℕ)
  | read (task : ℕ)
  | push (task : ℕ) (outcome : PushOutcome)
  | settle (task : ℕ)
  | requeueBlocked
  | deleteBlocked
  | abort (task : ℕ)

namespace World

variable {Key : Type*}

def init (key : Key) : World Key where
  key := key
  database := Database.init
  clock := 0
  lock := none
  tasks := fun _ => .idle
  log := []

def setTask (task : ℕ) (rest : Task) (world : World Key) : World Key :=
  { world with tasks := Function.update world.tasks task rest }

/-- The task enters its locked section. -/
def enter (task : ℕ) (rest : Task) (world : World Key) : World Key :=
  { world.setTask task rest with lock := some task }

/-- The task leaves its locked section, if it is in it. -/
def leave (task : ℕ) (rest : Task) (world : World Key) : World Key :=
  { world.setTask task rest with
    lock := if world.lock = some task then none else world.lock }

/-- A transaction of a task. -/
def transact (task : ℕ) (rest : Task) (database : Database) (events : List Event)
    (world : World Key) : World Key :=
  { world.setTask task rest with
    database := database
    log := world.log ++ events }

end World

section Steps

variable {Key Entropy : Type*} (fernet : Fernet Key Entropy) [PyRuntime]

/-- An `update_stream` that changed the audience, the endpoint or the events, or
that was given a token. -/
def reconfiguration (payload : StreamPayload) (stream updated : Stream) :
    List Event :=
  if updated.aud ≠ stream.aud ∨ updated.endpointUrl ≠ stream.endpointUrl ∨
      updated.eventsRequested ≠ stream.eventsRequested ∨
      (replacementEndpointToken payload).isSome then
    [.reconfigured stream.streamId]
  else []

/-- The transaction of a locked operation, with what it did. -/
def LockedOperation.commit (key : Key) (entropy : Entropy) (database : Database) :
    LockedOperation → Reply × Database × List Event
  | .save stream => (.saved, saveStream fernet key entropy stream database, [.saved])
  | .update _ payload =>
    let (result, updatedDatabase) :=
      updateStream fernet key entropy payload database
    let events := match getFirstStream fernet key database, result with
      | .ok (some stream), .ok (some updated) =>
        reconfiguration payload stream updated
      | _, _ => []
    (.updated result, updatedDatabase, events)
  | .delete streamId =>
    let (found, remaining) := deleteStreamById streamId database
    (.deleted found, remaining, if found then [.deleted streamId] else [])
  | .discardPending =>
    (.discarded (identities .pending database).length,
      deletePendingOutbox database,
      [.discardedPending (identities .pending database)])

/-- The process is stopped at any point and started again: tasks and lock are
gone, and the tokens that the new key cannot read are quarantined. -/
def restart (key : Key) (world : World Key) : World Key where
  key := key
  database := quarantineUndecryptableReceiverTokens fernet key world.database
  clock := world.clock
  lock := none
  tasks := fun _ => .idle
  log := world.log

/-- The transaction of `enqueue_outbox`, with what it did. -/
def enqueueCommit (entropy : ℕ → Entropy) (deliveries : List (Stream × Dict)) (now : ℕ)
    (world : World Key) : Database × List Event :=
  match enqueueOutbox fernet world.key entropy now deliveries world.database with
  | (.ok _, database) =>
    (database, [.enqueued ((insertedRows fernet world.key entropy now
      world.database.nextOutboxId deliveries).map fun row => row.identity)])
  | (.error _, database) => (database, [])

/-- The rest that `_deliver_item` takes after reading the queued payload. -/
def afterReread (key : Key) (rest : List OutboxItem) (current : Option OutboxItem) :
    Task :=
  match current with
  | none => .leaving rest
  | some item =>
    match readPayload fernet key item with
    | .error verdict => .settling item verdict rest
    | .ok payload => .reading item payload rest

/-- The rest that `_deliver_item` takes after reading the stream. -/
def afterRead (item : OutboxItem) (payload : Dict) (rest : List OutboxItem)
    (stream : Option Stream) : Task :=
  match routeItem payload stream with
  | .error verdict => .settling item verdict rest
  | .ok stream => .pushing item payload stream rest

/-- Whether a request may ask for the operation without an id check first. -/
def LockedOperation.isDirect : LockedOperation → Bool
  | .update (some _) _ => false
  | _ => true

/-- The rest of a request that asks for the current stream: with an id, the
request goes on only when that stream has it. -/
def afterLookup (current : Except StoreError (Option Stream))
    (matching : Stream → Bool) (operation : Stream → LockedOperation) : Task :=
  match current with
  | .ok (some stream) =>
    if matching stream then .waiting (operation stream) else .idle
  | _ => .idle

def step (world : World Key) : Action Key Entropy → Option (World Key)
  | .restart key => some (restart fernet key world)
  | .tick now => some { world with clock := now }
  | .webhook task events email sign =>
    match world.tasks task, listStreams fernet world.key world.database with
    | .idle, .ok streams =>
      let enabled := streams.filter fun stream => stream.status = .enabled
      some (world.setTask task
        (.enqueuing (enqueueEvents sign enabled events email)))
    | _, _ => none
  | .stamp task =>
    match world.tasks task with
    | .enqueuing deliveries =>
      some (world.setTask task (.stamped deliveries world.clock))
    | _ => none
  | .enqueue task entropy =>
    match world.tasks task with
    | .stamped deliveries now =>
      let (database, events) := enqueueCommit fernet entropy deliveries now world
      some (world.transact task .idle database events)
    | _ => none
  | .request task operation =>
    match world.tasks task with
    | .idle =>
      if operation.isDirect then some (world.setTask task (.waiting operation))
      else none
    | _ => none
  | .patchById task streamId payload =>
    match world.tasks task with
    | .idle =>
      some (world.setTask task
        (afterLookup (getFirstStream fernet world.key world.database)
          (fun stream => stream.streamId = streamId)
          (fun _ => .update (some streamId) payload)))
    | _ => none
  | .deleteCurrent task =>
    match world.tasks task with
    | .idle =>
      some (world.setTask task
        (afterLookup (getFirstStream fernet world.key world.database)
          (fun _ => true) (fun stream => .delete stream.streamId)))
    | _ => none
  | .acquire task =>
    match world.lock, world.tasks task with
    | none, .waiting operation => some (world.enter task (.holding operation))
    | none, .batch (item :: rest) => some (world.enter task (.rereading item rest))
    | _, _ => none
  | .commit task entropy =>
    match world.tasks task with
    | .holding operation =>
      let (reply, database, events) :=
        operation.commit fernet world.key entropy world.database
      some (world.transact task (.replying operation reply) database events)
    | _ => none
  | .release task =>
    match world.tasks task with
    | .replying _ _ => some (world.leave task .idle)
    | .leaving rest => some (world.leave task (.batch rest))
    | _ => none
  | .startDelivery task =>
    match world.tasks task with
    | .idle =>
      some (world.setTask task (.batch (getDueOutbox world.clock world.database)))
    | _ => none
  | .reread task =>
    match world.tasks task with
    | .rereading item rest =>
      some (world.setTask task (afterReread fernet world.key rest
        (getDueOutboxItem world.clock item.id world.database)))
    | _ => none
  | .read task =>
    match world.tasks task with
    | .reading item payload rest =>
      match getStreamById fernet world.key item.streamId world.database with
      | .ok stream => some (world.setTask task (afterRead item payload rest stream))
      -- the exception leaves `deliver_pending` and frees the lock
      | .error _ => some (world.leave task .idle)
    | _ => none
  | .push task outcome =>
    match world.tasks task with
    | .pushing item _ _ rest =>
      some (world.transact task (.settling item (verdictOf outcome) rest)
        world.database [.pushed item.identity (outcome = .delivered)])
    | _ => none
  | .settle task =>
    match world.tasks task with
    | .settling item verdict rest =>
      some (world.transact task (.leaving rest)
        (settleItem world.clock item verdict world.database) [])
    | _ => none
  | .requeueBlocked =>
    some { world with
      database := requeueBlockedOutbox world.clock world.database }
  | .deleteBlocked =>
    some { world with
      database := deleteBlockedOutbox world.database
      log := world.log ++
        [.discardedBlocked (identities .blocked world.database)] }
  | .abort task => some (world.leave task .idle)

/-- The service on an empty database, under any key. -/
def service : TransitionSystem (World Key) (Action Key Entropy) where
  initial := fun world => ∃ key, world = World.init key
  step := step fernet

theorem service_step : (service fernet).step = step fernet := rfl

end Steps

end SsfTransmitter.Service
