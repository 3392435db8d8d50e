import SsfTransmitter.Service.Invariants

/-!
# An undisturbed delivery

A stream is saved, a webhook brings an event that the stream asks for, and the
worker takes the delivery up to its push.  Nothing on the way refuses it.
-/

namespace SsfTransmitter.Service

open SsfTransmitter.Core
open SsfTransmitter.Python
open SsfTransmitter.Store
open SsfTransmitter.Outbox

variable {Key Entropy : Type*} (fernet : Fernet Key Entropy) [PyRuntime]
  (key : Key) (entropy : Entropy) (stream : Stream) (event : MappedEvent)
  (email : PyStr) (sign : ℕ → SetClaims → String)

/-- The service after its first stream was saved. -/
def savedWorld : World Key where
  key := key
  database := saveStream fernet key entropy stream Database.init
  clock := 0
  lock := none
  tasks := fun _ => .idle
  log := [.saved]

/-- The payload that the webhook queues for the stream. -/
def queuedPayload : Dict :=
  deliveryPayload stream event.uri (sign 0 {
    eventUri := event.uri
    audience := stream.aud
    email := email
    eventPayload := event.payload
    txn := event.txn })

/-- The row of the queued delivery. -/
def queuedRow : OutboxRow where
  id := 1
  streamId := stream.streamId
  payload := encryptSensitiveData fernet key entropy
    (dumpsPayload (queuedPayload stream event email sign))
  createdAt := 0
  attempts := 0
  nextAttemptAt := 0
  status := .pending
  lastError := none

/-- The service after the webhook was accepted. -/
def queuedWorld : World Key where
  key := key
  database := ⟨[savedRow fernet key entropy stream],
    [queuedRow fernet key entropy stream event email sign], 2⟩
  clock := 0
  lock := none
  tasks := fun _ => .idle
  log := [.saved,
    .enqueued [(queuedRow fernet key entropy stream event email sign).identity]]

/-- The worker at the push of the queued delivery. -/
def pushingWorld : World Key where
  key := key
  database := ⟨[savedRow fernet key entropy stream],
    [queuedRow fernet key entropy stream event email sign], 2⟩
  clock := 0
  lock := some 0
  tasks := Function.update (fun _ => .idle) 0
    (.pushing (queuedRow fernet key entropy stream event email sign).toOutboxItem
      (queuedPayload stream event email sign) stream [])
  log := [.saved,
    .enqueued [(queuedRow fernet key entropy stream event email sign).identity]]

/-- A saved stream is read back. -/
theorem rowToStream_savedRow :
    rowToStream fernet key (savedRow fernet key entropy stream) = .ok stream := by
  simp [rowToStream, savedRow, decryptToken_encryptToken, bind, Except.bind, pure,
    Except.pure]

omit [PyRuntime] in
theorem streamRow_savedRow (outbox : List OutboxRow) (counter : ℕ) :
    streamRow stream.streamId ⟨[savedRow fernet key entropy stream], outbox, counter⟩ =
      some (savedRow fernet key entropy stream) := by
  rw [streamRow_singleton]
  exact if_pos rfl

theorem run_save :
    (service fernet).run (World.init key)
        [.request 0 (.save stream), .acquire 0, .commit 0 entropy, .release 0] =
      some (savedWorld fernet key entropy stream) := by
  simp [TransitionSystem.run, service_step, step, World.init, World.setTask, World.enter,
    World.leave, World.transact, LockedOperation.isDirect, LockedOperation.commit,
    savedWorld]

variable (henabled : stream.status = .enabled)
  (hrequested : stream.eventsRequested = [] ∨ event.uri ∈ stream.eventsRequested)

include henabled hrequested

theorem run_webhook :
    (service fernet).run (savedWorld fernet key entropy stream)
        [.webhook 0 [event] email sign, .stamp 0, .enqueue 0 fun _ => entropy] =
      some (queuedWorld fernet key entropy stream event email sign) := by
  have hdeliveries : enqueueEvents sign [stream] [event] email =
      [(stream, queuedPayload stream event email sign)] := by
    simp [enqueueEvents, matchingEvents, henabled, hrequested, queuedPayload]
  have hlist : listStreams fernet key
      ⟨[savedRow fernet key entropy stream], [], 1⟩ = .ok [stream] := by
    simp [listStreams, streamsByCreation, rowToStream_savedRow, bind, Except.bind,
      pure, Except.pure]
  have hcheck : checkCurrent fernet key
      ⟨[savedRow fernet key entropy stream], [], 1⟩ stream = .ok () := by
    rw [checkCurrent, streamRow_savedRow]
    simp [rowToStream_savedRow, henabled]
  simp [TransitionSystem.run, service_step, step, savedWorld, saveStream, Database.init,
    hlist, henabled, hdeliveries, World.setTask, World.transact, enqueueCommit,
    enqueueOutbox, hcheck, maxOutboxItems, insertedRows, queuedWorld, queuedRow]

omit hrequested in
theorem run_delivery :
    (service fernet).run (queuedWorld fernet key entropy stream event email sign)
        [.startDelivery 0, .acquire 0, .reread 0, .read 0] =
      some (pushingWorld fernet key entropy stream event email sign) := by
  set row := queuedRow fernet key entropy stream event email sign with hrow
  have hdue : row.isDue 0 = true := rfl
  have hread : readPayload fernet key row.toOutboxItem =
      .ok (queuedPayload stream event email sign) := by
    have hencoded : decryptOutboxPayload fernet key row.toOutboxItem =
        .ok (queuedPayload stream event email sign) := by
      simp only [decryptOutboxPayload, hrow, queuedRow,
        decryptSensitiveData_encryptSensitiveData, dumpsPayload, String.toList_ofList]
      rw [queuedPayload,
        loads_dumps standard_compactSeparators (textual_deliveryPayload ..)]
    rw [readPayload, hencoded]
    simp [queuedPayload, validPayload_deliveryPayload]
  have hstream : getStreamById fernet key row.streamId
      ⟨[savedRow fernet key entropy stream], [row], 2⟩ = .ok (some stream) := by
    have hid : row.streamId = stream.streamId := rfl
    rw [getStreamById, hid, streamRow_savedRow]
    simp [rowToStream_savedRow, Except.map]
  have hroute : routeItem (queuedPayload stream event email sign) (some stream) =
      .ok stream := by
    simp [routeItem, queuedPayload, payloadMatchesStream_deliveryPayload, henabled]
  simp [TransitionSystem.run, service_step, step, queuedWorld, ← hrow, getDueOutbox, hdue,
    World.setTask, World.enter, getDueOutboxItem, afterReread, hread, hstream,
    afterRead, hroute, pushingWorld]

omit hrequested henabled in
theorem reachable_of_run {world next : World Key}
    {actions : List (Action Key Entropy)} (hworld : (service fernet).Reachable world)
    (hrun : (service fernet).run world actions = some next) :
    (service fernet).Reachable next :=
  hworld.path (TransitionSystem.path_of_run (fun _ _ => trivial) hrun)

omit hrequested henabled in
theorem reachable_savedWorld :
    (service fernet).Reachable (savedWorld fernet key entropy stream) :=
  reachable_of_run fernet (.of_initial ⟨key, rfl⟩) (run_save fernet key entropy stream)

theorem reachable_queuedWorld :
    (service fernet).Reachable
      (queuedWorld fernet key entropy stream event email sign) :=
  reachable_of_run fernet (reachable_savedWorld fernet key entropy stream)
    (run_webhook fernet key entropy stream event email sign henabled hrequested)

/-- A queued delivery of an enabled stream reaches its push. -/
theorem reachable_pushingWorld :
    (service fernet).Reachable
      (pushingWorld fernet key entropy stream event email sign) :=
  reachable_of_run fernet
    (reachable_queuedWorld fernet key entropy stream event email sign henabled
      hrequested)
    (run_delivery fernet key entropy stream event email sign henabled)

end SsfTransmitter.Service
