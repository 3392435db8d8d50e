import SsfTransmitter.Core.Transactional
import SsfTransmitter.Store.Invariants

/-!
# Store calls, statement by statement

The functions of `app.database` as they interleave: each statement is a step of
its own, and other calls may run between two of them.  A body run alone does
what the function of the same name does in one step.
-/

namespace SsfTransmitter.Store

open SsfTransmitter.Core
open SsfTransmitter.Core.Transactional
open SsfTransmitter.Python

/-- The calls that write to the store, with their arguments. -/
inductive StoreOperation (Entropy : Type*) where
  | saveStream (entropy : Entropy) (stream : Stream)
  | updateStream (entropy : Entropy) (payload : StreamPayload)
  | deleteStreamById (streamId : String)
  | quarantineUndecryptableReceiverTokens
  | enqueueOutbox (entropy : ℕ → Entropy) (now : ℕ) (deliveries : List (Stream × Dict))
  | completeOutboxItem (itemId : ℕ)
  | retryOutboxItem (itemId attempts nextAttemptAt : ℕ) (reason : String)
  | blockOutboxItem (itemId : ℕ) (reason : String)
  | cancelOutboxItem (itemId : ℕ)
  | requeueBlockedOutbox (now : ℕ)
  | deleteBlockedOutbox
  | deletePendingOutbox

/-- What a call returns or raises. -/
inductive StoreReply where
  | updated (result : Except StoreError (Option Stream))
  | deleted (found : Bool)
  | enqueued (result : Except StoreError ℕ)
  | counted (rows : ℕ)
  | done

/-- The calls that run inside `stream_operation_lock`. -/
def StoreOperation.locked {Entropy : Type*} : StoreOperation Entropy → Bool
  | .saveStream _ _ | .updateStream _ _ | .deleteStreamById _ | .deletePendingOutbox =>
    true
  | _ => false

section Bodies

variable {Key Entropy : Type*} (fernet : Fernet Key Entropy) [PyRuntime] (key : Key)

/-- The checks of `enqueue_outbox`, one delivery after another, then the capacity
check and the insertion. -/
def checkDeliveries (entropy : ℕ → Entropy) (now : ℕ)
    (deliveries : List (Stream × Dict)) :
    List (Stream × Dict) → Statements Database StoreReply
  | [] => .execute id fun counted =>
    if maxOutboxItems < counted.setOutbox.length + deliveries.length then
      .abandon (.enqueued (.error (.outboxFull "Delivery queue is full")))
    else
      .execute (fun database =>
        { database with
          setOutbox := database.setOutbox ++
            insertedRows fernet key entropy now database.nextOutboxId deliveries
          nextOutboxId := database.nextOutboxId + deliveries.length })
        fun _ => .commit (.enqueued (.ok deliveries.length))
  | delivery :: rest => .execute id fun database =>
    match checkCurrent fernet key database delivery.1 with
    | .error error => .abandon (.enqueued (.error error))
    | .ok _ => checkDeliveries entropy now deliveries rest

/-- The statements of `update_stream` after its checks. -/
def patchStatements (entropy : Entropy) (payload : StreamPayload) (stream updated : Stream) :
    Statements Database StoreReply :=
  let updateRow : Statements Database StoreReply :=
    .execute (fun database =>
      { database with
        streams := database.streams.map fun stored =>
          if stored.streamId = stream.streamId then
            patchedRow fernet key entropy payload stored updated
          else stored })
      fun _ => .commit (.updated (.ok (some updated)))
  if updated.delivery ≠ stream.delivery ∨
      (updated.status = .enabled ∧ stream.status ≠ .enabled) then
    -- the DELETE of a changed configuration or the UPDATE of a resumed stream
    .execute (fun database =>
      { database with
        setOutbox := outboxAfterUpdate stream updated database.setOutbox })
      fun _ => updateRow
  else updateRow

/-- The statements of a call. -/
def StoreOperation.statements : StoreOperation Entropy → Statements Database StoreReply
  | .saveStream entropy stream =>
    .execute (fun database =>
        { database with
          setOutbox := database.setOutbox.filter fun row => row.status ≠ .pending })
      fun _ => .execute (fun database => { database with streams := [] })
      fun _ => .execute (fun database =>
        { database with
          streams := database.streams ++ [savedRow fernet key entropy stream] })
      fun _ => .commit .done
  | .updateStream entropy payload =>
    .execute id fun database =>
      match (streamsByCreation database).head? with
      | none => .abandon (.updated (.ok none))
      | some row =>
        match rowToStream fernet key row with
        | .error error => .abandon (.updated (.error error))
        | .ok stream =>
          match requestedEvents payload stream with
          | .error error => .abandon (.updated (.error error))
          | .ok eventsRequested =>
            if enablingWithoutToken payload row stream then
              .abandon (.updated (.error (.valueError
                ("Receiver endpoint token cannot be decrypted — " ++
                  "supply delivery.endpoint_url_token before enabling"))))
            else
              patchStatements fernet key entropy payload stream
                (patchedStream payload stream eventsRequested)
  | .deleteStreamById streamId =>
    .execute (fun database =>
        { database with
          streams := database.streams.filter fun row => row.streamId ≠ streamId })
      fun database =>
        if database.streams.any fun row => row.streamId = streamId then
          .execute (fun database =>
            { database with
              setOutbox := database.setOutbox.filter fun row =>
                ¬(row.streamId = streamId ∧ row.status = .pending) })
            fun _ => .commit (.deleted true)
        else .commit (.deleted false)
  | .quarantineUndecryptableReceiverTokens =>
    .single (Store.quarantineUndecryptableReceiverTokens fernet key) fun _ => .done
  | .enqueueOutbox entropy now deliveries =>
    if deliveries = [] then .abandon (.enqueued (.ok 0))
    else checkDeliveries fernet key entropy now deliveries deliveries
  | .completeOutboxItem itemId => .single (Store.completeOutboxItem itemId) fun _ => .done
  | .retryOutboxItem itemId attempts nextAttemptAt reason =>
    .single (Store.retryOutboxItem itemId attempts nextAttemptAt reason) fun _ => .done
  | .blockOutboxItem itemId reason =>
    .single (Store.blockOutboxItem itemId reason) fun _ => .done
  | .cancelOutboxItem itemId => .single (Store.cancelOutboxItem itemId) fun _ => .done
  | .requeueBlockedOutbox now =>
    .single (Store.requeueBlockedOutbox now) fun database =>
      .counted (database.setOutbox.countP fun row => row.status = .blocked)
  | .deleteBlockedOutbox =>
    .single Store.deleteBlockedOutbox fun database =>
      .counted (database.setOutbox.countP fun row => row.status = .blocked)
  | .deletePendingOutbox =>
    .single Store.deletePendingOutbox fun database =>
      .counted (database.setOutbox.countP fun row => row.status = .pending)

end Bodies

section Alone

variable {Key Entropy : Type*} (fernet : Fernet Key Entropy) [PyRuntime] {key : Key}

private theorem run_checkDeliveries (entropy : ℕ → Entropy) (now : ℕ)
    (deliveries todo : List (Stream × Dict)) (database : Database) :
    (checkDeliveries fernet key entropy now deliveries todo).run database =
      match todo.forM fun delivery => checkCurrent fernet key database delivery.1 with
      | .error error => (.enqueued (.error error), none)
      | .ok _ =>
        if maxOutboxItems < database.setOutbox.length + deliveries.length then
          (.enqueued (.error (.outboxFull "Delivery queue is full")), none)
        else
          (.enqueued (.ok deliveries.length), some
            { database with
              setOutbox := database.setOutbox ++
                insertedRows fernet key entropy now database.nextOutboxId deliveries
              nextOutboxId := database.nextOutboxId + deliveries.length }) := by
  induction todo with
  | nil =>
      rw [checkDeliveries, Statements.run]
      split <;> rfl
  | cons delivery rest ih =>
      rw [checkDeliveries, Statements.run]
      change _ = match (checkCurrent fernet key database delivery.1 >>= fun _ =>
        rest.forM fun delivery => checkCurrent fernet key database delivery.1) with
        | .error error => _
        | .ok _ => _
      rcases checkCurrent fernet key database delivery.1 with error | _
      · rfl
      · exact ih

/-- `enqueue_outbox` alone does what it does in one step. -/
theorem run_enqueueOutbox (entropy : ℕ → Entropy) (now : ℕ)
    (deliveries : List (Stream × Dict)) (database : Database) :
    ((StoreOperation.enqueueOutbox entropy now deliveries).statements fernet key).run
        database =
      (.enqueued (enqueueOutbox fernet key entropy now deliveries database).1,
        match (enqueueOutbox fernet key entropy now deliveries database).1 with
        | .ok _ => if deliveries = [] then none
          else some (enqueueOutbox fernet key entropy now deliveries database).2
        | .error _ => none) := by
  rw [StoreOperation.statements, enqueueOutbox]
  by_cases hempty : deliveries = []
  · simp [hempty, Statements.run]
  · rw [if_neg hempty, if_neg hempty, run_checkDeliveries]
    rcases deliveries.forM fun delivery =>
        checkCurrent fernet key database delivery.1 with error | _
    · rfl
    · dsimp only
      split
      · rfl
      · simp

omit [PyRuntime] in
private theorem run_patchStatements (entropy : Entropy) (payload : StreamPayload)
    (stream updated : Stream) (database : Database) :
    (patchStatements fernet key entropy payload stream updated).run database =
      (.updated (.ok (some updated)), some
        { database with
          setOutbox := outboxAfterUpdate stream updated database.setOutbox
          streams := database.streams.map fun stored =>
            if stored.streamId = stream.streamId then
              patchedRow fernet key entropy payload stored updated
            else stored }) := by
  rw [patchStatements]
  split
  · rfl
  · next hsame =>
    push Not at hsame
    have houtbox : outboxAfterUpdate stream updated database.setOutbox =
        database.setOutbox := by
      rw [outboxAfterUpdate, if_neg (not_not_intro hsame.1),
        if_neg fun hresumed => hresumed.2 (hsame.2 hresumed.1)]
    rw [houtbox]
    rfl

/-- `update_stream` alone does what it does in one step; it commits exactly when
it returns a stream. -/
theorem run_updateStream (entropy : Entropy) (payload : StreamPayload)
    (database : Database) :
    ((StoreOperation.updateStream entropy payload).statements fernet key).run database =
      (.updated (updateStream fernet key entropy payload database).1,
        match (updateStream fernet key entropy payload database).1 with
        | .ok (some _) => some (updateStream fernet key entropy payload database).2
        | _ => none) := by
  rw [StoreOperation.statements, Statements.run, updateStream, id_eq]
  rcases (streamsByCreation database).head? with _ | row
  · rfl
  · dsimp only
    rcases rowToStream fernet key row with error | stream
    · rfl
    · dsimp only
      rcases requestedEvents payload stream with error | eventsRequested
      · rfl
      · dsimp only
        split
        · rfl
        · rw [run_patchStatements]

end Alone

end SsfTransmitter.Store
