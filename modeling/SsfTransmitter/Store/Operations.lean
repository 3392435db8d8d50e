import SsfTransmitter.Store.Schema

/-!
# Store operations

Each function is the body of one SQLite transaction of `app.database`, from a
database to the next: SQLite makes it atomic, and a body that raises leaves the
database as it was.
-/

namespace SsfTransmitter.Store

open SsfTransmitter.Python

variable {Key Entropy : Type*} (fernet : Fernet Key Entropy)

/-- `MAX_OUTBOX_ITEMS` -/
def maxOutboxItems : ℕ := 10000

/-! ## Streams -/

/-- `value or fallback` for an optional string. -/
def orElse (value : Option String) (fallback : String) : String :=
  match value with
  | some text => if text = "" then fallback else text
  | none => fallback

/-- `text.removeprefix("Bearer ")` -/
def removeBearer (text : String) : String :=
  if startsWith text "Bearer " then dropChars text "Bearer ".toList.length
  else text

/-- `payload.get("delivery") or {}` -/
def StreamPayload.block (payload : StreamPayload) : DeliveryBlock :=
  payload.delivery.getD {}

/-- `_replacement_endpoint_token` -/
def replacementEndpointToken (payload : StreamPayload) : Option String :=
  match payload.block.endpointUrlToken with
  | some token => some token
  | none =>
    match payload.endpointToken with
    | some token => some token
    | none =>
      match payload.block.authorizationHeader with
      | some header => if header = "" then some "" else some (removeBearer header)
      | none => none

/-- `_receiver_replacement_is_missing` -/
def receiverReplacementIsMissing (token : Option String) : Bool :=
  match token with
  | none => true
  | some token => isBlank (ofString token)

/-- `_stored_token_is_undecryptable` -/
def storedTokenIsUndecryptable (storedToken runtimeToken : String) : Bool :=
  storedToken ≠ "" && runtimeToken = ""

/-- `SELECT * FROM streams ORDER BY created_at DESC` -/
def streamsByCreation (database : Database) : List StreamRow :=
  database.streams.insertionSort fun left right => right.createdAt ≤ left.createdAt

/-- `list_streams` -/
def listStreams [PyRuntime] (key : Key) (database : Database) :
    Except StoreError (List Stream) :=
  (streamsByCreation database).mapM (rowToStream fernet key)

/-- `get_first_stream` -/
def getFirstStream [PyRuntime] (key : Key) (database : Database) :
    Except StoreError (Option Stream) :=
  (listStreams fernet key database).map List.head?

/-- The row that `WHERE stream_id = ?` selects. -/
def streamRow (streamId : String) (database : Database) : Option StreamRow :=
  database.streams.find? fun row => row.streamId = streamId

/-- `get_stream_by_id` -/
def getStreamById [PyRuntime] (key : Key) (streamId : String)
    (database : Database) : Except StoreError (Option Stream) :=
  match streamRow streamId database with
  | none => .ok none
  | some row => (rowToStream fernet key row).map some

/-- The row that `save_stream` inserts. -/
def savedRow (key : Key) (entropy : Entropy) (stream : Stream) : StreamRow where
  streamId := stream.streamId
  aud := stream.aud
  endpointUrl := stream.endpointUrl
  endpointToken := encryptToken fernet key entropy stream.endpointToken
  eventsRequested := dumpsEvents stream.eventsRequested
  status := stream.status
  createdAt := stream.createdAt

/-- `save_stream`: every pending delivery and every stream goes. -/
def saveStream (key : Key) (entropy : Entropy) (stream : Stream)
    (database : Database) : Database :=
  { database with
    setOutbox := database.setOutbox.filter fun row => row.status ≠ .pending
    streams := [savedRow fernet key entropy stream] }

/-- The stream that `update_stream` builds from the stored one. -/
def patchedStream (payload : StreamPayload) (stream : Stream)
    (eventsRequested : List String) : Stream where
  streamId := stream.streamId
  aud := orElse payload.aud stream.aud
  endpointUrl := orElse payload.block.endpointUrl
    (orElse payload.endpointUrl stream.endpointUrl)
  endpointToken := (replacementEndpointToken payload).getD stream.endpointToken
  eventsRequested := eventsRequested
  status := payload.status.getD stream.status
  createdAt := stream.createdAt

/-- The row that `update_stream` writes over `row`: the stored token is kept
byte for byte when the payload brings none. -/
def patchedRow (key : Key) (entropy : Entropy) (payload : StreamPayload)
    (row : StreamRow) (updated : Stream) : StreamRow :=
  { row with
    aud := updated.aud
    endpointUrl := updated.endpointUrl
    endpointToken := match replacementEndpointToken payload with
      | some token => encryptToken fernet key entropy token
      | none => row.endpointToken
    eventsRequested := dumpsEvents updated.eventsRequested
    status := updated.status }

/-- `payload.get("events_requested", stream.events_requested)`, refused when it
is no list. -/
def requestedEvents (payload : StreamPayload) (stream : Stream) :
    Except StoreError (List String) :=
  match payload.eventsRequested with
  | none => .ok stream.eventsRequested
  | some (.uris uris) => .ok uris
  | some .notList =>
    .error (.valueError "events_requested must be a list when provided")

/-- The guard against enabling a stream whose token cannot be decrypted. -/
def enablingWithoutToken (payload : StreamPayload) (row : StreamRow)
    (stream : Stream) : Bool :=
  payload.status.getD stream.status = .enabled &&
    storedTokenIsUndecryptable row.endpointToken stream.endpointToken &&
    receiverReplacementIsMissing (replacementEndpointToken payload)

/-- The deliveries that `update_stream` leaves: none pending for the stream
when its delivery configuration changed, all due at once when it resumes. -/
def outboxAfterUpdate (stream updated : Stream) (outbox : List OutboxRow) :
    List OutboxRow :=
  if updated.delivery ≠ stream.delivery then
    outbox.filter fun row =>
      ¬(row.streamId = stream.streamId ∧ row.status = .pending)
  else if updated.status = .enabled ∧ stream.status ≠ .enabled then
    outbox.map fun row =>
      if row.streamId = stream.streamId ∧ row.status = .pending then
        { row with nextAttemptAt := 0 }
      else row
  else outbox

/-- `update_stream`: `none` when no stream exists. -/
def updateStream [PyRuntime] (key : Key) (entropy : Entropy)
    (payload : StreamPayload) (database : Database) :
    Except StoreError (Option Stream) × Database :=
  match (streamsByCreation database).head? with
  | none => (.ok none, database)
  | some row =>
    match rowToStream fernet key row with
    | .error error => (.error error, database)
    | .ok stream =>
      match requestedEvents payload stream with
      | .error error => (.error error, database)
      | .ok eventsRequested =>
        if enablingWithoutToken payload row stream then
          (.error (.valueError ("Receiver endpoint token cannot be decrypted — " ++
            "supply delivery.endpoint_url_token before enabling")), database)
        else
          let updated := patchedStream payload stream eventsRequested
          (.ok (some updated),
            { database with
              setOutbox := outboxAfterUpdate stream updated database.setOutbox
              streams := database.streams.map fun stored =>
                if stored.streamId = stream.streamId then
                  patchedRow fernet key entropy payload stored updated
                else stored })

/-- `delete_stream_by_id` -/
def deleteStreamById (streamId : String) (database : Database) :
    Bool × Database :=
  if database.streams.any fun row => row.streamId = streamId then
    (true,
      { database with
        streams := database.streams.filter fun row => row.streamId ≠ streamId
        setOutbox := database.setOutbox.filter fun row =>
          ¬(row.streamId = streamId ∧ row.status = .pending) })
  else (false, database)

/-- Whether a decryption ends in an exception other than `TokenDecryptionError`. -/
def raisesOther (result : Except CryptoError String) : Bool :=
  match result with
  | .error .tokenDecryption => false
  | .error _ => true
  | .ok _ => false

/-- A row whose token the key cannot decrypt is paused. -/
def quarantinedRow (key : Key) (row : StreamRow) : StreamRow :=
  match decryptToken fernet key row.endpointToken with
  | .error .tokenDecryption => { row with status := .paused }
  | _ => row

/-- `quarantine_undecryptable_receiver_tokens`: any error other than a failed
decryption ends the check without a change. -/
def quarantineUndecryptableReceiverTokens (key : Key) (database : Database) :
    Database :=
  if database.streams.any fun row =>
      raisesOther (decryptToken fernet key row.endpointToken) then database
  else { database with streams := database.streams.map (quarantinedRow fernet key) }

/-! ## Queued deliveries -/

/-- `json.dumps(payload, separators=(",", ":"), ensure_ascii=True)` -/
def dumpsPayload (payload : Dict) : String :=
  String.ofList (dumps compactSeparators (.dict payload))

/-- The check of one delivery in `enqueue_outbox`: its stream is still stored,
unchanged and enabled. -/
def checkCurrent [PyRuntime] (key : Key) (database : Database)
    (stream : Stream) : Except StoreError Unit :=
  match streamRow stream.streamId database with
  | none => .error (.streamChanged "Stream no longer exists")
  | some row =>
    match rowToStream fernet key row with
    | .error error => .error error
    | .ok current =>
      if current ≠ stream ∨ current.status ≠ .enabled then
        .error (.streamChanged "Stream changed before delivery could be queued")
      else .ok ()

/-- The rows that `enqueue_outbox` inserts. -/
def insertedRows (key : Key) (entropy : ℕ → Entropy) (now nextId : ℕ)
    (deliveries : List (Stream × Dict)) : List OutboxRow :=
  deliveries.mapIdx fun index delivery =>
    { id := nextId + index
      streamId := delivery.1.streamId
      payload := encryptSensitiveData fernet key (entropy index)
        (dumpsPayload delivery.2)
      createdAt := now
      attempts := 0
      nextAttemptAt := now
      status := .pending
      lastError := none }

/-- `enqueue_outbox` -/
def enqueueOutbox [PyRuntime] (key : Key) (entropy : ℕ → Entropy) (now : ℕ)
    (deliveries : List (Stream × Dict)) (database : Database) :
    Except StoreError ℕ × Database :=
  if deliveries = [] then (.ok 0, database)
  else
    match deliveries.forM fun delivery =>
        checkCurrent fernet key database delivery.1 with
    | .error error => (.error error, database)
    | .ok _ =>
      if maxOutboxItems < database.setOutbox.length + deliveries.length then
        (.error (.outboxFull "Delivery queue is full"), database)
      else
        (.ok deliveries.length,
          { database with
            setOutbox := database.setOutbox ++
              insertedRows fernet key entropy now database.nextOutboxId deliveries
            nextOutboxId := database.nextOutboxId + deliveries.length })

/-- `status = 'pending' AND next_attempt_at <= ?` -/
def OutboxRow.isDue (now : ℕ) (row : OutboxRow) : Bool :=
  row.status = .pending && row.nextAttemptAt ≤ now

/-- `get_due_outbox` -/
def getDueOutbox (now : ℕ) (database : Database) : List OutboxItem :=
  let due := database.setOutbox.filter (OutboxRow.isDue now)
  let ordered := due.insertionSort fun left right =>
    left.createdAt < right.createdAt ∨
      (left.createdAt = right.createdAt ∧ left.id ≤ right.id)
  (ordered.take 25).map OutboxRow.toOutboxItem

/-- `get_due_outbox_item` -/
def getDueOutboxItem (now itemId : ℕ) (database : Database) : Option OutboxItem :=
  (database.setOutbox.find? fun row =>
    row.id = itemId && row.isDue now).map OutboxRow.toOutboxItem

/-- `DELETE FROM set_outbox WHERE id = ? AND status = 'pending'` -/
def deletePendingItem (itemId : ℕ) (database : Database) : Database :=
  { database with
    setOutbox := database.setOutbox.filter fun row =>
      ¬(row.id = itemId ∧ row.status = .pending) }

/-- `complete_outbox_item` -/
def completeOutboxItem (itemId : ℕ) (database : Database) : Database :=
  deletePendingItem itemId database

/-- `cancel_outbox_item` -/
def cancelOutboxItem (itemId : ℕ) (database : Database) : Database :=
  deletePendingItem itemId database

/-- `UPDATE set_outbox SET … WHERE id = ? AND status = 'pending'` -/
def updatePendingItem (itemId : ℕ) (change : OutboxRow → OutboxRow)
    (database : Database) : Database :=
  { database with
    setOutbox := database.setOutbox.map fun row =>
      if row.id = itemId ∧ row.status = .pending then change row else row }

/-- `retry_outbox_item` -/
def retryOutboxItem (itemId attempts nextAttemptAt : ℕ) (reason : String)
    (database : Database) : Database :=
  updatePendingItem itemId (fun row =>
    { row with
      attempts := attempts
      nextAttemptAt := nextAttemptAt
      lastError := some reason }) database

/-- `block_outbox_item` -/
def blockOutboxItem (itemId : ℕ) (reason : String) (database : Database) :
    Database :=
  updatePendingItem itemId (fun row =>
    { row with status := .blocked, lastError := some reason }) database

/-- `requeue_blocked_outbox` -/
def requeueBlockedOutbox (now : ℕ) (database : Database) : Database :=
  { database with
    setOutbox := database.setOutbox.map fun row =>
      if row.status = .blocked then
        { row with
          status := .pending
          attempts := 0
          nextAttemptAt := now
          lastError := none }
      else row }

/-- `delete_blocked_outbox` -/
def deleteBlockedOutbox (database : Database) : Database :=
  { database with
    setOutbox := database.setOutbox.filter fun row => row.status ≠ .blocked }

/-- `delete_pending_outbox` -/
def deletePendingOutbox (database : Database) : Database :=
  { database with
    setOutbox := database.setOutbox.filter fun row => row.status ≠ .pending }

/-- `decrypt_outbox_payload` -/
def decryptOutboxPayload [PyRuntime] (key : Key) (item : OutboxItem) :
    Except StoreError Dict :=
  match decryptSensitiveData fernet key item.payload with
  | .error error => .error (.crypto error)
  | .ok text =>
    match loads text.toList with
    | some (.dict payload) => .ok payload
    | _ => .error (.crypto .encryptedData)

end SsfTransmitter.Store
