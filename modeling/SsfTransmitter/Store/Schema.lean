import SsfTransmitter.Store.Encryption

/-!
# Streams, queued deliveries and the tables that hold them

The rows of `streams` and `set_outbox` and the records that the code builds
from them.  Text columns hold Lean strings: SQLite refuses a string that UTF-8
cannot encode.  Columns of time stamps hold natural numbers.
-/

namespace SsfTransmitter.Store

open SsfTransmitter.Python

/-- `StreamStatus` -/
inductive StreamStatus where
  | enabled
  | paused
  | disabled
  deriving DecidableEq

/-- `Stream`, with its token decrypted. -/
structure Stream where
  streamId : String
  aud : String
  endpointUrl : String
  endpointToken : String
  eventsRequested : List String
  status : StreamStatus
  createdAt : ℕ
  deriving DecidableEq

/-- A row of `streams`: the token is encrypted, the events are JSON text. -/
structure StreamRow where
  streamId : String
  aud : String
  endpointUrl : String
  endpointToken : String
  eventsRequested : String
  status : StreamStatus
  createdAt : ℕ
  deriving DecidableEq

/-- `OutboxItem` -/
structure OutboxItem where
  id : ℕ
  streamId : String
  payload : String
  createdAt : ℕ
  attempts : ℕ
  deriving DecidableEq

inductive OutboxStatus where
  | pending
  | blocked
  deriving DecidableEq

/-- A row of `set_outbox`. -/
structure OutboxRow extends OutboxItem where
  nextAttemptAt : ℕ
  status : OutboxStatus
  lastError : Option String
  deriving DecidableEq

/-- The part of a queued row that no operation ever rewrites. -/
structure ItemIdentity where
  id : ℕ
  streamId : String
  payload : String
  deriving DecidableEq

def OutboxItem.identity (item : OutboxItem) : ItemIdentity :=
  ⟨item.id, item.streamId, item.payload⟩

/-- The database file; `nextOutboxId` is the `AUTOINCREMENT` counter, which a
deletion does not lower. -/
structure Database where
  streams : List StreamRow
  setOutbox : List OutboxRow
  nextOutboxId : ℕ
  deriving DecidableEq

/-- The tables that `init_db` creates. -/
def Database.init : Database := ⟨[], [], 1⟩

/-- The delivery block of a request body.  An absent key is `none`; the routes
never send a key with the value `None`. -/
structure DeliveryBlock where
  endpointUrl : Option String := none
  endpointUrlToken : Option String := none
  authorizationHeader : Option String := none
  deriving DecidableEq

/-- The value under `events_requested`: a list of URIs, or something else. -/
inductive EventsValue where
  | uris (uris : List String)
  | notList
  deriving DecidableEq

/-- The payload of `update_stream`. -/
structure StreamPayload where
  delivery : Option DeliveryBlock := none
  endpointUrl : Option String := none
  endpointToken : Option String := none
  aud : Option String := none
  eventsRequested : Option EventsValue := none
  status : Option StreamStatus := none
  deriving DecidableEq

/-- The exceptions of `app.database`. -/
inductive StoreError where
  | crypto (error : CryptoError)
  | jsonDecode
  | valueError (message : String)
  | streamChanged (message : String)
  | outboxFull (message : String)
  deriving DecidableEq

/-- `json.dumps(events_requested)` -/
def dumpsEvents (uris : List String) : String :=
  String.ofList (dumps defaultSeparators
    (.list (uris.map fun uri => .str (ofString uri))))

/-- The strings of a JSON list of strings. -/
def uriOf : Json → Option String
  | .str value => toString? value
  | _ => none

/-- `json.loads(row["events_requested"])`.  Only `json.dumps` of a list of
strings is ever stored; any other text is reported as a decoding error. -/
def loadsEvents [PyRuntime] (text : String) : Except StoreError (List String) :=
  match loads text.toList with
  | some (.list items) =>
    match items.mapM uriOf with
    | some uris => .ok uris
    | none => .error .jsonDecode
  | _ => .error .jsonDecode

private theorem mapM_uriOf (uris : List String) :
    (uris.map fun uri => Json.str (ofString uri)).mapM uriOf = some uris := by
  induction uris with
  | nil => rfl
  | cons uri uris ih =>
      rw [List.map_cons, List.mapM_cons, ih]
      simp [uriOf]

theorem textual_uris (uris : List String) :
    Textual (.list (uris.map fun uri => .str (ofString uri))) := by
  refine Textual.list fun item hitem => ?_
  obtain ⟨uri, -, rfl⟩ := List.mem_map.mp hitem
  exact Textual.str (encodable_ofString uri)

/-- The stored event list is read back. -/
@[simp]
theorem loadsEvents_dumpsEvents [PyRuntime] (uris : List String) :
    loadsEvents (dumpsEvents uris) = .ok uris := by
  simp only [loadsEvents, dumpsEvents, String.toList_ofList,
    loads_dumps standard_defaultSeparators (textual_uris uris), mapM_uriOf]

variable {Key Entropy : Type*} (fernet : Fernet Key Entropy)

/-- `_row_to_stream`: an undecryptable token becomes the empty runtime token. -/
def rowToStream [PyRuntime] (key : Key) (row : StreamRow) :
    Except StoreError Stream := do
  let endpointToken ← match decryptToken fernet key row.endpointToken with
    | .ok token => .ok token
    | .error .tokenDecryption => .ok ""
    | .error error => .error (.crypto error)
  let eventsRequested ← loadsEvents row.eventsRequested
  return {
    streamId := row.streamId
    aud := row.aud
    endpointUrl := row.endpointUrl
    endpointToken := endpointToken
    eventsRequested := eventsRequested
    status := row.status
    createdAt := row.createdAt }

/-- The columns of a row that decide where and what a stream delivers. -/
def StreamRow.delivery (row : StreamRow) : String × String × String × String :=
  (row.aud, row.endpointUrl, row.endpointToken, row.eventsRequested)

/-- The fields of a stream that a queued payload must agree with. -/
def Stream.delivery (stream : Stream) : String × String × String × List String :=
  (stream.aud, stream.endpointUrl, stream.endpointToken, stream.eventsRequested)

/-- What reading a row yields, field by field. -/
theorem rowToStream_eq_ok [PyRuntime] {key : Key} {row : StreamRow}
    {stream : Stream} (hread : rowToStream fernet key row = .ok stream) :
    stream.streamId = row.streamId ∧ stream.aud = row.aud ∧
      stream.endpointUrl = row.endpointUrl ∧ stream.status = row.status ∧
      stream.createdAt = row.createdAt ∧
      loadsEvents row.eventsRequested = .ok stream.eventsRequested ∧
      (decryptToken fernet key row.endpointToken = .ok stream.endpointToken ∨
        (decryptToken fernet key row.endpointToken = .error .tokenDecryption ∧
          stream.endpointToken = "")) := by
  unfold rowToStream at hread
  rcases hevents : loadsEvents row.eventsRequested with error | uris
  · rcases hdecrypt : decryptToken fernet key row.endpointToken with
      (_ | _ | _) | token <;>
      simp [hdecrypt, hevents, bind, Except.bind] at hread
  · rcases hdecrypt : decryptToken fernet key row.endpointToken with
      (_ | _ | _) | token <;>
      simp [hdecrypt, hevents, bind, Except.bind, pure, Except.pure] at hread <;>
      subst hread <;> simp

/-- Two rows that deliver alike are read as streams that deliver alike. -/
theorem rowToStream_delivery_congr [PyRuntime] {key : Key}
    {left right : StreamRow} (hdelivery : left.delivery = right.delivery)
    {stream : Stream} (hread : rowToStream fernet key left = .ok stream) :
    ∃ other, rowToStream fernet key right = .ok other ∧
      other.delivery = stream.delivery := by
  simp only [StreamRow.delivery, Prod.mk.injEq] at hdelivery
  obtain ⟨haud, hurl, htoken, hevents⟩ := hdelivery
  unfold rowToStream at hread ⊢
  rw [htoken, hevents] at hread
  rcases hloads : loadsEvents right.eventsRequested with error | uris
  · rcases hdecrypt : decryptToken fernet key right.endpointToken with
      (_ | _ | _) | token <;>
      simp [hdecrypt, hloads, bind, Except.bind] at hread
  · rcases hdecrypt : decryptToken fernet key right.endpointToken with
      (_ | _ | _) | token <;>
      simp [hdecrypt, hloads, bind, Except.bind, pure, Except.pure] at hread ⊢ <;>
      subst hread <;> simp [Stream.delivery, haud, hurl]

end SsfTransmitter.Store
