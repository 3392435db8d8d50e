import SsfTransmitter.Store.Operations

/-!
# Outbox payloads and delivery decisions

The pure steps of `app.events.outbox`: the payload that `enqueue_events` queues
for each stream and event, and what `_deliver_item` decides from the payload,
the stream it reads and the outcome of the push.
-/

namespace SsfTransmitter.Outbox

open SsfTransmitter.Python
open SsfTransmitter.Store

/-- `MappedEvent` -/
structure MappedEvent where
  uri : String
  payload : Dict
  txn : Option PyStr

/-- The arguments of `sign_set`. -/
structure SetClaims where
  eventUri : String
  audience : String
  email : PyStr
  eventPayload : Dict
  txn : Option PyStr

/-- The delivery that `enqueue_events` builds for a stream and an event. -/
def deliveryPayload (stream : Stream) (eventUri token : String) : Dict :=
  [("aud", .str stream.aud),
    ("endpoint_url", .str stream.endpointUrl),
    ("endpoint_token", .str stream.endpointToken),
    ("events_requested",
      .list (stream.eventsRequested.map fun uri => .str (ofString uri))),
    ("event_uri", .str eventUri),
    ("token", .str token)]

/-- The pairs of an enabled stream and an event that it asks for. -/
def matchingEvents (streams : List Stream) (events : List MappedEvent) :
    List (Stream × MappedEvent) :=
  streams.flatMap fun stream =>
    if stream.status ≠ .enabled then []
    else
      (events.filter fun event =>
        stream.eventsRequested = [] ∨ event.uri ∈ stream.eventsRequested).map
          fun event => (stream, event)

/-- The deliveries of `enqueue_events`.  Signing draws a fresh identifier, so
`sign` also takes the position of the call. -/
def enqueueEvents (sign : ℕ → SetClaims → String) (streams : List Stream)
    (events : List MappedEvent) (email : PyStr) : List (Stream × Dict) :=
  (matchingEvents streams events).mapIdx fun index (stream, event) =>
    (stream, deliveryPayload stream event.uri (sign index {
      eventUri := event.uri
      audience := stream.aud
      email := email
      eventPayload := event.payload
      txn := event.txn }))

/-- `_payload_matches_stream` -/
def payloadMatchesStream (payload : Dict) (stream : Stream) : Bool :=
  payload.get? "aud" = some (.str stream.aud) &&
    payload.get? "endpoint_url" = some (.str stream.endpointUrl) &&
    payload.get? "endpoint_token" = some (.str stream.endpointToken) &&
    payload.get? "events_requested" =
      some (.list (stream.eventsRequested.map fun uri => .str (ofString uri)))

/-- `isinstance(value, str)` -/
def isStr (value : Option Json) : Bool :=
  match value with
  | some (.str _) => true
  | _ => false

/-- `_valid_payload` -/
def validPayload (payload : Dict) : Bool :=
  isStr (payload.get? "aud") &&
    isStr (payload.get? "endpoint_url") &&
    isStr (payload.get? "endpoint_token") &&
    (match payload.get? "events_requested" with
      | some (.list uris) => uris.all fun uri => isStr (some uri)
      | _ => false) &&
    isStr (payload.get? "event_uri") &&
    isStr (payload.get? "token")

/-! ## Decisions of a delivery -/

/-- How `asyncio.wait_for(push_signed_set(…))` ends. -/
inductive PushOutcome where
  | delivered
  | refused
  | timeout
  | exception
  deriving DecidableEq

/-- The store operation that ends the delivery of one item. -/
inductive Verdict where
  | block (reason : String)
  | cancel
  | hold
  | complete
  | retry (reason : String)
  deriving DecidableEq

/-- The exits of `_deliver_item` before it reads the stream. -/
def readPayload {Key Entropy : Type*} (fernet : Fernet Key Entropy)
    [PyRuntime] (key : Key) (item : OutboxItem) : Except Verdict Dict :=
  match decryptOutboxPayload fernet key item with
  | .error _ => .error (.block "payload_decryption_failed")
  | .ok payload =>
    if validPayload payload then .ok payload
    else .error (.block "payload_invalid")

/-- The exits of `_deliver_item` between reading the stream and pushing. -/
def routeItem (payload : Dict) (stream : Option Stream) : Except Verdict Stream :=
  match stream with
  | none => .error .cancel
  | some stream =>
    if !payloadMatchesStream payload stream then .error .cancel
    else if stream.status ≠ .enabled then .error .hold
    else .ok stream

/-- The exits of `_deliver_item` after the push. -/
def verdictOf : PushOutcome → Verdict
  | .delivered => .complete
  | .refused => .retry "delivery_failed"
  | .timeout => .retry "delivery_timeout"
  | .exception => .retry "delivery_error"

/-- `delay` of `_retry`: `min(3600, 5 * 2 ** min(attempts - 1, 10))`. -/
def retryDelay (attempts : ℕ) : ℕ :=
  min 3600 (5 * 2 ^ min (attempts - 1) 10)

/-- The store operation of a verdict at time `now`. -/
def settleItem (now : ℕ) (item : OutboxItem) (verdict : Verdict)
    (database : Database) : Database :=
  match verdict with
  | .block reason => blockOutboxItem item.id reason database
  | .cancel => cancelOutboxItem item.id database
  | .hold =>
    retryOutboxItem item.id item.attempts (now + 30) "stream_paused" database
  | .complete => completeOutboxItem item.id database
  | .retry reason =>
    retryOutboxItem item.id (item.attempts + 1)
      (now + retryDelay (item.attempts + 1)) reason database

/-! ## The encoder and the decoder of payloads agree -/

theorem validPayload_deliveryPayload (stream : Stream) (eventUri token : String) :
    validPayload (deliveryPayload stream eventUri token) = true := by
  unfold validPayload deliveryPayload
  simp [Dict.get?_cons, isStr]

theorem payloadMatchesStream_deliveryPayload (stream : Stream)
    (eventUri token : String) :
    payloadMatchesStream (deliveryPayload stream eventUri token) stream = true := by
  simp [payloadMatchesStream, deliveryPayload, Dict.get?_cons]

private theorem jsonOfUri_injective :
    Function.Injective fun uri : String => Json.str (ofString uri) := by
  intro left right heq
  exact ofString_inj.mp (Json.str.inj heq)

/-- A queued payload matches exactly the streams that deliver as its own did. -/
theorem payloadMatchesStream_deliveryPayload_iff (stream other : Stream)
    (eventUri token : String) :
    payloadMatchesStream (deliveryPayload stream eventUri token) other = true ↔
      other.delivery = stream.delivery := by
  simp only [payloadMatchesStream, deliveryPayload, Dict.get?_cons,
    Stream.delivery, Bool.and_eq_true, decide_eq_true_eq, Prod.mk.injEq]
  constructor
  · rintro ⟨⟨⟨haud, hurl⟩, htoken⟩, hevents⟩
    simp at haud hurl htoken hevents
    refine ⟨haud.symm, hurl.symm, htoken.symm, ?_⟩
    exact (List.map_injective_iff.mpr jsonOfUri_injective hevents).symm
  · rintro ⟨haud, hurl, htoken, hevents⟩
    simp [haud, hurl, htoken, hevents]

end SsfTransmitter.Outbox
