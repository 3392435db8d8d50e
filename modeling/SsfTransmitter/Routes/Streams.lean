import SsfTransmitter.Store.Operations
import Mathlib.Data.Finset.Sort
import Mathlib.Data.String.Basic

/-!
# Stream requests and responses

The bodies that `POST` and `PATCH /ssf/streams` accept, the payloads that the two
routes hand to the database layer, and `_stream_response`.  A body holds what its
validators let through.
-/

namespace SsfTransmitter.Routes

open SsfTransmitter.Python
open SsfTransmitter.Store

/-- `SUPPORTED_EVENT_URIS` -/
def supportedEventUris : Finset String :=
  {"https://schemas.openid.net/secevent/ssf/event-type/verification",
    "https://schemas.openid.net/secevent/caep/event-type/session-revoked",
    "https://schemas.openid.net/secevent/caep/event-type/credential-change"}

/-- `_EVENTS_SUPPORTED` -/
def eventsSupported : List String := supportedEventUris.sort

/-- `DeliveryConfig`; the routes do not read its `method`. -/
structure DeliveryConfig where
  endpointUrl : String
  endpointUrlToken : Option String := none
  authorizationHeader : Option String := none
  deriving DecidableEq

/-- `StreamCreateRequest` -/
structure StreamCreateRequest where
  aud : String
  delivery : DeliveryConfig
  eventsRequested : List String := []
  status : StreamStatus := .enabled
  aud_not_blank : isBlank (ofString aud) = false
  events_supported : ∀ uri ∈ eventsRequested, uri ∈ supportedEventUris

/-- `StreamPatchRequest` -/
structure StreamPatchRequest where
  status : Option StreamStatus := none
  eventsRequested : Option (List String) := none
  delivery : Option DeliveryConfig := none
  aud : Option String := none
  aud_not_blank : ∀ text ∈ aud, isBlank (ofString text) = false
  events_supported : ∀ uris ∈ eventsRequested, ∀ uri ∈ uris, uri ∈ supportedEventUris

/-- The payload of `prepare_stream`. -/
structure CreatePayload extends StreamPayload where
  streamId : Option String := none

/-- The `payload` of `create_stream_endpoint`. -/
def createPayload (body : StreamCreateRequest) : CreatePayload where
  aud := some body.aud
  delivery := some {
    endpointUrl := some body.delivery.endpointUrl
    endpointUrlToken := some (orElse body.delivery.endpointUrlToken "")
    authorizationHeader := some (orElse body.delivery.authorizationHeader "") }
  eventsRequested := some (.uris body.eventsRequested)
  status := some body.status

/-- The sparse `patch` of `_patch_stream_body`. -/
def patchPayload (body : StreamPatchRequest) : StreamPayload where
  aud := body.aud
  status := body.status
  eventsRequested := body.eventsRequested.map .uris
  delivery := body.delivery.map fun delivery => {
    endpointUrl := some delivery.endpointUrl
    endpointUrlToken := delivery.endpointUrlToken
    authorizationHeader := delivery.authorizationHeader }

/-- The `endpoint_token` of `prepare_stream`. -/
def preparedToken (payload : StreamPayload) : String :=
  orElse payload.block.endpointUrlToken
    (orElse payload.endpointToken
      (let header := payload.block.authorizationHeader.getD ""
       if header = "" then "" else removeBearer header))

/-- `payload.get("events_requested") or []`: a value that is no list is taken to
be a true one here. -/
def preparedEvents (payload : StreamPayload) : Except StoreError (List String) :=
  match payload.eventsRequested with
  | none => .ok []
  | some (.uris uris) => .ok uris
  | some .notList =>
    .error (.valueError "events_requested must be a list when provided")

/-- `prepare_stream`, with the identifier and the time that it would draw. -/
def prepareStream (freshId : String) (now : ℕ) (payload : CreatePayload) :
    Except StoreError Stream :=
  let endpointUrl := orElse payload.block.endpointUrl (payload.endpointUrl.getD "")
  if endpointUrl = "" then .error (.valueError "Missing delivery.endpoint_url")
  else if payload.aud.getD "" = "" then .error (.valueError "Missing aud")
  else match preparedEvents payload.toStreamPayload with
    | .error error => .error error
    | .ok eventsRequested => .ok {
        streamId := orElse payload.streamId freshId
        aud := payload.aud.getD ""
        endpointUrl := endpointUrl
        endpointToken := preparedToken payload.toStreamPayload
        eventsRequested := eventsRequested
        status := payload.status.getD .enabled
        createdAt := now }

/-- The `events_delivered` of `_stream_response`. -/
def eventsDelivered (eventsRequested : Option (List String)) : List String :=
  match eventsRequested with
  | some uris => uris.filter fun uri => uri ∈ eventsSupported
  | none => eventsSupported

/-- What `_stream_response` returns. -/
structure StreamResponse where
  iss : String
  streamId : String
  aud : String
  method : String
  endpointUrl : String
  eventsSupported : List String
  eventsRequested : List String
  eventsDelivered : List String
  status : StreamStatus
  streamModel : String
  createdAt : ℕ

/-- `_stream_response`, with `settings.ssf_issuer` as parameter -/
def streamResponse (issuer : String) (stream : Stream) : StreamResponse where
  iss := issuer
  streamId := stream.streamId
  aud := stream.aud
  method := "urn:ietf:rfc:8935"
  endpointUrl := stream.endpointUrl
  eventsSupported := eventsSupported
  eventsRequested := stream.eventsRequested
  eventsDelivered := eventsDelivered (some stream.eventsRequested)
  status := stream.status
  streamModel := "single-stream"
  createdAt := stream.createdAt

@[simp]
theorem mem_eventsSupported {uri : String} :
    uri ∈ eventsSupported ↔ uri ∈ supportedEventUris :=
  Finset.mem_sort _

theorem mem_eventsDelivered_some {uris : List String} {uri : String} :
    uri ∈ eventsDelivered (some uris) ↔ uri ∈ uris ∧ uri ∈ supportedEventUris := by
  simp [eventsDelivered]

/-- What a prepared stream holds. -/
theorem prepareStream_eq_ok {freshId : String} {now : ℕ} {payload : CreatePayload}
    {stream : Stream} (hprepare : prepareStream freshId now payload = .ok stream) :
    stream.endpointToken = preparedToken payload.toStreamPayload ∧
      stream.status = payload.status.getD .enabled := by
  simp only [prepareStream] at hprepare
  split_ifs at hprepare with hurl haud
  cases hevents : preparedEvents payload.toStreamPayload with
  | error error => simp [hevents] at hprepare
  | ok eventsRequested =>
      rw [hevents] at hprepare
      obtain rfl := Except.ok.inj hprepare
      exact ⟨rfl, rfl⟩

/-- The block that `create_stream_endpoint` hands on has all its keys. -/
theorem block_createPayload (body : StreamCreateRequest) :
    (createPayload body).block = {
      endpointUrl := some body.delivery.endpointUrl
      endpointUrlToken := some (orElse body.delivery.endpointUrlToken "")
      authorizationHeader := some (orElse body.delivery.authorizationHeader "") } :=
  rfl

theorem block_patchPayload {body : StreamPatchRequest} {delivery : DeliveryConfig}
    (hdelivery : body.delivery = some delivery) :
    (patchPayload body).block = {
      endpointUrl := some delivery.endpointUrl
      endpointUrlToken := delivery.endpointUrlToken
      authorizationHeader := delivery.authorizationHeader } := by
  rw [StreamPayload.block, patchPayload, hdelivery]
  rfl

/-- A stream that asks for no event in particular. -/
def openStream : Stream where
  streamId := "stream"
  aud := "https://receiver.example"
  endpointUrl := "https://receiver.example/events"
  endpointToken := "secret"
  eventsRequested := []
  status := .enabled
  createdAt := 0

end SsfTransmitter.Routes
