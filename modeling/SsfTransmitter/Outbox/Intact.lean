import SsfTransmitter.Outbox.Delivery
import SsfTransmitter.Store.Invariants

/-!
# Deliveries that still belong to their stream

A queued delivery is intact while the stream it names still delivers as it did
when the delivery was queued.  Whatever key the process runs under, an intact
delivery is never cancelled: under the key of its encryption it matches the
stream, and under any other key its payload cannot be read.
-/

namespace SsfTransmitter.Outbox

open SsfTransmitter.Python
open SsfTransmitter.Store

variable {Key Entropy : Type*} (fernet : Fernet Key Entropy)

/-- The payload was encrypted by `enqueue_events` under `key`, for a stream. -/
def EncodedFor (key : Key) (stream : Stream) (payload : String) : Prop :=
  ∃ entropy eventUri token, payload = encryptSensitiveData fernet key entropy
    (dumpsPayload (deliveryPayload stream eventUri token))

/-- An item was queued under `key`, and read under it the row that the item names
still delivers as the stream did that the item was queued for. -/
def IntactUnder [PyRuntime] (key : Key) (database : Database) (item : ItemIdentity) :
    Prop :=
  ∃ stream row current, EncodedFor fernet key stream item.payload ∧
    streamRow item.streamId database = some row ∧
    rowToStream fernet key row = .ok current ∧ current.delivery = stream.delivery

/-- An item is intact under the key that it was queued under. -/
def Intact [PyRuntime] (database : Database) (item : ItemIdentity) : Prop :=
  ∃ key, IntactUnder fernet key database item

theorem wellFormed_deliveryPayload (stream : Stream) (eventUri token : String) :
    (deliveryPayload stream eventUri token).WellFormed := by
  have hkeys : (deliveryPayload stream eventUri token).map Prod.fst =
      ["aud", "endpoint_url", "endpoint_token", "events_requested", "event_uri",
        "token"].map ofString := rfl
  rw [Dict.WellFormed, hkeys]
  exact List.Nodup.map ofString_injective (by decide)

theorem textual_deliveryPayload (stream : Stream) (eventUri token : String) :
    Textual (.dict (deliveryPayload stream eventUri token)) := by
  refine Textual.dict (wellFormed_deliveryPayload stream eventUri token)
    (fun field hfield => ?_) (fun field hfield => ?_)
  all_goals
    simp only [deliveryPayload, List.mem_cons, List.not_mem_nil, or_false] at hfield
    rcases hfield with rfl | rfl | rfl | rfl | rfl | rfl
    all_goals
      first
        | exact encodable_ofString _
        | exact Textual.str (encodable_ofString _)
        | exact textual_uris stream.eventsRequested

variable {fernet}

/-- Under its own key a queued payload is read back and is valid. -/
theorem readPayload_of_encodedFor [PyRuntime] {key : Key} {stream : Stream}
    (item : OutboxItem) (hitem : EncodedFor fernet key stream item.payload) :
    ∃ eventUri token, decryptOutboxPayload fernet key item =
        .ok (deliveryPayload stream eventUri token) ∧
      readPayload fernet key item = .ok (deliveryPayload stream eventUri token) := by
  obtain ⟨entropy, eventUri, token, hpayload⟩ := hitem
  have hdecrypt : decryptOutboxPayload fernet key item =
      .ok (deliveryPayload stream eventUri token) := by
    simp only [decryptOutboxPayload, hpayload,
      decryptSensitiveData_encryptSensitiveData, dumpsPayload, String.toList_ofList,
      loads_dumps standard_compactSeparators
        (textual_deliveryPayload stream eventUri token)]
  exact ⟨eventUri, token, hdecrypt, by
    simp [readPayload, hdecrypt, validPayload_deliveryPayload]⟩

/-- Under another key a queued payload cannot be read. -/
theorem readPayload_of_encodedFor_of_ne [PyRuntime] {key other : Key}
    {stream : Stream} {item : OutboxItem}
    (hitem : EncodedFor fernet key stream item.payload) (hkey : other ≠ key) :
    readPayload fernet other item =
      .error (.block "payload_decryption_failed") := by
  obtain ⟨entropy, eventUri, token, hpayload⟩ := hitem
  simp [readPayload, decryptOutboxPayload, hpayload,
    decryptSensitiveData_of_ne fernet hkey]

/-- A payload that is read was encrypted under the current key. -/
theorem eq_of_readPayload_eq_ok [PyRuntime] {key current : Key} {stream : Stream}
    {item : OutboxItem} {payload : Dict}
    (hitem : EncodedFor fernet key stream item.payload)
    (hread : readPayload fernet current item = .ok payload) : current = key := by
  by_contra hkey
  rw [readPayload_of_encodedFor_of_ne hitem hkey] at hread
  cases hread

/-- An intact delivery whose payload can be read is not cancelled. -/
theorem routeItem_ne_cancel_of_intact [PyRuntime] {key : Key}
    {database : Database} {item : OutboxItem} {payload : Dict}
    {found : Option Stream} (hintact : Intact fernet database item.identity)
    (hread : readPayload fernet key item = .ok payload)
    (hstream : getStreamById fernet key item.streamId database = .ok found) :
    routeItem payload found ≠ .error .cancel := by
  obtain ⟨origin, stream, row, current, hencoded, hrow, hcurrent, hdelivery⟩ :=
    hintact
  obtain rfl := eq_of_readPayload_eq_ok hencoded hread
  obtain ⟨eventUri, token, -, hpayload⟩ :=
    readPayload_of_encodedFor item hencoded
  obtain rfl : payload = deliveryPayload stream eventUri token := by
    rw [hread] at hpayload
    exact Except.ok.inj hpayload
  obtain rfl : found = some current := by
    have hrow' : streamRow item.streamId database = some row := hrow
    simpa [getStreamById, hrow', hcurrent, Except.map] using hstream.symm
  have hmatches :=
    (payloadMatchesStream_deliveryPayload_iff stream current eventUri token).mpr
      hdelivery
  simp only [routeItem, hmatches, Bool.not_true, Bool.false_eq_true, if_false]
  split_ifs <;> simp

/-! ## What keeps a delivery intact -/

/-- Only the row that the item names matters. -/
theorem IntactUnder.congr [PyRuntime] {key : Key} {database next : Database}
    {item : ItemIdentity} (hintact : IntactUnder fernet key database item)
    (hrow : ∀ row, streamRow item.streamId database = some row →
      ∃ other, streamRow item.streamId next = some other ∧
        other.delivery = row.delivery) :
    IntactUnder fernet key next item := by
  obtain ⟨stream, row, current, hencoded, hfound, hcurrent, hdelivery⟩ := hintact
  obtain ⟨other, hother, hsame⟩ := hrow row hfound
  obtain ⟨read, hread, heq⟩ :=
    rowToStream_delivery_congr fernet hsame.symm hcurrent
  exact ⟨stream, other, read, hencoded, hother, hread, heq.trans hdelivery⟩

theorem IntactUnder.of_streams_eq [PyRuntime] {key : Key}
    {database next : Database} {item : ItemIdentity}
    (hintact : IntactUnder fernet key database item)
    (hstreams : next.streams = database.streams) :
    IntactUnder fernet key next item :=
  hintact.congr fun row hrow => ⟨row, by rw [← hrow]; simp [streamRow, hstreams], rfl⟩

theorem Intact.of_streams_eq [PyRuntime] {database next : Database}
    {item : ItemIdentity} (hintact : Intact fernet database item)
    (hstreams : next.streams = database.streams) : Intact fernet next item :=
  hintact.imp fun _ hunder => hunder.of_streams_eq hstreams

theorem IntactUnder.quarantine [PyRuntime] {origin : Key} {database : Database}
    {item : ItemIdentity} (hintact : IntactUnder fernet origin database item)
    (key : Key) :
    IntactUnder fernet origin
      (quarantineUndecryptableReceiverTokens fernet key database) item := by
  unfold quarantineUndecryptableReceiverTokens
  split_ifs
  · exact hintact
  have hid : ∀ row : StreamRow,
      (quarantinedRow fernet key row).streamId = row.streamId := by
    intro row
    rcases quarantinedRow_eq fernet key row with heq | heq <;>
      simp [heq]
  refine hintact.congr fun row hrow => ⟨quarantinedRow fernet key row, ?_, ?_⟩
  · rw [streamRow, List.find?_map]
    simp only [Function.comp_def, hid]
    rw [streamRow] at hrow
    simp [hrow]
  · rcases quarantinedRow_eq fernet key row with heq | heq
    · rw [heq]
    · rw [heq]
      rfl

/-- Deleting another stream keeps an item intact. -/
theorem IntactUnder.delete [PyRuntime] {key : Key} {database : Database}
    {item : ItemIdentity} (hintact : IntactUnder fernet key database item)
    {streamId : String} (hstreamId : item.streamId ≠ streamId) :
    IntactUnder fernet key (deleteStreamById streamId database).2 item := by
  unfold deleteStreamById
  split_ifs
  · refine hintact.congr fun row hrow => ⟨row, ?_, rfl⟩
    have hid : row.streamId = item.streamId := by
      simpa using List.find?_some hrow
    rw [streamRow, List.find?_filter]
    rw [streamRow] at hrow
    rw [← hrow]
    refine List.find?_congr fun other _ => ?_
    by_cases hother : other.streamId = item.streamId <;>
      simp [hother, hstreamId]
  · exact hintact

/-- An update that leaves the audience, the endpoint and the events of a stream
and brings no token keeps its deliveries intact. -/
theorem IntactUnder.update [PyRuntime] {origin : Key} {database : Database}
    {item : ItemIdentity} (hintact : IntactUnder fernet origin database item)
    {key : Key} {entropy : Entropy}
    {payload : StreamPayload} {row : StreamRow} {stream updated : Stream}
    (outbox : List OutboxRow) (hstreams : database.streams = [row])
    (hread : rowToStream fernet key row = .ok stream)
    (hkept : item.streamId = stream.streamId → updated.aud = stream.aud ∧
      updated.endpointUrl = stream.endpointUrl ∧
      updated.eventsRequested = stream.eventsRequested ∧
      replacementEndpointToken payload = none) :
    IntactUnder fernet origin
      { database with
        setOutbox := outbox
        streams := [patchedRow fernet key entropy payload row updated] } item := by
  obtain ⟨source, found, current, hencoded, hfound, hcurrent, hdelivery⟩ := hintact
  have hfound' : row.streamId = item.streamId ∧ row = found := by
    have hrow : database = ⟨[row], database.setOutbox, database.nextOutboxId⟩ := by
      rw [← hstreams]
    rw [hrow, streamRow_singleton] at hfound
    split_ifs at hfound with hid
    exact ⟨hid, Option.some.inj hfound⟩
  obtain ⟨hid, rfl⟩ := hfound'
  obtain ⟨hstreamId, haud, hurl, -, -, hevents, -⟩ := rowToStream_eq_ok fernet hread
  obtain ⟨haud', hurl', hevents', htoken'⟩ :=
    hkept (hid.symm.trans hstreamId.symm)
  obtain ⟨-, haudOrigin, hurlOrigin, -, -, heventsOrigin, htokenOrigin⟩ :=
    rowToStream_eq_ok fernet hcurrent
  have hsame : current.eventsRequested = stream.eventsRequested :=
    Except.ok.inj (heventsOrigin.symm.trans hevents)
  refine ⟨source, patchedRow fernet key entropy payload row updated,
    { current with status := updated.status }, hencoded, ?_, ?_, hdelivery⟩
  · rw [streamRow_singleton]
    simp [patchedRow, hid]
  · have hread' := rowToStream_eq_ok fernet hcurrent
    unfold rowToStream
    rcases htokenOrigin with htoken | ⟨htoken, hempty⟩
    · simp [patchedRow, htoken', htoken, haud', hurl', hevents', haud, hurl,
        haudOrigin, hurlOrigin, hsame, hread'.1, hread'.2.2.2.2.1, bind, Except.bind,
        pure, Except.pure]
    · simp [patchedRow, htoken', htoken, haud', hurl', hevents', haud, hurl,
        haudOrigin, hurlOrigin, hsame, hread'.1, hread'.2.2.2.2.1, hempty, bind,
        Except.bind, pure, Except.pure]

/-- The rows of an enqueueing are intact: they were queued for the stream as it
is stored. -/
theorem intactUnder_insertedRows [PyRuntime] {key : Key} {entropy : ℕ → Entropy}
    {now nextId : ℕ} {deliveries : List (Stream × Dict)} {database : Database}
    (hdeliveries : ∀ delivery ∈ deliveries, ∃ eventUri token,
      delivery.2 = deliveryPayload delivery.1 eventUri token)
    (hcurrent : ∀ delivery ∈ deliveries,
      checkCurrent fernet key database delivery.1 = .ok ())
    {row : OutboxRow}
    (hrow : row ∈ insertedRows fernet key entropy now nextId deliveries) :
    IntactUnder fernet key database row.identity := by
  obtain ⟨delivery, hdelivery, draw, hid, hpayload, -⟩ := mem_insertedRows fernet hrow
  obtain ⟨stored, hstored, hread, -⟩ :=
    checkCurrent_eq_ok fernet (hcurrent delivery hdelivery)
  obtain ⟨eventUri, token, hencoded⟩ := hdeliveries delivery hdelivery
  refine ⟨delivery.1, stored, delivery.1, ⟨draw, eventUri, token, ?_⟩, ?_, hread, rfl⟩
  · rw [← hencoded]
    exact hpayload
  · rw [← hstored]
    exact congrArg (streamRow · database) hid

end SsfTransmitter.Outbox
