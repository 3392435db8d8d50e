import SsfTransmitter.Routes.Streams
import SsfTransmitter.Python.Ascii
import SsfTransmitter.Service.Progress
import SsfTransmitter.Store.ClearFernet

/-!
# A stored stream reads back

`save_stream` and `update_stream` hand back a stream that they build beside the row
they write.  Reading the row gives the same stream, so that the next webhook finds
the stream unchanged and its payloads are accepted.
-/

namespace SsfTransmitter.Routes

open SsfTransmitter.Core
open SsfTransmitter.Python
open SsfTransmitter.Store
open SsfTransmitter.Outbox
open SsfTransmitter.Service

section ReadBack

variable {Key Entropy : Type*} (fernet : Fernet Key Entropy) [PyRuntime]

/-- The stream is the only one that a read finds. -/
structure ReadsBack (key : Key) (database : Database) (stream : Stream) : Prop where
  list : listStreams fernet key database = .ok [stream]
  byId : getStreamById fernet key stream.streamId database = .ok (some stream)

/-- An `enqueue_events` for the stream stops at nothing but a full queue, and the
payloads that it stores are read, valid and addressed to the stream. -/
def Enqueues (key : Key) (database : Database) (stream : Stream) : Prop :=
  ∀ sign events email entropy now,
    let deliveries := enqueueEvents sign [stream] events email
    ((enqueueOutbox fernet key entropy now deliveries database).1 =
        .ok deliveries.length ∨
      (enqueueOutbox fernet key entropy now deliveries database).1 =
        .error (.outboxFull "Delivery queue is full")) ∧
    ∀ row ∈ insertedRows fernet key entropy now database.nextOutboxId deliveries,
      ∃ payload, decryptOutboxPayload fernet key row.toOutboxItem = .ok payload ∧
        validPayload payload = true ∧ payloadMatchesStream payload stream = true

variable {fernet} {key : Key} {database : Database} {stream : Stream}

theorem readsBack_of_row {row : StreamRow} (hstreams : database.streams = [row])
    (hread : rowToStream fernet key row = .ok stream) :
    ReadsBack fernet key database stream where
  list := by
    rw [listStreams, streamsByCreation_eq (by simp [hstreams]), hstreams]
    simp [hread, bind, Except.bind, pure, Except.pure]
  byId := by
    have hid := (rowToStream_eq_ok fernet hread).1
    have hrow : streamRow stream.streamId database = some row := by
      simp [streamRow, hstreams, hid]
    rw [getStreamById, hrow]
    simp [hread, Except.map]

theorem checkCurrent_of_readsBack (hstream : ReadsBack fernet key database stream)
    (henabled : stream.status = .enabled) :
    checkCurrent fernet key database stream = .ok () := by
  obtain ⟨row, hrow, hread⟩ := getStreamById_eq_ok_some fernet hstream.byId
  simp [checkCurrent, hrow, hread, henabled]

omit [PyRuntime] in
theorem fst_mem_of_mem_matchingEvents {streams : List Stream} {events : List MappedEvent}
    {pair : Stream × MappedEvent} (hpair : pair ∈ matchingEvents streams events) :
    pair.1 ∈ streams := by
  obtain ⟨candidate, hcandidate, hmem⟩ := List.mem_flatMap.mp hpair
  split_ifs at hmem
  · simp at hmem
  · obtain ⟨event, -, rfl⟩ := List.mem_map.mp hmem
    exact hcandidate

omit [PyRuntime] in
theorem eq_of_mem_enqueueEvents_singleton {sign : ℕ → SetClaims → String}
    {events : List MappedEvent} {email : PyStr} {delivery : Stream × Dict}
    (hdelivery : delivery ∈ enqueueEvents sign [stream] events email) :
    ∃ eventUri token, delivery = (stream, deliveryPayload stream eventUri token) := by
  obtain ⟨eventUri, token, hpayload⟩ :=
    exists_deliveryPayload_of_mem_enqueueEvents hdelivery
  have hfirst : delivery.1 = stream := by
    obtain ⟨index, hindex, rfl⟩ := List.mem_mapIdx.mp hdelivery
    exact List.mem_singleton.mp
      (fst_mem_of_mem_matchingEvents (List.getElem_mem hindex))
  exact ⟨eventUri, token, Prod.ext hfirst (hfirst ▸ hpayload)⟩

theorem enqueues_of_readsBack (hstream : ReadsBack fernet key database stream)
    (henabled : stream.status = .enabled) : Enqueues fernet key database stream := by
  intro sign events email entropy now deliveries
  have hcheck : (deliveries.forM fun delivery =>
      checkCurrent fernet key database delivery.1) = .ok () := by
    refine forM_eq_ok_of_forall fun delivery hdelivery => ?_
    obtain ⟨eventUri, token, rfl⟩ := eq_of_mem_enqueueEvents_singleton hdelivery
    exact checkCurrent_of_readsBack hstream henabled
  constructor
  · rw [enqueueOutbox, hcheck]
    split_ifs with hempty hfull
    · exact Or.inl (by rw [hempty]; rfl)
    · exact Or.inr rfl
    · exact Or.inl rfl
  · intro row hrow
    obtain ⟨delivery, hdelivery, draw, -, hpayload, -⟩ := mem_insertedRows fernet hrow
    obtain ⟨eventUri, token, rfl⟩ := eq_of_mem_enqueueEvents_singleton hdelivery
    have hencoded : EncodedFor fernet key stream row.toOutboxItem.payload :=
      ⟨draw, eventUri, token, hpayload⟩
    obtain ⟨eventUri', token', hdecrypt, -⟩ :=
      readPayload_of_encodedFor row.toOutboxItem hencoded
    exact ⟨_, hdecrypt, validPayload_deliveryPayload stream eventUri' token',
      payloadMatchesStream_deliveryPayload stream eventUri' token'⟩

variable (fernet) in
/-- Whatever service state the request meets, a created stream and the stream that
an update returns are what the next read finds, and a webhook can be queued. -/
theorem stored_stream_reads_back {world : World Key}
    (hworld : (service fernet).Reachable world) (entropy : Entropy) :
    (∀ body freshId now stream,
      prepareStream freshId now (createPayload body) = .ok stream →
      let saved := saveStream fernet world.key entropy stream world.database
      ReadsBack fernet world.key saved stream ∧
        (stream.status = .enabled → Enqueues fernet world.key saved stream)) ∧
    ∀ payload updated database,
      updateStream fernet world.key entropy payload world.database =
        (.ok (some updated), database) →
      ReadsBack fernet world.key database updated ∧
        (updated.status = .enabled → Enqueues fernet world.key database updated) := by
  constructor
  · intro body freshId now stream _ saved
    have hsaved : ReadsBack fernet world.key saved stream :=
      readsBack_of_row rfl (rowToStream_savedRow fernet world.key entropy stream)
    exact ⟨hsaved, enqueues_of_readsBack hsaved⟩
  · intro payload updated database hupdate
    have hsingle := (invariant_of_reachable hworld).sound.wellFormed.single
    rcases updateStream_cases fernet hsingle world.key entropy payload with
      ⟨-, hnothing⟩ | ⟨row, stream, uris, -, hread, -, -, hpatched⟩
    · exact absurd (congrArg Prod.fst hupdate) (hnothing updated)
    rw [hpatched] at hupdate
    obtain ⟨hresult, hdatabase⟩ := Prod.mk.inj hupdate
    obtain rfl := Option.some.inj (Except.ok.inj hresult)
    have hstreams : database.streams = [patchedRow fernet world.key entropy payload row
        (patchedStream payload stream uris)] := by rw [← hdatabase]
    have hpatch := readsBack_of_row hstreams (rowToStream_patchedRow fernet hread)
    exact ⟨hpatch, enqueues_of_readsBack hpatch⟩

end ReadBack

section Sample

open scoped SsfTransmitter.Python.Ascii

/-- A stream that was paused reads back. -/
theorem stored_stream_reads_back_sample :
    ReadsBack clearFernet true
      (updateStream clearFernet true () { status := some .paused }
        (savedWorld clearFernet true () openStream).database).2
      { openStream with status := .paused } := by
  have hworld := reachable_savedWorld clearFernet true () openStream
  have hresult : (updateStream clearFernet true () { status := some .paused }
      (savedWorld clearFernet true () openStream).database).1 =
        .ok (some { openStream with status := .paused }) := by decide +kernel
  exact ((stored_stream_reads_back clearFernet hworld ()).2 _ _ _
    (Prod.ext hresult rfl)).1

end Sample

end SsfTransmitter.Routes
