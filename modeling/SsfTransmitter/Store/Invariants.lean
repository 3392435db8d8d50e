import SsfTransmitter.Store.Operations

/-!
# What the store operations keep

The tables stay well formed: at most one stream, and queued rows with distinct
ids below the counter.  What an operation may remove from the queue is stated
once for each operation, on the identities of the rows.
-/

namespace SsfTransmitter.Store

open SsfTransmitter.Python

/-- The identities of all queued rows. -/
def Database.stored (database : Database) : List ItemIdentity :=
  database.setOutbox.map fun row => row.identity

/-- The identities of the rows with a status. -/
def identities (status : OutboxStatus) (database : Database) : List ItemIdentity :=
  (database.setOutbox.filter fun row => row.status = status).map
    fun row => row.identity

/-- At most one stream; queued ids are distinct and below the counter. -/
structure Database.WellFormed (database : Database) : Prop where
  single : database.streams.length ≤ 1
  nodup : (database.stored.map ItemIdentity.id).Nodup
  below : ∀ item ∈ database.stored, item.id < database.nextOutboxId

theorem wellFormed_init : Database.init.WellFormed where
  single := by simp [Database.init]
  nodup := by simp [Database.init, Database.stored]
  below := by simp [Database.init, Database.stored]

theorem mem_stored_of_mem {database : Database} {row : OutboxRow}
    (hrow : row ∈ database.setOutbox) : row.identity ∈ database.stored :=
  List.mem_map_of_mem hrow

/-- Rows with the same id are the same row. -/
theorem Database.WellFormed.eq_of_id_eq {database : Database}
    (hdatabase : database.WellFormed) {left right : ItemIdentity}
    (hleft : left ∈ database.stored) (hright : right ∈ database.stored)
    (hid : left.id = right.id) : left = right :=
  List.inj_on_of_nodup_map hdatabase.nodup hleft hright hid

theorem Database.WellFormed.row_eq_of_id_eq {database : Database}
    (hdatabase : database.WellFormed) {left right : OutboxRow}
    (hleft : left ∈ database.setOutbox) (hright : right ∈ database.setOutbox)
    (hid : left.id = right.id) : left = right := by
  have hnodup := hdatabase.nodup
  rw [Database.stored, List.map_map] at hnodup
  exact List.inj_on_of_nodup_map hnodup hleft hright hid

/-- An operation that only takes rows from the queue keeps the tables well
formed. -/
theorem Database.WellFormed.of_sublist {database next : Database}
    (hdatabase : database.WellFormed) (hsingle : next.streams.length ≤ 1)
    (hstored : next.stored.Sublist database.stored)
    (hcounter : next.nextOutboxId = database.nextOutboxId) :
    next.WellFormed where
  single := hsingle
  nodup := hdatabase.nodup.sublist (hstored.map ItemIdentity.id)
  below item hitem :=
    hcounter ▸ hdatabase.below item (hstored.subset hitem)

private theorem stored_sublist_of_filter (outbox : List OutboxRow)
    (keep : OutboxRow → Bool) :
    ((outbox.filter keep).map fun row => row.identity).Sublist
      (outbox.map fun row => row.identity) :=
  List.filter_sublist.map _

theorem map_identity_eq {outbox : List OutboxRow}
    {change : OutboxRow → OutboxRow}
    (hchange : ∀ row, (change row).identity = row.identity) :
    (outbox.map change).map (fun row => row.identity) =
      outbox.map fun row => row.identity := by
  rw [List.map_map]
  exact List.map_congr_left fun row _ => hchange row

/-! ## Streams -/

section Streams

variable {Key Entropy : Type*} (fernet : Fernet Key Entropy)

theorem streamsByCreation_eq {database : Database}
    (hsingle : database.streams.length ≤ 1) :
    streamsByCreation database = database.streams := by
  rcases hstreams : database.streams with _ | ⟨row, _ | ⟨other, rest⟩⟩
  · simp [streamsByCreation, hstreams]
  · simp [streamsByCreation, hstreams]
  · simp [hstreams] at hsingle

/-- With at most one stream, a stream that is found is the only one. -/
theorem streams_eq_of_streamRow {database : Database} {streamId : String}
    {row : StreamRow} (hsingle : database.streams.length ≤ 1)
    (hrow : streamRow streamId database = some row) :
    database.streams = [row] ∧ row.streamId = streamId := by
  have hmem := List.mem_of_find?_eq_some hrow
  have hid := List.find?_some hrow
  rcases hstreams : database.streams with _ | ⟨first, _ | ⟨other, rest⟩⟩
  · simp [hstreams] at hmem
  · simp only [hstreams, List.mem_singleton] at hmem
    exact ⟨by rw [hmem], by simpa using hid⟩
  · simp [hstreams] at hsingle

@[simp]
theorem streamRow_singleton (row : StreamRow) (outbox : List OutboxRow)
    (counter : ℕ) (streamId : String) :
    streamRow streamId ⟨[row], outbox, counter⟩ =
      if row.streamId = streamId then some row else none := by
  simp only [streamRow, List.find?_cons, List.find?_nil]
  by_cases hid : row.streamId = streamId <;> simp [hid]

theorem eq_singleton_of_mem {database : Database} {row : StreamRow}
    (hsingle : database.streams.length ≤ 1) (hrow : row ∈ database.streams) :
    database.streams = [row] := by
  obtain ⟨only, honly⟩ := List.length_eq_one_iff.mp
    (Nat.le_antisymm hsingle (List.length_pos_of_mem hrow))
  rw [honly, List.mem_singleton] at hrow
  rw [honly, hrow]

theorem getFirstStream_of_singleton [PyRuntime] {key : Key} {database : Database}
    {row : StreamRow} (hstreams : database.streams = [row]) :
    getFirstStream fernet key database =
      (rowToStream fernet key row).map some := by
  have horder : streamsByCreation database = [row] := by
    rw [streamsByCreation_eq (by simp [hstreams]), hstreams]
  rw [getFirstStream, listStreams, horder]
  rcases hread : rowToStream fernet key row with error | stream <;>
    simp [hread, Except.map, bind, Except.bind, pure, Except.pure]

/-- A stream that is read lies under its id in a row of the table. -/
theorem getStreamById_eq_ok_some [PyRuntime] {key : Key} {streamId : String}
    {database : Database} {stream : Stream}
    (hread : getStreamById fernet key streamId database = .ok (some stream)) :
    ∃ row, streamRow streamId database = some row ∧
      rowToStream fernet key row = .ok stream := by
  unfold getStreamById at hread
  rcases hrow : streamRow streamId database with _ | row
  · simp [hrow] at hread
  · simp only [hrow] at hread
    refine ⟨row, rfl, ?_⟩
    rcases hstream : rowToStream fernet key row with error | found
    · simp [hstream, Except.map] at hread
    · simpa [hstream, Except.map] using hread

/-- The stored row of a patch reads back as the stream that the patch returns. -/
theorem rowToStream_patchedRow [PyRuntime] {key : Key} {entropy : Entropy}
    {payload : StreamPayload} {row : StreamRow} {stream : Stream}
    {eventsRequested : List String}
    (hread : rowToStream fernet key row = .ok stream) :
    rowToStream fernet key (patchedRow fernet key entropy payload row
        (patchedStream payload stream eventsRequested)) =
      .ok (patchedStream payload stream eventsRequested) := by
  obtain ⟨hid, -, -, -, hcreated, -, htoken⟩ := rowToStream_eq_ok fernet hread
  unfold rowToStream patchedRow
  rcases hreplacement : replacementEndpointToken payload with _ | token
  · rcases htoken with htoken | ⟨htoken, hempty⟩
    · simp [htoken, patchedStream, hreplacement, hid, hcreated, bind, Except.bind,
        pure, Except.pure]
    · simp [htoken, patchedStream, hreplacement, hid, hcreated, hempty, bind,
        Except.bind, pure, Except.pure]
  · simp [decryptToken_encryptToken, patchedStream, hreplacement, hid, hcreated,
      bind, Except.bind, pure, Except.pure]

/-- What `update_stream` does with a patch that it accepts. -/
theorem updateStream_of_accepted [PyRuntime] {database : Database} {row : StreamRow}
    {key : Key} {payload : StreamPayload} {stream : Stream}
    {eventsRequested : List String} (hstreams : database.streams = [row])
    (hread : rowToStream fernet key row = .ok stream)
    (hevents : requestedEvents payload stream = .ok eventsRequested)
    (hguard : enablingWithoutToken payload row stream = false) (entropy : Entropy) :
    updateStream fernet key entropy payload database =
      (.ok (some (patchedStream payload stream eventsRequested)),
        { database with
          setOutbox := outboxAfterUpdate stream
            (patchedStream payload stream eventsRequested) database.setOutbox
          streams := [patchedRow fernet key entropy payload row
            (patchedStream payload stream eventsRequested)] }) := by
  have hid := (rowToStream_eq_ok fernet hread).1
  rw [updateStream, streamsByCreation_eq (by rw [hstreams]; rfl), hstreams]
  simp [hread, hevents, hguard, hid]

/-- What `update_stream` does: nothing, or the patch of the one stored stream. -/
theorem updateStream_cases [PyRuntime] {database : Database}
    (hsingle : database.streams.length ≤ 1) (key : Key) (entropy : Entropy)
    (payload : StreamPayload) :
    ((updateStream fernet key entropy payload database).2 = database ∧
      ∀ updated, (updateStream fernet key entropy payload database).1 ≠
        .ok (some updated)) ∨
    ∃ row stream eventsRequested, database.streams = [row] ∧
      rowToStream fernet key row = .ok stream ∧
      requestedEvents payload stream = .ok eventsRequested ∧
      enablingWithoutToken payload row stream = false ∧
      updateStream fernet key entropy payload database =
        (.ok (some (patchedStream payload stream eventsRequested)),
          { database with
            setOutbox := outboxAfterUpdate stream
              (patchedStream payload stream eventsRequested) database.setOutbox
            streams := [patchedRow fernet key entropy payload row
              (patchedStream payload stream eventsRequested)] }) := by
  rcases hstreams : database.streams with _ | ⟨row, _ | ⟨other, rest⟩⟩
  · refine Or.inl ?_
    simp [updateStream, streamsByCreation_eq hsingle, hstreams]
  · have hhead : (streamsByCreation database).head? = some row := by
      rw [streamsByCreation_eq hsingle, hstreams]
      rfl
    rcases hread : rowToStream fernet key row with error | stream
    · exact Or.inl (by simp [updateStream, hhead, hread])
    rcases hevents : requestedEvents payload stream with error | eventsRequested
    · exact Or.inl (by simp [updateStream, hhead, hread, hevents])
    rcases hguard : enablingWithoutToken payload row stream with _ | _
    · exact Or.inr ⟨row, stream, eventsRequested, rfl, hread, hevents, hguard,
        updateStream_of_accepted fernet hstreams hread hevents hguard entropy⟩
    · exact Or.inl (by simp [updateStream, hhead, hread, hevents, hguard])
  · simp [hstreams] at hsingle

end Streams

/-! ## What stays queued -/

section Queue

variable {database : Database} {item : ItemIdentity}

/-- Taking the rows of one status leaves every other row. -/
theorem mem_stored_filter_status {streams : List StreamRow} {counter : ℕ}
    (status : OutboxStatus) (hitem : item ∈ database.stored) :
    item ∈ (Database.mk streams
        (database.setOutbox.filter fun row => row.status ≠ status) counter).stored ∨
      item ∈ identities status database := by
  obtain ⟨row, hrow, rfl⟩ := List.mem_map.mp hitem
  by_cases hstatus : row.status = status
  · exact Or.inr (List.mem_map_of_mem (List.mem_filter.mpr ⟨hrow, by simp [hstatus]⟩))
  · exact Or.inl (List.mem_map_of_mem (List.mem_filter.mpr ⟨hrow, by simp [hstatus]⟩))

theorem stored_deletePendingOutbox_sublist :
    (deletePendingOutbox database).stored.Sublist database.stored :=
  stored_sublist_of_filter _ _

theorem stored_deleteBlockedOutbox_sublist :
    (deleteBlockedOutbox database).stored.Sublist database.stored :=
  stored_sublist_of_filter _ _

theorem stored_deletePendingItem_sublist (itemId : ℕ) :
    (deletePendingItem itemId database).stored.Sublist database.stored :=
  stored_sublist_of_filter _ _

theorem mem_stored_deletePendingItem (itemId : ℕ)
    (hitem : item ∈ database.stored) :
    item ∈ (deletePendingItem itemId database).stored ∨ item.id = itemId := by
  obtain ⟨row, hrow, rfl⟩ := List.mem_map.mp hitem
  by_cases hid : row.id = itemId
  · exact Or.inr hid
  · exact Or.inl (List.mem_map_of_mem (List.mem_filter.mpr ⟨hrow, by simp [hid]⟩))

@[simp]
theorem stored_retryOutboxItem (itemId attempts nextAttemptAt : ℕ)
    (reason : String) :
    (retryOutboxItem itemId attempts nextAttemptAt reason database).stored =
      database.stored :=
  map_identity_eq fun row => by split_ifs <;> rfl

@[simp]
theorem stored_blockOutboxItem (itemId : ℕ) (reason : String) :
    (blockOutboxItem itemId reason database).stored = database.stored :=
  map_identity_eq fun row => by split_ifs <;> rfl

@[simp]
theorem stored_requeueBlockedOutbox (now : ℕ) :
    (requeueBlockedOutbox now database).stored = database.stored :=
  map_identity_eq fun row => by split_ifs <;> rfl

theorem stored_outboxAfterUpdate_sublist (stream updated : Stream)
    (outbox : List OutboxRow) :
    ((outboxAfterUpdate stream updated outbox).map
        fun row => row.identity).Sublist
      (outbox.map fun row => row.identity) := by
  unfold outboxAfterUpdate
  split_ifs
  · exact stored_sublist_of_filter _ _
  · rw [map_identity_eq fun row => by split_ifs <;> rfl]
  · rfl

/-- An update takes a row only when it changes what the row's stream delivers. -/
theorem mem_outboxAfterUpdate {stream updated : Stream} {outbox : List OutboxRow}
    (hitem : item ∈ outbox.map fun row => row.identity) :
    item ∈ (outboxAfterUpdate stream updated outbox).map
        (fun row => row.identity) ∨
      (updated.delivery ≠ stream.delivery ∧ item.streamId = stream.streamId) := by
  unfold outboxAfterUpdate
  split_ifs with hdelivery
  · obtain ⟨row, hrow, rfl⟩ := List.mem_map.mp hitem
    by_cases hid : row.streamId = stream.streamId
    · exact Or.inr ⟨hdelivery, hid⟩
    · exact Or.inl (List.mem_map_of_mem
        (List.mem_filter.mpr ⟨hrow, by simp [hid]⟩))
  · rw [map_identity_eq fun row => by split_ifs <;> rfl]
    exact Or.inl hitem
  · exact Or.inl hitem

theorem stored_deleteStreamById_sublist (streamId : String) :
    (deleteStreamById streamId database).2.stored.Sublist database.stored := by
  unfold deleteStreamById
  split_ifs
  · exact stored_sublist_of_filter _ _
  · exact List.Sublist.refl _

/-- A deletion takes only rows of the stream that it deletes. -/
theorem mem_stored_deleteStreamById (streamId : String)
    (hitem : item ∈ database.stored) :
    item ∈ (deleteStreamById streamId database).2.stored ∨
      ((deleteStreamById streamId database).1 = true ∧
        item.streamId = streamId) := by
  unfold deleteStreamById
  split_ifs
  · obtain ⟨row, hrow, rfl⟩ := List.mem_map.mp hitem
    by_cases hid : row.streamId = streamId
    · exact Or.inr ⟨rfl, hid⟩
    · exact Or.inl (List.mem_map_of_mem
        (List.mem_filter.mpr ⟨hrow, by simp [hid]⟩))
  · exact Or.inl hitem

end Queue

/-! ## Tokens that the program stored -/

section Tokens

variable {Key Entropy : Type*} (fernet : Fernet Key Entropy)

/-- The columns of a row come from the encoders of the program. -/
def StreamRow.Encoded (row : StreamRow) : Prop :=
  (∃ key entropy token, row.endpointToken = encryptToken fernet key entropy token) ∧
    ∃ uris, row.eventsRequested = dumpsEvents uris

/-- Every stream was encoded by the program, and an enabled one has a token that
the key decrypts. -/
structure Database.Readable (key : Key) (database : Database) : Prop where
  encoded : ∀ row ∈ database.streams, row.Encoded fernet
  enabled : ∀ row ∈ database.streams, row.status = .enabled →
    ∃ token, decryptToken fernet key row.endpointToken = .ok token

variable {fernet}

theorem readable_init {key : Key} : Database.init.Readable fernet key where
  encoded := by simp [Database.init]
  enabled := by simp [Database.init]

/-- A row that the program encoded can be read under every key. -/
theorem StreamRow.Encoded.exists_rowToStream [PyRuntime] {row : StreamRow}
    (hrow : row.Encoded fernet) (key : Key) :
    ∃ stream, rowToStream fernet key row = .ok stream := by
  obtain ⟨⟨key', entropy, token, htoken⟩, uris, huris⟩ := hrow
  unfold rowToStream
  rw [htoken, huris, loadsEvents_dumpsEvents]
  rcases decryptToken_encryptToken_cases fernet key key' entropy token with
    ⟨text, htext⟩ | hfailed
  · exact ⟨_, by rw [htext]; rfl⟩
  · exact ⟨_, by rw [hfailed]; rfl⟩

theorem encoded_savedRow {key : Key} {entropy : Entropy} (stream : Stream) :
    (savedRow fernet key entropy stream).Encoded fernet :=
  ⟨⟨key, entropy, stream.endpointToken, rfl⟩, stream.eventsRequested, rfl⟩

theorem Database.Readable.save {key : Key} {database : Database}
    (entropy : Entropy) (stream : Stream) :
    (saveStream fernet key entropy stream database).Readable fernet key where
  encoded row hrow := by
    obtain rfl := List.mem_singleton.mp hrow
    exact encoded_savedRow stream
  enabled row hrow _ := by
    obtain rfl := List.mem_singleton.mp hrow
    exact ⟨_, decryptToken_encryptToken fernet key entropy stream.endpointToken⟩

variable (fernet) in
/-- The quarantine changes nothing but the status of a row. -/
theorem quarantinedRow_eq (key : Key) (row : StreamRow) :
    quarantinedRow fernet key row = row ∨
      quarantinedRow fernet key row = { row with status := .paused } := by
  unfold quarantinedRow
  split
  · exact Or.inr rfl
  · exact Or.inl rfl

theorem encoded_quarantinedRow (key : Key) {row : StreamRow} :
    (quarantinedRow fernet key row).Encoded fernet ↔ row.Encoded fernet := by
  rcases quarantinedRow_eq fernet key row with heq | heq
  · rw [heq]
  · rw [heq]
    rfl

variable (fernet) in
/-- The quarantine leaves the queue alone. -/
@[simp]
theorem stored_quarantine (key : Key) (database : Database) :
    (quarantineUndecryptableReceiverTokens fernet key database).stored =
      database.stored := by
  unfold quarantineUndecryptableReceiverTokens
  split_ifs <;> rfl

/-- The quarantine makes a database readable under the new key. -/
theorem Database.Readable.quarantine {key : Key} {database : Database}
    (hdatabase : database.Readable fernet key) (next : Key) :
    (quarantineUndecryptableReceiverTokens fernet next database).Readable
      fernet next := by
  have hcases : ∀ row ∈ database.streams,
      (∃ token, decryptToken fernet next row.endpointToken = .ok token) ∨
        decryptToken fernet next row.endpointToken = .error .tokenDecryption := by
    intro row hrow
    obtain ⟨⟨key', entropy, token, htoken⟩, -⟩ := hdatabase.encoded row hrow
    rw [htoken]
    exact decryptToken_encryptToken_cases fernet next key' entropy token
  have hnormal : (database.streams.any fun row =>
      raisesOther (decryptToken fernet next row.endpointToken)) = false := by
    rw [List.any_eq_false]
    intro row hrow
    rcases hcases row hrow with ⟨token, htoken⟩ | hfailed
    · simp [htoken, raisesOther]
    · simp [hfailed, raisesOther]
  rw [quarantineUndecryptableReceiverTokens, hnormal, if_neg Bool.false_ne_true]
  constructor
  · intro row hrow
    obtain ⟨source, hsource, rfl⟩ := List.mem_map.mp hrow
    exact (encoded_quarantinedRow next).mpr (hdatabase.encoded source hsource)
  · intro row hrow henabled
    obtain ⟨source, hsource, rfl⟩ := List.mem_map.mp hrow
    rcases hcases source hsource with ⟨token, htoken⟩ | hfailed
    · exact ⟨token, by simp [quarantinedRow, htoken]⟩
    · simp [quarantinedRow, hfailed] at henabled

theorem Database.Readable.update [PyRuntime] {key : Key} {database : Database}
    (hdatabase : database.Readable fernet key)
    (hsingle : database.streams.length ≤ 1) (entropy : Entropy)
    (payload : StreamPayload) :
    (updateStream fernet key entropy payload database).2.Readable fernet key := by
  rcases updateStream_cases fernet hsingle key entropy payload with
    ⟨hsame, -⟩ | ⟨row, stream, uris, hstreams, hread, -, hguard, hupdate⟩
  · rwa [hsame]
  rw [hupdate]
  have hencoded := hdatabase.encoded row (by simp [hstreams])
  constructor
  · intro patched hpatched
    obtain rfl := List.mem_singleton.mp hpatched
    refine ⟨?_, _, rfl⟩
    rcases hreplacement : replacementEndpointToken payload with _ | token
    · simpa [patchedRow, hreplacement] using hencoded.1
    · exact ⟨key, entropy, token, by simp [patchedRow, hreplacement]⟩
  · intro patched hpatched henabled
    obtain rfl := List.mem_singleton.mp hpatched
    rcases hreplacement : replacementEndpointToken payload with _ | token
    · -- the guard of `update_stream` leaves only tokens that decrypt
      have hstatus : payload.status.getD stream.status = .enabled := henabled
      simp only [patchedRow, hreplacement]
      rcases (rowToStream_eq_ok fernet hread).2.2.2.2.2.2 with
        htoken | ⟨hfailed, hempty⟩
      · exact ⟨_, htoken⟩
      · simp only [enablingWithoutToken, hstatus, hreplacement, hempty,
          receiverReplacementIsMissing, storedTokenIsUndecryptable, decide_true,
          Bool.and_true, Bool.true_and, decide_eq_false_iff_not,
          not_not] at hguard
        exact ⟨"", by simp [hguard, decryptToken]⟩
    · exact ⟨token, by simp [patchedRow, hreplacement, decryptToken_encryptToken]⟩

/-- Without a new stream a database stays readable. -/
theorem Database.Readable.of_subset {key : Key} {database next : Database}
    (hdatabase : database.Readable fernet key)
    (hstreams : next.streams ⊆ database.streams) :
    next.Readable fernet key where
  encoded row hrow := hdatabase.encoded row (hstreams hrow)
  enabled row hrow := hdatabase.enabled row (hstreams hrow)

end Tokens

/-! ## The tables stay well formed -/

section WellFormed

variable {Key Entropy : Type*} {fernet : Fernet Key Entropy} {database : Database}

theorem Database.WellFormed.save (hdatabase : database.WellFormed) (key : Key)
    (entropy : Entropy) (stream : Stream) :
    (saveStream fernet key entropy stream database).WellFormed :=
  hdatabase.of_sublist (by simp [saveStream]) (stored_sublist_of_filter _ _) rfl

theorem Database.WellFormed.update [PyRuntime] (hdatabase : database.WellFormed)
    (key : Key) (entropy : Entropy) (payload : StreamPayload) :
    (updateStream fernet key entropy payload database).2.WellFormed := by
  rcases updateStream_cases fernet hdatabase.single key entropy payload with
    ⟨hsame, -⟩ | ⟨row, stream, uris, -, -, -, -, hupdate⟩
  · rwa [hsame]
  · rw [hupdate]
    exact hdatabase.of_sublist (by simp)
      (stored_outboxAfterUpdate_sublist stream _ _) rfl

theorem Database.WellFormed.delete (hdatabase : database.WellFormed)
    (streamId : String) :
    (deleteStreamById streamId database).2.WellFormed := by
  refine hdatabase.of_sublist ?_ (stored_deleteStreamById_sublist streamId) ?_
  · unfold deleteStreamById
    split_ifs
    · exact (List.length_filter_le _ _).trans hdatabase.single
    · exact hdatabase.single
  · unfold deleteStreamById
    split_ifs <;> rfl

theorem Database.WellFormed.quarantine (hdatabase : database.WellFormed)
    (key : Key) :
    (quarantineUndecryptableReceiverTokens fernet key database).WellFormed := by
  unfold quarantineUndecryptableReceiverTokens
  split_ifs
  · exact hdatabase
  · exact hdatabase.of_sublist (by simpa using hdatabase.single)
      (List.Sublist.refl _) rfl

end WellFormed

/-! ## Enqueueing -/

section Enqueue

variable {Key Entropy : Type*} (fernet : Fernet Key Entropy)

theorem forM_eq_ok {α ε : Type*} {items : List α} {check : α → Except ε Unit}
    (hitems : items.forM check = .ok ()) : ∀ item ∈ items, check item = .ok () := by
  induction items with
  | nil => simp
  | cons head rest ih =>
      change (check head >>= fun _ => rest.forM check) = .ok () at hitems
      rcases hhead : check head with error | done
      · simp [hhead, bind, Except.bind] at hitems
      · simp only [hhead, bind, Except.bind] at hitems
        intro item hitem
        rcases List.mem_cons.mp hitem with rfl | hrest
        · exact hhead
        · exact ih hitems item hrest

theorem forM_eq_ok_of_forall {α ε : Type*} {items : List α} {check : α → Except ε Unit}
    (hitems : ∀ item ∈ items, check item = .ok ()) : items.forM check = .ok () := by
  induction items with
  | nil => rfl
  | cons head rest ih =>
      change (check head >>= fun _ => rest.forM check) = .ok ()
      rw [hitems head List.mem_cons_self]
      exact ih fun item hitem => hitems item (List.mem_cons_of_mem _ hitem)

/-- A delivery is queued only for the stream as it is stored, enabled. -/
theorem checkCurrent_eq_ok [PyRuntime] {key : Key} {database : Database}
    {stream : Stream} (hcheck : checkCurrent fernet key database stream = .ok ()) :
    ∃ row, streamRow stream.streamId database = some row ∧
      rowToStream fernet key row = .ok stream ∧ stream.status = .enabled := by
  unfold checkCurrent at hcheck
  rcases hrow : streamRow stream.streamId database with _ | row
  · simp [hrow] at hcheck
  · rcases hread : rowToStream fernet key row with error | current
    · simp [hrow, hread] at hcheck
    · simp only [hrow, hread] at hcheck
      split_ifs at hcheck with hchanged
      push Not at hchanged
      exact ⟨row, rfl, by rw [hchanged.1] at hread; exact hchanged.1 ▸ hread,
        hchanged.1 ▸ hchanged.2⟩

/-- What `enqueue_outbox` does: nothing, or one row for each delivery. -/
theorem enqueueOutbox_cases [PyRuntime] (key : Key) (entropy : ℕ → Entropy)
    (now : ℕ) (deliveries : List (Stream × Dict)) (database : Database) :
    (∃ error, enqueueOutbox fernet key entropy now deliveries database =
      (.error error, database)) ∨
    ((∀ delivery ∈ deliveries,
        checkCurrent fernet key database delivery.1 = .ok ()) ∧
      enqueueOutbox fernet key entropy now deliveries database =
        (.ok deliveries.length,
          { database with
            setOutbox := database.setOutbox ++
              insertedRows fernet key entropy now database.nextOutboxId deliveries
            nextOutboxId := database.nextOutboxId + deliveries.length })) := by
  unfold enqueueOutbox
  split_ifs with hempty hfull
  · subst hempty
    exact Or.inr ⟨by simp, by simp [insertedRows]⟩
  · rcases deliveries.forM fun delivery =>
        checkCurrent fernet key database delivery.1 with error | done
    · exact Or.inl ⟨error, rfl⟩
    · exact Or.inl ⟨_, rfl⟩
  · rcases hcheck : deliveries.forM fun delivery =>
        checkCurrent fernet key database delivery.1 with error | done
    · exact Or.inl ⟨error, rfl⟩
    · exact Or.inr ⟨forM_eq_ok hcheck, rfl⟩

/-- The rows that an enqueueing adds: the index of a delivery gives its row. -/
theorem mem_insertedRows {key : Key} {entropy : ℕ → Entropy} {now nextId : ℕ}
    {deliveries : List (Stream × Dict)} {row : OutboxRow}
    (hrow : row ∈ insertedRows fernet key entropy now nextId deliveries) :
    ∃ delivery ∈ deliveries, ∃ draw,
      row.streamId = delivery.1.streamId ∧
      row.payload = encryptSensitiveData fernet key draw (dumpsPayload delivery.2) ∧
      row.status = .pending ∧ nextId ≤ row.id ∧
      row.id < nextId + deliveries.length := by
  obtain ⟨index, hindex, rfl⟩ := List.mem_mapIdx.mp hrow
  exact ⟨deliveries[index], List.getElem_mem hindex, entropy index, rfl, rfl, rfl,
    Nat.le_add_right _ _, Nat.add_lt_add_left hindex _⟩

private theorem insertedRows_ids (key : Key) (entropy : ℕ → Entropy)
    (now nextId : ℕ) (deliveries : List (Stream × Dict)) :
    (insertedRows fernet key entropy now nextId deliveries).map (fun row => row.id) =
      (List.range deliveries.length).map (nextId + ·) := by
  apply List.ext_getElem
  · simp [insertedRows]
  · intro index hleft hright
    simp [insertedRows]

theorem Database.WellFormed.enqueue [PyRuntime] {database : Database}
    (hdatabase : database.WellFormed) (key : Key) (entropy : ℕ → Entropy)
    (now : ℕ) (deliveries : List (Stream × Dict)) :
    (enqueueOutbox fernet key entropy now deliveries database).2.WellFormed := by
  rcases enqueueOutbox_cases fernet key entropy now deliveries database with
    ⟨error, heq⟩ | ⟨-, heq⟩
  · rw [heq]
    exact hdatabase
  rw [heq]
  have hnew : ∀ row ∈ insertedRows fernet key entropy now database.nextOutboxId
      deliveries, database.nextOutboxId ≤ row.id ∧
        row.id < database.nextOutboxId + deliveries.length := by
    intro row hrow
    obtain ⟨_, -, _, -, -, -, hlow, hhigh⟩ := mem_insertedRows fernet hrow
    exact ⟨hlow, hhigh⟩
  refine ⟨hdatabase.single, ?_, ?_⟩
  · simp only [Database.stored, List.map_append, List.map_map]
    refine List.Nodup.append ?_ ?_ ?_
    · simpa [Database.stored] using hdatabase.nodup
    · change (List.map (fun row : OutboxRow => row.id) _).Nodup
      rw [insertedRows_ids]
      exact List.nodup_range.map fun left right => Nat.add_left_cancel
    · intro id hold hadded
      obtain ⟨row, hrow, rfl⟩ := List.mem_map.mp hadded
      obtain ⟨other, hother, hid⟩ := List.mem_map.mp hold
      have hbelow := hdatabase.below _ (mem_stored_of_mem hother)
      have hid' : other.id = row.id := hid
      have hlow := (hnew row hrow).1
      simp only [OutboxItem.identity] at hbelow
      omega
  · intro item hitem
    simp only [Database.stored, List.map_append, List.mem_append] at hitem
    rcases hitem with hold | hadded
    · exact (hdatabase.below item hold).trans_le (Nat.le_add_right _ _)
    · obtain ⟨row, hrow, rfl⟩ := List.mem_map.mp hadded
      exact (hnew row hrow).2

end Enqueue

end SsfTransmitter.Store
