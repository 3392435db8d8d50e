import SsfTransmitter.Service.Loss

/-!
# No delivery is pushed with an old configuration

A push carries the stream as it is stored, under the lock that every change of
the stream needs.  A delivery that such a change purged is never pushed again.
-/

namespace SsfTransmitter.Service

open SsfTransmitter.Core
open SsfTransmitter.Python
open SsfTransmitter.Store
open SsfTransmitter.Outbox

section Staleness

variable {Key Entropy : Type*} (fernet : Fernet Key Entropy) [PyRuntime]

/-- The push of an item agrees with the stream row that the item names: it is
stored, enabled, its token decrypts, and its fields are those of the payload. -/
structure PushIsCurrent (world : World Key) (item : OutboxItem) (payload : Dict)
    (stream : Stream) (row : StreamRow) : Prop where
  payload_eq : decryptOutboxPayload fernet world.key item = .ok payload
  stored : streamRow item.streamId world.database = some row
  enabled : row.status = .enabled
  pushed : rowToStream fernet world.key row = .ok stream
  token : decryptToken fernet world.key row.endpointToken = .ok stream.endpointToken
  payload_aud : payload.get? "aud" = some (.str row.aud)
  payload_url : payload.get? "endpoint_url" = some (.str row.endpointUrl)
  payload_token : payload.get? "endpoint_token" = some (.str stream.endpointToken)
  payload_events : payload.get? "events_requested" =
    some (.list (stream.eventsRequested.map fun uri => .str (ofString uri)))

/-- The pending rows that a locked operation is meant to discard: all of them, or
those of the stream that it deletes or reconfigures. -/
def LockedOperation.Purges (key : Key) (entropy : Entropy) (database : Database)
    (row : OutboxRow) : LockedOperation → Prop
  | .save _ => True
  | .update _ payload => ∃ stream updated,
      getFirstStream fernet key database = .ok (some stream) ∧
      (updateStream fernet key entropy payload database).1 = .ok (some updated) ∧
      updated.delivery ≠ stream.delivery ∧ row.streamId = stream.streamId
  | .delete streamId => row.streamId = streamId ∧
      (streamRow streamId database).isSome
  | .discardPending => True

/-- The id was given to a row and no row has it any more. -/
def Gone (itemId : ℕ) (database : Database) : Prop :=
  itemId < database.nextOutboxId ∧ ∀ item ∈ database.stored, item.id ≠ itemId

variable {fernet}

omit [PyRuntime] in
theorem Gone.of_subset {itemId : ℕ} {database next : Database}
    (hgone : Gone itemId database) (hstored : next.stored ⊆ database.stored)
    (hcounter : next.nextOutboxId = database.nextOutboxId) : Gone itemId next :=
  ⟨hcounter ▸ hgone.1, fun item hitem => hgone.2 item (hstored hitem)⟩

omit [PyRuntime] in
theorem stored_settleItem_sublist (now : ℕ) (item : OutboxItem)
    (verdict : Verdict) (database : Database) :
    (settleItem now item verdict database).stored.Sublist database.stored := by
  cases verdict with
  | block reason => simp [settleItem]
  | cancel => exact stored_deletePendingItem_sublist _
  | hold => simp [settleItem]
  | complete => exact stored_deletePendingItem_sublist _
  | retry reason => simp [settleItem]

theorem stored_commit_subset {key : Key} {database : Database}
    (hdatabase : database.WellFormed) (entropy : Entropy)
    (operation : LockedOperation) :
    (operation.commit fernet key entropy database).2.1.stored ⊆ database.stored ∧
      (operation.commit fernet key entropy database).2.1.nextOutboxId =
        database.nextOutboxId := by
  cases operation with
  | save stream => exact ⟨(List.filter_sublist.map _).subset, rfl⟩
  | update requestedId payload =>
      rcases commit_update_cases hdatabase.single entropy requestedId payload with
        hnothing | ⟨row, stream, uris, -, -, hpatch⟩
      · rw [hnothing]
        exact ⟨List.Subset.refl _, rfl⟩
      · rw [hpatch]
        exact ⟨(stored_outboxAfterUpdate_sublist stream _ _).subset, rfl⟩
  | delete streamId =>
      refine ⟨(stored_deleteStreamById_sublist streamId).subset, ?_⟩
      simp only [LockedOperation.commit, deleteStreamById]
      split_ifs <;> rfl
  | discardPending => exact ⟨stored_deletePendingOutbox_sublist.subset, rfl⟩

/-- No transaction brings a row back. -/
theorem Transaction.gone {world : World Key} {key : Key} {database : Database}
    {log : List Event} (htransaction : Transaction fernet world key database log)
    (hworld : world.database.WellFormed) {itemId : ℕ}
    (hgone : Gone itemId world.database) : Gone itemId database := by
  cases htransaction with
  | quiet => exact hgone
  | restart key =>
      refine hgone.of_subset (by rw [stored_quarantine]; exact List.Subset.refl _) ?_
      unfold quarantineUndecryptableReceiverTokens
      split_ifs <;> rfl
  | @enqueue task deliveries now entropy htask =>
      unfold enqueueCommit
      rcases enqueueOutbox_cases fernet world.key entropy now deliveries
        world.database with ⟨error, heq⟩ | ⟨-, heq⟩
      · rw [heq]
        exact hgone
      rw [heq]
      refine ⟨hgone.1.trans_le (Nat.le_add_right _ _), fun item hitem => ?_⟩
      simp only [Database.stored, List.map_append, List.mem_append] at hitem
      rcases hitem with hold | hadded
      · exact hgone.2 item hold
      · obtain ⟨row, hrow, rfl⟩ := List.mem_map.mp hadded
        obtain ⟨-, -, -, -, -, -, hlow, -⟩ := mem_insertedRows fernet hrow
        exact (hgone.1.trans_le hlow).ne'
  | commit entropy htask =>
      obtain ⟨hstored, hcounter⟩ := stored_commit_subset hworld entropy _
      exact hgone.of_subset hstored hcounter
  | push outcome htask => exact hgone
  | @settle task item verdict rest htask =>
      refine hgone.of_subset (stored_settleItem_sublist _ item verdict _).subset ?_
      cases verdict <;> rfl
  | requeueBlocked =>
      exact hgone.of_subset (by rw [stored_requeueBlockedOutbox]; exact List.Subset.refl _)
        rfl
  | deleteBlocked =>
      exact hgone.of_subset stored_deleteBlockedOutbox_sublist.subset rfl

/-- A pending row that an operation purges is gone when the operation commits. -/
theorem LockedOperation.Purges.gone {key : Key} {entropy : Entropy}
    {database : Database} {row : OutboxRow} {operation : LockedOperation}
    (hpurges : operation.Purges fernet key entropy database row)
    (hdatabase : database.WellFormed) (hrow : row ∈ database.setOutbox)
    (hpending : row.status = .pending) :
    Gone row.id (operation.commit fernet key entropy database).2.1 := by
  obtain ⟨-, hcounter⟩ := stored_commit_subset hdatabase entropy operation
  refine ⟨hcounter ▸ hdatabase.below _ (mem_stored_of_mem hrow), ?_⟩
  -- a row with this id that is left would be the purged row itself
  have hfiltered : ∀ (keep : OutboxRow → Bool) (streams : List StreamRow)
      (counter : ℕ), keep row = false →
      ∀ item ∈ (Database.mk streams (database.setOutbox.filter keep) counter).stored,
        item.id ≠ row.id := by
    intro keep streams counter hkeep item hitem hid
    obtain ⟨other, hother, rfl⟩ := List.mem_map.mp hitem
    obtain ⟨hmem, hkept⟩ := List.mem_filter.mp hother
    obtain rfl := hdatabase.row_eq_of_id_eq hmem hrow hid
    rw [hkeep] at hkept
    cases hkept
  cases operation with
  | save stream => exact hfiltered _ _ _ (by simp [hpending])
  | update requestedId payload =>
      obtain ⟨stream, updated, hfirst, hresult, hdelivery, hstreamId⟩ := hpurges
      rcases updateStream_cases fernet hdatabase.single key entropy payload with
        ⟨-, hnone⟩ | ⟨stored, current, uris, hstreams, hread, -, -, hupdate⟩
      · exact absurd hresult (hnone updated)
      rw [getFirstStream_of_singleton fernet hstreams, hread] at hfirst
      obtain rfl : current = stream := by simpa [Except.map] using hfirst
      rw [hupdate] at hresult
      obtain rfl : patchedStream payload current uris = updated := by
        simpa using hresult
      have hcommit : ((LockedOperation.update requestedId payload).commit fernet key
          entropy database).2.1 =
          (updateStream fernet key entropy payload database).2 := rfl
      rw [hcommit, hupdate, outboxAfterUpdate, if_pos hdelivery]
      exact hfiltered _ _ _ (by simp [hstreamId, hpending])
  | delete streamId =>
      obtain ⟨hstreamId, hstored⟩ := hpurges
      have hfound : (database.streams.any fun stored => stored.streamId = streamId) =
          true := by
        obtain ⟨stored, hstored⟩ := Option.isSome_iff_exists.mp hstored
        have hid := List.find?_some hstored
        exact List.any_eq_true.mpr ⟨stored, List.mem_of_find?_eq_some hstored, hid⟩
      simp only [LockedOperation.commit, deleteStreamById, hfound, if_true]
      exact hfiltered _ _ _ (by simp [hstreamId, hpending])
  | discardPending => exact hfiltered _ _ _ (by simp [hpending])

/-- What a task pushes, and the lock that it holds meanwhile. -/
theorem Invariant.pushIsCurrent {world : World Key}
    (hworld : Invariant fernet world) {task : ℕ} {item : OutboxItem}
    {payload : Dict} {stream : Stream} {rest : List OutboxItem}
    (htask : world.tasks task = .pushing item payload stream rest) :
    ∃ row, PushIsCurrent fernet world item payload stream row := by
  have hholds := hworld.tasks task
  rw [htask] at hholds
  obtain ⟨-, hpayload, hstream, hroute⟩ := hholds
  obtain ⟨-, hmatches, henabled⟩ := routeItem_eq_ok hroute
  obtain ⟨row, hrow, hread⟩ := getStreamById_eq_ok_some fernet hstream
  obtain ⟨-, haud, hurl, hstatus, -, -, htoken⟩ := rowToStream_eq_ok fernet hread
  have hdecrypt : decryptOutboxPayload fernet world.key item = .ok payload := by
    unfold readPayload at hpayload
    split at hpayload
    · cases hpayload
    · split_ifs at hpayload
      rwa [← Except.ok.inj hpayload]
  simp only [payloadMatchesStream, Bool.and_eq_true, decide_eq_true_eq] at hmatches
  obtain ⟨⟨⟨hpayloadAud, hpayloadUrl⟩, hpayloadToken⟩, hpayloadEvents⟩ := hmatches
  have hrowEnabled : row.status = .enabled := hstatus ▸ henabled
  refine ⟨row, hdecrypt, hrow, hrowEnabled, hread, ?_, haud ▸ hpayloadAud,
    hurl ▸ hpayloadUrl, hpayloadToken, hpayloadEvents⟩
  rcases htoken with htoken | ⟨hfailed, -⟩
  · exact htoken
  · obtain ⟨token, hdecrypted⟩ := hworld.sound.readable.enabled row
      (List.mem_of_find?_eq_some hrow) hrowEnabled
    rw [hfailed] at hdecrypted
    cases hdecrypted

/-- While a task pushes, no locked operation commits. -/
theorem Invariant.commit_eq_none {world : World Key}
    (hworld : Invariant fernet world) {task : ℕ} {item : OutboxItem}
    {payload : Dict} {stream : Stream} {rest : List OutboxItem}
    (htask : world.tasks task = .pushing item payload stream rest) (actor : ℕ)
    (entropy : Entropy) : step fernet world (.commit actor entropy) = none := by
  by_contra hcommit
  obtain ⟨next, hnext⟩ := Option.ne_none_iff_exists'.mp hcommit
  cases Step.of_step hnext with
  | commit _ hactor =>
      have hpushing : (world.tasks task).locked = true := by rw [htask]; rfl
      have hholding : (world.tasks actor).locked = true := by rw [hactor]; rfl
      obtain rfl := hworld.lock.eq_of_locked hpushing hholding
      rw [htask] at hactor
      cases hactor

/-- A row that is gone stays gone on every run. -/
theorem Invariant.gone_of_path {world later : World Key} {itemId : ℕ}
    (hworld : Invariant fernet world) (hgone : Gone itemId world.database)
    (hpath : (service fernet).Path (fun _ => True) world later) :
    Invariant fernet later ∧ Gone itemId later.database := by
  induction hpath with
  | refl => exact ⟨hworld, hgone⟩
  | step _ _ hstep ih =>
      have hnext := Step.of_step hstep
      exact ⟨ih.1.next hnext, hnext.transaction.gone ih.1.sound.wellFormed ih.2⟩

/-- A push carries the stored, enabled stream with the fields of the payload, and
nothing changes the stream or takes pending rows until it ends.  A pending row
that a replacement, a deletion, a change of configuration or a discard purged is
never pushed afterwards. -/
theorem push_current_and_purged_not_pushed {world : World Key}
    (hworld : (service fernet).Reachable world) :
    (∀ task item payload stream rest,
      world.tasks task = .pushing item payload stream rest →
      (∃ row, PushIsCurrent fernet world item payload stream row) ∧
      (∀ actor entropy, step fernet world (.commit actor entropy) = none) ∧
      ∀ action next, step fernet world action = some next →
        next.tasks task = world.tasks task →
        next.database.streams = world.database.streams ∧
        ∀ other, Queued world.database other → Queued next.database other) ∧
    ∀ task operation entropy next, world.tasks task = .holding operation →
      step fernet world (.commit task entropy) = some next →
      ∀ row ∈ world.database.setOutbox, row.status = .pending →
      operation.Purges fernet world.key entropy world.database row →
      ∀ later, (service fernet).Path (fun _ => True) next later →
      ∀ other item payload stream rest,
        later.tasks other = .pushing item payload stream rest → item.id ≠ row.id := by
  have hinvariant := invariant_of_reachable hworld
  refine ⟨fun task item payload stream rest htask => ⟨hinvariant.pushIsCurrent htask,
    hinvariant.commit_eq_none htask, fun action next hnext hsame => ?_⟩, ?_⟩
  · have hundisturbed := hinvariant.undisturbed (Step.of_step hnext)
      (by rw [htask]; rfl) hsame
    exact ⟨hundisturbed.streams, hundisturbed.queued⟩
  intro task operation entropy next htask hnext row hrow hpending hpurges later hpath
    other item payload stream rest hpushing
  have hgone : Gone row.id next.database := by
    cases Step.of_step hnext with
    | commit _ hholding =>
        rw [htask] at hholding
        obtain rfl := Task.holding.inj hholding
        exact hpurges.gone hinvariant.sound.wellFormed hrow hpending
  obtain ⟨hlater, hstillGone⟩ :=
    (hinvariant.next (Step.of_step hnext)).gone_of_path hgone hpath
  have hholds := hlater.tasks other
  rw [hpushing] at hholds
  exact hstillGone.2 _ hholds.1.mem_stored

end Staleness

section Sample

open scoped SsfTransmitter.Python.Ascii

/-- The sample delivery is pushed with the token that its stream was saved with. -/
theorem push_current_sample :
    ∃ (world : World Bool) (item : OutboxItem) (payload : Dict),
      world.tasks 0 = .pushing item payload sampleStream [] ∧
        ∃ row, PushIsCurrent clearFernet world item payload sampleStream row := by
  have hworld := reachable_pushingWorld clearFernet true () sampleStream sampleEvent
    (ofString "user@example.com") (fun _ _ => "signed") rfl (Or.inl rfl)
  exact ⟨_, _, _, rfl, ((push_current_and_purged_not_pushed hworld).1 0 _ _ _ _ rfl).1⟩

end Sample

end SsfTransmitter.Service
