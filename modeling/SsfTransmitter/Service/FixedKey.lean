import SsfTransmitter.Service.Loss

/-!
# Queued deliveries under one key

While restarts keep the encryption key, every queued delivery matches the stored
stream, so that no delivery is ever blocked or cancelled.
-/

namespace SsfTransmitter.Service

open SsfTransmitter.Core
open SsfTransmitter.Python
open SsfTransmitter.Store
open SsfTransmitter.Outbox

section FixedKey

variable {Key Entropy : Type*} (fernet : Fernet Key Entropy) [PyRuntime]

/-- Restarts use the given key. -/
def KeepsKey (key : Key) : Action Key Entropy → Prop
  | .restart next => next = key
  | _ => True

/-- Every row is pending and belongs to the stored stream. -/
def AllCurrent (key : Key) (database : Database) : Prop :=
  ∀ row ∈ database.setOutbox, row.status = .pending ∧
    IntactUnder fernet key database row.identity

/-- The delivery ends with a push or waits. -/
def proceeds : Verdict → Bool
  | .block _ | .cancel => false
  | .hold | .complete | .retry _ => true

/-- No task blocks or cancels a delivery. -/
def AllProceed (world : World Key) : Prop :=
  ∀ task item verdict rest, world.tasks task = .settling item verdict rest →
    proceeds verdict = true

variable {fernet} {key : Key}

namespace AllCurrent

variable {database : Database}

/-- Only rows are taken or rescheduled. -/
theorem of_rows (hcurrent : AllCurrent fernet key database) {next : Database}
    (hstreams : next.streams = database.streams)
    (hrows : ∀ row ∈ next.setOutbox, ∃ source ∈ database.setOutbox,
      row.identity = source.identity ∧ row.status = source.status) :
    AllCurrent fernet key next := by
  intro row hrow
  obtain ⟨source, hsource, hidentity, hstatus⟩ := hrows row hrow
  obtain ⟨hpending, hintact⟩ := hcurrent source hsource
  exact ⟨hstatus.trans hpending, hidentity ▸ hintact.of_streams_eq hstreams⟩

theorem of_filter (hcurrent : AllCurrent fernet key database) (keep : OutboxRow → Bool) :
    AllCurrent fernet key
      { database with setOutbox := database.setOutbox.filter keep } :=
  hcurrent.of_rows rfl fun row hrow =>
    ⟨row, (List.mem_filter.mp hrow).1, rfl, rfl⟩

theorem of_updatePendingItem (hcurrent : AllCurrent fernet key database) (itemId : ℕ)
    {change : OutboxRow → OutboxRow}
    (hchange : ∀ row, (change row).identity = row.identity ∧
      (change row).status = row.status) :
    AllCurrent fernet key (updatePendingItem itemId change database) := by
  refine hcurrent.of_rows rfl fun row hrow => ?_
  obtain ⟨source, hsource, rfl⟩ := List.mem_map.mp hrow
  refine ⟨source, hsource, ?_⟩
  split_ifs
  · exact hchange source
  · exact ⟨rfl, rfl⟩

/-- The rows belong to the one stored stream. -/
theorem streamId_eq (hcurrent : AllCurrent fernet key database) {stored : StreamRow}
    (hstreams : database.streams = [stored]) {row : OutboxRow}
    (hrow : row ∈ database.setOutbox) : stored.streamId = row.streamId := by
  obtain ⟨-, -, found, -, -, hfound, -⟩ := hcurrent row hrow
  obtain ⟨hfoundStreams, hid⟩ :=
    streams_eq_of_streamRow (by rw [hstreams]; rfl) hfound
  rw [hstreams] at hfoundStreams
  obtain rfl : stored = found := by simpa using hfoundStreams
  exact hid

/-- An update either empties the queue or leaves what the stream delivers. -/
theorem update (hcurrent : AllCurrent fernet key database)
    (hsingle : database.streams.length ≤ 1) (entropy : Entropy)
    (payload : StreamPayload) :
    AllCurrent fernet key (updateStream fernet key entropy payload database).2 := by
  rcases updateStream_cases fernet hsingle key entropy payload with
    ⟨hsame, -⟩ | ⟨stored, stream, uris, hstreams, hread, -, -, hupdate⟩
  · rwa [hsame]
  rw [hupdate]
  have hstreamId := (rowToStream_eq_ok fernet hread).1
  set updated := patchedStream payload stream uris with hupdated
  intro row hrow
  simp only [outboxAfterUpdate] at hrow
  by_cases hdelivery : updated.delivery ≠ stream.delivery
  · rw [if_pos hdelivery] at hrow
    obtain ⟨hmem, hkept⟩ := List.mem_filter.mp hrow
    have hid := hcurrent.streamId_eq hstreams hmem
    simp [← hid, hstreamId, (hcurrent row hmem).1] at hkept
  rw [if_neg hdelivery] at hrow
  rw [not_not] at hdelivery
  have hsource : ∃ source ∈ database.setOutbox, row.identity = source.identity ∧
      row.status = source.status := by
    split_ifs at hrow
    · obtain ⟨source, hsource, rfl⟩ := List.mem_map.mp hrow
      refine ⟨source, hsource, ?_⟩
      split_ifs <;> exact ⟨rfl, rfl⟩
    · exact ⟨row, hrow, rfl, rfl⟩
  obtain ⟨source, hsource, hidentity, hstatus⟩ := hsource
  obtain ⟨hpending, origin, found, current, hencoded, hfound, hcurrentRead, hsame⟩ :=
    hcurrent source hsource
  have hid := hcurrent.streamId_eq hstreams hsource
  obtain ⟨hfoundStreams, -⟩ := streams_eq_of_streamRow hsingle hfound
  rw [hstreams] at hfoundStreams
  obtain rfl : stored = found := by simpa using hfoundStreams
  obtain rfl : stream = current := Except.ok.inj (hread.symm.trans hcurrentRead)
  rw [hidentity]
  refine ⟨hstatus.trans hpending, origin,
    patchedRow fernet key entropy payload stored updated, updated, hencoded, ?_,
    rowToStream_patchedRow fernet hread, hdelivery.trans hsame⟩
  rw [streamRow_singleton]
  exact if_pos hid

theorem delete (hcurrent : AllCurrent fernet key database) (streamId : String) :
    AllCurrent fernet key (deleteStreamById streamId database).2 := by
  intro row hrow
  have hmem : row ∈ database.setOutbox ∧
      ((deleteStreamById streamId database).1 = true → row.streamId ≠ streamId) := by
    unfold deleteStreamById at hrow ⊢
    split_ifs at hrow ⊢
    · obtain ⟨hmem, hkept⟩ := List.mem_filter.mp hrow
      refine ⟨hmem, fun _ hid => ?_⟩
      simp [hid, (hcurrent row hmem).1] at hkept
    · exact ⟨hrow, nofun⟩
  obtain ⟨hpending, hintact⟩ := hcurrent row hmem.1
  refine ⟨hpending, ?_⟩
  by_cases hfound : (deleteStreamById streamId database).1 = true
  · exact hintact.delete (hmem.2 hfound)
  · refine hintact.of_streams_eq ?_
    unfold deleteStreamById at hfound ⊢
    split_ifs at hfound ⊢
    · exact absurd rfl hfound
    · rfl

theorem commit (hcurrent : AllCurrent fernet key database)
    (hsingle : database.streams.length ≤ 1) (entropy : Entropy)
    (operation : LockedOperation) :
    AllCurrent fernet key (operation.commit fernet key entropy database).2.1 := by
  cases operation with
  | save stream =>
      intro row hrow
      obtain ⟨hmem, hkept⟩ := List.mem_filter.mp hrow
      simp [(hcurrent row hmem).1] at hkept
  | update requestedId payload => exact hcurrent.update hsingle entropy payload
  | delete streamId => exact hcurrent.delete streamId
  | discardPending => exact hcurrent.of_filter _

theorem enqueue {world : World Key}
    (hcurrent : AllCurrent fernet world.key world.database) (entropy : ℕ → Entropy)
    {deliveries : List (Stream × Dict)} (now : ℕ)
    (hdeliveries : ∀ delivery ∈ deliveries, ∃ eventUri token,
      delivery.2 = deliveryPayload delivery.1 eventUri token) :
    AllCurrent fernet world.key (enqueueCommit fernet entropy deliveries now world).1 := by
  unfold enqueueCommit
  rcases enqueueOutbox_cases fernet world.key entropy now deliveries
    world.database with ⟨error, heq⟩ | ⟨hchecked, heq⟩
  · rw [heq]
    exact hcurrent
  rw [heq]
  intro row hrow
  rcases List.mem_append.mp hrow with hold | hadded
  · exact (hcurrent row hold).imp_right fun hintact => hintact.of_streams_eq rfl
  · obtain ⟨-, -, -, -, -, hpending, -⟩ := mem_insertedRows fernet hadded
    exact ⟨hpending,
      (intactUnder_insertedRows hdeliveries hchecked hadded).of_streams_eq rfl⟩

theorem settle (hcurrent : AllCurrent fernet key database) {verdict : Verdict}
    (hproceeds : proceeds verdict = true) (now : ℕ) (item : OutboxItem) :
    AllCurrent fernet key (settleItem now item verdict database) := by
  cases verdict with
  | block reason => cases hproceeds
  | cancel => cases hproceeds
  | hold => exact hcurrent.of_updatePendingItem _ fun row => ⟨rfl, rfl⟩
  | complete => exact hcurrent.of_filter _
  | retry reason => exact hcurrent.of_updatePendingItem _ fun row => ⟨rfl, rfl⟩

theorem requeue (hcurrent : AllCurrent fernet key database) (now : ℕ) :
    AllCurrent fernet key (requeueBlockedOutbox now database) := by
  refine hcurrent.of_rows rfl fun row hrow => ?_
  obtain ⟨source, hsource, rfl⟩ := List.mem_map.mp hrow
  refine ⟨source, hsource, ?_⟩
  simp [(hcurrent source hsource).1]

end AllCurrent

/-- The state of a service whose restarts keep its key. -/
structure FixedKeyInvariant (fernet : Fernet Key Entropy) (key : Key)
    (world : World Key) : Prop where
  invariant : Invariant fernet world
  key_eq : world.key = key
  current : AllCurrent fernet key world.database
  proceed : AllProceed world

theorem fixedKeyInvariant_init (key : Key) :
    FixedKeyInvariant fernet key (World.init key) where
  invariant := invariant_init key
  key_eq := rfl
  current row hrow := by simp [World.init, Database.init] at hrow
  proceed task item verdict rest htask := by cases htask

namespace FixedKeyInvariant

variable {world next : World Key}

theorem current_next (hworld : FixedKeyInvariant fernet key world)
    {database : Database} {log : List Event}
    (htransaction : Transaction fernet world key database log) :
    AllCurrent fernet key database := by
  have hcurrent := hworld.current
  cases htransaction with
  | quiet => exact hcurrent
  | restart key =>
      intro row hrow
      have hsame : (quarantineUndecryptableReceiverTokens fernet key
          world.database).setOutbox = world.database.setOutbox := by
        unfold quarantineUndecryptableReceiverTokens
        split_ifs <;> rfl
      rw [hsame] at hrow
      exact (hcurrent row hrow).imp_right fun hintact => hintact.quarantine key
  | @enqueue task deliveries now entropy htask =>
      have hholds := hworld.invariant.tasks task
      rw [htask] at hholds
      exact hcurrent.enqueue entropy now hholds
  | commit entropy htask =>
      exact hcurrent.commit hworld.invariant.sound.wellFormed.single entropy _
  | push outcome htask => exact hcurrent
  | settle htask => exact hcurrent.settle (hworld.proceed _ _ _ _ htask) _ _
  | requeueBlocked => exact hcurrent.requeue _
  | deleteBlocked => exact hcurrent.of_filter _

/-- A queued delivery is read and valid, and its stream is the stored one. -/
theorem exists_payload (hworld : FixedKeyInvariant fernet key world)
    {row : OutboxRow} (hrow : row ∈ world.database.setOutbox) :
    ∃ stored stream payload, world.database.streams = [stored] ∧
      stored.streamId = row.streamId ∧ rowToStream fernet key stored = .ok stream ∧
      decryptOutboxPayload fernet key row.toOutboxItem = .ok payload ∧
      readPayload fernet key row.toOutboxItem = .ok payload ∧
      validPayload payload = true ∧ payloadMatchesStream payload stream = true := by
  obtain ⟨-, source, stored, stream, hencoded, hstored, hread, hdelivery⟩ :=
    hworld.current row hrow
  obtain ⟨hstreams, hid⟩ :=
    streams_eq_of_streamRow hworld.invariant.sound.wellFormed.single hstored
  obtain ⟨eventUri, token, hdecrypt, hpayload⟩ :=
    readPayload_of_encodedFor row.toOutboxItem hencoded
  exact ⟨stored, stream, _, hstreams, hid, hread, hdecrypt, hpayload,
    validPayload_deliveryPayload source eventUri token,
    (payloadMatchesStream_deliveryPayload_iff source stream eventUri token).mpr
      hdelivery⟩

/-- A delivery that is read again is not blocked. -/
theorem readPayload_ne_error (hworld : FixedKeyInvariant fernet key world)
    {item : OutboxItem} (hqueued : Queued world.database item) (verdict : Verdict) :
    readPayload fernet world.key item ≠ .error verdict := by
  obtain ⟨row, hrow, rfl, -⟩ := hqueued
  obtain ⟨-, -, payload, -, -, -, -, hread, -⟩ := hworld.exists_payload hrow
  rw [hworld.key_eq, hread]
  exact nofun

/-- A delivery whose stream is read again is not cancelled. -/
theorem routeItem_ne_cancel (hworld : FixedKeyInvariant fernet key world)
    {item : OutboxItem} {payload : Dict} {found : Option Stream}
    (hqueued : Queued world.database item)
    (hpayload : readPayload fernet world.key item = .ok payload)
    (hfound : getStreamById fernet world.key item.streamId world.database =
      .ok found) : routeItem payload found ≠ .error .cancel := by
  obtain ⟨row, hrow, rfl, -⟩ := hqueued
  have hintact : Intact fernet world.database row.identity :=
    ⟨key, (hworld.current row hrow).2⟩
  exact routeItem_ne_cancel_of_intact hintact hpayload hfound

theorem proceed_next (hworld : FixedKeyInvariant fernet key world)
    {action : Action Key Entropy} (hstep : Step fernet world action next) :
    AllProceed next := by
  -- a task that rests anew decides for itself, the others keep their verdict
  have hupdate : ∀ {actor : ℕ} {rest : Task},
      (∀ item verdict items, rest = .settling item verdict items →
        proceeds verdict = true) →
      next.tasks = Function.update world.tasks actor rest → AllProceed next := by
    intro actor rest hrest htasks task item verdict items htask
    rw [htasks] at htask
    by_cases hactor : task = actor
    · rw [hactor, Function.update_self] at htask
      exact hrest item verdict items htask
    · rw [Function.update_of_ne hactor] at htask
      exact hworld.proceed task item verdict items htask
  cases hstep with
  | restart key => exact fun task item verdict rest htask => by cases htask
  | tick now => exact hworld.proceed
  | patchById streamId payload _ =>
      refine hupdate (fun item verdict items hrest => ?_) rfl
      have hlocked := congrArg Task.locked hrest
      rw [locked_afterLookup] at hlocked
      cases hlocked
  | deleteCurrent _ =>
      refine hupdate (fun item verdict items hrest => ?_) rfl
      have hlocked := congrArg Task.locked hrest
      rw [locked_afterLookup] at hlocked
      cases hlocked
  | @reread actor item rest htask =>
      refine hupdate (fun settled verdict items hrest => ?_) rfl
      rcases hcurrent : getDueOutboxItem world.clock item.id world.database with
        _ | current
      · simp [afterReread, hcurrent] at hrest
      rcases hread : readPayload fernet world.key current with verdict' | payload
      · exact absurd hread
          (hworld.readPayload_ne_error (queued_of_getDueOutboxItem hcurrent) verdict')
      · simp [afterReread, hcurrent, hread] at hrest
  | @read actor item payload rest found htask hfound =>
      have hholds := hworld.invariant.tasks actor
      rw [htask] at hholds
      refine hupdate (fun settled verdict items hrest => ?_) rfl
      rcases hroute : routeItem payload found with verdict' | stream
      · simp only [afterRead, hroute, Task.settling.injEq] at hrest
        obtain ⟨-, rfl, -⟩ := hrest
        rcases routeItem_eq_error hroute with rfl | rfl
        · exact absurd hroute (hworld.routeItem_ne_cancel hholds.1 hholds.2 hfound)
        · rfl
      · simp [afterRead, hroute] at hrest
  | @push actor item payload stream rest outcome _ =>
      refine hupdate (fun settled verdict items hrest => ?_) rfl
      simp only [Task.settling.injEq] at hrest
      obtain ⟨-, rfl, -⟩ := hrest
      cases outcome <;> rfl
  | requeueBlocked => exact hworld.proceed
  | deleteBlocked => exact hworld.proceed
  | _ => exact hupdate (fun item verdict items hrest => by cases hrest) rfl

theorem key_next (hworld : FixedKeyInvariant fernet key world)
    {action : Action Key Entropy} (hkeeps : KeepsKey key action)
    (hstep : Step fernet world action next) : next.key = key := by
  have hkey := hworld.key_eq
  cases hstep with
  | restart restarted => exact hkeeps
  | _ => exact hkey

theorem of_step (hworld : FixedKeyInvariant fernet key world)
    {action : Action Key Entropy} (hkeeps : KeepsKey key action)
    (hstep : Step fernet world action next) : FixedKeyInvariant fernet key next where
  invariant := hworld.invariant.next hstep
  key_eq := hworld.key_next hkeeps hstep
  current := hworld.current_next (hworld.key_next hkeeps hstep ▸ hstep.transaction)
  proceed := hworld.proceed_next hstep

theorem of_path (hpath : (service fernet).Path (KeepsKey key) (World.init key) world) :
    FixedKeyInvariant fernet key world := by
  induction hpath with
  | refl => exact fixedKeyInvariant_init key
  | step _ hkeeps hstep ih => exact ih.of_step hkeeps (Step.of_step hstep)

end FixedKeyInvariant

/-- While restarts keep the key there is at most one stream, every queued delivery
is pending, can be read and matches that stream, and none is blocked or cancelled. -/
theorem queue_matches_of_fixed_key {world : World Key}
    (hpath : (service fernet).Path (KeepsKey key) (World.init key) world) :
    world.database.streams.length ≤ 1 ∧
    (∀ row ∈ world.database.setOutbox, row.status = .pending ∧
      ∃ stored stream payload, world.database.streams = [stored] ∧
        stored.streamId = row.streamId ∧
        rowToStream fernet key stored = .ok stream ∧
        decryptOutboxPayload fernet key row.toOutboxItem = .ok payload ∧
        validPayload payload = true ∧ payloadMatchesStream payload stream = true) ∧
    ∀ task item verdict rest, world.tasks task = .settling item verdict rest →
      verdict ≠ .cancel ∧ ∀ reason, verdict ≠ .block reason := by
  have hworld := FixedKeyInvariant.of_path hpath
  refine ⟨hworld.invariant.sound.wellFormed.single, fun row hrow => ?_,
    fun task item verdict rest htask => ?_⟩
  · obtain ⟨stored, stream, payload, hstreams, hid, hread, hdecrypt, -, hvalid,
      hmatches⟩ := hworld.exists_payload hrow
    exact ⟨(hworld.current row hrow).1, stored, stream, payload, hstreams, hid, hread,
      hdecrypt, hvalid, hmatches⟩
  · have hproceeds := hworld.proceed task item verdict rest htask
    constructor
    · rintro rfl
      cases hproceeds
    · rintro reason rfl
      cases hproceeds

end FixedKey

section Sample

open scoped SsfTransmitter.Python.Ascii

/-- The sample delivery at its push: one pending row, which matches the stream. -/
theorem queue_matches_sample :
    ∃ (world : World Bool) (row : OutboxRow),
      world.database.setOutbox = [row] ∧ row.status = .pending ∧
        ∃ stored stream payload, world.database.streams = [stored] ∧
          stored.streamId = row.streamId ∧
          rowToStream clearFernet true stored = .ok stream ∧
          decryptOutboxPayload clearFernet true row.toOutboxItem = .ok payload ∧
          validPayload payload = true ∧ payloadMatchesStream payload stream = true := by
  have hsave := run_save clearFernet true () sampleStream
  have hwebhook := run_webhook clearFernet true () sampleStream sampleEvent
    (ofString "user@example.com") (fun _ _ => "signed") rfl (Or.inl rfl)
  have hsaved : (service clearFernet).Path (KeepsKey true) _ _ :=
    TransitionSystem.path_of_run (by simp [KeepsKey]) hsave
  have hpath := hsaved.trans
    (TransitionSystem.path_of_run (by simp [KeepsKey]) hwebhook)
  exact ⟨_, _, rfl, (queue_matches_of_fixed_key hpath).2.1 _
    (List.mem_singleton_self _)⟩

end Sample

end SsfTransmitter.Service
