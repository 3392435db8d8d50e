import SsfTransmitter.Core.Ledger
import SsfTransmitter.Outbox.Intact
import SsfTransmitter.Service.Steps

/-!
# Invariants of the service

What holds in every state that runs reach: the tables, the account of every
queued delivery, and what each task may rely on where it rests.
-/

namespace SsfTransmitter.Service

open SsfTransmitter.Core
open SsfTransmitter.Python
open SsfTransmitter.Store
open SsfTransmitter.Outbox

/-! ## The account of queued deliveries -/

/-- The commit of an enqueueing admits its items. -/
def admits : Event → ItemIdentity → Prop
  | .enqueued items, item => item ∈ items
  | _, _ => False

/-- A push that the receiver accepted. -/
def delivers : Event → ItemIdentity → Prop
  | .pushed pushed true, item => pushed = item
  | _, _ => False

/-- A change of the delivery configuration of the item's stream. -/
def reconfigures : Event → ItemIdentity → Prop
  | .saved, _ => True
  | .deleted streamId, item => item.streamId = streamId
  | .reconfigured streamId, item => item.streamId = streamId
  | _, _ => False

/-- An operator's discard of the item while it was pending or blocked. -/
def discards : Event → ItemIdentity → Prop
  | .discardedPending items, item => item ∈ items
  | .discardedBlocked items, item => item ∈ items
  | _, _ => False

/-- The events that may take an item from the queue. -/
def excuses (event : Event) (item : ItemIdentity) : Prop :=
  delivers event item ∨ reconfigures event item ∨ discards event item

section Invariants

variable {Key Entropy : Type*} (fernet : Fernet Key Entropy) [PyRuntime]

/-- What holds of the key, the tables and the log. -/
structure Sound (key : Key) (database : Database) (log : List Event) : Prop where
  wellFormed : database.WellFormed
  readable : database.Readable fernet key
  intact : Accounted admits reconfigures
    (fun item => item ∈ database.stored → Intact fernet database item) log
  kept : Accounted admits excuses (fun item => item ∈ database.stored) log

/-- The item is a pending row, read as it is stored. -/
def Queued (database : Database) (item : OutboxItem) : Prop :=
  ∃ row ∈ database.setOutbox, row.toOutboxItem = item ∧ row.status = .pending

/-- What a task relies on where it rests. -/
def TaskHolds (world : World Key) : Task → Prop
  | .enqueuing deliveries | .stamped deliveries _ => ∀ delivery ∈ deliveries,
      ∃ eventUri token, delivery.2 = deliveryPayload delivery.1 eventUri token
  | .reading item payload _ => Queued world.database item ∧
      readPayload fernet world.key item = .ok payload
  | .pushing item payload stream _ => Queued world.database item ∧
      readPayload fernet world.key item = .ok payload ∧
      getStreamById fernet world.key item.streamId world.database =
        .ok (some stream) ∧
      routeItem payload (some stream) = .ok stream
  | .settling item verdict _ => Queued world.database item ∧
      (verdict = .cancel →
        Accounted admits reconfigures (· ≠ item.identity) world.log) ∧
      (verdict = .complete →
        Accounted admits delivers (· ≠ item.identity) world.log)
  | _ => True

structure Invariant (world : World Key) : Prop where
  lock : LockDiscipline world
  sound : Sound fernet world.key world.database world.log
  tasks : ∀ task, TaskHolds fernet world (world.tasks task)

variable {fernet}

omit [PyRuntime] in
theorem Queued.mem_stored {database : Database} {item : OutboxItem}
    (hitem : Queued database item) : item.identity ∈ database.stored := by
  obtain ⟨row, hrow, rfl, -⟩ := hitem
  exact mem_stored_of_mem hrow

omit [PyRuntime] in
theorem queued_of_getDueOutboxItem {now itemId : ℕ} {database : Database}
    {item : OutboxItem} (hitem : getDueOutboxItem now itemId database = some item) :
    Queued database item := by
  obtain ⟨row, hrow, rfl⟩ := Option.map_eq_some_iff.mp hitem
  have hfound := List.find?_some hrow
  simp only [OutboxRow.isDue, Bool.and_eq_true, decide_eq_true_eq] at hfound
  exact ⟨row, List.mem_of_find?_eq_some hrow, rfl, hfound.2.1⟩

/-! ## Each transaction keeps the tables and the account -/

section Sound

variable {key : Key} {database : Database} {log : List Event}

theorem sound_init (key : Key) : Sound fernet key Database.init [] where
  wellFormed := wellFormed_init
  readable := readable_init
  intact := Accounted.nil
  kept := Accounted.nil

theorem Sound.quarantine (hsound : Sound fernet key database log) (next : Key) :
    Sound fernet next (quarantineUndecryptableReceiverTokens fernet next database)
      log where
  wellFormed := hsound.wellFormed.quarantine next
  readable := hsound.readable.quarantine next
  intact := hsound.intact.mono fun item hintact hstored =>
    (hintact (by rwa [stored_quarantine] at hstored)).imp fun _ hunder =>
      hunder.quarantine next
  kept := hsound.kept.mono fun item hstored => by rwa [stored_quarantine]

/-- A step that only takes rows from the queue, and only those that its event
excuses. -/
theorem Sound.shrink (hsound : Sound fernet key database log) {next : Database}
    {event : Event} (hstreams : next.streams = database.streams)
    (hcounter : next.nextOutboxId = database.nextOutboxId)
    (hstored : next.stored.Sublist database.stored)
    (hadmits : ∀ item, ¬admits event item)
    (hexcuses : ∀ item ∈ database.stored,
      item ∈ next.stored ∨ excuses event item) :
    Sound fernet key next (log ++ [event]) where
  wellFormed := hsound.wellFormed.of_sublist
    (hstreams ▸ hsound.wellFormed.single) hstored hcounter
  readable := hsound.readable.of_subset (by rw [hstreams]; exact List.Subset.refl _)
  intact := hsound.intact.snoc_of_not_admits hadmits fun item hintact =>
    Or.inl fun hitem => (hintact (hstored.subset hitem)).of_streams_eq hstreams
  kept := hsound.kept.snoc_of_not_admits hadmits hexcuses

/-- A step that keeps the identities of all rows. -/
theorem Sound.same (hsound : Sound fernet key database log) {next : Database}
    (hstreams : next.streams = database.streams)
    (hcounter : next.nextOutboxId = database.nextOutboxId)
    (hstored : next.stored = database.stored) : Sound fernet key next log where
  wellFormed := hsound.wellFormed.of_sublist
    (hstreams ▸ hsound.wellFormed.single) (hstored ▸ List.Sublist.refl _) hcounter
  readable := hsound.readable.of_subset (by rw [hstreams]; exact List.Subset.refl _)
  intact := hsound.intact.mono fun item hintact hitem =>
    (hintact (hstored ▸ hitem)).of_streams_eq hstreams
  kept := hsound.kept.mono fun item hitem => hstored ▸ hitem

theorem Sound.save (hsound : Sound fernet key database log) (entropy : Entropy)
    (stream : Stream) :
    Sound fernet key (saveStream fernet key entropy stream database)
      (log ++ [.saved]) where
  wellFormed := hsound.wellFormed.save key entropy stream
  readable := .save entropy stream
  intact := hsound.intact.snoc_of_not_admits (fun _ => id) fun _ _ =>
    Or.inr trivial
  kept := hsound.kept.snoc_of_not_admits (fun _ => id) fun _ _ =>
    Or.inr (Or.inr (Or.inl trivial))

theorem Sound.delete (hsound : Sound fernet key database log)
    (streamId : String) :
    Sound fernet key (deleteStreamById streamId database).2
      (log ++ if (deleteStreamById streamId database).1 then [.deleted streamId]
        else []) := by
  have hwellFormed := hsound.wellFormed.delete streamId
  by_cases hfound : (deleteStreamById streamId database).1 = true
  · rw [if_pos hfound]
    have hsubset : (deleteStreamById streamId database).2.streams ⊆
        database.streams := by
      unfold deleteStreamById
      split_ifs
      · exact List.filter_subset_self _
      · exact List.Subset.refl _
    refine ⟨hwellFormed, hsound.readable.of_subset hsubset, ?_, ?_⟩
    · refine hsound.intact.snoc_of_not_admits (fun _ => id) fun item hintact => ?_
      by_cases hid : item.streamId = streamId
      · exact Or.inr hid
      · refine Or.inl fun hitem => ?_
        have hstored := (stored_deleteStreamById_sublist streamId).subset hitem
        exact (hintact hstored).imp fun _ hunder => hunder.delete hid
    · refine hsound.kept.snoc_of_not_admits (fun _ => id) fun item hitem => ?_
      exact (mem_stored_deleteStreamById streamId hitem).imp_right fun htaken =>
        Or.inr (Or.inl htaken.2)
  · have hsame : (deleteStreamById streamId database).2 = database := by
      unfold deleteStreamById at hfound ⊢
      split_ifs at hfound ⊢
      · simp at hfound
      · rfl
    simpa [hfound, hsame] using hsound

/-- The events of an update are those of the stream that it patches. -/
theorem commit_update_cases (hsingle : database.streams.length ≤ 1)
    (entropy : Entropy) (requestedId : Option String) (payload : StreamPayload) :
    ((LockedOperation.update requestedId payload).commit fernet key entropy
        database).2 = (database, []) ∨
    ∃ row stream eventsRequested, database.streams = [row] ∧
      rowToStream fernet key row = .ok stream ∧
      ((LockedOperation.update requestedId payload).commit fernet key entropy
          database).2 =
        ({ database with
            setOutbox := outboxAfterUpdate stream
              (patchedStream payload stream eventsRequested) database.setOutbox
            streams := [patchedRow fernet key entropy payload row
              (patchedStream payload stream eventsRequested)] },
          reconfiguration payload stream
            (patchedStream payload stream eventsRequested)) := by
  rcases updateStream_cases fernet hsingle key entropy payload with
    ⟨hsame, hresult⟩ | ⟨row, stream, uris, hstreams, hread, -, -, hupdate⟩
  · refine Or.inl (Prod.ext hsame ?_)
    simp only [LockedOperation.commit]
    split
    next _ updated _ hupdated => exact absurd hupdated (hresult updated)
    next => rfl
  · refine Or.inr ⟨row, stream, uris, hstreams, hread, ?_⟩
    simp [LockedOperation.commit, hupdate, getFirstStream_of_singleton fernet hstreams,
      hread, Except.map]

theorem Sound.update (hsound : Sound fernet key database log) (entropy : Entropy)
    (requestedId : Option String) (payload : StreamPayload) :
    Sound fernet key
      ((LockedOperation.update requestedId payload).commit fernet key entropy
        database).2.1
      (log ++ ((LockedOperation.update requestedId payload).commit fernet key entropy
        database).2.2) := by
  have hwellFormed : (updateStream fernet key entropy payload
      database).2.WellFormed := hsound.wellFormed.update key entropy payload
  have hreadable := hsound.readable.update hsound.wellFormed.single entropy payload
  have hfirst : ((LockedOperation.update requestedId payload).commit fernet key
      entropy database).2.1 = (updateStream fernet key entropy payload database).2 :=
    rfl
  rw [← hfirst] at hwellFormed hreadable
  rcases commit_update_cases hsound.wellFormed.single entropy requestedId payload with
    hnothing | ⟨row, stream, uris, hstreams, hread, hpatch⟩
  · rw [hnothing]
    simpa using hsound
  rw [hpatch] at hwellFormed hreadable ⊢
  set updated := patchedStream payload stream uris with hupdated
  by_cases hchanged : updated.aud ≠ stream.aud ∨
      updated.endpointUrl ≠ stream.endpointUrl ∨
      updated.eventsRequested ≠ stream.eventsRequested ∨
      (replacementEndpointToken payload).isSome
  · rw [reconfiguration, if_pos hchanged]
    refine ⟨hwellFormed, hreadable, ?_, ?_⟩
    · refine hsound.intact.snoc_of_not_admits (fun _ => id) fun item hintact => ?_
      by_cases hid : item.streamId = stream.streamId
      · exact Or.inr hid
      · refine Or.inl fun hitem => ?_
        have hstored := (stored_outboxAfterUpdate_sublist stream updated
          database.setOutbox).subset hitem
        exact (hintact hstored).imp fun _ hunder =>
          hunder.update _ hstreams hread fun heq => absurd heq hid
    · refine hsound.kept.snoc_of_not_admits (fun _ => id) fun item hitem => ?_
      exact (mem_outboxAfterUpdate hitem).imp_right fun htaken =>
        Or.inr (Or.inl htaken.2)
  · rw [reconfiguration, if_neg hchanged, List.append_nil]
    push Not at hchanged
    obtain ⟨haud, hurl, huris, hreplacement⟩ := hchanged
    have hnone : replacementEndpointToken payload = none := by
      simpa using hreplacement
    have hdelivery : updated.delivery = stream.delivery := by
      have htoken : updated.endpointToken = stream.endpointToken := by
        simp [hupdated, patchedStream, hnone]
      simp [Stream.delivery, haud, hurl, huris, htoken]
    refine ⟨hwellFormed, hreadable, ?_, ?_⟩
    · refine hsound.intact.mono fun item hintact hitem => ?_
      have hstored := (stored_outboxAfterUpdate_sublist stream updated
        database.setOutbox).subset hitem
      exact (hintact hstored).imp fun _ hunder =>
        hunder.update _ hstreams hread fun _ => ⟨haud, hurl, huris, hnone⟩
    · refine hsound.kept.mono fun item hitem => ?_
      exact (mem_outboxAfterUpdate hitem).resolve_right fun htaken =>
        htaken.1 hdelivery

/-- Every locked operation keeps the account. -/
theorem Sound.commit (hsound : Sound fernet key database log) (entropy : Entropy)
    (operation : LockedOperation) :
    Sound fernet key (operation.commit fernet key entropy database).2.1
      (log ++ (operation.commit fernet key entropy database).2.2) := by
  cases operation with
  | save stream => exact hsound.save entropy stream
  | update requestedId payload => exact hsound.update entropy requestedId payload
  | delete streamId => exact hsound.delete streamId
  | discardPending =>
      exact hsound.shrink rfl rfl stored_deletePendingOutbox_sublist
        (fun _ => id) fun item hitem =>
          (mem_stored_filter_status .pending hitem).imp_right fun hpending =>
            Or.inr (Or.inr hpending)

/-- New rows are intact: they were queued for the stream as it is stored. -/
theorem Sound.enqueue {world : World Key}
    (hsound : Sound fernet world.key world.database world.log)
    (entropy : ℕ → Entropy) {deliveries : List (Stream × Dict)} (now : ℕ)
    (hdeliveries : ∀ delivery ∈ deliveries, ∃ eventUri token,
      delivery.2 = deliveryPayload delivery.1 eventUri token) :
    Sound fernet world.key (enqueueCommit fernet entropy deliveries now world).1
      (world.log ++ (enqueueCommit fernet entropy deliveries now world).2) := by
  have hwellFormed := hsound.wellFormed.enqueue fernet world.key entropy now deliveries
  unfold enqueueCommit
  rcases enqueueOutbox_cases fernet world.key entropy now deliveries
    world.database with ⟨error, heq⟩ | ⟨hcurrent, heq⟩
  · rw [heq]
    simpa using hsound
  rw [heq] at hwellFormed ⊢
  set rows := insertedRows fernet world.key entropy now
    world.database.nextOutboxId deliveries with hrows
  have hnew : ∀ item ∈ rows.map (fun row => row.identity),
      Intact fernet world.database item := by
    intro item hitem
    obtain ⟨row, hrow, rfl⟩ := List.mem_map.mp hitem
    exact ⟨world.key, intactUnder_insertedRows hdeliveries hcurrent hrow⟩
  refine ⟨hwellFormed, hsound.readable.of_subset (List.Subset.refl _), ?_, ?_⟩
  · refine hsound.intact.snoc (fun item hitem _ => (hnew item hitem).of_streams_eq rfl)
      fun item hintact => Or.inl fun hitem => ?_
    simp only [Database.stored, List.map_append, List.mem_append] at hitem
    rcases hitem with hold | hadded
    · exact (hintact hold).of_streams_eq rfl
    · exact (hnew item hadded).of_streams_eq rfl
  · refine hsound.kept.snoc (fun item hitem => ?_) fun item hitem => Or.inl ?_
    · simp only [Database.stored, List.map_append, List.mem_append]
      exact Or.inr hitem
    · simp only [Database.stored, List.map_append, List.mem_append]
      exact Or.inl hitem

/-- A delivery takes its row only after an accepted push or a change of the
stream. -/
theorem Sound.settle {world : World Key}
    (hsound : Sound fernet world.key world.database world.log) {item : OutboxItem}
    {verdict : Verdict} {rest : List OutboxItem}
    (hholds : TaskHolds fernet world (.settling item verdict rest)) :
    Sound fernet world.key (settleItem world.clock item verdict world.database)
      world.log := by
  obtain ⟨hqueued, hcancel, hcomplete⟩ := hholds
  have htake : ∀ event : Event → ItemIdentity → Prop,
      (∀ entry queued, event entry queued → excuses entry queued) →
      Accounted admits event (· ≠ item.identity) world.log →
      Sound fernet world.key (deletePendingItem item.id world.database)
        world.log := by
    intro event hevent haccount
    refine ⟨hsound.wellFormed.of_sublist hsound.wellFormed.single
        (stored_deletePendingItem_sublist _) rfl,
      hsound.readable.of_subset (List.Subset.refl _), ?_, ?_⟩
    · exact hsound.intact.mono fun other hintact hother => (hintact
        ((stored_deletePendingItem_sublist _).subset hother)).of_streams_eq rfl
    · refine (hsound.kept.and (haccount.imp_excuses hevent)).mono fun other hother => ?_
      refine (mem_stored_deletePendingItem item.id hother.1).resolve_right
        fun hid => hother.2 ?_
      exact hsound.wellFormed.eq_of_id_eq hother.1 hqueued.mem_stored hid
  cases verdict with
  | block reason => exact hsound.same rfl rfl (stored_blockOutboxItem _ _)
  | cancel =>
      exact htake reconfigures (fun _ _ hevent => Or.inr (Or.inl hevent)) (hcancel rfl)
  | hold => exact hsound.same rfl rfl (stored_retryOutboxItem _ _ _ _)
  | complete =>
      exact htake delivers (fun _ _ hevent => Or.inl hevent) (hcomplete rfl)
  | retry reason => exact hsound.same rfl rfl (stored_retryOutboxItem _ _ _ _)

end Sound

/-- No transaction loses the account. -/
theorem Invariant.sound_next {world : World Key} (hworld : Invariant fernet world)
    {key : Key} {database : Database} {log : List Event}
    (htransaction : Transaction fernet world key database log) :
    Sound fernet key database log := by
  have hsound := hworld.sound
  cases htransaction with
  | quiet => exact hsound
  | restart key => exact hsound.quarantine key
  | @enqueue task deliveries now entropy htask =>
      have hholds := hworld.tasks task
      rw [htask] at hholds
      exact hsound.enqueue entropy now hholds
  | commit entropy htask => exact hsound.commit entropy _
  | @push task item payload stream rest outcome htask =>
      exact hsound.shrink rfl rfl (List.Sublist.refl _) (fun _ => id)
        fun _ hstored => Or.inl hstored
  | @settle task item verdict rest htask =>
      have hholds := hworld.tasks task
      rw [htask] at hholds
      exact hsound.settle hholds
  | requeueBlocked => exact hsound.same rfl rfl (stored_requeueBlockedOutbox _)
  | deleteBlocked =>
      exact hsound.shrink rfl rfl stored_deleteBlockedOutbox_sublist (fun _ => id)
        fun item hitem =>
          (mem_stored_filter_status .blocked hitem).imp_right fun hblocked =>
            Or.inr (Or.inr hblocked)

/-! ## Each step keeps what the tasks rely on -/

section Tasks

variable {world next : World Key}

/-- A task outside its locked section relies on nothing in the tables. -/
theorem TaskHolds.of_unlocked {task : Task} (htask : TaskHolds fernet world task)
    (hunlocked : task.locked = false) : TaskHolds fernet next task := by
  cases task <;> first | exact htask | trivial

/-- What steps outside the lock do to a world. -/
structure Undisturbed (world next : World Key) : Prop where
  key : next.key = world.key
  streams : next.database.streams = world.database.streams
  queued : ∀ item, Queued world.database item → Queued next.database item
  account : ∀ (excuse : Event → ItemIdentity → Prop) (item : OutboxItem),
    Queued world.database item →
    Accounted admits excuse (· ≠ item.identity) world.log →
    Accounted admits excuse (· ≠ item.identity) next.log

omit [PyRuntime] in
theorem Undisturbed.of_eq (hkey : next.key = world.key)
    (hdatabase : next.database = world.database) (hlog : next.log = world.log) :
    Undisturbed world next where
  key := hkey
  streams := by rw [hdatabase]
  queued item hitem := by rwa [hdatabase]
  account excuse item _ haccount := by rwa [hlog]

theorem TaskHolds.undisturbed {task : Task} (htask : TaskHolds fernet world task)
    (hnext : Undisturbed world next) : TaskHolds fernet next task := by
  have hread : ∀ streamId, getStreamById fernet world.key streamId next.database =
      getStreamById fernet world.key streamId world.database := by
    intro streamId
    simp only [getStreamById, streamRow, hnext.streams]
  cases task with
  | enqueuing deliveries => exact htask
  | stamped deliveries now => exact htask
  | reading item payload rest =>
      obtain ⟨hqueued, hpayload⟩ := htask
      exact ⟨hnext.queued item hqueued, by rwa [hnext.key]⟩
  | pushing item payload stream rest =>
      obtain ⟨hqueued, hpayload, hstream, hroute⟩ := htask
      refine ⟨hnext.queued item hqueued, by rwa [hnext.key], ?_, hroute⟩
      rw [hnext.key, hread]
      exact hstream
  | settling item verdict rest =>
      obtain ⟨hqueued, hcancel, hcomplete⟩ := htask
      exact ⟨hnext.queued item hqueued,
        fun hverdict => hnext.account _ item hqueued (hcancel hverdict),
        fun hverdict => hnext.account _ item hqueued (hcomplete hverdict)⟩
  | _ => trivial

omit [PyRuntime] in
theorem Queued.requeueBlocked {database : Database} {item : OutboxItem}
    (hitem : Queued database item) (now : ℕ) :
    Queued (requeueBlockedOutbox now database) item := by
  obtain ⟨row, hrow, hidentity, hstatus⟩ := hitem
  refine ⟨row, List.mem_map.mpr ⟨row, hrow, ?_⟩, hidentity, hstatus⟩
  simp [hstatus]

omit [PyRuntime] in
theorem Queued.deleteBlocked {database : Database} {item : OutboxItem}
    (hitem : Queued database item) : Queued (deleteBlockedOutbox database) item := by
  obtain ⟨row, hrow, hidentity, hstatus⟩ := hitem
  exact ⟨row, List.mem_filter.mpr ⟨hrow, by simp [hstatus]⟩, hidentity, hstatus⟩

/-- Enqueueing adds rows under ids that no task holds. -/
theorem undisturbed_enqueue (hworld : world.database.WellFormed) (task : ℕ)
    (entropy : ℕ → Entropy) (deliveries : List (Stream × Dict)) (now : ℕ) :
    Undisturbed world (world.transact task .idle
      (enqueueCommit fernet entropy deliveries now world).1
      (enqueueCommit fernet entropy deliveries now world).2) := by
  unfold enqueueCommit
  rcases enqueueOutbox_cases fernet world.key entropy now deliveries
    world.database with ⟨error, heq⟩ | ⟨-, heq⟩
  · rw [heq]
    exact .of_eq rfl rfl (by simp [World.transact])
  rw [heq]
  refine ⟨rfl, rfl, fun item hitem => ?_, fun excuse item hitem haccount => ?_⟩
  · obtain ⟨row, hrow, hidentity, hstatus⟩ := hitem
    exact ⟨row, List.mem_append_left _ hrow, hidentity, hstatus⟩
  · refine haccount.snoc (fun other hother heq => ?_) fun other hother => Or.inl hother
    obtain ⟨row, hrow, hrowIdentity⟩ := List.mem_map.mp hother
    obtain ⟨-, -, -, -, -, -, hlow, -⟩ := mem_insertedRows fernet hrow
    have hbelow := hworld.below _ hitem.mem_stored
    rw [← heq, ← hrowIdentity] at hbelow
    exact absurd hlow (Nat.not_le.mpr hbelow)

/-- The steps that leave the tables and the log alone disturb no other task, and
neither do the transactions outside the lock. -/
theorem Invariant.undisturbed (hworld : Invariant fernet world)
    {action : Action Key Entropy} (hstep : Step fernet world action next)
    {task : ℕ} (hlocked : (world.tasks task).locked = true)
    (hsame : next.tasks task = world.tasks task) : Undisturbed world next := by
  have hother : ∀ actor rest, (world.tasks actor).locked = true →
      next.tasks = Function.update world.tasks actor rest →
      rest = world.tasks actor := by
    intro actor rest hactor htasks
    obtain rfl := hworld.lock.eq_of_locked hlocked hactor
    rw [htasks, Function.update_self] at hsame
    exact hsame
  cases hstep with
  | restart key =>
      rw [← hsame] at hlocked
      simp [restart, Task.locked] at hlocked
  | enqueue entropy htask =>
      exact undisturbed_enqueue hworld.sound.wellFormed _ entropy _ _
  | commit entropy htask =>
      have heq := hother _ _ (by rw [htask]; rfl) rfl
      rw [htask] at heq
      cases heq
  | push outcome htask =>
      have heq := hother _ _ (by rw [htask]; rfl) rfl
      rw [htask] at heq
      cases heq
  | settle htask =>
      have heq := hother _ _ (by rw [htask]; rfl) rfl
      rw [htask] at heq
      cases heq
  | requeueBlocked =>
      exact ⟨rfl, rfl, fun item hitem => hitem.requeueBlocked _,
        fun _ _ _ haccount => haccount⟩
  | deleteBlocked =>
      exact ⟨rfl, rfl, fun item hitem => hitem.deleteBlocked,
        fun _ _ _ haccount => haccount.snoc_of_not_admits (fun _ => id)
          fun _ hother => Or.inl hother⟩
  | _ => exact .of_eq rfl rfl rfl

/-- A task that a step does not move keeps what it relies on. -/
theorem Invariant.tasks_of_eq (hworld : Invariant fernet world)
    {action : Action Key Entropy} (hstep : Step fernet world action next) {task : ℕ}
    (hsame : next.tasks task = world.tasks task) :
    TaskHolds fernet next (next.tasks task) := by
  rw [hsame]
  rcases hlocked : (world.tasks task).locked with _ | _
  · exact (hworld.tasks task).of_unlocked hlocked
  · exact (hworld.tasks task).undisturbed (hworld.undisturbed hstep hlocked hsame)

/-- The tasks of a step: the acting one where it now rests, the others as they
were. -/
theorem Invariant.tasks_of_update (hworld : Invariant fernet world)
    {action : Action Key Entropy} (hstep : Step fernet world action next)
    {actor : ℕ} {rest : Task}
    (htasks : next.tasks = Function.update world.tasks actor rest)
    (hrest : TaskHolds fernet next rest) (task : ℕ) :
    TaskHolds fernet next (next.tasks task) := by
  by_cases hactor : task = actor
  · rw [htasks, hactor, Function.update_self]
    exact hrest
  · exact hworld.tasks_of_eq hstep (by rw [htasks, Function.update_of_ne hactor])

omit [PyRuntime] in
theorem exists_deliveryPayload_of_mem_enqueueEvents
    {sign : ℕ → SetClaims → String} {streams : List Stream}
    {events : List MappedEvent} {email : PyStr} {delivery : Stream × Dict}
    (hdelivery : delivery ∈ enqueueEvents sign streams events email) :
    ∃ eventUri token, delivery.2 = deliveryPayload delivery.1 eventUri token := by
  obtain ⟨index, hindex, rfl⟩ := List.mem_mapIdx.mp hdelivery
  exact ⟨_, _, rfl⟩

theorem readPayload_eq_error {key : Key} {item : OutboxItem} {verdict : Verdict}
    (hread : readPayload fernet key item = .error verdict) :
    ∃ reason, verdict = .block reason := by
  unfold readPayload at hread
  split at hread
  · exact ⟨_, (Except.error.inj hread).symm⟩
  · split_ifs at hread
    exact ⟨_, (Except.error.inj hread).symm⟩

omit [PyRuntime] in
theorem routeItem_eq_error {payload : Dict} {found : Option Stream}
    {verdict : Verdict} (hroute : routeItem payload found = .error verdict) :
    verdict = .cancel ∨ verdict = .hold := by
  unfold routeItem at hroute
  split at hroute
  · exact Or.inl (Except.error.inj hroute).symm
  · split_ifs at hroute
    · exact Or.inl (Except.error.inj hroute).symm
    · exact Or.inr (Except.error.inj hroute).symm

omit [PyRuntime] in
/-- A delivery goes on to its push only with the stored stream, enabled and as
the payload has it. -/
theorem routeItem_eq_ok {payload : Dict} {found : Option Stream} {stream : Stream}
    (hroute : routeItem payload found = .ok stream) :
    found = some stream ∧ payloadMatchesStream payload stream = true ∧
      stream.status = .enabled := by
  unfold routeItem at hroute
  split at hroute
  · cases hroute
  · split_ifs at hroute with hmatches hstatus
    obtain rfl := Except.ok.inj hroute
    exact ⟨rfl, by simpa using hmatches, by simpa using hstatus⟩

theorem taskHolds_afterLookup (current : Except StoreError (Option Stream))
    (matching : Stream → Bool) (operation : Stream → LockedOperation) :
    TaskHolds fernet world (afterLookup current matching operation) := by
  unfold afterLookup
  split
  · split_ifs <;> trivial
  · trivial

variable (fernet world) in
theorem taskHolds_afterReread (rest : List OutboxItem) (itemId : ℕ) :
    TaskHolds fernet world (afterReread fernet world.key rest
      (getDueOutboxItem world.clock itemId world.database)) := by
  rcases hcurrent : getDueOutboxItem world.clock itemId world.database with
    _ | current
  · trivial
  have hqueued := queued_of_getDueOutboxItem hcurrent
  rcases hread : readPayload fernet world.key current with verdict | payload
  · obtain ⟨reason, rfl⟩ := readPayload_eq_error hread
    simp only [afterReread, hread]
    exact ⟨hqueued, nofun, nofun⟩
  · simp only [afterReread, hread]
    exact ⟨hqueued, hread⟩

/-- Only a delivery whose stream was reconfigured is cancelled. -/
theorem Invariant.taskHolds_afterRead (hworld : Invariant fernet world)
    {item : OutboxItem} {payload : Dict} {found : Option Stream}
    (rest : List OutboxItem) (hqueued : Queued world.database item)
    (hpayload : readPayload fernet world.key item = .ok payload)
    (hfound : getStreamById fernet world.key item.streamId world.database =
      .ok found) :
    TaskHolds fernet world (afterRead item payload rest found) := by
  rcases hroute : routeItem payload found with verdict | stream
  · simp only [afterRead, hroute]
    refine ⟨hqueued, fun hcancel => ?_, fun hcomplete => ?_⟩
    · subst hcancel
      refine hworld.sound.intact.mono fun other hintact heq => ?_
      subst heq
      exact routeItem_ne_cancel_of_intact (hintact hqueued.mem_stored) hpayload hfound
        hroute
    · rcases routeItem_eq_error hroute with rfl | rfl <;> cases hcomplete
  · simp only [afterRead, hroute]
    obtain ⟨rfl, -⟩ := routeItem_eq_ok hroute
    exact ⟨hqueued, hpayload, hfound, hroute⟩

omit [PyRuntime] in
theorem accounted_of_delivered (item : ItemIdentity) (log : List Event) :
    Accounted admits delivers (· ≠ item) (log ++ [.pushed item true]) := by
  have hall : Accounted admits delivers (fun _ => True) log :=
    fun _ _ _ _ _ _ => Or.inl trivial
  refine hall.snoc_of_not_admits (fun _ => id) fun other _ => ?_
  by_cases heq : item = other
  · exact Or.inr heq
  · exact Or.inl (Ne.symm heq)

theorem Invariant.tasks_next (hworld : Invariant fernet world)
    {action : Action Key Entropy} (hstep : Step fernet world action next)
    (task : ℕ) : TaskHolds fernet next (next.tasks task) := by
  have hmoved := hstep
  cases hstep with
  | restart key => trivial
  | tick now => exact hworld.tasks_of_eq hmoved rfl
  | webhook _ _ =>
      refine hworld.tasks_of_update hmoved rfl (fun delivery hdelivery => ?_) task
      exact exists_deliveryPayload_of_mem_enqueueEvents hdelivery
  | @stamp actor deliveries htask =>
      have hholds := hworld.tasks actor
      rw [htask] at hholds
      exact hworld.tasks_of_update hmoved rfl hholds task
  | enqueue entropy _ => exact hworld.tasks_of_update hmoved rfl trivial task
  | request _ _ => exact hworld.tasks_of_update hmoved rfl trivial task
  | patchById streamId payload _ =>
      exact hworld.tasks_of_update hmoved rfl (taskHolds_afterLookup ..) task
  | deleteCurrent _ =>
      exact hworld.tasks_of_update hmoved rfl (taskHolds_afterLookup ..) task
  | acquireOperation _ _ => exact hworld.tasks_of_update hmoved rfl trivial task
  | acquireItem _ _ => exact hworld.tasks_of_update hmoved rfl trivial task
  | commit entropy _ => exact hworld.tasks_of_update hmoved rfl trivial task
  | releaseOperation _ => exact hworld.tasks_of_update hmoved rfl trivial task
  | releaseItem _ => exact hworld.tasks_of_update hmoved rfl trivial task
  | startDelivery _ => exact hworld.tasks_of_update hmoved rfl trivial task
  | @reread actor item rest _ =>
      have hrest := taskHolds_afterReread fernet world rest item.id
      refine hworld.tasks_of_update hmoved rfl (hrest.undisturbed ?_) task
      exact .of_eq rfl rfl rfl
  | @read actor item payload rest stream htask hstream =>
      have hholds := hworld.tasks actor
      rw [htask] at hholds
      have hrest := hworld.taskHolds_afterRead rest hholds.1 hholds.2 hstream
      refine hworld.tasks_of_update hmoved rfl (hrest.undisturbed ?_) task
      exact .of_eq rfl rfl rfl
  | readFailed _ => exact hworld.tasks_of_update hmoved rfl trivial task
  | @push actor item payload stream rest outcome htask =>
      have hholds := hworld.tasks actor
      rw [htask] at hholds
      refine hworld.tasks_of_update hmoved rfl ⟨hholds.1, ?_, ?_⟩ task
      · intro hverdict
        cases outcome <;> cases hverdict
      · intro hverdict
        cases outcome with
        | delivered => exact accounted_of_delivered item.identity world.log
        | _ => cases hverdict
  | settle _ => exact hworld.tasks_of_update hmoved rfl trivial task
  | requeueBlocked => exact hworld.tasks_of_eq hmoved rfl
  | deleteBlocked => exact hworld.tasks_of_eq hmoved rfl
  | abort actor => exact hworld.tasks_of_update hmoved rfl trivial task

end Tasks

/-! ## Every reachable state -/

theorem invariant_init (key : Key) : Invariant fernet (World.init key) where
  lock task := by simp [World.init, Task.locked]
  sound := sound_init key
  tasks _ := trivial

theorem Invariant.next {world next : World Key} (hworld : Invariant fernet world)
    {action : Action Key Entropy} (hstep : Step fernet world action next) :
    Invariant fernet next where
  lock := hworld.lock.next hstep
  sound := hworld.sound_next hstep.transaction
  tasks := hworld.tasks_next hstep

theorem invariant_of_reachable {world : World Key}
    (hworld : (service fernet).Reachable world) : Invariant fernet world := by
  refine hworld.invariant ?_ fun source action target _ hsource _ hstep => ?_
  · rintro start ⟨key, rfl⟩
    exact invariant_init key
  · exact hsource.next (Step.of_step hstep)

end Invariants

end SsfTransmitter.Service
