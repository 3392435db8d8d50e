import SsfTransmitter.Service.Loss

/-!
# Back-off of queued deliveries

Every exit of `_deliver_item` takes the item from the queue, blocks it or puts its
next attempt off.  Until then nothing attempts the item again, unless its stream is
resumed.
-/

namespace SsfTransmitter.Service

open SsfTransmitter.Core
open SsfTransmitter.Python
open SsfTransmitter.Store
open SsfTransmitter.Outbox

/-! ## What a delivery leaves of its row -/

section Rows

/-- The row with an id. -/
def storedRow (itemId : ℕ) (database : Database) : Option OutboxRow :=
  database.setOutbox.find? fun row => row.id = itemId

/-- What a verdict leaves of a pending row. -/
def rowAfter (now : ℕ) (row : OutboxRow) : Verdict → Option OutboxRow
  | .cancel | .complete => none
  | .block reason => some { row with status := .blocked, lastError := some reason }
  | .hold =>
    some { row with nextAttemptAt := now + 30, lastError := some "stream_paused" }
  | .retry reason =>
    some { row with
      attempts := row.attempts + 1
      nextAttemptAt := now + retryDelay (row.attempts + 1)
      lastError := some reason }

/-- Removed, or blocked, or pending and not due. -/
def Rested (now : ℕ) (left : Option OutboxRow) : Prop :=
  ∀ row ∈ left, row.status = .blocked ∨ (row.status = .pending ∧ now < row.nextAttemptAt)

theorem retryDelay_bounds (attempts : ℕ) :
    5 ≤ retryDelay attempts ∧ retryDelay attempts ≤ 3600 := by
  have hpos : 0 < 2 ^ min (attempts - 1) 10 := Nat.pow_pos (by decide)
  rw [retryDelay]
  omega

theorem retryDelay_monotone : Monotone retryDelay := by
  intro fewer more hle
  have hexponent : min (fewer - 1) 10 ≤ min (more - 1) 10 := by omega
  exact min_le_min_left 3600
    (Nat.mul_le_mul_left 5 (Nat.pow_le_pow_right (by decide) hexponent))

theorem rested_rowAfter (now : ℕ) {row : OutboxRow} (hpending : row.status = .pending)
    (verdict : Verdict) : Rested now (rowAfter now row verdict) := by
  intro left hleft
  cases verdict with
  | block reason =>
      obtain rfl := Option.some.inj hleft
      exact Or.inl rfl
  | cancel => cases hleft
  | hold =>
      obtain rfl := Option.some.inj hleft
      exact Or.inr ⟨hpending, Nat.lt_add_of_pos_right (by decide)⟩
  | complete => cases hleft
  | retry reason =>
      obtain rfl := Option.some.inj hleft
      have hdelay := (retryDelay_bounds (row.attempts + 1)).1
      exact Or.inr ⟨hpending, Nat.lt_add_of_pos_right (by omega)⟩

variable {database : Database} {row : OutboxRow}

theorem storedRow_of_mem (hdatabase : database.WellFormed)
    (hrow : row ∈ database.setOutbox) : storedRow row.id database = some row := by
  have hsome : (storedRow row.id database).isSome := by
    rw [storedRow, List.find?_isSome]
    exact ⟨row, hrow, by simp⟩
  obtain ⟨found, hfound⟩ := Option.isSome_iff_exists.mp hsome
  have hid : found.id = row.id := by simpa using List.find?_some hfound
  have hmem := List.mem_of_find?_eq_some hfound
  rw [hfound, hdatabase.row_eq_of_id_eq hmem hrow hid]

theorem storedRow_deletePendingItem (hdatabase : database.WellFormed)
    (hrow : row ∈ database.setOutbox) (hpending : row.status = .pending) :
    storedRow row.id (deletePendingItem row.id database) = none := by
  rw [storedRow, List.find?_eq_none]
  intro other hother
  obtain ⟨hmem, hkept⟩ := List.mem_filter.mp hother
  intro hid
  obtain rfl := hdatabase.row_eq_of_id_eq hmem hrow (by simpa using hid)
  simp [hpending] at hkept

theorem storedRow_updatePendingItem (hdatabase : database.WellFormed)
    (hrow : row ∈ database.setOutbox) (hpending : row.status = .pending)
    {change : OutboxRow → OutboxRow} (hchange : ∀ other, (change other).id = other.id) :
    storedRow row.id (updatePendingItem row.id change database) = some (change row) := by
  have hsame : (fun other : OutboxRow => decide (other.id = row.id)) ∘
      (fun other => if other.id = row.id ∧ other.status = .pending then change other
        else other) = fun other => decide (other.id = row.id) := by
    funext other
    rw [Function.comp_apply]
    split_ifs
    · rw [hchange]
    · rfl
  have hfound := storedRow_of_mem hdatabase hrow
  rw [storedRow] at hfound
  rw [storedRow, updatePendingItem, List.find?_map, hsame, hfound, Option.map_some,
    if_pos ⟨rfl, hpending⟩]

/-- Each verdict leaves the row as stated. -/
theorem storedRow_settleItem (hdatabase : database.WellFormed)
    (hrow : row ∈ database.setOutbox) (hpending : row.status = .pending) (now : ℕ)
    (verdict : Verdict) :
    storedRow row.id (settleItem now row.toOutboxItem verdict database) =
      rowAfter now row verdict := by
  cases verdict with
  | block reason =>
      exact storedRow_updatePendingItem hdatabase hrow hpending fun _ => rfl
  | cancel => exact storedRow_deletePendingItem hdatabase hrow hpending
  | hold => exact storedRow_updatePendingItem hdatabase hrow hpending fun _ => rfl
  | complete => exact storedRow_deletePendingItem hdatabase hrow hpending
  | retry reason =>
      exact storedRow_updatePendingItem hdatabase hrow hpending fun _ => rfl

end Rows

/-! ## One delivery -/

section Delivery

variable {Key Entropy : Type*} (fernet : Fernet Key Entropy) [PyRuntime]

/-- The store operation in which `_deliver_item` ends; an exception of
`get_stream_by_id` leaves it. -/
def deliveryVerdict (key : Key) (item : OutboxItem) (outcome : PushOutcome)
    (database : Database) : Except StoreError Verdict :=
  match readPayload fernet key item with
  | .error verdict => .ok verdict
  | .ok payload =>
    match getStreamById fernet key item.streamId database with
    | .error error => .error error
    | .ok found =>
      match routeItem payload found with
      | .error verdict => .ok verdict
      | .ok _ => .ok (verdictOf outcome)

/-- `_deliver_item`, whose store operation reads the time `now` -/
def deliverItem (key : Key) (now : ℕ) (item : OutboxItem) (outcome : PushOutcome)
    (database : Database) : Except StoreError Database :=
  (deliveryVerdict fernet key item outcome database).map fun verdict =>
    settleItem now item verdict database

variable {fernet}

/-- The rows that the program stored never make `get_stream_by_id` raise. -/
theorem exists_getStreamById {key : Key} {database : Database}
    (hdatabase : database.Readable fernet key) (streamId : String) :
    ∃ found, getStreamById fernet key streamId database = .ok found := by
  rw [getStreamById]
  cases hrow : streamRow streamId database with
  | none => exact ⟨none, rfl⟩
  | some row =>
      have hencoded := hdatabase.encoded row (List.mem_of_find?_eq_some hrow)
      obtain ⟨stream, hread⟩ := hencoded.exists_rowToStream key
      exact ⟨some stream, by simp [hread, Except.map]⟩

theorem exists_deliveryVerdict {key : Key} {database : Database}
    (hdatabase : database.Readable fernet key) (item : OutboxItem)
    (outcome : PushOutcome) :
    ∃ verdict, deliveryVerdict fernet key item outcome database = .ok verdict := by
  obtain ⟨found, hfound⟩ := exists_getStreamById hdatabase item.streamId
  rw [deliveryVerdict, hfound]
  split
  · exact ⟨_, rfl⟩
  · next payload _ =>
    dsimp only
    cases routeItem payload found with
    | error verdict => exact ⟨verdict, rfl⟩
    | ok stream => exact ⟨verdictOf outcome, rfl⟩

end Delivery

/-! ## Until the next attempt -/

section Runs

variable {Key Entropy : Type*} (fernet : Fernet Key Entropy) [PyRuntime]

omit [PyRuntime] in
/-- The task delivers the item. -/
def Task.Attempts (itemId : ℕ) : Task → Prop
  | .reading item _ _ | .pushing item _ _ _ | .settling item _ _ => item.id = itemId
  | _ => False

/-- An `update_stream` that enables a stream and leaves its delivery configuration as
it is. -/
structure Resumes (key : Key) (entropy : Entropy) (payload : StreamPayload)
    (database : Database) (stream updated : Stream) : Prop where
  first : getFirstStream fernet key database = .ok (some stream)
  result : (updateStream fernet key entropy payload database).1 = .ok (some updated)
  unchanged : updated.delivery = stream.delivery
  enabled : updated.status = .enabled
  stopped : stream.status ≠ .enabled

/-- The clock does not go back, and the stream is not resumed. -/
structure Calm (streamId : String)
    (transition : Transition (World Key) (Action Key Entropy)) : Prop where
  clock : transition.source.clock ≤ transition.target.clock
  resumed : ∀ task entropy requestedId payload stream updated,
    transition.action = .commit task entropy →
    transition.source.tasks task = .holding (.update requestedId payload) →
    Resumes fernet transition.source.key entropy payload transition.source.database
      stream updated → stream.streamId ≠ streamId

/-- The row of the item, if it is still stored, waits until the given time. -/
structure Deferred (deadline itemId : ℕ) (streamId : String) (database : Database) :
    Prop where
  assigned : itemId < database.nextOutboxId
  rows : ∀ row ∈ database.setOutbox, row.id = itemId →
    row.status = .pending ∧ row.streamId = streamId ∧ deadline ≤ row.nextAttemptAt

variable {fernet} {deadline itemId : ℕ} {streamId : String}

omit [PyRuntime] in
theorem Deferred.of_rows {database next : Database}
    (hdeferred : Deferred deadline itemId streamId database)
    (hcounter : database.nextOutboxId ≤ next.nextOutboxId)
    (hrows : ∀ row ∈ next.setOutbox, row.id = itemId → row ∈ database.setOutbox) :
    Deferred deadline itemId streamId next where
  assigned := hdeferred.assigned.trans_le hcounter
  rows row hrow hid := hdeferred.rows row (hrows row hrow hid) hid

omit [PyRuntime] in
theorem Deferred.of_filter {database next : Database} {kept : OutboxRow → Bool}
    (hdeferred : Deferred deadline itemId streamId database)
    (hcounter : next.nextOutboxId = database.nextOutboxId)
    (hrows : next.setOutbox = database.setOutbox.filter kept) :
    Deferred deadline itemId streamId next :=
  hdeferred.of_rows hcounter.ge fun _ hrow _ =>
    List.mem_of_mem_filter (hrows ▸ hrow)

omit [PyRuntime] in
/-- An operation that rewrites rows, but not the row of the item. -/
theorem Deferred.of_map {database next : Database} {change : OutboxRow → OutboxRow}
    (hdeferred : Deferred deadline itemId streamId database)
    (hcounter : next.nextOutboxId = database.nextOutboxId)
    (hrows : next.setOutbox = database.setOutbox.map change)
    (hids : ∀ row, (change row).id = row.id)
    (hsame : ∀ row, row.id = itemId → row.status = .pending → row.streamId = streamId →
      change row = row) :
    Deferred deadline itemId streamId next := by
  refine hdeferred.of_rows hcounter.ge fun row hrow hid => ?_
  rw [hrows] at hrow
  obtain ⟨before, hbefore, rfl⟩ := List.mem_map.mp hrow
  rw [hids] at hid
  obtain ⟨hpending, hstream, -⟩ := hdeferred.rows before hbefore hid
  rwa [hsame before hid hpending hstream]

omit [PyRuntime] in
theorem Deferred.settle {database : Database}
    (hdeferred : Deferred deadline itemId streamId database) (now : ℕ)
    {item : OutboxItem} (hitem : item.id ≠ itemId) (verdict : Verdict) :
    Deferred deadline itemId streamId (settleItem now item verdict database) := by
  have hupdate : ∀ change : OutboxRow → OutboxRow, (∀ row, (change row).id = row.id) →
      Deferred deadline itemId streamId (updatePendingItem item.id change database) := by
    intro change hchange
    refine hdeferred.of_map rfl rfl (fun row => ?_) fun row hid _ _ => ?_
    · split_ifs
      · exact hchange row
      · rfl
    · exact if_neg fun hrow => hitem (hrow.1.symm.trans hid)
  cases verdict with
  | block reason => exact hupdate _ fun _ => rfl
  | cancel => exact hdeferred.of_filter rfl rfl
  | hold => exact hupdate _ fun _ => rfl
  | complete => exact hdeferred.of_filter rfl rfl
  | retry reason => exact hupdate _ fun _ => rfl

omit [PyRuntime] in
/-- An update leaves the row unless it resumes the row's stream. -/
theorem Deferred.outboxAfterUpdate {database : Database}
    (hdeferred : Deferred deadline itemId streamId database) {stream updated : Stream}
    (hresumed : updated.delivery = stream.delivery → updated.status = .enabled →
      stream.status ≠ .enabled → stream.streamId ≠ streamId) (streams : List StreamRow) :
    Deferred deadline itemId streamId
      { database with
        setOutbox := Store.outboxAfterUpdate stream updated database.setOutbox
        streams := streams } := by
  by_cases hdelivery : updated.delivery ≠ stream.delivery
  · exact hdeferred.of_filter rfl (if_pos hdelivery)
  by_cases hresumes : updated.status = .enabled ∧ stream.status ≠ .enabled
  · refine hdeferred.of_map rfl ((if_neg hdelivery).trans (if_pos hresumes))
      (fun row => ?_) fun row _ _ hstream => ?_
    · split_ifs <;> rfl
    · have hother := hresumed (not_not.mp hdelivery) hresumes.1 hresumes.2
      exact if_neg fun hrow => hother (hrow.1.symm.trans hstream)
  · refine hdeferred.of_rows le_rfl fun row hrow _ => ?_
    simpa only [Store.outboxAfterUpdate, if_neg hdelivery, if_neg hresumes] using hrow

/-- A locked operation leaves the row unless it resumes the row's stream. -/
theorem Deferred.commit {key : Key} {database : Database}
    (hdeferred : Deferred deadline itemId streamId database)
    (hdatabase : database.WellFormed) (entropy : Entropy) {operation : LockedOperation}
    (hresumed : ∀ requestedId payload stream updated,
      operation = .update requestedId payload →
      Resumes fernet key entropy payload database stream updated →
      stream.streamId ≠ streamId) :
    Deferred deadline itemId streamId
      (operation.commit fernet key entropy database).2.1 := by
  cases operation with
  | save stream => exact hdeferred.of_filter rfl rfl
  | update requestedId payload =>
      change Deferred deadline itemId streamId
        (updateStream fernet key entropy payload database).2
      rcases updateStream_cases fernet hdatabase.single key entropy payload with
        ⟨hsame, -⟩ | ⟨row, stream, uris, hstreams, hread, -, -, hupdate⟩
      · rwa [hsame]
      · rw [hupdate]
        refine hdeferred.outboxAfterUpdate (fun hdelivery henabled hstopped => ?_) _
        refine hresumed requestedId payload stream _ rfl ⟨?_, ?_, hdelivery, henabled,
          hstopped⟩
        · rw [getFirstStream_of_singleton fernet hstreams, hread]
          rfl
        · rw [hupdate]
  | delete streamId' =>
      simp only [LockedOperation.commit, deleteStreamById]
      split_ifs
      · exact hdeferred.of_filter rfl rfl
      · exact hdeferred
  | discardPending => exact hdeferred.of_filter rfl rfl

/-- A step leaves the row while no task settles the item, unless it resumes the
stream. -/
theorem Step.deferred {world next : World Key} {action : Action Key Entropy}
    (hstep : Step fernet world action next) (hworld : world.database.WellFormed)
    (hdeferred : Deferred deadline itemId streamId world.database)
    (hidle : ∀ task, ¬(world.tasks task).Attempts itemId)
    (hcalm : Calm fernet streamId ⟨world, action, next⟩) :
    Deferred deadline itemId streamId next.database := by
  cases hstep with
  | restart key =>
      change Deferred deadline itemId streamId
        (quarantineUndecryptableReceiverTokens fernet key world.database)
      rw [quarantineUndecryptableReceiverTokens]
      split_ifs
      · exact hdeferred
      · exact ⟨hdeferred.assigned, hdeferred.rows⟩
  | @enqueue task deliveries now entropy htask =>
      change Deferred deadline itemId streamId
        (enqueueCommit fernet entropy deliveries now world).1
      rw [enqueueCommit]
      rcases enqueueOutbox_cases fernet world.key entropy now deliveries
        world.database with ⟨error, heq⟩ | ⟨-, heq⟩
      · rw [heq]
        exact hdeferred
      rw [heq]
      refine hdeferred.of_rows (Nat.le_add_right _ _) fun row hrow hid => ?_
      rcases List.mem_append.mp hrow with hold | hadded
      · exact hold
      · obtain ⟨-, -, -, -, -, -, hlow, -⟩ := mem_insertedRows fernet hadded
        exact absurd (hdeferred.assigned.trans_le hlow) (by omega)
  | @commit task operation entropy htask =>
      refine hdeferred.commit hworld entropy ?_
      rintro requestedId payload stream updated rfl hresumes
      exact hcalm.resumed task entropy requestedId payload stream updated rfl htask hresumes
  | @settle task item verdict rest htask =>
      refine hdeferred.settle _ (fun hid => hidle task ?_) verdict
      rw [htask]
      exact hid
  | requeueBlocked =>
      refine hdeferred.of_map rfl rfl (fun row => ?_) fun row _ hpending _ => ?_
      · split_ifs <;> rfl
      · exact if_neg (by simp [hpending])
  | deleteBlocked => exact hdeferred.of_filter rfl rfl
  | _ => exact hdeferred

omit [PyRuntime] in
theorem Task.Attempts.locked {task : Task} (htask : task.Attempts itemId) :
    task.locked = true := by
  cases task <;> first | rfl | exact htask.elim

omit [PyRuntime] in
theorem getDueOutboxItem_id {now rowId : ℕ} {database : Database} {item : OutboxItem}
    (hitem : getDueOutboxItem now rowId database = some item) :
    ∃ row ∈ database.setOutbox, row.id = rowId ∧ item.id = rowId ∧
      row.nextAttemptAt ≤ now := by
  obtain ⟨row, hrow, rfl⟩ := Option.map_eq_some_iff.mp hitem
  have hfound := List.find?_some hrow
  simp only [OutboxRow.isDue, Bool.and_eq_true, decide_eq_true_eq] at hfound
  exact ⟨row, List.mem_of_find?_eq_some hrow, hfound.1, hfound.1, hfound.2.2⟩

/-- A row that waits is not found due. -/
theorem not_attempts_afterReread {key : Key} {now rowId : ℕ} {database : Database}
    (hdeferred : Deferred deadline itemId streamId database) (hnow : now < deadline)
    (rest : List OutboxItem) :
    ¬(afterReread fernet key rest (getDueOutboxItem now rowId database)).Attempts
      itemId := by
  cases hcurrent : getDueOutboxItem now rowId database with
  | none => exact id
  | some item =>
      obtain ⟨row, hrow, hrowId, hid, hdue⟩ := getDueOutboxItem_id hcurrent
      have hne : item.id ≠ itemId := by
        intro hsame
        obtain ⟨-, -, hwait⟩ :=
          hdeferred.rows row hrow (hrowId.trans (hid.symm.trans hsame))
        omega
      rw [afterReread]
      split <;> exact hne

omit [PyRuntime] in
theorem attempts_afterRead {item : OutboxItem} {payload : Dict} {rest : List OutboxItem}
    {found : Option Stream} (hattempts : (afterRead item payload rest found).Attempts itemId) :
    item.id = itemId := by
  rw [afterRead] at hattempts
  split at hattempts <;> exact hattempts

/-- While the row waits no step begins an attempt. -/
theorem Step.not_attempts {world next : World Key} {action : Action Key Entropy}
    (hstep : Step fernet world action next)
    (hdeferred : Deferred deadline itemId streamId world.database)
    (hclock : world.clock < deadline)
    (hidle : ∀ task, ¬(world.tasks task).Attempts itemId) (task : ℕ) :
    ¬(next.tasks task).Attempts itemId := by
  have hmoved : ∀ actor (rest : Task), ¬rest.Attempts itemId →
      next.tasks = Function.update world.tasks actor rest →
      ¬(next.tasks task).Attempts itemId := by
    intro actor rest hrest htasks
    rw [htasks]
    by_cases hactor : task = actor
    · rwa [hactor, Function.update_self]
    · rw [Function.update_of_ne hactor]
      exact hidle task
  cases hstep with
  | restart key => exact id
  | tick now => exact hidle task
  | webhook _ _ | stamp _ | enqueue _ _ | request _ _ | acquireOperation _ _ | acquireItem _ _
  | commit _ _ | releaseOperation _ | releaseItem _ | startDelivery _ | readFailed _
  | settle _ | abort _ => exact hmoved _ _ id rfl
  | patchById _ _ _ | deleteCurrent _ =>
      refine hmoved _ _ (fun hattempts => ?_) rfl
      simpa using hattempts.locked
  | reread _ => exact hmoved _ _ (not_attempts_afterReread hdeferred hclock _) rfl
  | @read actor item payload rest found htask _ =>
      refine hmoved _ _ (fun hattempts => hidle actor ?_) rfl
      rw [htask]
      exact attempts_afterRead hattempts
  | @push actor item payload stream rest outcome htask =>
      refine hmoved _ _ (fun hattempts => hidle actor ?_) rfl
      rw [htask]
      exact hattempts
  | requeueBlocked => exact hidle task
  | deleteBlocked => exact hidle task

/-- Until the deadline the row waits and nothing attempts the item. -/
def Waiting (deadline itemId : ℕ) (streamId : String) (world : World Key) : Prop :=
  deadline ≤ world.clock ∨
    (Deferred deadline itemId streamId world.database ∧
      ∀ task, ¬(world.tasks task).Attempts itemId)

theorem Waiting.next {world next : World Key} {action : Action Key Entropy}
    (hworld : Invariant fernet world) (hwaiting : Waiting deadline itemId streamId world)
    (hstep : step fernet world action = some next)
    (hcalm : Calm fernet streamId ⟨world, action, next⟩) :
    Waiting deadline itemId streamId next := by
  rcases hwaiting with hpassed | ⟨hdeferred, hidle⟩
  · exact Or.inl (hpassed.trans hcalm.clock)
  rcases Nat.lt_or_ge world.clock deadline with hbefore | hpassed
  · have htaken := Step.of_step hstep
    exact Or.inr ⟨htaken.deferred hworld.sound.wellFormed hdeferred hidle hcalm,
      htaken.not_attempts hdeferred hbefore hidle⟩
  · exact Or.inl (hpassed.trans hcalm.clock)

/-- The run rule: in calm runs nothing attempts the item before the deadline. -/
theorem Waiting.of_run {world later : World Key} {actions : List (Action Key Entropy)}
    (hworld : Invariant fernet world) (hwaiting : Waiting deadline itemId streamId world)
    (hrun : (service fernet).run world actions = some later)
    (hcalm : ∀ transition ∈ (service fernet).transitions world actions,
      Calm fernet streamId transition) :
    Waiting deadline itemId streamId later := by
  induction actions generalizing world with
  | nil =>
      obtain rfl := Option.some.inj hrun
      exact hwaiting
  | cons action rest ih =>
      obtain ⟨next, hnext, hrest⟩ := Option.bind_eq_some_iff.mp hrun
      rw [TransitionSystem.transitions, hnext] at hcalm
      have hfirst := hcalm _ List.mem_cons_self
      exact ih (hworld.next (Step.of_step hnext)) (hwaiting.next hworld hnext hfirst)
        hrest fun transition htransition =>
          hcalm transition (List.mem_cons_of_mem _ htransition)

omit [PyRuntime] in
/-- What is left of a row keeps its id and its stream. -/
theorem rowAfter_identity {now : ℕ} {row left : OutboxRow} {verdict : Verdict}
    (hleft : rowAfter now row verdict = some left) : left.identity = row.identity := by
  cases verdict with
  | cancel | complete => cases hleft
  | block reason | hold | retry reason =>
      obtain rfl := Option.some.inj hleft
      rfl

/-- The end of a delivery in the service, and what waits from then on. -/
theorem waiting_of_settle {world next : World Key} (hworld : Invariant fernet world)
    {task : ℕ} {item : OutboxItem} {verdict : Verdict} {rest : List OutboxItem}
    (htask : world.tasks task = .settling item verdict rest)
    (hstep : step fernet world (.settle task) = some next) :
    ∃ row ∈ world.database.setOutbox, row.toOutboxItem = item ∧ row.status = .pending ∧
      storedRow item.id next.database = rowAfter world.clock row verdict ∧
      ∀ left ∈ storedRow item.id next.database, left.status = .pending →
        Waiting left.nextAttemptAt item.id item.streamId next := by
  have hholds := hworld.tasks task
  rw [htask] at hholds
  obtain ⟨⟨row, hrow, rfl, hpending⟩, -, -⟩ := hholds
  have hnext := (hworld.next (Step.of_step hstep)).sound.wellFormed
  cases Step.of_step hstep with
  | settle hsettling =>
      rw [htask] at hsettling
      obtain ⟨rfl, rfl, rfl⟩ := Task.settling.inj hsettling
      have hstored := storedRow_settleItem hworld.sound.wellFormed hrow hpending
        world.clock verdict
      refine ⟨row, hrow, rfl, hpending, hstored, fun left hleft hwaits => Or.inr ⟨?_, ?_⟩⟩
      · constructor
        · have hbelow := hworld.sound.wellFormed.below _ (mem_stored_of_mem hrow)
          have hcounter : (settleItem world.clock row.toOutboxItem verdict
              world.database).nextOutboxId = world.database.nextOutboxId := by
            cases verdict <;> rfl
          exact hcounter.symm ▸ hbelow
        · intro other hother hid
          have hfound := storedRow_of_mem hnext hother
          rw [hid] at hfound
          obtain rfl := Option.some.inj (hfound.symm.trans hleft)
          have hidentity := rowAfter_identity (hstored.symm.trans hleft)
          exact ⟨hwaits, congrArg ItemIdentity.streamId hidentity, le_rfl⟩
      · intro other hattempts
        by_cases hother : other = task
        · subst hother
          simp [World.transact, World.setTask, Task.Attempts] at hattempts
        · -- the task that settles holds the lock
          simp only [World.transact, World.setTask, Function.update_of_ne hother]
            at hattempts
          exact hother (hworld.lock.eq_of_locked hattempts.locked (by rw [htask]; rfl))

/-- A resumption makes every pending row of the stream due and keeps its attempts. -/
theorem due_of_resumes {key : Key} {database : Database} (hdatabase : database.WellFormed)
    {entropy : Entropy} {payload : StreamPayload} {stream updated : Stream}
    (hresumes : Resumes fernet key entropy payload database stream updated) :
    (updateStream fernet key entropy payload database).2.setOutbox =
      database.setOutbox.map fun row =>
        if row.streamId = stream.streamId ∧ row.status = .pending then
          { row with nextAttemptAt := 0 }
        else row := by
  rcases updateStream_cases fernet hdatabase.single key entropy payload with
    ⟨-, hnothing⟩ | ⟨row, found, uris, hstreams, hread, -, -, hupdate⟩
  · exact absurd hresumes.result (hnothing updated)
  have hfound : found = stream := by
    have hfirst := hresumes.first
    rw [getFirstStream_of_singleton fernet hstreams, hread] at hfirst
    exact Option.some.inj (Except.ok.inj hfirst)
  have hpatched : patchedStream payload found uris = updated := by
    have hresult := hresumes.result
    rw [hupdate] at hresult
    exact Option.some.inj (Except.ok.inj hresult)
  rw [hupdate, hpatched, hfound]
  exact (if_neg (not_not.mpr hresumes.unchanged)).trans
    (if_pos ⟨hresumes.enabled, hresumes.stopped⟩)

variable (fernet) in
/-- `_deliver_item` comes to the push of the row: its payload is read and matches the
stream as it is stored. -/
def Reaches (key : Key) (database : Database) (row : OutboxRow) (stream : Stream) : Prop :=
  ∃ payload, readPayload fernet key row.toOutboxItem = .ok payload ∧
    getStreamById fernet key row.streamId database = .ok (some stream) ∧
    payloadMatchesStream payload stream = true

variable (fernet) in
/-- What `_deliver_item` leaves of a pending row at time `now`. -/
structure BacksOff (key : Key) (database : Database) (row : OutboxRow) (now : ℕ)
    (outcome : PushOutcome) (after : Database) : Prop where
  rested : Rested now (storedRow row.id after)
  failed : ∀ stream, Reaches fernet key database row stream → stream.status = .enabled →
    outcome ≠ .delivered → ∃ reason, storedRow row.id after = some { row with
      attempts := row.attempts + 1
      nextAttemptAt := now + min 3600 (5 * 2 ^ min row.attempts 10)
      lastError := some reason }
  paused : ∀ stream, Reaches fernet key database row stream → stream.status ≠ .enabled →
    storedRow row.id after = some { row with
      nextAttemptAt := now + 30
      lastError := some "stream_paused" }

theorem backsOff_of_deliverItem {key : Key} {database : Database}
    (hdatabase : database.WellFormed) {row : OutboxRow} (hrow : row ∈ database.setOutbox)
    (hpending : row.status = .pending) (now : ℕ) {outcome : PushOutcome} {verdict : Verdict}
    (hverdict : deliveryVerdict fernet key row.toOutboxItem outcome database = .ok verdict) :
    BacksOff fernet key database row now outcome
      (settleItem now row.toOutboxItem verdict database) where
  rested := by
    rw [storedRow_settleItem hdatabase hrow hpending]
    exact rested_rowAfter now hpending verdict
  failed := by
    rintro stream ⟨payload, hread, hstream, hmatches⟩ henabled houtcome
    have hroute : routeItem payload (some stream) = .ok stream := by
      simp [routeItem, hmatches, henabled]
    simp only [deliveryVerdict, hread, hstream, hroute] at hverdict
    obtain rfl := Except.ok.inj hverdict
    rw [storedRow_settleItem hdatabase hrow hpending]
    cases outcome with
    | delivered => exact absurd rfl houtcome
    | refused | timeout | exception => exact ⟨_, rfl⟩
  paused := by
    rintro stream ⟨payload, hread, hstream, hmatches⟩ hstopped
    have hroute : routeItem payload (some stream) = .error .hold := by
      simp [routeItem, hmatches, hstopped]
    simp only [deliveryVerdict, hread, hstream, hroute] at hverdict
    obtain rfl := Except.ok.inj hverdict
    exact storedRow_settleItem hdatabase hrow hpending now .hold

variable (fernet) in
/-- Every delivery of a pending item takes it from the queue, blocks it or puts it off
by a delay between 5 and 3600 seconds that grows with the attempts.  In the service
nothing attempts the item before that time unless its stream is resumed, and resuming
makes the pending items of the stream due with their attempts kept. -/
theorem delivery_backs_off {world : World Key} (hworld : (service fernet).Reachable world) :
    (∀ row ∈ world.database.setOutbox, row.status = .pending → ∀ now outcome,
      ∃ after, deliverItem fernet world.key now row.toOutboxItem outcome world.database =
          .ok after ∧
        BacksOff fernet world.key world.database row now outcome after) ∧
    (∀ attempts, 5 ≤ min 3600 (5 * 2 ^ min attempts 10) ∧
      min 3600 (5 * 2 ^ min attempts 10) ≤ 3600) ∧
    (Monotone fun attempts => min 3600 (5 * 2 ^ min attempts 10)) ∧
    (∀ task item verdict rest next, world.tasks task = .settling item verdict rest →
      step fernet world (.settle task) = some next →
      (∃ row ∈ world.database.setOutbox, row.toOutboxItem = item ∧
        storedRow item.id next.database = rowAfter world.clock row verdict) ∧
      ∀ left ∈ storedRow item.id next.database, left.status = .pending →
        ∀ actions later, (service fernet).run next actions = some later →
        (∀ transition ∈ (service fernet).transitions next actions,
          Calm fernet item.streamId transition) →
        ∀ other, (later.tasks other).Attempts item.id → left.nextAttemptAt ≤ later.clock) ∧
    ∀ entropy payload stream updated,
      Resumes fernet world.key entropy payload world.database stream updated →
      (updateStream fernet world.key entropy payload world.database).2.setOutbox =
        world.database.setOutbox.map fun row =>
          if row.streamId = stream.streamId ∧ row.status = .pending then
            { row with nextAttemptAt := 0 }
          else row := by
  have hinvariant := invariant_of_reachable hworld
  refine ⟨fun row hrow hpending now outcome => ?_,
    fun attempts => retryDelay_bounds (attempts + 1),
    fun fewer more hle => retryDelay_monotone (Nat.succ_le_succ hle), ?_,
    fun entropy payload stream updated hresumes =>
      due_of_resumes hinvariant.sound.wellFormed hresumes⟩
  · obtain ⟨verdict, hverdict⟩ := exists_deliveryVerdict hinvariant.sound.readable
      row.toOutboxItem outcome
    exact ⟨_, by rw [deliverItem, hverdict]; rfl, backsOff_of_deliverItem
      hinvariant.sound.wellFormed hrow hpending now hverdict⟩
  · intro task item verdict rest next htask hstep
    obtain ⟨row, hrow, hitem, -, hstored, hwaiting⟩ :=
      waiting_of_settle hinvariant htask hstep
    refine ⟨⟨row, hrow, hitem, hstored⟩, ?_⟩
    intro left hleft hpending actions later hrun hcalm other hattempts
    have hlater := (hwaiting left hleft hpending).of_run
      (hinvariant.next (Step.of_step hstep)) hrun hcalm
    exact hlater.resolve_right fun hidle => hidle.2 other hattempts

end Runs

section Sample

open scoped SsfTransmitter.Python.Ascii

/-- A refused first push is put off by five seconds. -/
theorem delivery_backs_off_sample :
    ∃ row : OutboxRow, row.attempts = 0 ∧ ∃ database after,
      deliverItem clearFernet true 7 row.toOutboxItem .refused database = .ok after ∧
        BacksOff clearFernet true database row 7 .refused after := by
  have hworld := reachable_pushingWorld clearFernet true () sampleStream sampleEvent
    (ofString "user@example.com") (fun _ _ => "signed") rfl (Or.inl rfl)
  exact ⟨_, rfl, _, (delivery_backs_off clearFernet hworld).1 _
    (List.mem_singleton_self _) rfl 7 .refused⟩

end Sample

end SsfTransmitter.Service
