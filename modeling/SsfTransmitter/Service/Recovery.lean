import SsfTransmitter.Core.Batches
import SsfTransmitter.Service.BackOff
import SsfTransmitter.Service.FixedKey

/-!
# What is queued gets delivered

Once the receiver accepts its deliveries and the stream stays as it is, each pass of the
worker delivers the next 25 of the queue, oldest first.  An hour after the recovery no
back-off holds a delivery back any more.
-/

namespace SsfTransmitter.Service

open SsfTransmitter.Core
open SsfTransmitter.Python
open SsfTransmitter.Store
open SsfTransmitter.Outbox

/-- The items that a pass of the worker has still to deal with. -/
def Task.remaining : Task → List ℕ
  | .batch items => items.map fun item => item.id
  | .rereading item rest | .reading item _ rest | .pushing item _ _ rest
  | .settling item _ rest => item.id :: rest.map fun item => item.id
  | .leaving rest => rest.map fun item => item.id
  | _ => []

/-- The time that a task has read for its transaction. -/
def Task.stampedAt : Task → Option ℕ
  | .stamped _ now => some now
  | _ => none

section Recovery

variable {Key Entropy : Type*} (fernet : Fernet Key Entropy) [PyRuntime]

omit [PyRuntime] in
/-- Restarts keep the key and the clock does not go back. -/
def Steady (key : Key) (world : World Key) : Action Key Entropy → Prop
  | .restart next => next = key
  | .tick now => world.clock ≤ now
  | _ => True

omit [PyRuntime] in
/-- The receiver accepts every push, no stream operation commits, and neither a restart
nor a cancellation cuts a pass of the worker short. -/
def Serves (world : World Key) : Action Key Entropy → Prop
  | .restart _ | .commit _ _ => False
  | .tick now => world.clock ≤ now
  | .push _ outcome => outcome = .delivered
  | .abort task => (world.tasks task).remaining = []
  | _ => True

/-- A run from `start` that serves the receiver, with the number of passes of the worker
that it completed, one after the other, each begun at the given time or later. -/
inductive WorkerPasses (deadline : ℕ) (start : World Key) : ℕ → World Key → Prop where
  | refl : WorkerPasses deadline start 0 start
  | between {passes : ℕ} {middle world : World Key} :
      WorkerPasses deadline start passes middle →
      (service fernet).PathWhere Serves middle world →
      WorkerPasses deadline start passes world
  | pass {passes task : ℕ} {middle begun world : World Key} :
      WorkerPasses deadline start passes middle → deadline ≤ middle.clock →
      step fernet middle (Action.startDelivery task : Action Key Entropy) = some begun →
      (service fernet).PathWhere Serves begun world →
      world.tasks task = .batch [] → WorkerPasses deadline start (passes + 1) world

variable {fernet}

/-! ## The times of transactions -/

omit [PyRuntime] in
/-- The times that tasks have read for their transactions meet a condition. -/
def Stamps (condition : ℕ → Prop) (world : World Key) : Prop :=
  ∀ task, ∀ now ∈ (world.tasks task).stampedAt, condition now

omit [PyRuntime] in
theorem Stamps.mono {condition later : ℕ → Prop} {world : World Key}
    (hstamps : Stamps condition world) (hlater : ∀ now, condition now → later now) :
    Stamps later world :=
  fun task now hnow => hlater now (hstamps task now hnow)

omit [PyRuntime] in
theorem stampedAt_afterLookup (current : Except StoreError (Option Stream))
    (matching : Stream → Bool) (operation : Stream → LockedOperation) :
    (afterLookup current matching operation).stampedAt = none := by
  unfold afterLookup
  split
  · split_ifs <;> rfl
  · rfl

omit [PyRuntime] in
theorem Task.stampedAt_of_locked {task : Task} (hlocked : task.locked = true) :
    task.stampedAt = none := by
  cases task <;> first | rfl | cases hlocked

/-- A step reads the clock for a transaction, or brings no time. -/
theorem Stamps.next {condition : ℕ → Prop} {world next : World Key}
    (hstamps : Stamps condition world) (hclock : condition world.clock)
    {action : Action Key Entropy} (hstep : Step fernet world action next) :
    Stamps condition next := by
  intro task now hnow
  have hmoved : ∀ {actor : ℕ} {rest : Task}, (∀ time ∈ rest.stampedAt, condition time) →
      next.tasks = Function.update world.tasks actor rest → condition now := by
    intro actor rest hrest htasks
    rw [htasks] at hnow
    by_cases hactor : task = actor
    · rw [hactor, Function.update_self] at hnow
      exact hrest now hnow
    · rw [Function.update_of_ne hactor] at hnow
      exact hstamps task now hnow
  have hnone : ∀ {actor : ℕ} {rest : Task}, rest.stampedAt = none →
      next.tasks = Function.update world.tasks actor rest → condition now :=
    fun hrest => hmoved fun time htime => by rw [hrest] at htime; cases htime
  cases hstep with
  | restart key => cases hnow
  | tick later => exact hstamps task now hnow
  | stamp _ =>
      refine hmoved (fun time htime => ?_) rfl
      obtain rfl := Option.some.inj htime
      exact hclock
  | patchById _ _ _ | deleteCurrent _ => exact hnone (stampedAt_afterLookup _ _ _) rfl
  | reread _ => exact hnone (Task.stampedAt_of_locked (locked_afterReread _ _ _)) rfl
  | read _ _ => exact hnone (Task.stampedAt_of_locked (locked_afterRead _ _ _ _)) rfl
  | requeueBlocked => exact hstamps task now hnow
  | deleteBlocked => exact hstamps task now hnow
  | _ => exact hnone rfl rfl

/-! ## How long a delivery is put off -/

omit [PyRuntime] in
/-- Every row was queued by now and is put off by an hour at most. -/
def Timely (now : ℕ) (database : Database) : Prop :=
  ∀ row ∈ database.setOutbox, row.createdAt ≤ now ∧ row.nextAttemptAt ≤ now + 3600

omit [PyRuntime] in
theorem Timely.mono {now later : ℕ} {database : Database} (htimely : Timely now database)
    (hlater : now ≤ later) : Timely later database := by
  intro row hrow
  obtain ⟨hcreated, hnext⟩ := htimely row hrow
  omega

omit [PyRuntime] in
/-- Rows are taken, or put off anew. -/
theorem Timely.of_rows {now : ℕ} {database next : Database} (htimely : Timely now database)
    (hrows : ∀ row ∈ next.setOutbox, ∃ source ∈ database.setOutbox,
      row.createdAt = source.createdAt ∧
        (row.nextAttemptAt = source.nextAttemptAt ∨ row.nextAttemptAt ≤ now + 3600)) :
    Timely now next := by
  intro row hrow
  obtain ⟨source, hsource, hcreated, hnext⟩ := hrows row hrow
  have hbefore := htimely source hsource
  omega

omit [PyRuntime] in
theorem Timely.of_subset {now : ℕ} {database next : Database} (htimely : Timely now database)
    (hrows : next.setOutbox ⊆ database.setOutbox) : Timely now next :=
  fun row hrow => htimely row (hrows hrow)

omit [PyRuntime] in
/-- A verdict puts its item off by an hour at most. -/
theorem Timely.settle {now : ℕ} {database : Database} (htimely : Timely now database)
    (item : OutboxItem) (verdict : Verdict) :
    Timely now (settleItem now item verdict database) := by
  have hupdate : ∀ change : OutboxRow → OutboxRow,
      (∀ row, (change row).createdAt = row.createdAt ∧
        ((change row).nextAttemptAt = row.nextAttemptAt ∨
          (change row).nextAttemptAt ≤ now + 3600)) →
      Timely now (updatePendingItem item.id change database) := by
    intro change hchange
    refine htimely.of_rows fun row hrow => ?_
    obtain ⟨source, hsource, rfl⟩ := List.mem_map.mp hrow
    refine ⟨source, hsource, ?_⟩
    split_ifs
    · exact hchange source
    · exact ⟨rfl, Or.inl rfl⟩
  cases verdict with
  | block reason => exact hupdate _ fun row => ⟨rfl, Or.inl rfl⟩
  | cancel => exact htimely.of_subset (List.filter_subset_self _)
  | hold => exact hupdate _ fun row => ⟨rfl, Or.inr (Nat.add_le_add_left (by decide) now)⟩
  | complete => exact htimely.of_subset (List.filter_subset_self _)
  | retry reason =>
      have hdelay := (retryDelay_bounds (item.attempts + 1)).2
      exact hupdate _ fun row => ⟨rfl, Or.inr (Nat.add_le_add_left hdelay now)⟩

omit [PyRuntime] in
/-- An update takes rows or makes them due. -/
theorem exists_of_mem_outboxAfterUpdate {stream updated : Stream} {outbox : List OutboxRow}
    {row : OutboxRow} (hrow : row ∈ outboxAfterUpdate stream updated outbox) :
    ∃ source ∈ outbox, row.createdAt = source.createdAt ∧
      (row.nextAttemptAt = source.nextAttemptAt ∨ row.nextAttemptAt = 0) := by
  unfold outboxAfterUpdate at hrow
  split_ifs at hrow
  · exact ⟨row, List.mem_of_mem_filter hrow, rfl, Or.inl rfl⟩
  · obtain ⟨source, hsource, rfl⟩ := List.mem_map.mp hrow
    refine ⟨source, hsource, ?_⟩
    split_ifs
    · exact ⟨rfl, Or.inr rfl⟩
    · exact ⟨rfl, Or.inl rfl⟩
  · exact ⟨row, hrow, rfl, Or.inl rfl⟩

theorem Timely.commit {now : ℕ} {key : Key} {database : Database}
    (htimely : Timely now database) (hsingle : database.streams.length ≤ 1)
    (entropy : Entropy) (operation : LockedOperation) :
    Timely now (operation.commit fernet key entropy database).2.1 := by
  cases operation with
  | save stream => exact htimely.of_subset (List.filter_subset_self _)
  | update requestedId payload =>
      change Timely now (updateStream fernet key entropy payload database).2
      rcases updateStream_cases fernet hsingle key entropy payload with
        ⟨hsame, -⟩ | ⟨row, stream, uris, -, -, -, -, hupdate⟩
      · rwa [hsame]
      · rw [hupdate]
        refine htimely.of_rows fun row hrow => ?_
        obtain ⟨source, hsource, hcreated, hnext⟩ := exists_of_mem_outboxAfterUpdate hrow
        exact ⟨source, hsource, hcreated, hnext.imp_right fun hzero => by omega⟩
  | delete streamId =>
      change Timely now (deleteStreamById streamId database).2
      unfold deleteStreamById
      split_ifs
      · exact htimely.of_subset (List.filter_subset_self _)
      · exact htimely
  | discardPending => exact htimely.of_subset (List.filter_subset_self _)

theorem Transaction.timely {world : World Key} (hworld : Invariant fernet world)
    (htimely : Timely world.clock world.database) (hstamps : Stamps (· ≤ world.clock) world)
    {key : Key} {database : Database} {log : List Event}
    (htransaction : Transaction fernet world key database log) :
    Timely world.clock database := by
  cases htransaction with
  | quiet => exact htimely
  | restart key =>
      unfold quarantineUndecryptableReceiverTokens
      split_ifs
      · exact htimely
      · exact htimely
  | @enqueue task deliveries now entropy htask =>
      have hnow : now ≤ world.clock := hstamps task now (by rw [htask]; rfl)
      rw [enqueueCommit.eq_def]
      rcases enqueueOutbox_cases fernet world.key entropy now deliveries
        world.database with ⟨error, hcase⟩ | ⟨-, hcase⟩
      · rw [hcase]
        exact htimely
      · rw [hcase]
        intro row hrow
        rcases List.mem_append.mp hrow with hold | hadded
        · exact htimely row hold
        · obtain ⟨index, -, rfl⟩ := List.mem_mapIdx.mp hadded
          exact ⟨hnow, hnow.trans (Nat.le_add_right _ _)⟩
  | commit entropy htask => exact htimely.commit hworld.sound.wellFormed.single entropy _
  | push outcome htask => exact htimely
  | settle htask => exact htimely.settle _ _
  | requeueBlocked =>
      refine htimely.of_rows fun row hrow => ?_
      obtain ⟨source, hsource, rfl⟩ := List.mem_map.mp hrow
      refine ⟨source, hsource, ?_⟩
      split_ifs
      · exact ⟨rfl, Or.inr (Nat.le_add_right _ _)⟩
      · exact ⟨rfl, Or.inl rfl⟩
  | deleteBlocked => exact htimely.of_subset (List.filter_subset_self _)

theorem Timely.next {key : Key} {world next : World Key} (hworld : Invariant fernet world)
    (htimely : Timely world.clock world.database) (hstamps : Stamps (· ≤ world.clock) world)
    {action : Action Key Entropy} (hsteady : Steady key world action)
    (hstep : Step fernet world action next) :
    Timely next.clock next.database ∧ Stamps (· ≤ next.clock) next := by
  have hclock : world.clock ≤ next.clock := by
    cases hstep with
    | tick now => exact hsteady
    | _ => exact le_rfl
  exact ⟨(hstep.transaction.timely hworld htimely hstamps).mono hclock,
    (hstamps.next le_rfl hstep).mono fun _ hnow => hnow.trans hclock⟩

omit [PyRuntime] in
theorem Steady.keepsKey {key : Key} {world : World Key} {action : Action Key Entropy}
    (hsteady : Steady key world action) : KeepsKey key action := by
  cases action with
  | restart next => exact hsteady
  | _ => trivial

theorem timely_of_path {key : Key} {world : World Key}
    (hpath : (service fernet).PathWhere (Steady key) (World.init key) world) :
    Timely world.clock world.database ∧ Stamps (· ≤ world.clock) world := by
  refine (@TransitionSystem.PathWhere.preserves _ _ _ _
    (fun world : World Key => Invariant fernet world ∧ Timely world.clock world.database ∧
      Stamps (· ≤ world.clock) world) _ _ hpath ?_ ?_).2
  · rintro source action next ⟨hsource, htimely, hstamps⟩ hsteady hstep
    have htaken := Step.of_step hstep
    exact ⟨hsource.next htaken, htimely.next hsource hstamps hsteady htaken⟩
  · exact ⟨invariant_init key, fun row hrow => absurd hrow List.not_mem_nil,
      fun task now hnow => by cases hnow⟩

/-! ## A run that serves the receiver -/

/-- What a step of such a run does to the tables: it queues new rows, or takes one whose
delivery was accepted. -/
structure Advances (since : List Event) (world next : World Key) (more : List Event) :
    Prop where
  streams : next.database.streams = world.database.streams
  clock : world.clock ≤ next.clock
  counter : world.database.nextOutboxId ≤ next.database.nextOutboxId
  log : next.log = world.log ++ more
  rows : ∀ row ∈ next.database.setOutbox, row ∈ world.database.setOutbox ∨
    (world.database.nextOutboxId ≤ row.id ∧ row.nextAttemptAt = row.createdAt ∧
      ∃ task, row.createdAt ∈ (world.tasks task).stampedAt)
  kept : ∀ row ∈ world.database.setOutbox, row ∈ next.database.setOutbox ∨
    .pushed row.identity true ∈ since

omit [PyRuntime] in
theorem Advances.of_database_eq {since more : List Event} {world next : World Key}
    (hclock : world.clock ≤ next.clock) (hdatabase : next.database = world.database)
    (hlog : next.log = world.log ++ more) : Advances since world next more where
  streams := congrArg Database.streams hdatabase
  clock := hclock
  counter := (congrArg Database.nextOutboxId hdatabase).ge
  log := hlog
  rows _ hrow := Or.inl (hdatabase ▸ hrow)
  kept _ hrow := Or.inl (hdatabase.symm ▸ hrow)

theorem Advances.enqueue (since : List Event) {world : World Key} {task now : ℕ}
    {deliveries : List (Stream × Dict)} (htask : world.tasks task = .stamped deliveries now)
    (entropy : ℕ → Entropy) :
    Advances since world
      (world.transact task .idle (enqueueCommit fernet entropy deliveries now world).1
        (enqueueCommit fernet entropy deliveries now world).2)
      (enqueueCommit fernet entropy deliveries now world).2 := by
  rcases enqueueOutbox_cases fernet world.key entropy now deliveries
    world.database with ⟨error, hcase⟩ | ⟨-, hcase⟩
  · exact .of_database_eq le_rfl (by simp [World.transact, enqueueCommit, hcase]) rfl
  · have hdatabase : (enqueueCommit fernet entropy deliveries now world).1 =
        ⟨world.database.streams, world.database.setOutbox ++ insertedRows fernet world.key
          entropy now world.database.nextOutboxId deliveries,
          world.database.nextOutboxId + deliveries.length⟩ := by
      rw [enqueueCommit.eq_def, hcase]
    constructor
    · exact (congrArg Database.streams hdatabase :)
    · exact le_rfl
    · exact (Nat.le_add_right _ _).trans (congrArg Database.nextOutboxId hdatabase :).ge
    · rfl
    · intro row hrow
      have hmem : row ∈ (enqueueCommit fernet entropy deliveries now world).1.setOutbox := hrow
      rw [hdatabase] at hmem
      refine (List.mem_append.mp hmem).imp_right fun hadded => ?_
      obtain ⟨index, -, rfl⟩ := List.mem_mapIdx.mp hadded
      exact ⟨Nat.le_add_right _ _, rfl, task, by rw [htask]; rfl⟩
    · intro row hrow
      have hmem : row ∈ (enqueueCommit fernet entropy deliveries now world).1.setOutbox := by
        rw [hdatabase]
        exact List.mem_append_left _ hrow
      exact Or.inl hmem

variable (fernet) in
/-- The rows of the start are as they were or were delivered since, and what is settled is
an accepted delivery. -/
structure Recovering (key : Key) (start : World Key) (since : List Event)
    (world : World Key) : Prop where
  fixed : FixedKeyInvariant fernet key world
  streams : world.database.streams = start.database.streams
  clock : start.clock ≤ world.clock
  counter : start.database.nextOutboxId ≤ world.database.nextOutboxId
  log : world.log = start.log ++ since
  rows : ∀ row ∈ world.database.setOutbox, row ∈ start.database.setOutbox ∨
    (start.database.nextOutboxId ≤ row.id ∧ start.clock ≤ row.createdAt ∧
      row.nextAttemptAt ≤ world.clock)
  kept : ∀ row ∈ start.database.setOutbox, row ∈ world.database.setOutbox ∨
    .pushed row.identity true ∈ since
  settling : ∀ task item verdict rest, world.tasks task = .settling item verdict rest →
    verdict = .complete ∧ .pushed item.identity true ∈ since
  stamps : Stamps (fun now => start.clock ≤ now ∧ now ≤ world.clock) world

namespace Recovering

variable {key : Key} {start world next : World Key} {since : List Event}

theorem advances (hworld : Recovering fernet key start since world)
    {action : Action Key Entropy} (hserves : Serves world action)
    (hstep : Step fernet world action next) : ∃ more, Advances since world next more := by
  have hpending : ∀ row ∈ world.database.setOutbox, row.status = .pending :=
    fun row hrow => (hworld.fixed.current row hrow).1
  have hquiet : ∀ {other : World Key}, other.clock = world.clock →
      other.database = world.database → other.log = world.log →
      ∃ more, Advances since world other more := by
    intro other hclock hdatabase hlog
    exact ⟨[], .of_database_eq hclock.ge hdatabase (hlog.trans (List.append_nil _).symm)⟩
  cases hstep with
  | restart key => exact hserves.elim
  | commit entropy htask => exact hserves.elim
  | tick now => exact ⟨[], .of_database_eq hserves rfl (List.append_nil _).symm⟩
  | enqueue entropy htask => exact ⟨_, .enqueue since htask entropy⟩
  | push outcome htask => exact ⟨_, .of_database_eq le_rfl rfl rfl⟩
  | @settle task item verdict rest htask =>
      obtain ⟨rfl, hpushed⟩ := hworld.settling task item verdict rest htask
      have hholds := hworld.fixed.invariant.tasks task
      rw [htask] at hholds
      obtain ⟨queued, hqueued, rfl, -⟩ := hholds.1
      refine ⟨[], rfl, le_rfl, le_rfl, rfl, fun row hrow => ?_, fun row hrow => ?_⟩
      · exact Or.inl (List.mem_of_mem_filter hrow)
      · by_cases hid : row.id = queued.id
        · obtain rfl := hworld.fixed.invariant.sound.wellFormed.row_eq_of_id_eq hrow hqueued hid
          exact Or.inr hpushed
        · exact Or.inl (List.mem_filter.mpr ⟨hrow, by simp [hid]⟩)
  | requeueBlocked =>
      refine hquiet rfl ?_ rfl
      have hrows : world.database.setOutbox.map (fun row => if row.status = .blocked then
          { row with
            status := .pending
            attempts := 0
            nextAttemptAt := world.clock
            lastError := none }
          else row) = world.database.setOutbox := by
        refine (List.map_congr_left fun row hrow => ?_).trans (List.map_id _)
        rw [if_neg (by rw [hpending row hrow]; decide), id]
      change requeueBlockedOutbox world.clock world.database = world.database
      rw [requeueBlockedOutbox, hrows]
  | deleteBlocked =>
      refine ⟨_, .of_database_eq le_rfl ?_ rfl⟩
      have hrows : world.database.setOutbox.filter (fun row => row.status ≠ .blocked) =
          world.database.setOutbox := by
        refine List.filter_eq_self.mpr fun row hrow => ?_
        simp [hpending row hrow]
      change deleteBlockedOutbox world.database = world.database
      rw [deleteBlockedOutbox, hrows]
  | _ => exact hquiet rfl rfl rfl

/-- A delivery that is read goes on to its push. -/
theorem exists_routeItem (hworld : Recovering fernet key start since world)
    (henabled : ∀ row ∈ start.database.streams, row.status = .enabled)
    {item : OutboxItem} {payload : Dict} {found : Option Stream}
    (hqueued : Queued world.database item)
    (hpayload : readPayload fernet world.key item = .ok payload)
    (hfound : getStreamById fernet world.key item.streamId world.database = .ok found) :
    ∃ stream, routeItem payload found = .ok stream := by
  rcases hroute : routeItem payload found with verdict | stream
  · rcases routeItem_eq_error hroute with rfl | rfl
    · exact absurd hroute (hworld.fixed.routeItem_ne_cancel hqueued hpayload hfound)
    · exfalso
      rcases found with _ | stream
      · cases hroute
      · obtain ⟨row, hrow, hread⟩ := getStreamById_eq_ok_some fernet hfound
        have hstatus : stream.status = .enabled := by
          rw [(rowToStream_eq_ok fernet hread).2.2.2.1]
          exact henabled row (hworld.streams ▸ List.mem_of_find?_eq_some hrow)
        simp only [routeItem, hstatus] at hroute
        split_ifs at hroute
        · cases hroute
        · exact absurd rfl ‹_›
  · exact ⟨stream, rfl⟩

theorem settling_next (hworld : Recovering fernet key start since world)
    (henabled : ∀ row ∈ start.database.streams, row.status = .enabled)
    {action : Action Key Entropy} (hserves : Serves world action)
    (hstep : Step fernet world action next) {more : List Event}
    (hlog : next.log = world.log ++ more) (task : ℕ) (item : OutboxItem) (verdict : Verdict)
    (rest : List OutboxItem) (htask : next.tasks task = .settling item verdict rest) :
    verdict = .complete ∧ .pushed item.identity true ∈ since ++ more := by
  have hkept : ∀ {task item verdict rest}, world.tasks task = .settling item verdict rest →
      verdict = .complete ∧ .pushed item.identity true ∈ since ++ more := by
    intro task item verdict rest htask
    exact (hworld.settling task item verdict rest htask).imp_right
      (List.mem_append_left more)
  -- a task that rests anew decides for itself, the others keep their verdict
  have hupdate : ∀ {actor : ℕ} {settled : Task},
      (∀ item verdict items, settled = .settling item verdict items →
        verdict = .complete ∧ .pushed item.identity true ∈ since ++ more) →
      next.tasks = Function.update world.tasks actor settled →
      verdict = .complete ∧ .pushed item.identity true ∈ since ++ more := by
    intro actor settled hsettled htasks
    rw [htasks] at htask
    by_cases hactor : task = actor
    · rw [hactor, Function.update_self] at htask
      exact hsettled item verdict rest htask
    · rw [Function.update_of_ne hactor] at htask
      exact hkept htask
  cases hstep with
  | restart key => exact hserves.elim
  | tick now => exact hkept htask
  | patchById streamId payload _ | deleteCurrent _ =>
      refine hupdate (fun item verdict items hsettled => ?_) rfl
      have hlocked := congrArg Task.locked hsettled
      rw [locked_afterLookup] at hlocked
      cases hlocked
  | @reread actor item rest htask =>
      refine hupdate (fun settled verdict items hsettled => ?_) rfl
      rcases hcurrent : getDueOutboxItem world.clock item.id world.database with
        _ | current
      · simp [afterReread, hcurrent] at hsettled
      · rcases hread : readPayload fernet world.key current with verdict' | payload
        · exact absurd hread (hworld.fixed.readPayload_ne_error
            (queued_of_getDueOutboxItem hcurrent) verdict')
        · simp [afterReread, hcurrent, hread] at hsettled
  | @read actor item payload rest found hreading hfound =>
      refine hupdate (fun settled verdict items hsettled => ?_) rfl
      have hholds := hworld.fixed.invariant.tasks actor
      rw [hreading] at hholds
      obtain ⟨stream, hroute⟩ := hworld.exists_routeItem henabled hholds.1 hholds.2 hfound
      simp [afterRead, hroute] at hsettled
  | @push actor item payload stream rest outcome _ =>
      refine hupdate (fun settled verdict items hsettled => ?_) rfl
      obtain ⟨rfl, rfl, rfl⟩ := Task.settling.inj hsettled
      obtain rfl : outcome = .delivered := hserves
      have hmore : more = [.pushed item.identity true] := (List.append_cancel_left hlog).symm
      exact ⟨rfl, List.mem_append_right _ (hmore ▸ List.mem_singleton_self _)⟩
  | requeueBlocked => exact hkept htask
  | deleteBlocked => exact hkept htask
  | _ => exact hupdate (fun item verdict items hsettled => by cases hsettled) rfl

theorem next_of_serves (hworld : Recovering fernet key start since world)
    (henabled : ∀ row ∈ start.database.streams, row.status = .enabled)
    {action : Action Key Entropy} (hserves : Serves world action)
    (hstep : Step fernet world action next) :
    ∃ more, Recovering fernet key start (since ++ more) next ∧
      Advances since world next more := by
  have hkeeps : KeepsKey key action := by
    cases action with
    | restart other => exact hserves.elim
    | _ => trivial
  obtain ⟨more, hadvances⟩ := hworld.advances hserves hstep
  refine ⟨more, ?_, hadvances⟩
  constructor
  · exact hworld.fixed.of_step hkeeps hstep
  · exact hadvances.streams.trans hworld.streams
  · exact hworld.clock.trans hadvances.clock
  · exact hworld.counter.trans hadvances.counter
  · rw [hadvances.log, hworld.log, List.append_assoc]
  · intro row hrow
    rcases hadvances.rows row hrow with hbefore | ⟨hid, hnext, task, hstamped⟩
    · refine (hworld.rows row hbefore).imp_right fun hadded => ?_
      exact ⟨hadded.1, hadded.2.1, hadded.2.2.trans hadvances.clock⟩
    · obtain ⟨hstart, hclock⟩ := hworld.stamps task _ hstamped
      exact Or.inr ⟨hworld.counter.trans hid, hstart, hnext ▸ hclock.trans hadvances.clock⟩
  · intro row hrow
    rcases hworld.kept row hrow with hbefore | hdelivered
    · exact (hadvances.kept row hbefore).imp_right (List.mem_append_left more)
    · exact Or.inr (List.mem_append_left more hdelivered)
  · exact hworld.settling_next henabled hserves hstep hadvances.log
  · exact (hworld.stamps.next ⟨hworld.clock, le_rfl⟩ hstep).mono fun _ hnow =>
      hnow.imp_right hadvances.clock.trans'

/-- A due row is found again. -/
theorem mem_remaining_afterReread (hworld : Recovering fernet key start since world)
    {row : OutboxRow} (hrow : row ∈ world.database.setOutbox)
    (hdue : row.nextAttemptAt ≤ world.clock) {item : OutboxItem} {rest : List OutboxItem}
    (hremaining : row.id ∈ (Task.rereading item rest).remaining) :
    row.id ∈ (afterReread fernet world.key rest
      (getDueOutboxItem world.clock item.id world.database)).remaining := by
  rcases hcurrent : getDueOutboxItem world.clock item.id world.database with _ | current
  · refine (List.mem_cons.mp hremaining).resolve_left fun hid => ?_
    rw [getDueOutboxItem, Option.map_eq_none_iff, List.find?_eq_none] at hcurrent
    refine hcurrent row hrow ?_
    simp [hid, OutboxRow.isDue, (hworld.fixed.current row hrow).1, hdue]
  · obtain ⟨-, -, -, hsame, -⟩ := getDueOutboxItem_id hcurrent
    rw [afterReread]
    split
    all_goals
      rw [Task.remaining, hsame]
      exact hremaining

theorem remaining_next (hworld : Recovering fernet key start since world)
    {action : Action Key Entropy} (hserves : Serves world action)
    (hstep : step fernet world action = some next) {row : OutboxRow}
    (hrow : row ∈ world.database.setOutbox) (hdue : row.nextAttemptAt ≤ world.clock)
    (hnext : row ∈ next.database.setOutbox) {task : ℕ}
    (hremaining : row.id ∈ (world.tasks task).remaining) :
    row.id ∈ (next.tasks task).remaining := by
  have hmoved : ∀ {actor : ℕ} {before after : Task}, world.tasks actor = before →
      next.tasks = Function.update world.tasks actor after →
      (row.id ∈ before.remaining → row.id ∈ after.remaining) →
      row.id ∈ (next.tasks task).remaining := by
    intro actor before after hbefore htasks hafter
    rw [htasks]
    by_cases hactor : task = actor
    · rw [hactor, Function.update_self]
      exact hafter (hbefore ▸ hactor ▸ hremaining)
    · rwa [Function.update_of_ne hactor]
  have htaken := Step.of_step hstep
  cases htaken with
  | restart key => exact hserves.elim
  | commit entropy htask => exact hserves.elim
  | tick now => exact hremaining
  | webhook htask _ | stamp htask | enqueue _ htask | request htask _ | patchById _ _ htask
  | deleteCurrent htask | acquireOperation _ htask | releaseOperation htask
  | startDelivery htask => exact hmoved htask rfl fun hmem => absurd hmem List.not_mem_nil
  | acquireItem _ htask | releaseItem htask | push _ htask => exact hmoved htask rfl id
  | reread htask =>
      exact hmoved htask rfl fun hmem => hworld.mem_remaining_afterReread hrow hdue hmem
  | read htask _ =>
      refine hmoved htask rfl fun hmem => ?_
      rw [afterRead]
      split <;> exact hmem
  | @readFailed actor item payload rest htask =>
      -- the stream can be read
      obtain ⟨found, hfound⟩ := exists_getStreamById
        hworld.fixed.invariant.sound.readable item.streamId
      simp only [step, htask, hfound, Option.some.injEq] at hstep
      have hidle := congrArg (fun other : World Key => (other.tasks actor).locked) hstep
      simp only [World.setTask, World.leave, Function.update_self, locked_afterRead] at hidle
      cases hidle
  | @settle actor item verdict rest htask =>
      refine hmoved htask rfl fun hmem => (List.mem_cons.mp hmem).resolve_left fun hid => ?_
      obtain ⟨rfl, -⟩ := hworld.settling actor item verdict rest htask
      have hkept := (List.mem_filter.mp hnext).2
      simp [hid, (hworld.fixed.current row hrow).1] at hkept
  | requeueBlocked => exact hremaining
  | deleteBlocked => exact hremaining
  | abort actor =>
      refine hmoved rfl rfl fun hmem => ?_
      have hnothing : (world.tasks actor).remaining = [] := hserves
      rw [hnothing] at hmem
      exact absurd hmem List.not_mem_nil

/-- After an hour every row is due. -/
theorem due (hworld : Recovering fernet key start since world)
    (hstart : Timely start.clock start.database) (hclock : start.clock + 3600 ≤ world.clock)
    {row : OutboxRow} (hrow : row ∈ world.database.setOutbox) :
    row.nextAttemptAt ≤ world.clock := by
  rcases hworld.rows row hrow with hold | hadded
  · exact (hstart row hold).2.trans hclock
  · exact hadded.2.2

omit [PyRuntime] in
/-- No step brings a row back. -/
theorem mem_of_mem_next {more : List Event} (hadvances : Advances since world next more)
    {row : OutboxRow} (hrow : row ∈ next.database.setOutbox)
    (hid : row.id < world.database.nextOutboxId) : row ∈ world.database.setOutbox :=
  (hadvances.rows row hrow).resolve_right fun hadded => absurd hid (Nat.not_lt.mpr hadded.1)

theorem of_pathWhere (hworld : Recovering fernet key start since world)
    (henabled : ∀ row ∈ start.database.streams, row.status = .enabled)
    (hpath : (service fernet).PathWhere Serves world next) :
    (∃ more, Recovering fernet key start (since ++ more) next) ∧ world.clock ≤ next.clock ∧
      world.database.nextOutboxId ≤ next.database.nextOutboxId ∧
      ∀ row ∈ next.database.setOutbox, row.id < world.database.nextOutboxId →
        row ∈ world.database.setOutbox := by
  refine @TransitionSystem.PathWhere.preserves _ _ _ _
    (fun later : World Key => (∃ more, Recovering fernet key start (since ++ more) later) ∧
      world.clock ≤ later.clock ∧
      world.database.nextOutboxId ≤ later.database.nextOutboxId ∧
      ∀ row ∈ later.database.setOutbox, row.id < world.database.nextOutboxId →
        row ∈ world.database.setOutbox) _ _ hpath ?_ ?_
  · rintro source action target ⟨⟨more, hsource⟩, hclock, hcounter, hrows⟩ hserves hstep
    obtain ⟨added, htarget, hadvances⟩ :=
      hsource.next_of_serves henabled hserves (Step.of_step hstep)
    rw [List.append_assoc] at htarget
    refine ⟨⟨_, htarget⟩, hclock.trans hadvances.clock, hcounter.trans hadvances.counter, ?_⟩
    intro row hrow hid
    exact hrows row (mem_of_mem_next hadvances hrow (hid.trans_le hcounter)) hid
  · exact ⟨⟨[], by rwa [List.append_nil]⟩, le_rfl, le_rfl, fun row hrow _ => hrow⟩

/-- A pass leaves none of the rows that it began with. -/
theorem gone_of_pass (hworld : Recovering fernet key start since world)
    (henabled : ∀ row ∈ start.database.streams, row.status = .enabled)
    (hstart : Timely start.clock start.database) (hclock : start.clock + 3600 ≤ world.clock)
    (hpath : (service fernet).PathWhere Serves world next) {task : ℕ}
    {rows : List OutboxRow} (hrows : rows ⊆ world.database.setOutbox)
    (hremaining : ∀ row ∈ rows, row.id ∈ (world.tasks task).remaining)
    (hdone : (next.tasks task).remaining = []) :
    ∀ row ∈ rows, row ∉ next.database.setOutbox := by
  have hinvariant : (∃ more, Recovering fernet key start (since ++ more) next) ∧
      start.clock + 3600 ≤ next.clock ∧
      world.database.nextOutboxId ≤ next.database.nextOutboxId ∧
      ∀ row ∈ rows, row ∈ next.database.setOutbox → row.id ∈ (next.tasks task).remaining := by
    refine @TransitionSystem.PathWhere.preserves _ _ _ _
      (fun later : World Key => (∃ more, Recovering fernet key start (since ++ more) later) ∧
        start.clock + 3600 ≤ later.clock ∧
        world.database.nextOutboxId ≤ later.database.nextOutboxId ∧
        ∀ row ∈ rows, row ∈ later.database.setOutbox →
          row.id ∈ (later.tasks task).remaining) _ _ hpath ?_ ?_
    · rintro source action target ⟨⟨more, hsource⟩, hlate, hcounter, hlisted⟩ hserves hstep
      obtain ⟨added, htarget, hadvances⟩ :=
        hsource.next_of_serves henabled hserves (Step.of_step hstep)
      rw [List.append_assoc] at htarget
      refine ⟨⟨_, htarget⟩, hlate.trans hadvances.clock, hcounter.trans hadvances.counter, ?_⟩
      intro row hrow hkept
      have hbelow : row.id < world.database.nextOutboxId :=
        hworld.fixed.invariant.sound.wellFormed.below _ (mem_stored_of_mem (hrows hrow))
      have hsourceRow : row ∈ source.database.setOutbox :=
        mem_of_mem_next hadvances hkept (hbelow.trans_le hcounter)
      exact hsource.remaining_next hserves hstep hsourceRow
        (hsource.due hstart hlate hsourceRow) hkept (hlisted row hrow hsourceRow)
    · exact ⟨⟨[], by rwa [List.append_nil]⟩, hclock, le_rfl, fun row hrow _ =>
        hremaining row hrow⟩
  intro row hrow hkept
  have hlisted := hinvariant.2.2.2 row hrow hkept
  rw [hdone] at hlisted
  exact absurd hlisted List.not_mem_nil

end Recovering

/-! ## WorkerPasses of the worker -/

/-- The order of `get_due_outbox`. -/
def Before (left right : OutboxRow) : Prop :=
  left.createdAt < right.createdAt ∨
    (left.createdAt = right.createdAt ∧ left.id ≤ right.id)

instance : DecidableRel Before := fun left right =>
  inferInstanceAs (Decidable (left.createdAt < right.createdAt ∨
    (left.createdAt = right.createdAt ∧ left.id ≤ right.id)))

instance : Std.Total Before where
  total left right := by
    unfold Before
    omega

instance : IsTrans OutboxRow Before where
  trans left middle right hleft hright := by
    unfold Before at *
    omega

omit [PyRuntime] in
/-- Where every row is due, a pass takes the front of the queue. -/
theorem getDueOutbox_eq {now : ℕ} {database : Database}
    (hdue : ∀ row ∈ database.setOutbox, row.isDue now = true) :
    getDueOutbox now database =
      ((database.setOutbox.insertionSort Before).take 25).map OutboxRow.toOutboxItem := by
  have hall : database.setOutbox.filter (OutboxRow.isDue now) = database.setOutbox :=
    List.filter_eq_self.mpr hdue
  rw [getDueOutbox, hall]
  rfl

omit [PyRuntime] in
theorem nodup_setOutbox {database : Database} (hdatabase : database.WellFormed) :
    database.setOutbox.Nodup := by
  have hids := hdatabase.nodup
  rw [Database.stored, List.map_map] at hids
  exact hids.of_map

/-- What was queued after the start does not come before what was stored then. -/
theorem Recovering.not_before {key : Key} {start world : World Key} {since : List Event}
    (hworld : Recovering fernet key start since world)
    (hstart : Timely start.clock start.database) (hwellFormed : start.database.WellFormed)
    {early other : OutboxRow} (hearly : early ∈ start.database.setOutbox)
    (hother : other ∈ world.database.setOutbox) (hlate : other ∉ start.database.setOutbox) :
    ¬Before other early := by
  obtain ⟨hid, hcreated, -⟩ := (hworld.rows other hother).resolve_left hlate
  have hbelow : early.id < start.database.nextOutboxId :=
    hwellFormed.below _ (mem_stored_of_mem hearly)
  have hqueued := (hstart early hearly).1
  unfold Before
  omega

/-- What is left of the start was there all the time. -/
theorem Recovering.filter_eq {key : Key} {start middle later : World Key}
    {since : List Event} (hmiddle : Recovering fernet key start since middle)
    (hwellFormed : start.database.WellFormed)
    (hback : ∀ row ∈ later.database.setOutbox, row.id < middle.database.nextOutboxId →
      row ∈ middle.database.setOutbox) :
    start.database.setOutbox.filter (· ∈ later.database.setOutbox) =
      (start.database.setOutbox.filter (· ∈ middle.database.setOutbox)).filter
        (· ∈ later.database.setOutbox) := by
  rw [List.filter_filter]
  refine List.filter_congr fun row hrow => ?_
  have hbelow : row.id < middle.database.nextOutboxId :=
    (hwellFormed.below _ (mem_stored_of_mem hrow)).trans_le hmiddle.counter
  by_cases hkept : row ∈ later.database.setOutbox
  · simp [hkept, hback row hkept hbelow]
  · simp [hkept]

/-- A completed pass takes 25 of the rows that were stored at the start, or all. -/
theorem Recovering.length_of_pass {key : Key} {start middle begun later : World Key}
    {since : List Event} {task : ℕ} (hmiddle : Recovering fernet key start since middle)
    (henabled : ∀ row ∈ start.database.streams, row.status = .enabled)
    (hstart : Timely start.clock start.database) (hwellFormed : start.database.WellFormed)
    (hclock : start.clock + 3600 ≤ middle.clock)
    (hbegin : step fernet middle (Action.startDelivery task : Action Key Entropy) = some begun)
    (hpath : (service fernet).PathWhere Serves begun later)
    (hdone : later.tasks task = .batch []) :
    (start.database.setOutbox.filter (· ∈ later.database.setOutbox)).length ≤
      (start.database.setOutbox.filter (· ∈ middle.database.setOutbox)).length - 25 := by
  obtain ⟨more, hbegun, -⟩ := hmiddle.next_of_serves henabled (by trivial)
    (Step.of_step hbegin)
  obtain ⟨-, -, -, hback⟩ := hbegun.of_pathWhere henabled hpath
  cases Step.of_step hbegin with
  | startDelivery htask =>
  set queue := middle.database.setOutbox.insertionSort Before with hqueue
  have hperm : queue.Perm middle.database.setOutbox := List.perm_insertionSort ..
  have hgone : ∀ row ∈ queue.take 25, row ∉ later.database.setOutbox := by
    refine hbegun.gone_of_pass henabled hstart hclock hpath
      (fun row hrow => hperm.subset (List.mem_of_mem_take hrow)) (fun row hrow => ?_)
      (by rw [hdone]; rfl)
    have hdue : ∀ other ∈ middle.database.setOutbox, other.isDue middle.clock = true := by
      intro other hother
      simp [OutboxRow.isDue, (hmiddle.fixed.current other hother).1,
        hmiddle.due hstart hclock hother]
    simp only [World.setTask, Function.update_self, getDueOutbox_eq hdue, ← hqueue]
    exact List.mem_map_of_mem (List.mem_map_of_mem hrow)
  rw [hmiddle.filter_eq hwellFormed hback]
  refine length_filter_le_of_take 25 (List.pairwise_insertionSort Before _)
    (hperm.nodup_iff.mpr (nodup_setOutbox hmiddle.fixed.invariant.sound.wellFormed))
    ((nodup_setOutbox hwellFormed).filter _)
    (fun row hrow => hperm.symm.subset (of_decide_eq_true (List.mem_filter.mp hrow).2))
    (fun row hrow other hother hlate => ?_) hgone
  have hstored := hperm.subset hother
  refine hmiddle.not_before hstart hwellFormed (List.mem_of_mem_filter hrow) hstored
    fun hold => hlate (List.mem_filter.mpr ⟨hold, decide_eq_true hstored⟩)

/-! ## After the recovery -/

/-- The lock is free at the start: no pass is under way. -/
theorem recovering_refl {key : Key} {start : World Key}
    (hstart : FixedKeyInvariant fernet key start) (hlock : start.lock = none)
    (hstamps : Stamps (fun now => start.clock ≤ now ∧ now ≤ start.clock) start) :
    Recovering fernet key start [] start where
  fixed := hstart
  streams := rfl
  clock := le_rfl
  counter := le_rfl
  log := (List.append_nil _).symm
  rows _ hrow := Or.inl hrow
  kept _ hrow := Or.inl hrow
  settling task item verdict rest htask := by
    have hlocked := (hstart.invariant.lock task).mp (by rw [htask]; rfl)
    rw [hlock] at hlocked
    cases hlocked
  stamps := hstamps

theorem recovering_of_passes {key : Key} {start later : World Key} {passes : ℕ}
    (hinvariant : FixedKeyInvariant fernet key start) (hlock : start.lock = none)
    (henabled : ∀ row ∈ start.database.streams, row.status = .enabled)
    (hstart : Timely start.clock start.database)
    (hstamps : Stamps (fun now => start.clock ≤ now ∧ now ≤ start.clock) start)
    (hpasses : WorkerPasses fernet (start.clock + 3600) start passes later) :
    (∃ since, Recovering fernet key start since later) ∧
      (start.database.setOutbox.filter (· ∈ later.database.setOutbox)).length ≤
        start.database.setOutbox.length - 25 * passes := by
  have hwellFormed := hinvariant.invariant.sound.wellFormed
  induction hpasses with
  | refl =>
      exact ⟨⟨[], recovering_refl hinvariant hlock hstamps⟩, List.length_filter_le _ _⟩
  | between _ hpath ih =>
      obtain ⟨⟨since, hmiddle⟩, hlength⟩ := ih
      obtain ⟨⟨more, hworld⟩, -, -, hback⟩ := hmiddle.of_pathWhere henabled hpath
      rw [hmiddle.filter_eq hwellFormed hback]
      exact ⟨⟨_, hworld⟩, (List.length_filter_le _ _).trans hlength⟩
  | pass _ hclock hbegin hpath hdone ih =>
      obtain ⟨⟨since, hmiddle⟩, hlength⟩ := ih
      obtain ⟨more, hbegun, -⟩ := hmiddle.next_of_serves henabled (by trivial)
        (Step.of_step hbegin)
      obtain ⟨⟨added, hworld⟩, -⟩ := hbegun.of_pathWhere henabled hpath
      have htaken := hmiddle.length_of_pass henabled hstart hwellFormed hclock hbegin hpath hdone
      exact ⟨⟨_, hworld⟩, by omega⟩

/-- Once the receiver accepts its deliveries, each pass of the worker that begins an hour
after or later takes 25 of the rows that were stored, and every row that it takes was
delivered: as many passes as there are rows for deliver all of them.  At the start no webhook
holds an earlier time for a transaction that it has still to make. -/
theorem delivered_of_passes {key : Key} {start later : World Key} {passes : ℕ}
    (hstart : (service fernet).PathWhere (Steady key) (World.init key) start)
    (hlock : start.lock = none)
    (henabled : ∀ row ∈ start.database.streams, row.status = .enabled)
    (hstamps : ∀ task, ∀ now ∈ (start.tasks task).stampedAt, start.clock ≤ now)
    (hpasses : WorkerPasses fernet (start.clock + 3600) start passes later) :
    (start.database.setOutbox.filter (· ∈ later.database.setOutbox)).length ≤
        start.database.setOutbox.length - 25 * passes ∧
      ∃ since, later.log = start.log ++ since ∧
        (∀ row ∈ start.database.setOutbox, row ∈ later.database.setOutbox ∨
          .pushed row.identity true ∈ since) ∧
        (start.database.setOutbox.length ≤ 25 * passes →
          ∀ row ∈ start.database.setOutbox, .pushed row.identity true ∈ since) := by
  have hinvariant := FixedKeyInvariant.of_path
    (hstart.path fun _ _ hsteady => hsteady.keepsKey)
  obtain ⟨htimely, hpast⟩ := timely_of_path hstart
  obtain ⟨⟨since, hlater⟩, hlength⟩ := recovering_of_passes hinvariant hlock henabled htimely
    (fun task now hnow => ⟨hstamps task now hnow, hpast task now hnow⟩) hpasses
  refine ⟨hlength, since, hlater.log, hlater.kept, fun henough row hrow => ?_⟩
  have hnothing : start.database.setOutbox.filter (· ∈ later.database.setOutbox) = [] :=
    List.eq_nil_of_length_eq_zero (by omega)
  refine (hlater.kept row hrow).resolve_left fun hleft => ?_
  exact List.filter_eq_nil_iff.mp hnothing row hrow (decide_eq_true hleft)

/-! ## Passes can be made -/

namespace Recovering

variable {fernet : Fernet Key Entropy} {key : Key} {start world : World Key}
  {since : List Event} {task : ℕ}

/-- An item is pushed to the receiver and deleted, or no longer due. -/
theorem exists_leaving (hworld : Recovering fernet key start since world)
    (henabled : ∀ row ∈ start.database.streams, row.status = .enabled) {item : OutboxItem}
    {rest : List OutboxItem} (hlock : world.lock = some task)
    (htask : world.tasks task = .rereading item rest) :
    ∃ later, (service fernet).PathWhere Serves world later ∧ later.lock = some task ∧
      later.tasks task = .leaving rest := by
  rcases hcurrent : getDueOutboxItem world.clock item.id world.database with _ | current
  · have hstep : (service fernet).step world (.reread task : Action Key Entropy) =
        some (world.setTask task (.leaving rest)) := by
      rw [service_step, step, htask]
      simp [hcurrent, afterReread]
    exact ⟨_, .step .refl (by trivial) hstep, hlock, Function.update_self ..⟩
  · have hqueued := queued_of_getDueOutboxItem hcurrent
    rcases hread : readPayload fernet world.key current with verdict | payload
    · exact absurd hread (hworld.fixed.readPayload_ne_error hqueued verdict)
    obtain ⟨found, hfound⟩ := exists_getStreamById
      hworld.fixed.invariant.sound.readable current.streamId
    obtain ⟨stream, hroute⟩ := hworld.exists_routeItem henabled hqueued hread hfound
    obtain ⟨later, hrun, hlater, hleaving⟩ : ∃ later, (service fernet).run world
        [.reread task, .read task, .push task .delivered, .settle task] = some later ∧
        later.lock = some task ∧ later.tasks task = .leaving rest := by
      simp [TransitionSystem.run, service_step, step, htask, World.setTask, World.transact,
        hcurrent, afterReread, hread, hfound, afterRead, hroute, verdictOf, hlock]
    exact ⟨later, .of_run .refl (by simp [Serves]) hrun, hlater, hleaving⟩

theorem exists_later (hworld : Recovering fernet key start since world)
    (henabled : ∀ row ∈ start.database.streams, row.status = .enabled) {later : World Key}
    (hpath : (service fernet).PathWhere Serves world later) :
    ∃ more, Recovering fernet key start more later := by
  obtain ⟨⟨more, hlater⟩, -⟩ := hworld.of_pathWhere henabled hpath
  exact ⟨_, hlater⟩

/-- The items of a batch are dealt with one after the other. -/
theorem exists_batch_done (hworld : Recovering fernet key start since world)
    (henabled : ∀ row ∈ start.database.streams, row.status = .enabled)
    {items : List OutboxItem} (hlock : world.lock = none)
    (htask : world.tasks task = .batch items) :
    ∃ later, (service fernet).PathWhere Serves world later ∧ later.lock = none ∧
      later.tasks task = .batch [] := by
  induction items generalizing world since with
  | nil => exact ⟨world, .refl, hlock, htask⟩
  | cons item rest ih =>
      have hacquire : (service fernet).step world (.acquire task : Action Key Entropy) =
          some (world.enter task (.rereading item rest)) := by
        rw [service_step, step, hlock, htask]
      have hentered : (service fernet).PathWhere Serves world _ :=
        .step .refl (by trivial) hacquire
      obtain ⟨more, hreading⟩ := hworld.exists_later henabled hentered
      obtain ⟨dealt, hdeal, hheld, hleaving⟩ :=
        hreading.exists_leaving henabled rfl (Function.update_self ..)
      have hrelease : (service fernet).step dealt (.release task : Action Key Entropy) =
          some (dealt.leave task (.batch rest)) := by
        rw [service_step, step, hleaving]
      have hreleased := (hentered.trans hdeal).step (by trivial) hrelease
      obtain ⟨added, hfree⟩ := hworld.exists_later henabled hreleased
      obtain ⟨later, hlater, hunlocked, hdone⟩ :=
        ih hfree (if_pos hheld) (Function.update_self ..)
      exact ⟨later, hreleased.trans hlater, hunlocked, hdone⟩

end Recovering

/-- A worker that is idle can make any number of passes. -/
theorem exists_workerPasses {fernet : Fernet Key Entropy} {key : Key} {start : World Key}
    (hstart : Recovering fernet key start [] start) (hlock : start.lock = none)
    (henabled : ∀ row ∈ start.database.streams, row.status = .enabled) {task : ℕ}
    (htask : start.tasks task = .idle) (deadline passes : ℕ) :
    ∃ later, WorkerPasses fernet deadline start passes later := by
  have hpasses : ∃ later since, WorkerPasses fernet deadline start passes later ∧
      Recovering fernet key start since later ∧ deadline ≤ later.clock ∧ later.lock = none ∧
      later.tasks task = .idle := by
    induction passes with
    | zero =>
        have htick : (service fernet).PathWhere Serves start
            { start with clock := max start.clock deadline } :=
          .step .refl (show Serves start (.tick _ : Action Key Entropy) from le_max_left _ _) rfl
        obtain ⟨since, hlater⟩ := hstart.exists_later henabled htick
        exact ⟨_, since, .between .refl htick, hlater, le_max_right _ _, hlock, htask⟩
    | succ passes ih =>
        obtain ⟨middle, since, hmiddle, hworld, hclock, hfree, hidle⟩ := ih
        have hbegin : step fernet middle (.startDelivery task : Action Key Entropy) =
            some (middle.setTask task (.batch (getDueOutbox middle.clock middle.database))) := by
          rw [step, hidle]
        obtain ⟨more, hbegun, -⟩ := hworld.next_of_serves henabled (by trivial)
          (Step.of_step hbegin)
        obtain ⟨later, hpath, hunlocked, hdone⟩ :=
          hbegun.exists_batch_done henabled hfree (Function.update_self ..)
        -- the worker ends between its passes
        have hserves : Serves later (.abort task : Action Key Entropy) := by
          rw [Serves, hdone]
          rfl
        have hend : (service fernet).PathWhere Serves later (later.leave task .idle) :=
          .step .refl hserves rfl
        obtain ⟨⟨added, hlater⟩, hlate, -⟩ := hbegun.of_pathWhere henabled (hpath.trans hend)
        refine ⟨_, _, .between (.pass hmiddle hclock hbegin hpath hdone) hend, hlater,
          hclock.trans hlate, ?_, Function.update_self ..⟩
        rw [World.leave, hunlocked]
        rfl
  obtain ⟨later, -, hlater, -⟩ := hpasses
  exact ⟨later, hlater⟩

end Recovery

section Sample

open scoped SsfTransmitter.Python.Ascii

def crowdedEvents : List MappedEvent := List.replicate 26 sampleEvent

/-- The deliveries of a webhook with 26 events. -/
def crowdedDeliveries : List (Stream × Dict) :=
  enqueueEvents (fun _ _ => "signed") [sampleStream] crowdedEvents (ofString "user@example.com")

theorem length_crowdedDeliveries : crowdedDeliveries.length = 26 := by decide +kernel

/-- The service with more rows than a pass takes. -/
def crowdedWorld : World Bool where
  key := true
  database := ⟨[savedRow clearFernet true () sampleStream],
    insertedRows clearFernet true (fun _ => ()) 0 1 crowdedDeliveries, 27⟩
  clock := 0
  lock := none
  tasks := fun _ => .idle
  log := [.saved, .enqueued ((insertedRows clearFernet true (fun _ => ()) 0 1
    crowdedDeliveries).map fun row => row.identity)]

theorem enqueueOutbox_crowded :
    enqueueOutbox clearFernet true (fun _ => ()) 0 crowdedDeliveries
        (savedWorld clearFernet true () sampleStream).database =
      (.ok 26, crowdedWorld.database) := by
  have hstream : ∀ delivery ∈ crowdedDeliveries, delivery.1 = sampleStream := by
    decide +kernel
  have hchecked : (crowdedDeliveries.forM fun delivery => checkCurrent clearFernet true
      (savedWorld clearFernet true () sampleStream).database delivery.1) = .ok () := by
    refine forM_eq_ok_of_forall fun delivery hdelivery => ?_
    have hrow : streamRow sampleStream.streamId
        (savedWorld clearFernet true () sampleStream).database =
          some (savedRow clearFernet true () sampleStream) := streamRow_savedRow ..
    rw [hstream delivery hdelivery, checkCurrent, hrow]
    simp [rowToStream_savedRow, sampleStream]
  have hsome : crowdedDeliveries ≠ [] := by
    intro hnone
    have hlength := length_crowdedDeliveries
    rw [hnone] at hlength
    cases hlength
  rw [enqueueOutbox, if_neg hsome, hchecked]
  dsimp only
  rw [length_crowdedDeliveries, if_neg (by decide)]
  rfl

theorem run_crowded :
    (service clearFernet).run (savedWorld clearFernet true () sampleStream)
        [.webhook 0 crowdedEvents (ofString "user@example.com") (fun _ _ => "signed"), .stamp 0,
          .enqueue 0 fun _ => ()] = some crowdedWorld := by
  have hlist : listStreams clearFernet true
      (savedWorld clearFernet true () sampleStream).database = .ok [sampleStream] := by
    simp [savedWorld, saveStream, Database.init, listStreams, streamsByCreation,
      rowToStream_savedRow, bind, Except.bind, pure, Except.pure]
  have hkey : (savedWorld clearFernet true () sampleStream).key = true := rfl
  have hclock : (savedWorld clearFernet true () sampleStream).clock = 0 := rfl
  have hwebhook : step clearFernet (savedWorld clearFernet true () sampleStream)
      (.webhook 0 crowdedEvents (ofString "user@example.com") fun _ _ => "signed") =
      some ((savedWorld clearFernet true () sampleStream).setTask 0
        (.enqueuing crowdedDeliveries)) := by
    have hidle : (savedWorld clearFernet true () sampleStream).tasks 0 = .idle := rfl
    simp only [step, hidle, hkey, hlist]
    rfl
  rw [TransitionSystem.run, service_step, hwebhook]
  simp [TransitionSystem.run, service_step, step, World.setTask, World.transact, enqueueCommit,
    hkey, hclock, enqueueOutbox_crowded]
  simp [savedWorld, saveStream, Database.init, crowdedWorld]

theorem steady_crowdedWorld :
    (service clearFernet).PathWhere (Steady true) (World.init true) crowdedWorld := by
  have hsaved : (service clearFernet).PathWhere (Steady true) (World.init true) _ :=
    .of_run .refl (by simp [Steady]) (run_save clearFernet true () sampleStream)
  exact hsaved.of_run (by simp [Steady]) run_crowded

/-- Two passes deliver all 26. -/
theorem delivered_of_passes_sample :
    crowdedWorld.database.setOutbox.length = 26 ∧ ∃ (later : World Bool) (since : List Event),
      later.log = crowdedWorld.log ++ since ∧
        ∀ row ∈ crowdedWorld.database.setOutbox, .pushed row.identity true ∈ since := by
  have hlength : crowdedWorld.database.setOutbox.length = 26 := by
    simp [crowdedWorld, insertedRows, length_crowdedDeliveries]
  have hstamps : ∀ task, ∀ now ∈ (crowdedWorld.tasks task).stampedAt,
      crowdedWorld.clock ≤ now :=
    fun _ now _ => Nat.zero_le now
  have henabled : ∀ row ∈ crowdedWorld.database.streams, row.status = .enabled := by
    intro row hrow
    obtain rfl := List.mem_singleton.mp hrow
    rfl
  have hfixed := FixedKeyInvariant.of_path
    (steady_crowdedWorld.path fun _ _ hsteady => hsteady.keepsKey)
  have hrecovering := recovering_refl hfixed rfl fun task now hnow => by cases hnow
  have hidle : crowdedWorld.tasks 0 = .idle := rfl
  obtain ⟨later, hpasses⟩ :=
    exists_workerPasses hrecovering rfl henabled hidle (crowdedWorld.clock + 3600) 2
  obtain ⟨-, since, hlog, -, hall⟩ :=
    delivered_of_passes steady_crowdedWorld rfl henabled hstamps hpasses
  exact ⟨hlength, later, since, hlog, hall (by rw [hlength]; decide)⟩

end Sample

end SsfTransmitter.Service
