import SsfTransmitter.Service.Staleness

/-!
# A recorded success is final

When no crash, cancellation or database error comes between a push and the
recording of its outcome, a delivery that its receiver accepted is not pushed
again, whatever batches still hold it.
-/

namespace SsfTransmitter.Service

open SsfTransmitter.Core
open SsfTransmitter.Python
open SsfTransmitter.Store
open SsfTransmitter.Outbox

/-- The task pushed an item and has yet to record the outcome. -/
def Task.unrecorded : Task → Bool
  | .settling _ .complete _ | .settling _ (.retry _) _ => true
  | _ => false

/-- The action ends a task between a push and the recording of its outcome: the
process crashes, or the task is cancelled or its transaction fails. -/
def Interrupts {Key Entropy : Type*} (world : World Key) : Action Key Entropy → Prop
  | .restart _ => ∃ task, (world.tasks task).unrecorded = true
  | .abort task => (world.tasks task).unrecorded = true
  | _ => False

section Redelivery

variable {Key Entropy : Type*} (fernet : Fernet Key Entropy) [PyRuntime]

/-- The runs that record every outcome. -/
def ReachableRecorded (world : World Key) : Prop :=
  (service fernet).ReachableWhere (fun source action => ¬Interrupts source action) world

/-- A task that has yet to record that the item was delivered. -/
def Settling (world : World Key) (itemId : ℕ) : Prop :=
  ∃ task item rest, world.tasks task = .settling item .complete rest ∧ item.id = itemId

/-- Every item that a receiver accepted is gone, or about to be deleted. -/
def DeliveredGone (world : World Key) : Prop :=
  ∀ item, Event.pushed item true ∈ world.log →
    Gone item.id world.database ∨ Settling world item.id

/-- A push of an item that its receiver has already accepted. -/
def Event.Repeats (earlier later : Event) : Prop :=
  ∃ item again delivered, earlier = .pushed item true ∧
    later = .pushed again delivered ∧ again.id = item.id

variable {fernet}

/-- Only the end of a push is logged as a push. -/
theorem Step.log_cases {world next : World Key} {action : Action Key Entropy}
    (hstep : Step fernet world action next) :
    (∃ events, next.log = world.log ++ events ∧
      ∀ item delivered, Event.pushed item delivered ∉ events) ∨
    ∃ task item payload stream rest outcome,
      world.tasks task = .pushing item payload stream rest ∧
      next.tasks task = .settling item (verdictOf outcome) rest ∧
      next.log = world.log ++ [.pushed item.identity (outcome = .delivered)] := by
  cases hstep with
  | enqueue entropy htask =>
      refine Or.inl ⟨_, rfl, fun item delivered => ?_⟩
      rw [enqueueCommit]
      split <;> simp
  | @commit task operation entropy htask =>
      refine Or.inl ⟨_, rfl, fun item delivered => ?_⟩
      cases operation with
      | save stream => simp [LockedOperation.commit]
      | update requestedId payload =>
          simp only [LockedOperation.commit]
          split
          · rw [reconfiguration]
            split_ifs <;> simp
          · simp
      | delete streamId =>
          simp only [LockedOperation.commit]
          split_ifs <;> simp
      | discardPending => simp [LockedOperation.commit]
  | push outcome htask =>
      exact Or.inr ⟨_, _, _, _, _, outcome, htask, Function.update_self .., rfl⟩
  | settle htask => exact Or.inl ⟨[], rfl, by simp⟩
  | deleteBlocked => exact Or.inl ⟨_, rfl, by simp⟩
  | _ => exact Or.inl ⟨[], (List.append_nil _).symm, by simp⟩

omit [PyRuntime] in
/-- The deletion of a delivered item. -/
theorem gone_completeOutboxItem {database : Database} {item : OutboxItem}
    (hdatabase : database.WellFormed) (hqueued : Queued database item) :
    Gone item.id (completeOutboxItem item.id database) := by
  refine ⟨hdatabase.below _ hqueued.mem_stored, fun other hother hid => ?_⟩
  obtain ⟨row, hrow, hidentity⟩ := List.mem_map.mp hother
  obtain ⟨hmem, hkept⟩ := List.mem_filter.mp hrow
  obtain ⟨queued, hqueued, rfl, hpending⟩ := hqueued
  have hrowId : row.id = queued.id := by
    rw [← hidentity] at hid
    exact hid
  obtain rfl := hdatabase.row_eq_of_id_eq hmem hqueued hrowId
  simp [hpending] at hkept

omit [PyRuntime] in
/-- A task that rests where it did still has its outcome to record. -/
theorem Settling.of_tasks_eq {world next : World Key} {task : ℕ} {item : OutboxItem}
    {rest : List OutboxItem} (htask : world.tasks task = .settling item .complete rest)
    (hsame : next.tasks task = world.tasks task) : Settling next item.id :=
  ⟨task, item, rest, hsame.trans htask, rfl⟩

/-- The outcome is recorded before the task goes on. -/
theorem Settling.next {world next : World Key} {action : Action Key Entropy} {itemId : ℕ}
    (hsettling : Settling world itemId) (hworld : Invariant fernet world)
    (hstep : Step fernet world action next) (hallowed : ¬Interrupts world action) :
    Gone itemId next.database ∨ Settling next itemId := by
  obtain ⟨task, item, rest, htask, rfl⟩ := hsettling
  have hother : ∀ actor moved, next.tasks = Function.update world.tasks actor moved →
      actor ≠ task → Gone item.id next.database ∨ Settling next item.id := by
    intro actor moved htasks hactor
    refine Or.inr (Settling.of_tasks_eq htask ?_)
    rw [htasks, Function.update_of_ne (Ne.symm hactor)]
  have hunrecorded : (world.tasks task).unrecorded = true := by rw [htask]; rfl
  cases hstep with
  | restart key => exact absurd ⟨task, hunrecorded⟩ hallowed
  | abort actor =>
      refine hother actor .idle rfl ?_
      rintro rfl
      exact hallowed hunrecorded
  | @settle actor settled verdict others hactor =>
      by_cases hsame : actor = task
      · subst hsame
        rw [htask] at hactor
        obtain ⟨rfl, rfl, rfl⟩ := Task.settling.inj hactor
        have hholds := hworld.tasks actor
        rw [htask] at hholds
        exact Or.inl (gone_completeOutboxItem hworld.sound.wellFormed hholds.1)
      · exact hother actor _ rfl hsame
  | tick now => exact Or.inr (Settling.of_tasks_eq htask rfl)
  | requeueBlocked => exact Or.inr (Settling.of_tasks_eq htask rfl)
  | deleteBlocked => exact Or.inr (Settling.of_tasks_eq htask rfl)
  | acquireOperation _ hactor =>
      exact hother _ _ rfl fun hsame => by simp [← hsame, hactor] at htask
  | acquireItem _ hactor =>
      exact hother _ _ rfl fun hsame => by simp [← hsame, hactor] at htask
  | webhook hactor _ | stamp hactor | enqueue _ hactor | request hactor _ | patchById _ _ hactor
  | deleteCurrent hactor | commit _ hactor | releaseOperation hactor
  | releaseItem hactor | startDelivery hactor | reread hactor | read hactor _
  | readFailed hactor | push _ hactor =>
      exact hother _ _ rfl fun hsame => by simp [← hsame, hactor] at htask

/-- A task at its push holds an item that was not delivered yet. -/
theorem DeliveredGone.ne_of_pushing {world : World Key} (hgone : DeliveredGone world)
    (hworld : Invariant fernet world) {task : ℕ} {item : OutboxItem} {payload : Dict}
    {stream : Stream} {rest : List OutboxItem}
    (htask : world.tasks task = .pushing item payload stream rest)
    {delivered : ItemIdentity} (hdelivered : Event.pushed delivered true ∈ world.log) :
    item.id ≠ delivered.id := by
  intro hid
  rcases hgone delivered hdelivered with hgone | ⟨other, settled, others, hother, -⟩
  · have hholds := hworld.tasks task
    rw [htask] at hholds
    exact hgone.2 _ hholds.1.mem_stored hid
  · have hsame : task = other :=
      hworld.lock.eq_of_locked (by rw [htask]; rfl) (by rw [hother]; rfl)
    rw [← hsame, htask] at hother
    cases hother

theorem DeliveredGone.next {world next : World Key} {action : Action Key Entropy}
    (hgone : DeliveredGone world) (hworld : Invariant fernet world)
    (hstep : Step fernet world action next) (hallowed : ¬Interrupts world action) :
    DeliveredGone next := by
  intro item hitem
  have hold : Event.pushed item true ∈ world.log →
      Gone item.id next.database ∨ Settling next item.id := by
    intro hmem
    rcases hgone item hmem with hbefore | hsettling
    · exact Or.inl (hstep.transaction.gone hworld.sound.wellFormed hbefore)
    · exact hsettling.next hworld hstep hallowed
  rcases hstep.log_cases with ⟨events, hlog, hevents⟩ |
    ⟨task, pushed, payload, stream, rest, outcome, -, hsettling, hlog⟩
  · rw [hlog] at hitem
    exact hold ((List.mem_append.mp hitem).resolve_right (hevents item true))
  · rw [hlog] at hitem
    rcases List.mem_append.mp hitem with hmem | hnew
    · exact hold hmem
    · obtain ⟨rfl, houtcome⟩ : item = pushed.identity ∧ outcome = .delivered := by
        simpa using hnew
      rw [houtcome] at hsettling
      exact Or.inr ⟨task, pushed, rest, hsettling, rfl⟩

/-- No item is pushed after it was delivered. -/
theorem DeliveredGone.pairwise_next {world next : World Key}
    {action : Action Key Entropy} (hgone : DeliveredGone world)
    (hworld : Invariant fernet world) (hstep : Step fernet world action next)
    (hlog : world.log.Pairwise fun earlier later => ¬earlier.Repeats later) :
    next.log.Pairwise fun earlier later => ¬earlier.Repeats later := by
  rcases hstep.log_cases with ⟨events, hnext, hevents⟩ |
    ⟨task, item, payload, stream, rest, outcome, htask, -, hnext⟩
  · have hquiet : ∀ earlier, ∀ later ∈ events, ¬Event.Repeats earlier later := by
      rintro earlier later hlater ⟨-, again, delivered, -, rfl, -⟩
      exact hevents again delivered hlater
    rw [hnext]
    exact List.pairwise_append.mpr ⟨hlog,
      List.pairwise_of_forall_mem_list fun earlier _ later hlater => hquiet earlier later hlater,
      fun earlier _ => hquiet earlier⟩
  · rw [hnext]
    refine List.pairwise_append.mpr ⟨hlog, List.pairwise_singleton _ _, ?_⟩
    rintro earlier hearlier later hlater ⟨delivered, again, result, rfl, rfl, hid⟩
    obtain ⟨rfl, -⟩ := Event.pushed.inj (List.mem_singleton.mp hlater)
    exact hgone.ne_of_pushing hworld htask hearlier hid

/-- In a run that records every outcome, what a receiver accepted is gone or about
to be deleted, and no push repeats it. -/
theorem deliveredGone_of_reachable {world : World Key}
    (hworld : ReachableRecorded fernet world) :
    DeliveredGone world ∧
      world.log.Pairwise fun earlier later => ¬earlier.Repeats later := by
  induction hworld with
  | start hinitial =>
      obtain ⟨key, rfl⟩ := hinitial
      exact ⟨fun item hitem => absurd hitem List.not_mem_nil, List.Pairwise.nil⟩
  | step hsource hallowed hstep ih =>
      have hinvariant := invariant_of_reachable hsource.reachable
      have htaken := Step.of_step hstep
      exact ⟨ih.1.next hinvariant htaken hallowed,
        ih.1.pairwise_next hinvariant htaken ih.2⟩

/-- Pushes do not overlap, and none starts or ends after the successful push of
the same item. -/
theorem delivered_once_of_reachable {world : World Key}
    (hworld : ReachableRecorded fernet world) :
    (∀ first second item other payload payload' stream stream' rest rest',
      world.tasks first = .pushing item payload stream rest →
      world.tasks second = .pushing other payload' stream' rest' →
      item.id = other.id → first = second) ∧
    (∀ before item after, world.log = before ++ .pushed item true :: after →
      ∀ again delivered, Event.pushed again delivered ∈ after → again.id ≠ item.id) ∧
    ∀ item, Event.pushed item true ∈ world.log →
      ∀ task again payload stream rest,
        world.tasks task = .pushing again payload stream rest → again.id ≠ item.id := by
  have hinvariant := invariant_of_reachable hworld.reachable
  obtain ⟨hgone, hpairwise⟩ := deliveredGone_of_reachable hworld
  refine ⟨?_, ?_, ?_⟩
  · intro first second item other payload payload' stream stream' rest rest' hfirst
      hsecond _
    exact hinvariant.lock.eq_of_locked (by rw [hfirst]; rfl) (by rw [hsecond]; rfl)
  · intro before item after hlog again delivered hagain hid
    rw [hlog, List.pairwise_append, List.pairwise_cons] at hpairwise
    exact hpairwise.2.1.1 _ hagain ⟨item, again, delivered, rfl, rfl, hid⟩
  · intro item hitem task again payload stream rest htask
    exact hgone.ne_of_pushing hinvariant htask hitem

end Redelivery

section Sample

open scoped SsfTransmitter.Python.Ascii

/-- The delivery of the sample event. -/
def sampleItem : ItemIdentity :=
  (queuedRow clearFernet true () sampleStream sampleEvent (ofString "user@example.com")
    (fun _ _ => "signed")).identity

/-- Another pass of the worker holds the item when its push succeeds. -/
def pushedWorld : World Bool :=
  let world := pushingWorld clearFernet true () sampleStream sampleEvent
    (ofString "user@example.com") (fun _ _ => "signed")
  (world.setTask 1 (.batch (getDueOutbox world.clock world.database))).transact 0
    (.settling ((queuedRow clearFernet true () sampleStream sampleEvent
      (ofString "user@example.com") (fun _ _ => "signed")).toOutboxItem) .complete [])
    world.database [.pushed sampleItem true]

theorem reachableRecorded_pushedWorld : ReachableRecorded clearFernet pushedWorld := by
  have hsaved : ReachableRecorded clearFernet (savedWorld clearFernet true () sampleStream) :=
    .of_run (.start ⟨true, rfl⟩) (by simp [Interrupts])
      (run_save clearFernet true () sampleStream)
  have hqueued := TransitionSystem.ReachableWhere.of_run hsaved (by simp [Interrupts])
    (run_webhook clearFernet true () sampleStream sampleEvent
      (ofString "user@example.com") (fun _ _ => "signed") rfl (Or.inl rfl))
  have hpushing := TransitionSystem.ReachableWhere.of_run hqueued (by simp [Interrupts])
    (run_delivery clearFernet true () sampleStream sampleEvent
      (ofString "user@example.com") (fun _ _ => "signed") rfl)
  have hrun : (service clearFernet).run (pushingWorld clearFernet true () sampleStream
      sampleEvent (ofString "user@example.com") (fun _ _ => "signed"))
      [.startDelivery 1, .push 0 .delivered] = some pushedWorld := rfl
  exact .of_run hpushing (by simp [Interrupts]) hrun

theorem delivered_once_sample :
    Event.pushed sampleItem true ∈ pushedWorld.log ∧
      ∀ task again payload stream rest,
        pushedWorld.tasks task = .pushing again payload stream rest →
        again.id ≠ sampleItem.id := by
  have hmem : Event.pushed sampleItem true ∈ pushedWorld.log :=
    List.mem_append_right _ (List.mem_singleton_self _)
  exact ⟨hmem, (delivered_once_of_reachable reachableRecorded_pushedWorld).2.2 _ hmem⟩

end Sample

end SsfTransmitter.Service
