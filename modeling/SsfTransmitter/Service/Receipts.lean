import SsfTransmitter.Service.Provenance

/-!
# What senders and receivers can rely on

A webhook that is answered `accepted` is on record: one row for each event that passes a
stream's filter, and each of them stays until something that the log shows takes it.  A
push that is made again is the same request: the receiver can tell by the SET.
-/

namespace SsfTransmitter.Service

open SsfTransmitter.Core
open SsfTransmitter.Python
open SsfTransmitter.Store
open SsfTransmitter.Outbox
open SsfTransmitter.Routes
open SsfTransmitter.Webhook

/-! ## Runs only add -/

section History

variable {Key Entropy : Type*} {fernet : Fernet Key Entropy} [PyRuntime]

/-- What a run leaves as it was: ids are not given again, and the log only grows. -/
structure Extends (world later : World Key) : Prop where
  counter : world.database.nextOutboxId ≤ later.database.nextOutboxId
  stored : ∀ item ∈ later.database.stored, item.id < world.database.nextOutboxId →
    item ∈ world.database.stored
  log : ∃ since, later.log = world.log ++ since

omit [PyRuntime] in
theorem Extends.refl (world : World Key) : Extends world world :=
  ⟨le_rfl, fun _ hitem _ => hitem, [], (List.append_nil _).symm⟩

omit [PyRuntime] in
theorem Extends.trans {world middle later : World Key} (hfirst : Extends world middle)
    (hsecond : Extends middle later) : Extends world later where
  counter := hfirst.counter.trans hsecond.counter
  stored item hitem hid :=
    hfirst.stored item (hsecond.stored item hitem (hid.trans_le hfirst.counter)) hid
  log := by
    obtain ⟨first, hmiddle⟩ := hfirst.log
    obtain ⟨second, hlater⟩ := hsecond.log
    exact ⟨first ++ second, by rw [hlater, hmiddle, List.append_assoc]⟩

theorem Transaction.counter_le {world : World Key} (hworld : world.database.WellFormed)
    {key : Key} {database : Database} {log : List Event}
    (htransaction : Transaction fernet world key database log) :
    world.database.nextOutboxId ≤ database.nextOutboxId := by
  cases htransaction with
  | restart key =>
      unfold quarantineUndecryptableReceiverTokens
      split_ifs <;> exact le_rfl
  | @enqueue task deliveries now entropy htask =>
      rw [enqueueCommit.eq_def]
      rcases enqueueOutbox_cases fernet world.key entropy now deliveries
        world.database with ⟨error, hcase⟩ | ⟨-, hcase⟩
      · rw [hcase]
      · rw [hcase]
        exact Nat.le_add_right _ _
  | commit entropy htask => exact (stored_commit_subset hworld entropy _).2.ge
  | @settle task item verdict rest htask => cases verdict <;> exact le_rfl
  | _ => exact le_rfl

theorem Transaction.exists_since {world : World Key} {key : Key} {database : Database}
    {log : List Event} (htransaction : Transaction fernet world key database log) :
    ∃ since, log = world.log ++ since := by
  cases htransaction with
  | enqueue _ _ | commit _ _ | push _ _ | deleteBlocked => exact ⟨_, rfl⟩
  | _ => exact ⟨[], (List.append_nil _).symm⟩

theorem Extends.of_step {world next : World Key} (hworld : world.database.WellFormed)
    {action : Action Key Entropy} (hstep : Step fernet world action next) :
    Extends world next where
  counter := hstep.transaction.counter_le hworld
  stored item hitem hid := by
    refine (hstep.transaction.stored hworld hitem).resolve_right fun hadded => ?_
    exact absurd hid (Nat.not_lt.mpr hadded.1)
  log := hstep.transaction.exists_since

end History

section Transmission

variable {Key Entropy : Type*} {fernet : Fernet Key Entropy} [PyRuntime] {urls : UrlLibrary}
  {hmac : Hmac} {stack : Stack}

theorem extends_of_path {before after : Transmitter Key}
    (hbefore : (transmission fernet urls hmac stack).Reachable before)
    (hpath : (transmission fernet urls hmac stack).Path (fun _ => True) before after) :
    Extends before.world after.world := by
  induction hpath with
  | refl => exact .refl _
  | @step middle target happening hpath _ hstep ih =>
      refine ih.trans ?_
      rcases (Happens.of_transmit hstep).world with hsame | ⟨action, haction⟩
      · rw [hsame]
        exact .refl _
      · have hmiddle := invariant_of_reachable (reachable_world (hbefore.path hpath))
        exact .of_step hmiddle.sound.wellFormed (Step.of_step haction)

/-! ## A push that is made again -/

/-- Two pushes of one row are the same request, whatever happened in between: to the same
endpoint, with the same credential and the same SET. -/
theorem payload_eq_of_pushing {earlier later : Transmitter Key}
    (hearlier : (transmission fernet urls hmac stack).Reachable earlier)
    (hpath : (transmission fernet urls hmac stack).Path (fun _ => True) earlier later)
    {task again : ℕ} {item repeated : OutboxItem} {payload payload' : Dict}
    {stream stream' : Stream} {rest rest' : List OutboxItem}
    (hfirst : earlier.world.tasks task = .pushing item payload stream rest)
    (hsecond : later.world.tasks again = .pushing repeated payload' stream' rest')
    (hid : repeated.id = item.id) :
    repeated.identity = item.identity ∧ payload' = payload ∧
      stream'.delivery = stream.delivery := by
  have hlater := hearlier.path hpath
  have hbefore := invariant_of_reachable (reachable_world hearlier)
  have hfirstHolds := hbefore.tasks task
  rw [hfirst] at hfirstHolds
  obtain ⟨hqueued, hread, -, hroute⟩ := hfirstHolds
  have hsecondHolds := (invariant_of_reachable (reachable_world hlater)).tasks again
  rw [hsecond] at hsecondHolds
  obtain ⟨hqueued', hread', -, hroute'⟩ := hsecondHolds
  -- the row is the one that was stored at the first push
  have hsame : repeated.identity.id = item.identity.id := hid
  have hbelow := hsame.trans_lt (hbefore.sound.wellFormed.below _ hqueued.mem_stored)
  have hstored := (extends_of_path hearlier hpath).stored _ hqueued'.mem_stored hbelow
  have hidentity : repeated.identity = item.identity :=
    hbefore.sound.wellFormed.eq_of_id_eq hstored hqueued.mem_stored hid
  obtain ⟨⟨origin, queued⟩, ⟨notification, -, hsigns, -⟩, hfor⟩ :=
    (provenance_of_reachable hearlier).stored _ hqueued.mem_stored
  obtain ⟨event, -, -, index, hbuilt⟩ := hsigns
  obtain rfl : payload = queued := eq_of_storedFor hfor hbuilt hread
  obtain rfl : payload' = payload := eq_of_storedFor (hidentity ▸ hfor) hbuilt hread'
  refine ⟨hidentity, rfl, ?_⟩
  have hpayload : payload' = deliveryPayload origin event.uri
    (notification.sign index (claimsFor origin event notification.email)) := hbuilt
  have hmatches := (routeItem_eq_ok hroute).2.1
  have hmatches' := (routeItem_eq_ok hroute').2.1
  rw [hpayload, payloadMatchesStream_deliveryPayload_iff] at hmatches hmatches'
  exact hmatches'.trans hmatches.symm

/-! ## The answer to a webhook -/

/-- How `authentik_webhook` ends once its deliveries are built. -/
inductive WebhookAnswer where
  | accepted (queued : ℕ)
  | refused (statusCode : ℕ) (detail : String)
  | failed (error : StoreError)
  deriving DecidableEq

/-- The answer to the result of `enqueue_events`; what is not caught is a 500. -/
def webhookAnswer : Except StoreError ℕ → WebhookAnswer
  | .ok queued => .accepted queued
  | .error (.outboxFull _) => .refused 503 "Delivery queue is full; retry the webhook later"
  | .error (.streamChanged _) => .refused 503
    "Stream configuration changed before delivery could be queued; retry the webhook"
  | .error error => .failed error

omit [PyRuntime] in
/-- The rows that an enqueueing adds stand for its deliveries, one each, in their order. -/
theorem forall₂_insertedRows {key : Key} {entropy : ℕ → Entropy} {now nextId : ℕ}
    {deliveries : List (Stream × Dict)} :
    List.Forall₂ (StoredFor fernet) deliveries
      ((insertedRows fernet key entropy now nextId deliveries).map fun row => row.identity) := by
  rw [List.forall₂_iff_get]
  refine ⟨by simp [insertedRows], fun index hleft hright => ?_⟩
  refine ⟨key, entropy index, ?_⟩
  simp [insertedRows, OutboxItem.identity]

omit [PyRuntime] in
theorem webhookAnswer_error {error : StoreError} {queued : ℕ} :
    webhookAnswer (.error error) ≠ .accepted queued := by
  cases error <;> exact nofun

/-- A webhook that is accepted has one row for each event that passes a stream's filter,
with the SET that was signed for it, and each row stays until it is delivered, discarded
or its stream reconfigured.  Any other answer that `enqueue_outbox` leads to leaves the
queue as it was. -/
theorem accepted_on_record {before after later : Transmitter Key}
    (hbefore : (transmission fernet urls hmac stack).Reachable before) {task now : ℕ}
    {deliveries : List (Stream × Dict)} {entropy : ℕ → Entropy}
    (htask : before.world.tasks task = .stamped deliveries now)
    (hstep : (transmission fernet urls hmac stack).step before
      (.internal (.enqueue task entropy)) = some after)
    (hpath : (transmission fernet urls hmac stack).Path (fun _ => True) after later)
    {answer : WebhookAnswer}
    (hanswer : webhookAnswer (enqueueOutbox fernet before.world.key entropy now deliveries
      before.world.database).1 = answer) :
    ∃ notification ∈ before.notifications,
      (∃ rawBody body, notification.Authentic hmac stack rawBody body) ∧
      OneForEachPassing notification.sign notification.streams notification.events
        notification.email ∧
      deliveries = notification.deliveries ∧
      ((∃ queued, answer = .accepted queued ∧ queued = deliveries.length ∧
          ∃ items since, later.world.log = before.world.log ++ .enqueued items :: since ∧
            List.Forall₂ (StoredFor fernet) deliveries items ∧
            ∀ item ∈ items, item ∈ later.world.database.stored ∨
              ∃ event ∈ since, excuses event item) ∨
        ((∀ queued, answer ≠ .accepted queued) ∧
          after.world.database = before.world.database ∧
          after.world.log = before.world.log)) := by
  have hcarries := (provenance_of_reachable hbefore).tasks task
  rw [htask] at hcarries
  obtain ⟨notification, hnotification, hdeliveries, hauthentic⟩ := hcarries
  refine ⟨notification, hnotification, hauthentic, oneForEachPassing_enqueueEvents .., hdeliveries,
    ?_⟩
  have hafter : (transmission fernet urls hmac stack).Reachable after :=
    hbefore.next trivial hstep
  have hlater := invariant_of_reachable (reachable_world (hafter.path hpath))
  obtain ⟨since, hsince⟩ := (extends_of_path hafter hpath).log
  rw [transmission_step] at hstep
  have htransmitted := Happens.of_transmit hstep
  cases htransmitted with
  | internal _ hworld =>
  cases Step.of_step hworld with
  | enqueue _ hsame =>
  obtain ⟨rfl, rfl⟩ := Task.stamped.inj (htask.symm.trans hsame)
  rcases enqueueOutbox_cases fernet before.world.key entropy now deliveries
    before.world.database with ⟨error, hcase⟩ | ⟨-, hcase⟩
  · refine Or.inr ⟨fun queued haccepted => ?_, ?_, ?_⟩
    · rw [haccepted, hcase] at hanswer
      exact webhookAnswer_error hanswer
    · simp [World.transact, enqueueCommit, hcase]
    · simp [World.transact, World.setTask, enqueueCommit, hcase]
  · rw [hcase] at hanswer
    have hlog : later.world.log = before.world.log ++ .enqueued ((insertedRows fernet
        before.world.key entropy now before.world.database.nextOutboxId
        deliveries).map fun row => row.identity) :: since := by
      rw [hsince]
      simp [World.transact, World.setTask, enqueueCommit, hcase]
    refine Or.inl ⟨deliveries.length, hanswer.symm, rfl, _, since, hlog, forall₂_insertedRows,
      fun item hitem => ?_⟩
    exact hlater.sound.kept _ _ since hlog item hitem

end Transmission

section Sample

open scoped SsfTransmitter.Python.Ascii

/-- The row of the sample delivery after a push that was refused. -/
def retriedRow (event : MappedEvent) (found : Notification) : OutboxRow :=
  { queuedRow clearFernet true () openStream event found.email found.sign with
    attempts := 1
    nextAttemptAt := 5
    lastError := some "delivery_failed" }

/-- The worker at its second push of the row. -/
def retryingWorld (event : MappedEvent) (found : Notification) : World Bool where
  key := true
  database := ⟨[savedRow clearFernet true () openStream], [retriedRow event found], 2⟩
  clock := 5
  lock := some 0
  tasks := Function.update (fun _ => .idle) 0 (.pushing (retriedRow event found).toOutboxItem
    (queuedPayload openStream event found.email found.sign) openStream [])
  log := [.saved,
    .enqueued [(queuedRow clearFernet true () openStream event found.email found.sign).identity],
    .pushed (queuedRow clearFernet true () openStream event found.email found.sign).identity
      false]

theorem run_retry (event : MappedEvent) (found : Notification) :
    (service clearFernet).run
        (pushingWorld clearFernet true () openStream event found.email found.sign)
        [.push 0 .refused, .settle 0, .release 0, .abort 0, .tick 5, .startDelivery 0,
          .acquire 0, .reread 0, .read 0] =
      some (retryingWorld event found) := by
  set row := queuedRow clearFernet true () openStream event found.email found.sign with hrow
  have hpending : row.status = .pending := rfl
  have hdue : (retriedRow event found).isDue 5 = true := rfl
  have hread : readPayload clearFernet true (retriedRow event found).toOutboxItem =
      .ok (queuedPayload openStream event found.email found.sign) := by
    obtain ⟨uri, token, -, hread⟩ := readPayload_of_encodedFor (retriedRow event found).toOutboxItem
      ⟨(), event.uri, _, rfl⟩
    have hstored : StoredFor clearFernet
        (openStream, queuedPayload openStream event found.email found.sign)
        (retriedRow event found).identity := ⟨true, (), rfl⟩
    rw [hread, eq_of_storedFor hstored rfl hread]
  have hfound : getStreamById clearFernet true (retriedRow event found).streamId
      ⟨[savedRow clearFernet true () openStream], [retriedRow event found], 2⟩ =
        .ok (some openStream) := by
    have hid : (retriedRow event found).streamId = openStream.streamId := rfl
    rw [getStreamById, hid, streamRow_savedRow]
    simp [rowToStream_savedRow, Except.map]
  have hroute : routeItem (queuedPayload openStream event found.email found.sign)
      (some openStream) = .ok openStream := by
    rw [routeItem, if_neg (by simp [queuedPayload, payloadMatchesStream_deliveryPayload]),
      if_neg (by decide)]
  have hretried : retryOutboxItem row.id (row.attempts + 1) (retryDelay (row.attempts + 1))
      "delivery_failed" ⟨[savedRow clearFernet true () openStream], [row], 2⟩ =
      ⟨[savedRow clearFernet true () openStream], [retriedRow event found], 2⟩ := by
    simp [retryOutboxItem, updatePendingItem, retriedRow, hrow, queuedRow, retryDelay]
  simp [TransitionSystem.run, service_step, step, pushingWorld, ← hrow, World.transact,
    World.setTask, World.enter, World.leave, verdictOf, settleItem, hretried, getDueOutbox, hdue,
    getDueOutboxItem, afterReread, hread, hfound, afterRead, hroute, retryingWorld]

/-- A refused push is made again with the SET of the first. -/
theorem payload_eq_of_pushing_sample :
    ∃ (item repeated : OutboxItem) (payload payload' : Dict),
      item.attempts = 0 ∧ repeated.attempts = 1 ∧ repeated.identity = item.identity ∧
        payload' = payload ∧ payload.get? "aud" = some (.str openStream.aud) := by
  obtain ⟨⟨header, body, stream⟩, hcandidate, rfl⟩ := exists_sampleRegistration
  obtain ⟨found, event, hfound, hevent⟩ := exists_sampleNotification
  have hpushing : (transmission clearFernet sampleUrls (fun _ message => message)
      ⟨100, 100, 100⟩).Reachable (Transmitter.pushing true () sampleConfiguration clearFernet
        ⟨header, body, openStream⟩ found event) :=
    reachable_pushing true () sampleConfiguration hcandidate hfound hevent rfl (Or.inl rfl)
  have hretry := @path_of_run_internal Bool Unit clearFernet _ sampleUrls
    (fun _ message => message) ⟨100, 100, 100⟩ (Transmitter.pushing true () sampleConfiguration
      clearFernet ⟨header, body, openStream⟩ found event) _ _ (by simp [Action.isInternal])
    (run_retry event found)
  have hagain : (retryingWorld event found).tasks 0 =
      .pushing (retriedRow event found).toOutboxItem
        (queuedPayload openStream event found.email found.sign) openStream [] := by
    simp [retryingWorld]
  obtain ⟨hidentity, hpayload, -⟩ := payload_eq_of_pushing hpushing hretry
    (Transmitter.tasks_pushing ..) hagain rfl
  exact ⟨_, _, _, _, rfl, rfl, hidentity, hpayload, rfl⟩

/-- The sample webhook is accepted, with a row for its one event. -/
theorem accepted_on_record_sample :
    ∃ (notification : Notification) (later : Transmitter Bool) (item : ItemIdentity),
      List.Forall₂ (StoredFor clearFernet) notification.deliveries [item] ∧
        later.world.log = [.saved, .enqueued [item]] ∧ item ∈ later.world.database.stored := by
  obtain ⟨⟨header, body, stream⟩, hcandidate, rfl⟩ := exists_sampleRegistration
  obtain ⟨found, event, hfound, hevent⟩ := exists_sampleNotification
  obtain ⟨listed, hwebhook, hrest⟩ := Option.bind_eq_some_iff.mp
    (run_webhook clearFernet true () openStream event found.email found.sign rfl (Or.inl rfl))
  obtain ⟨next, hstamp, henqueue⟩ := Option.bind_eq_some_iff.mp hrest
  rw [service_step] at hwebhook hstamp
  have hlisted : (transmission clearFernet sampleUrls (fun _ message => message)
      ⟨100, 100, 100⟩).Reachable { Transmitter.created true () sampleConfiguration clearFernet
        ⟨header, body, openStream⟩ with
        world := listed
        notifications := [found] } :=
    reachable_notified true () sampleConfiguration hcandidate hfound hevent hwebhook
  have hbefore := hlisted.next trivial (step_internal rfl hstamp)
  have hqueued : step clearFernet next (.enqueue 0 fun _ => ()) =
      some (queuedWorld clearFernet true () openStream event found.email found.sign) := by
    simpa [TransitionSystem.run, service_step] using henqueue
  obtain ⟨deliveries, htask, hdatabase, hbeforeLog⟩ : ∃ deliveries,
      next.tasks 0 = .stamped deliveries 0 ∧ next.database.setOutbox = [] ∧
        next.log = [.saved] := by
    cases Step.of_step hwebhook with
    | @webhook _ _ _ _ streams _ _ =>
    cases Step.of_step hstamp with
    | @stamp _ deliveries _ => exact ⟨deliveries, by simp [World.setTask, savedWorld], rfl, rfl⟩
  obtain ⟨notification, -, -, -, hdeliveries, hanswer⟩ :=
    accepted_on_record hbefore htask (step_internal rfl hqueued) .refl rfl
  rcases hanswer with ⟨-, -, -, items, since, hlog, hrows, -⟩ | ⟨-, hsame, -⟩
  · have hboth : [Event.saved, .enqueued [(queuedRow clearFernet true () openStream event
        found.email found.sign).identity]] = [.saved, .enqueued items] ++ since :=
      hlog.trans (by rw [hbeforeLog]; rfl)
    simp only [List.cons_append, List.nil_append, List.cons.injEq, Event.enqueued.injEq,
      true_and] at hboth
    obtain ⟨rfl, -⟩ := hboth
    exact ⟨notification, { Transmitter.created true () sampleConfiguration clearFernet
      ⟨header, body, openStream⟩ with
      world := queuedWorld clearFernet true () openStream event found.email found.sign }, _,
      hdeliveries ▸ hrows, rfl, List.mem_singleton_self _⟩
  · have hempty := congrArg (fun database : Database => database.setOutbox) hsame
    rw [hdatabase] at hempty
    cases hempty

end Sample

end SsfTransmitter.Service
