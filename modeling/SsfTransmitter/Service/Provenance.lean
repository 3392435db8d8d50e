import SsfTransmitter.Routes.Delivered
import SsfTransmitter.Service.Registered
import SsfTransmitter.Service.Staleness

/-!
# Where deliveries come from

Every queued delivery was built for an event of a webhook that was authenticated, and
what the worker pushes is the SET that was signed for it: no interleaving of requests,
restarts and deliveries makes one up.
-/

namespace SsfTransmitter.Service

open SsfTransmitter.Core
open SsfTransmitter.Python
open SsfTransmitter.Store
open SsfTransmitter.Outbox
open SsfTransmitter.Routes
open SsfTransmitter.Webhook

/-! ## What a step stores -/

section Stored

variable {Key Entropy : Type*} {fernet : Fernet Key Entropy} [PyRuntime]

variable (fernet) in
/-- The item was queued for a delivery of `enqueue_events`. -/
def StoredFor (delivery : Stream × Dict) (item : ItemIdentity) : Prop :=
  ∃ key entropy, item.payload =
    encryptSensitiveData fernet key entropy (dumpsPayload delivery.2)

/-- A stored item was stored before, or an enqueueing task has just stored it. -/
theorem Transaction.stored {world : World Key} (hworld : world.database.WellFormed)
    {key : Key} {database : Database} {log : List Event}
    (htransaction : Transaction fernet world key database log) {item : ItemIdentity}
    (hitem : item ∈ database.stored) :
    item ∈ world.database.stored ∨
      world.database.nextOutboxId ≤ item.id ∧
        ∃ task deliveries now, world.tasks task = .stamped deliveries now ∧
          ∃ delivery ∈ deliveries, StoredFor fernet delivery item := by
  cases htransaction with
  | quiet => exact Or.inl hitem
  | restart key =>
      rw [stored_quarantine] at hitem
      exact Or.inl hitem
  | @enqueue task deliveries now entropy htask =>
      rw [enqueueCommit.eq_def] at hitem
      rcases enqueueOutbox_cases fernet world.key entropy now deliveries
        world.database with ⟨error, hcase⟩ | ⟨-, hcase⟩
      · rw [hcase] at hitem
        exact Or.inl hitem
      · rw [hcase, Database.stored, List.map_append] at hitem
        rcases List.mem_append.mp hitem with hold | hadded
        · exact Or.inl hold
        · obtain ⟨row, hrow, rfl⟩ := List.mem_map.mp hadded
          obtain ⟨delivery, hdelivery, draw, -, hpayload, -, hid, -⟩ :=
            mem_insertedRows fernet hrow
          exact Or.inr ⟨hid, task, deliveries, now, htask, delivery, hdelivery, world.key, draw,
            hpayload⟩
  | commit entropy htask => exact Or.inl ((stored_commit_subset hworld entropy _).1 hitem)
  | push outcome htask => exact Or.inl hitem
  | @settle task item verdict rest htask =>
      exact Or.inl ((stored_settleItem_sublist _ item verdict _).subset hitem)
  | requeueBlocked =>
      rw [stored_requeueBlockedOutbox] at hitem
      exact Or.inl hitem
  | deleteBlocked => exact Or.inl (stored_deleteBlockedOutbox_sublist.subset hitem)

end Stored

/-! ## Notifications -/

section Notifications

variable [PyRuntime] (hmac : Hmac) (stack : Stack)

/-- The request was read, authenticated and parsed, and its body was mapped to the
events for its user. -/
structure Notification.Authentic (notification : Notification) (rawBody : PyBytes)
    (body : Dict) : Prop where
  read : readBodyWithinLimit notification.request = .ok rawBody
  authenticated : authenticateWebhook hmac notification.settings notification.request rawBody =
    .ok ()
  parsed : parseWebhookJson stack rawBody = .ok body
  email : extractEmail body = some notification.email
  events : mapAuthentikEvent stack notification.settings.logLevel notification.time body =
    .ok notification.events

/-- The delivery carries the SET that was signed for an event of the notification. -/
def Notification.Signs (notification : Notification) (delivery : Stream × Dict) : Prop :=
  ∃ event ∈ notification.events, Passes delivery.1 event ∧
    ∃ index, delivery.2 = deliveryPayload delivery.1 event.uri
      (notification.sign index (claimsFor delivery.1 event notification.email))

/-- The deliveries that `enqueue_events` builds for the notification. -/
def Notification.deliveries (notification : Notification) : List (Stream × Dict) :=
  enqueueEvents notification.sign notification.streams notification.events notification.email

/-- The delivery comes from an authentic notification. -/
def Notified (notifications : List Notification) (delivery : Stream × Dict) : Prop :=
  ∃ notification ∈ notifications, notification.Signs delivery ∧
    ∃ rawBody body, notification.Authentic hmac stack rawBody body

/-- The deliveries are those of an authentic notification. -/
def Enqueues (notifications : List Notification) (deliveries : List (Stream × Dict)) : Prop :=
  ∃ notification ∈ notifications, deliveries = notification.deliveries ∧
    ∃ rawBody body, notification.Authentic hmac stack rawBody body

variable {hmac stack}

theorem Enqueues.mono {notifications more : List Notification}
    {deliveries : List (Stream × Dict)} (henqueues : Enqueues hmac stack notifications deliveries)
    (hmore : notifications ⊆ more) : Enqueues hmac stack more deliveries := by
  obtain ⟨notification, hnotification, hrest⟩ := henqueues
  exact ⟨notification, hmore hnotification, hrest⟩

theorem Notified.mono {notifications more : List Notification} {delivery : Stream × Dict}
    (hnotified : Notified hmac stack notifications delivery) (hmore : notifications ⊆ more) :
    Notified hmac stack more delivery := by
  obtain ⟨notification, hnotification, hrest⟩ := hnotified
  exact ⟨notification, hmore hnotification, hrest⟩

theorem authentic_of_authentikWebhook {notification : Notification} {listed : List Stream}
    (hhandled : authentikWebhook hmac stack notification.settings notification.time listed
      notification.request =
        .ok (.enqueueing notification.streams notification.events notification.email)) :
    notification.streams = (listed.filter fun stream => stream.status = .enabled) ∧
      ∃ rawBody body, notification.Authentic hmac stack rawBody body := by
  rw [authentikWebhook] at hhandled
  obtain ⟨rawBody, hread, hhandled⟩ := bind_eq_ok_iff.mp hhandled
  obtain ⟨_, hauthenticated, hhandled⟩ := bind_eq_ok_iff.mp hhandled
  obtain ⟨body, hparsed, hhandled⟩ := bind_eq_ok_iff.mp hhandled
  rw [handlePayload] at hhandled
  obtain ⟨events, hevents, hhandled⟩ := bind_eq_ok_iff.mp hhandled
  obtain ⟨_, -, hhandled⟩ := bind_eq_ok_iff.mp hhandled
  obtain ⟨_, -, hhandled⟩ := bind_eq_ok_iff.mp hhandled
  by_cases hempty : events.isEmpty = true
  · rw [if_pos hempty] at hhandled
    cases hhandled
  · rw [if_neg hempty] at hhandled
    rcases hemail : extractEmail body with _ | email
    · rw [hemail] at hhandled
      cases hhandled
    · rw [hemail] at hhandled
      dsimp only at hhandled
      split_ifs at hhandled
      · cases hhandled
      · obtain ⟨hstreams, hsame, htext⟩ := Reached.enqueueing.inj (Except.ok.inj hhandled)
        exact ⟨hstreams.symm, rawBody, body, hread, hauthenticated, hparsed, htext ▸ hemail,
          hsame ▸ hevents⟩

/-- A notification is authentic and goes to the enabled streams. -/
theorem authentic_of_notification {Key Entropy : Type*} {fernet : Fernet Key Entropy}
    {world : World Key} {settings : Webhook.Settings} {request : Request}
    {sign : ℕ → SetClaims → String} {found : Notification}
    (hfound : notification fernet hmac stack world settings request sign = some found)
    {listed : List Stream} (hlisted : listStreams fernet world.key world.database = .ok listed) :
    found.streams = (listed.filter fun stream => stream.status = .enabled) ∧
      ∃ rawBody body, found.Authentic hmac stack rawBody body := by
  rw [notification.eq_def, hlisted] at hfound
  dsimp only at hfound
  split at hfound
  · next hhandled =>
    obtain rfl := Option.some.inj hfound
    exact authentic_of_authentikWebhook hhandled
  · cases hfound

end Notifications

/-! ## Where a delivery comes from -/

section Provenance

variable {Key Entropy : Type*} {fernet : Fernet Key Entropy} [PyRuntime] {urls : UrlLibrary}
  {hmac : Hmac} {stack : Stack}

omit [PyRuntime] in
/-- Each delivery of `enqueue_events` carries a SET for an event that its stream gets. -/
theorem signs_of_mem_deliveries {notification : Notification}
    {delivery : Stream × Dict}
    (hdelivery : delivery ∈ notification.deliveries) : notification.Signs delivery := by
  obtain ⟨origin, -, hpasses, hget⟩ := oneForEachPassing_enqueueEvents notification.sign
    notification.streams notification.events notification.email
  rw [Notification.deliveries] at hdelivery
  obtain ⟨index, rfl⟩ := List.mem_iff_get.mp hdelivery
  have hposition := (hpasses (origin index)).mp ⟨index, rfl⟩
  rw [hget index]
  exact ⟨_, List.getElem_mem _, hposition, index, rfl⟩

variable (fernet hmac stack) in
/-- Every delivery that is queued, or about to be, comes from an authentic notification. -/
structure Provenance (transmitter : Transmitter Key) : Prop where
  tasks : ∀ task, (transmitter.world.tasks task).Carries (fun _ => True)
    (Enqueues hmac stack transmitter.notifications)
  stored : ∀ item ∈ transmitter.world.database.stored, ∃ delivery,
    Notified hmac stack transmitter.notifications delivery ∧ StoredFor fernet delivery item

theorem Provenance.of_step {before after : Transmitter Key}
    (hbefore : Provenance fernet hmac stack before)
    (hworld : before.world.database.WellFormed) {action : Action Key Entropy}
    (hstep : Step fernet before.world action after.world)
    (hnotifications : before.notifications ⊆ after.notifications)
    (hbrings : action.Brings fernet (fun _ => True)
      (Enqueues hmac stack after.notifications) before.world) :
    Provenance fernet hmac stack after where
  tasks := by
    refine carries_next hstep (fun task => ?_) hbrings
    exact (hbefore.tasks task).imp (fun _ => id) fun _ hfound => hfound.mono hnotifications
  stored item hitem := by
    rcases hstep.transaction.stored hworld hitem with
      hold | ⟨-, task, deliveries, now, htask, delivery, hdelivery, hstored⟩
    · obtain ⟨delivery, hnotified, hstored⟩ := hbefore.stored item hold
      exact ⟨delivery, hnotified.mono hnotifications, hstored⟩
    · have hcarries := hbefore.tasks task
      rw [htask] at hcarries
      obtain ⟨notification, hnotification, rfl, hauthentic⟩ := hcarries
      exact ⟨delivery, ⟨notification, hnotifications hnotification,
        signs_of_mem_deliveries hdelivery, hauthentic⟩, hstored⟩

/-- Each happening keeps the provenance of what is queued. -/
theorem Provenance.next {before after : Transmitter Key}
    (hbefore : Provenance fernet hmac stack before)
    (hworld : before.world.database.WellFormed) {happening : Happening Key Entropy}
    (hhappens : Happens fernet urls hmac stack before happening after) :
    Provenance fernet hmac stack after := by
  cases hhappens with
  | internal hinternal hstep =>
      exact hbefore.of_step hworld (Step.of_step hstep) (List.Subset.refl _)
        (brings_of_isInternal hinternal (fun _ => trivial) trivial)
  | @start key configuration readable _ =>
      have hrestart : Step fernet before.world (.restart key : Action Key Entropy)
        (restart fernet key before.world) := .restart key
      exact hbefore.of_step hworld hrestart (List.Subset.refl _) (by trivial)
  | create => exact ⟨hbefore.tasks, hbefore.stored⟩
  | confirmed _ hstep =>
      exact hbefore.of_step hworld (Step.of_step hstep) (List.Subset.refl _) (by trivial)
  | ended => exact ⟨hbefore.tasks, hbefore.stored⟩
  | dropped => exact ⟨hbefore.tasks, hbefore.stored⟩
  | @patch task _ streamId _ _ _ _ hstep =>
      refine hbefore.of_step hworld (Step.of_step hstep) (List.Subset.refl _) ?_
      cases streamId with
      | none => trivial
      | some => trivial
  | patchRefused => exact hbefore
  | @webhook task request sign found world hfound hstep =>
      refine hbefore.of_step hworld (Step.of_step hstep) (List.subset_append_left _ _) ?_
      intro listed hlisted
      obtain ⟨hstreams, hauthentic⟩ := authentic_of_notification hfound hlisted
      refine ⟨found, List.mem_append_right _ (List.mem_singleton_self found), ?_, hauthentic⟩
      rw [Notification.deliveries, hstreams]
  | webhookEnded => exact hbefore

theorem provenance_of_reachable {transmitter : Transmitter Key}
    (hreachable : (transmission fernet urls hmac stack).Reachable transmitter) :
    Provenance fernet hmac stack transmitter := by
  refine @TransitionSystem.ReachableBy.invariant _ _ _ _
    (fun transmitter : Transmitter Key => Provenance fernet hmac stack transmitter) _
    hreachable ?_ ?_
  · intro start hstart
    obtain ⟨key, configuration, rfl⟩ := hstart
    exact ⟨fun _ => trivial, fun _ hitem => absurd hitem List.not_mem_nil⟩
  · intro before happening after hreached hbefore _ hstep
    have hworld := invariant_of_reachable (reachable_world hreached)
    exact hbefore.next hworld.sound.wellFormed (Happens.of_transmit hstep)

/-! ## What is pushed -/

/-- A payload that can be read is the one that was queued. -/
theorem eq_of_storedFor {key : Key} {item : OutboxItem} {delivery : Stream × Dict}
    {payload : Dict} (hstored : StoredFor fernet delivery item.identity)
    {eventUri token : String} (hbuilt : delivery.2 = deliveryPayload delivery.1 eventUri token)
    (hread : readPayload fernet key item = .ok payload) : payload = delivery.2 := by
  obtain ⟨origin, entropy, hpayload⟩ := hstored
  rw [hbuilt] at hpayload ⊢
  have hencoded : EncodedFor fernet origin delivery.1 item.payload :=
    ⟨entropy, eventUri, token, hpayload⟩
  obtain rfl := eq_of_readPayload_eq_ok hencoded hread
  have hitem : item.payload = encryptSensitiveData fernet key entropy
    (dumpsPayload (deliveryPayload delivery.1 eventUri token)) := hpayload
  have hdecrypt : decryptOutboxPayload fernet key item =
      .ok (deliveryPayload delivery.1 eventUri token) := by
    simp only [decryptOutboxPayload, hitem, decryptSensitiveData_encryptSensitiveData,
      dumpsPayload, String.toList_ofList,
      loads_dumps standard_compactSeparators
        (textual_deliveryPayload delivery.1 eventUri token)]
  rw [readPayload, hdecrypt] at hread
  simpa [validPayload_deliveryPayload] using hread.symm

omit [PyRuntime] in
/-- A stream that delivers as another gets the same SETs. -/
theorem Notification.Signs.of_delivery_eq {notification : Notification}
    {origin stream : Stream} {payload : Dict} (hsigns : notification.Signs (origin, payload))
    (hdelivery : stream.delivery = origin.delivery) (henabled : stream.status = .enabled) :
    notification.Signs (stream, payload) := by
  obtain ⟨event, hevent, ⟨-, hrequested⟩, index, hpayload⟩ := hsigns
  obtain ⟨haud, hurl, htoken, hevents⟩ : stream.aud = origin.aud ∧
      stream.endpointUrl = origin.endpointUrl ∧ stream.endpointToken = origin.endpointToken ∧
      stream.eventsRequested = origin.eventsRequested := by
    simpa [Stream.delivery] using hdelivery
  refine ⟨event, hevent, ⟨henabled, hevents ▸ hrequested⟩, index, hpayload.trans ?_⟩
  rw [deliveryPayload, deliveryPayload, claimsFor, claimsFor, haud, hurl, htoken, hevents]

theorem Notification.Authentic.supported {notification : Notification} {rawBody : PyBytes}
    {body : Dict} (hauthentic : notification.Authentic hmac stack rawBody body)
    {event : MappedEvent} (hevent : event ∈ notification.events) :
    event.uri ∈ supportedEventUris :=
  Emitted.supported ⟨stack, _, _, _, _, hauthentic.events, event, hevent, rfl⟩

/-- What the worker pushes is the SET that the code signed for an event of an
authenticated webhook, for the stream as it is configured at the push: the event is one
that it gets, and both are supported. -/
theorem exists_notification_of_pushing {transmitter : Transmitter Key}
    (hreachable : (transmission fernet urls hmac stack).Reachable transmitter) {task : ℕ}
    {item : OutboxItem} {payload : Dict} {stream : Stream} {rest : List OutboxItem}
    (htask : transmitter.world.tasks task = .pushing item payload stream rest) :
    ∃ notification ∈ transmitter.notifications,
      (∃ rawBody body, notification.Authentic hmac stack rawBody body) ∧
      ∃ event ∈ notification.events, event.uri ∈ supportedEventUris ∧ Passes stream event ∧
        ∃ index, payload = deliveryPayload stream event.uri
          (notification.sign index (claimsFor stream event notification.email)) := by
  have hholds := (invariant_of_reachable (reachable_world hreachable)).tasks task
  rw [htask] at hholds
  obtain ⟨hqueued, hread, -, hroute⟩ := hholds
  obtain ⟨⟨origin, queued⟩, ⟨notification, hnotification, hsigns, rawBody, body, hauthentic⟩,
    hstored⟩ := (provenance_of_reachable hreachable).stored _ hqueued.mem_stored
  obtain ⟨signed, -, -, index, hbuilt⟩ := id hsigns
  obtain rfl : payload = queued := eq_of_storedFor hstored hbuilt hread
  have hpayload : payload = deliveryPayload origin signed.uri
    (notification.sign index (claimsFor origin signed notification.email)) := hbuilt
  obtain ⟨-, hmatches, henabled⟩ := routeItem_eq_ok hroute
  rw [hpayload, payloadMatchesStream_deliveryPayload_iff] at hmatches
  obtain ⟨event, hevent, hpasses, hsigned⟩ := hsigns.of_delivery_eq hmatches henabled
  exact ⟨notification, hnotification, ⟨rawBody, body, hauthentic⟩, event, hevent,
    hauthentic.supported hevent, hpasses, hsigned⟩

end Provenance

section Sample

open scoped SsfTransmitter.Python.Ascii

/-- The worker pushes the one event of a webhook. -/
theorem exists_notification_of_pushing_sample :
    ∃ (transmitter : Transmitter Bool) (item : OutboxItem) (payload : Dict)
        (notification : Notification),
      transmitter.world.tasks 0 = .pushing item payload openStream [] ∧
      (∃ rawBody body,
        notification.Authentic (fun _ message => message) ⟨100, 100, 100⟩ rawBody body) ∧
      ∃ event ∈ notification.events, event.uri ∈ supportedEventUris ∧
        Passes openStream event ∧ ∃ index, payload = deliveryPayload openStream event.uri
          (notification.sign index (claimsFor openStream event notification.email)) := by
  obtain ⟨⟨header, body, stream⟩, hcandidate, rfl⟩ := exists_sampleRegistration
  obtain ⟨found, event, hfound, hevent⟩ := exists_sampleNotification
  have hpushing : (transmission clearFernet sampleUrls (fun _ message => message)
      ⟨100, 100, 100⟩).Reachable (Transmitter.pushing true () sampleConfiguration clearFernet
        ⟨header, body, openStream⟩ found event) :=
    reachable_pushing true () sampleConfiguration hcandidate hfound hevent rfl (Or.inl rfl)
  have htask := @Transmitter.tasks_pushing _ _ clearFernet true () sampleConfiguration
    ⟨header, body, openStream⟩ found event
  obtain ⟨notification, -, hauthentic, hsigned⟩ :=
    exists_notification_of_pushing hpushing htask
  exact ⟨_, _, _, notification, htask, hauthentic, hsigned⟩

end Sample

end SsfTransmitter.Service
