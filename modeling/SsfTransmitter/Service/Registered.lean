import SsfTransmitter.Routes.ReadBack
import SsfTransmitter.Service.Transmitter

/-!
# Registered streams

Every stream that is stored was confirmed by its receiver when it was created, asks for
supported events only and has an endpoint that passed its check and is on the allowlist
of the running process, if that could read the streams when it started.
-/

namespace SsfTransmitter.Service

open SsfTransmitter.Core
open SsfTransmitter.Python
open SsfTransmitter.Store
open SsfTransmitter.Outbox
open SsfTransmitter.Routes
open SsfTransmitter.Webhook

/-! ## What tasks carry -/

/-- What a task is about to do meets conditions on operations and on batches of
deliveries. -/
def Task.Carries (operation : LockedOperation → Prop)
    (batch : List (Stream × Dict) → Prop) : Task → Prop
  | .enqueuing deliveries | .stamped deliveries _ => batch deliveries
  | .waiting requested => operation requested
  | .holding requested => operation requested
  | _ => True

section Carries

variable {Key Entropy : Type*} {fernet : Fernet Key Entropy} [PyRuntime]
  {operation : LockedOperation → Prop} {batch : List (Stream × Dict) → Prop}

variable (fernet operation batch) in
/-- What an action gives a task to do meets the conditions. -/
def Action.Brings (world : World Key) : Action Key Entropy → Prop
  | .webhook _ events email sign => ∀ streams,
      listStreams fernet world.key world.database = .ok streams →
      batch (enqueueEvents sign (streams.filter fun stream => stream.status = .enabled) events
        email)
  | .request _ requested => operation requested
  | .patchById _ streamId payload => operation (.update (some streamId) payload)
  | .deleteCurrent _ => ∀ streamId, operation (.delete streamId)
  | _ => True

omit [PyRuntime] in
theorem carries_afterLookup {current : Except StoreError (Option Stream)}
    {matching : Stream → Bool} {requested : Stream → LockedOperation}
    (hrequested : ∀ stream, operation (requested stream)) :
    (afterLookup current matching requested).Carries operation batch := by
  rw [afterLookup.eq_def]
  split
  · split_ifs
    · exact hrequested _
    · trivial
  · trivial

theorem carries_afterReread (key : Key) (rest : List OutboxItem) (current : Option OutboxItem) :
    (afterReread fernet key rest current).Carries operation batch := by
  rw [afterReread.eq_def]
  split
  · trivial
  · split <;> trivial

omit [PyRuntime] in
theorem carries_afterRead (item : OutboxItem) (payload : Dict) (rest : List OutboxItem)
    (stream : Option Stream) :
    (afterRead item payload rest stream).Carries operation batch := by
  rw [afterRead.eq_def]
  split <;> trivial

omit [PyRuntime] in
theorem carries_update {tasks : ℕ → Task}
    (htasks : ∀ other, (tasks other).Carries operation batch) {task : ℕ} {rest : Task}
    (hrest : rest.Carries operation batch) (other : ℕ) :
    (Function.update tasks task rest other).Carries operation batch := by
  by_cases hsame : other = task
  · subst hsame
    rwa [Function.update_self]
  · rw [Function.update_of_ne hsame]
    exact htasks other

/-- What tasks carry comes from the actions. -/
theorem carries_next {world next : World Key} {action : Action Key Entropy}
    (hstep : Step fernet world action next)
    (hworld : ∀ task, (world.tasks task).Carries operation batch)
    (hbrings : action.Brings fernet operation batch world) (task : ℕ) :
    (next.tasks task).Carries operation batch := by
  have hset : ∀ holder rest, rest.Carries operation batch →
      ((world.setTask holder rest).tasks task).Carries operation batch :=
    fun holder rest hrest => carries_update hworld hrest task
  cases hstep with
  | restart key => trivial
  | tick now => exact hworld task
  | webhook _ hstreams =>
      apply hset
      exact hbrings _ hstreams
  | @stamp holder deliveries htask =>
      have hholds := hworld holder
      rw [htask] at hholds
      exact hset holder (.stamped deliveries world.clock) hholds
  | request _ _ =>
      apply hset
      exact hbrings
  | patchById streamId payload _ =>
      apply hset
      exact carries_afterLookup fun _ => hbrings
  | deleteCurrent _ =>
      apply hset
      exact carries_afterLookup fun stream => hbrings stream.streamId
  | @acquireOperation holder requested _ htask =>
      have hholds := hworld holder
      rw [htask] at hholds
      exact hset holder (.holding requested) hholds
  | reread _ =>
      apply hset
      exact carries_afterReread _ _ _
  | read _ _ =>
      apply hset
      exact carries_afterRead _ _ _ _
  | requeueBlocked => exact hworld task
  | deleteBlocked => exact hworld task
  -- the other rests carry nothing
  | _ => exact hset _ _ (by trivial)

end Carries

/-! ## Stored rows -/

section Rows

variable {Key Entropy : Type*} {fernet : Fernet Key Entropy} [PyRuntime]

variable (fernet) in
/-- Where a stored row comes from when a step has been taken. -/
inductive RowOrigin (world : World Key) : StreamRow → Prop where
  | kept {row : StreamRow} (hrow : row ∈ world.database.streams) : RowOrigin world row
  | quarantined (key : Key) {row : StreamRow} (hrow : row ∈ world.database.streams) :
      RowOrigin world (quarantinedRow fernet key row)
  | saved {task : ℕ} {stream : Stream} (entropy : Entropy)
      (htask : world.tasks task = .holding (.save stream)) :
      RowOrigin world (savedRow fernet world.key entropy stream)
  | patched {task : ℕ} {streamId : Option String} {payload : StreamPayload}
      {row : StreamRow} {stream : Stream} {uris : List String} (entropy : Entropy)
      (htask : world.tasks task = .holding (.update streamId payload))
      (hrow : row ∈ world.database.streams)
      (hread : rowToStream fernet world.key row = .ok stream)
      (hevents : requestedEvents payload stream = .ok uris) :
      RowOrigin world (patchedRow fernet world.key entropy payload row
        (patchedStream payload stream uris))

theorem rowOrigin_commit {world : World Key} (hworld : Invariant fernet world) {task : ℕ}
    {operation : LockedOperation} (entropy : Entropy)
    (htask : world.tasks task = .holding operation) {row : StreamRow}
    (hrow : row ∈ (operation.commit fernet world.key entropy world.database).2.1.streams) :
    RowOrigin fernet world row := by
  cases operation with
  | save stream =>
      obtain rfl := List.mem_singleton.mp hrow
      exact .saved entropy htask
  | update streamId payload =>
      rcases updateStream_cases fernet hworld.sound.wellFormed.single world.key entropy payload
        with ⟨hsame, -⟩ | ⟨old, stream, uris, hold, hread, hevents, -, hupdate⟩
      · have hstored : row ∈ (updateStream fernet world.key entropy payload
            world.database).2.streams := hrow
        rw [hsame] at hstored
        exact .kept hstored
      · have hstored : row ∈ (updateStream fernet world.key entropy payload
            world.database).2.streams := hrow
        rw [hupdate] at hstored
        obtain rfl := List.mem_singleton.mp hstored
        exact .patched entropy htask (hold ▸ List.mem_singleton_self old) hread hevents
  | delete streamId =>
      have hstored : row ∈ (deleteStreamById streamId world.database).2.streams := hrow
      rw [deleteStreamById] at hstored
      split_ifs at hstored
      · exact .kept (List.mem_of_mem_filter hstored)
      · exact .kept hstored
  | discardPending => exact .kept hrow

theorem rowOrigin_of_step {world next : World Key} (hworld : Invariant fernet world)
    {action : Action Key Entropy} (hstep : Step fernet world action next) {row : StreamRow}
    (hrow : row ∈ next.database.streams) : RowOrigin fernet world row := by
  cases hstep with
  | restart key =>
      have hstored : row ∈ (quarantineUndecryptableReceiverTokens fernet key
        world.database).streams := hrow
      rw [quarantineUndecryptableReceiverTokens] at hstored
      split_ifs at hstored
      · exact .kept hstored
      · obtain ⟨old, hold, rfl⟩ := List.mem_map.mp hstored
        exact .quarantined key hold
  | @enqueue task deliveries now entropy htask =>
      have hsame : Undisturbed world _ :=
        @undisturbed_enqueue Key Entropy fernet _ world hworld.sound.wellFormed task entropy
          deliveries now
      exact .kept (hsame.streams ▸ hrow)
  | commit entropy htask => exact rowOrigin_commit hworld entropy htask hrow
  | @settle task item verdict rest htask =>
      have hstreams : (settleItem world.clock item verdict world.database).streams =
          world.database.streams := by
        cases verdict <;> rfl
      exact .kept (hstreams ▸ hrow)
  | _ => exact .kept hrow

end Rows

/-! ## Registered streams -/

section Conditions

variable (urls : UrlLibrary)

/-- Where a stream may deliver and what it may ask for. -/
structure Deliverable (allowedHosts : List String) (aud endpointUrl : String)
    (events : List String) : Prop where
  aud_not_blank : isBlank (ofString aud) = false
  events_supported : ∀ uri ∈ events, uri ∈ supportedEventUris
  endpoint : WellFormedEndpoint urls endpointUrl
  allowed : receiverHostAllowed urls.hostname allowedHosts endpointUrl = true

/-- The stream may deliver under an allowlist. -/
def StreamDeliverable (allowedHosts : List String) (stream : Stream) : Prop :=
  Deliverable urls allowedHosts stream.aud stream.endpointUrl stream.eventsRequested

/-- The registration comes from an authorized request that passed its checks. -/
def Registration.Genuine (registration : Registration) : Prop :=
  ∃ configuration authorization body resolver freshId now,
    candidate urls configuration authorization body resolver freshId now = some registration

/-- The registration with the id and the time of a stream. -/
def Confirmed (registrations : List Registration) (streamId : String) (createdAt : ℕ) : Prop :=
  ∃ registration ∈ registrations, registration.Genuine urls ∧
    registration.stream.streamId = streamId ∧ registration.stream.createdAt = createdAt

/-- What a patch may change. -/
structure PatchDeliverable (allowedHosts : List String) (payload : StreamPayload) : Prop where
  aud_not_blank : ∀ aud ∈ payload.aud, isBlank (ofString aud) = false
  endpoint : ∀ endpointUrl ∈ payload.block.endpointUrl, WellFormedEndpoint urls endpointUrl ∧
    receiverHostAllowed urls.hostname allowedHosts endpointUrl = true
  flat_endpoint : payload.endpointUrl = none
  events_supported : ∀ value ∈ payload.eventsRequested, ∃ uris, value = .uris uris ∧
    ∀ uri ∈ uris, uri ∈ supportedEventUris

def OperationDeliverable (allowedHosts : List String) (registrations : List Registration) :
    LockedOperation → Prop
  | .save stream => StreamDeliverable urls allowedHosts stream ∧
      Confirmed urls registrations stream.streamId stream.createdAt
  | .update _ payload => PatchDeliverable urls allowedHosts payload
  | _ => True

variable {urls}

/-- A host on the allowlist is on the one that the streams have been held against. -/
theorem receiverHostAllowed_checkedHosts {Key : Type*} {transmitter : Transmitter Key}
    {endpointUrl : String}
    (hallowed : receiverHostAllowed urls.hostname transmitter.configuration.allowedHosts
      endpointUrl = true) :
    receiverHostAllowed urls.hostname transmitter.checkedHosts endpointUrl = true := by
  rw [Transmitter.checkedHosts]
  split_ifs
  · exact hallowed
  · rfl

theorem Deliverable.checked {Key : Type*} {transmitter : Transmitter Key}
    {aud endpointUrl : String} {events : List String}
    (hdeliverable : Deliverable urls transmitter.configuration.allowedHosts aud endpointUrl
      events) :
    Deliverable urls transmitter.checkedHosts aud endpointUrl events :=
  { hdeliverable with allowed := receiverHostAllowed_checkedHosts hdeliverable.allowed }

theorem PatchDeliverable.checked {Key : Type*} {transmitter : Transmitter Key}
    {payload : StreamPayload}
    (hpayload : PatchDeliverable urls transmitter.configuration.allowedHosts payload) :
    PatchDeliverable urls transmitter.checkedHosts payload :=
  { hpayload with
    endpoint := fun endpointUrl hendpoint =>
      (hpayload.endpoint endpointUrl hendpoint).imp_right receiverHostAllowed_checkedHosts }

/-- The stream that a create request prepares. -/
theorem prepareStream_createPayload {freshId : String} {now : ℕ} {body : StreamCreateRequest}
    {stream : Stream} (hprepare : prepareStream freshId now (createPayload body) = .ok stream) :
    stream.aud = body.aud ∧ stream.endpointUrl = body.delivery.endpointUrl ∧
      stream.eventsRequested = body.eventsRequested := by
  rw [prepareStream] at hprepare
  split_ifs at hprepare with hurl haud
  obtain rfl := Except.ok.inj hprepare
  refine ⟨rfl, ?_, rfl⟩
  by_contra hempty
  have hnone : body.delivery.endpointUrl = "" := by
    by_contra hne
    exact hempty (if_neg hne)
  exact hurl (if_pos hnone)

theorem deliverable_of_candidate {configuration : Configuration}
    {authorization : Option HeaderText} {body : StreamCreateRequest}
    {resolver : String → Resolution} {freshId : String} {now : ℕ} {registration : Registration}
    (hcandidate : candidate urls configuration authorization body resolver freshId now =
      some registration) :
    StreamDeliverable urls configuration.allowedHosts registration.stream := by
  rw [candidate.eq_def] at hcandidate
  split at hcandidate
  · cases hcandidate
  · split at hcandidate
    · next hvalid hprepare =>
      obtain rfl := Option.some.inj hcandidate
      obtain ⟨hendpoint, hallowed⟩ := validateReceiverEndpointUrl_eq_ok hvalid
      obtain ⟨haud, hurl, hevents⟩ := prepareStream_createPayload hprepare
      rw [StreamDeliverable, haud, hurl, hevents]
      exact ⟨body.aud_not_blank, body.events_supported, hendpoint, hallowed⟩
    · cases hcandidate

theorem patchDeliverable_of_accepted {configuration : Configuration}
    {authorization : Option HeaderText} {body : StreamPatchRequest}
    {resolver : String → Resolution}
    (haccepted : patchAccepted urls configuration authorization body resolver = true) :
    PatchDeliverable urls configuration.allowedHosts (patchPayload body) := by
  refine ⟨body.aud_not_blank, ?_, rfl, ?_⟩
  · intro endpointUrl hendpoint
    rw [patchAccepted, Bool.and_eq_true] at haccepted
    rcases hdelivery : body.delivery with _ | delivery
    · rw [StreamPayload.block, patchPayload, hdelivery] at hendpoint
      cases hendpoint
    · rw [block_patchPayload hdelivery] at hendpoint
      obtain rfl := Option.some.inj hendpoint
      have hvalid := haccepted.2
      rw [hdelivery] at hvalid
      dsimp only at hvalid
      rcases hresult : validateReceiverEndpointUrl urls configuration.allowedHosts resolver
        delivery.endpointUrl with error | accepted
      · rw [hresult] at hvalid
        cases hvalid
      · exact validateReceiverEndpointUrl_eq_ok hresult
  · intro value hvalue
    obtain ⟨uris, huris, rfl⟩ := Option.map_eq_some_iff.mp hvalue
    exact ⟨uris, rfl, body.events_supported uris huris⟩

/-- A patch that was accepted leaves a stream as it may be. -/
theorem deliverable_patchedStream {allowedHosts : List String} {payload : StreamPayload}
    (hpayload : PatchDeliverable urls allowedHosts payload) {stream : Stream}
    (hstream : Deliverable urls allowedHosts stream.aud stream.endpointUrl
      stream.eventsRequested) {uris : List String}
    (hevents : requestedEvents payload stream = .ok uris) :
    Deliverable urls allowedHosts (patchedStream payload stream uris).aud
      (patchedStream payload stream uris).endpointUrl uris := by
  have horElse : ∀ {value : Option String} {fallback : String} {property : String → Prop},
      (∀ text ∈ value, property text) → property fallback →
      property (orElse value fallback) := by
    intro value fallback property hvalue hfallback
    rw [orElse.eq_def]
    split
    · split_ifs
      · exact hfallback
      · exact hvalue _ rfl
    · exact hfallback
  have hurl : WellFormedEndpoint urls (patchedStream payload stream uris).endpointUrl ∧
      receiverHostAllowed urls.hostname allowedHosts
        (patchedStream payload stream uris).endpointUrl = true := by
    apply horElse hpayload.endpoint
    rw [hpayload.flat_endpoint]
    exact ⟨hstream.endpoint, hstream.allowed⟩
  refine ⟨horElse hpayload.aud_not_blank hstream.aud_not_blank, ?_, hurl.1, hurl.2⟩
  rw [requestedEvents] at hevents
  rcases hvalue : payload.eventsRequested with _ | value
  · rw [hvalue] at hevents
    obtain rfl := Except.ok.inj hevents
    exact hstream.events_supported
  · obtain ⟨given, rfl, hgiven⟩ := hpayload.events_supported value hvalue
    rw [hvalue] at hevents
    obtain rfl := Except.ok.inj hevents
    exact hgiven

end Conditions

section Registered

variable {Key Entropy : Type*} {fernet : Fernet Key Entropy} [PyRuntime] {urls : UrlLibrary}
  {hmac : Hmac} {stack : Stack}

variable (urls) in
def RowDeliverable (transmitter : Transmitter Key) (row : StreamRow) : Prop :=
  (∃ uris, loadsEvents row.eventsRequested = .ok uris ∧
    Deliverable urls transmitter.checkedHosts row.aud row.endpointUrl uris) ∧
  Confirmed urls transmitter.registrations row.streamId row.createdAt

variable (urls) in
structure Registered (transmitter : Transmitter Key) : Prop where
  creating : ∀ request registration, transmitter.creating request = some registration →
    registration.Genuine urls ∧
      StreamDeliverable urls transmitter.configuration.allowedHosts registration.stream
  tasks : ∀ task, (transmitter.world.tasks task).Carries
    (OperationDeliverable urls transmitter.configuration.allowedHosts transmitter.registrations)
    fun _ => True
  rows : ∀ row ∈ transmitter.world.database.streams, RowDeliverable urls transmitter row

omit [PyRuntime] in
theorem Confirmed.mono {registrations more : List Registration} {streamId : String}
    {createdAt : ℕ} (hconfirmed : Confirmed urls registrations streamId createdAt)
    (hmore : registrations ⊆ more) : Confirmed urls more streamId createdAt := by
  obtain ⟨registration, hregistration, hrest⟩ := hconfirmed
  exact ⟨registration, hmore hregistration, hrest⟩

omit [PyRuntime] in
theorem OperationDeliverable.mono {allowedHosts : List String}
    {registrations more : List Registration} {operation : LockedOperation}
    (hoperation : OperationDeliverable urls allowedHosts registrations operation)
    (hmore : registrations ⊆ more) : OperationDeliverable urls allowedHosts more operation := by
  cases operation with
  | save stream => exact ⟨hoperation.1, hoperation.2.mono hmore⟩
  | update => exact hoperation
  | delete => trivial
  | discardPending => trivial

omit [PyRuntime] in
theorem Task.Carries.imp {first second : LockedOperation → Prop}
    {batch other : List (Stream × Dict) → Prop} {task : Task} (htask : task.Carries first batch)
    (hoperation : ∀ operation, first operation → second operation)
    (hbatch : ∀ deliveries, batch deliveries → other deliveries) :
    task.Carries second other := by
  cases task with
  | enqueuing deliveries => exact hbatch deliveries htask
  | stamped deliveries now => exact hbatch deliveries htask
  | waiting requested => exact hoperation requested htask
  | holding requested => exact hoperation requested htask
  | _ => trivial

/-- A row that a step leaves may deliver, if the tasks carried what may. -/
theorem rowDeliverable_of_origin {transmitter : Transmitter Key}
    (hbefore : Registered urls transmitter) {row : StreamRow}
    (horigin : RowOrigin fernet transmitter.world row) :
    RowDeliverable urls transmitter row := by
  cases horigin with
  | kept hrow => exact hbefore.rows row hrow
  | @quarantined key old hrow =>
      have hold := hbefore.rows old hrow
      rcases quarantinedRow_eq fernet key old with hsame | hpaused
      · rw [hsame]
        exact hold
      · rw [hpaused]
        exact hold
  | @saved task stream entropy htask =>
      have hcarries := hbefore.tasks task
      rw [htask] at hcarries
      exact ⟨⟨stream.eventsRequested, loadsEvents_dumpsEvents _, hcarries.1.checked⟩, hcarries.2⟩
  | @patched task streamId payload old stream uris entropy htask hrow hread hevents =>
      have hcarries := hbefore.tasks task
      rw [htask] at hcarries
      obtain ⟨⟨stored, hstored, hdeliverable⟩, hconfirmed⟩ := hbefore.rows old hrow
      obtain ⟨-, haud, hurl, -, -, hloads, -⟩ := rowToStream_eq_ok fernet hread
      obtain rfl := Except.ok.inj (hloads.symm.trans hstored)
      rw [← haud, ← hurl] at hdeliverable
      exact ⟨⟨uris, loadsEvents_dumpsEvents _,
        deliverable_patchedStream hcarries.checked hdeliverable hevents⟩, hconfirmed⟩

/-- A step of the service that brings only what may be stored. -/
theorem Registered.of_step {before after : Transmitter Key}
    (hbefore : Registered urls before) (hworld : Invariant fernet before.world)
    {action : Action Key Entropy} (hstep : Step fernet before.world action after.world)
    (hconfiguration : after.configuration = before.configuration)
    (hchecked : after.checked = before.checked)
    (hregistrations : before.registrations ⊆ after.registrations)
    (hcreating : ∀ request registration, after.creating request = some registration →
      before.creating request = some registration)
    (hbrings : action.Brings fernet
      (OperationDeliverable urls after.configuration.allowedHosts after.registrations)
      (fun _ => True) before.world) :
    Registered urls after where
  creating request registration hregistration := by
    rw [hconfiguration]
    exact hbefore.creating request registration (hcreating request registration hregistration)
  tasks := by
    refine carries_next hstep (fun task => ?_) hbrings
    refine (hbefore.tasks task).imp (fun operation hoperation => ?_) fun _ => id
    rw [hconfiguration]
    exact hoperation.mono hregistrations
  rows row hrow := by
    obtain ⟨hdeliverable, hconfirmed⟩ :=
      rowDeliverable_of_origin hbefore (rowOrigin_of_step hworld hstep hrow)
    rw [RowDeliverable, Transmitter.checkedHosts, hconfiguration, hchecked]
    exact ⟨hdeliverable, hconfirmed.mono hregistrations⟩

theorem brings_of_isInternal {world : World Key} {action : Action Key Entropy}
    {operation : LockedOperation → Prop} {batch : List (Stream × Dict) → Prop}
    (hinternal : action.isInternal = true)
    (hdelete : ∀ streamId, operation (.delete streamId))
    (hdiscard : operation .discardPending) :
    action.Brings fernet operation batch world := by
  cases action with
  | request task requested =>
      cases requested with
      | save => cases hinternal
      | update => cases hinternal
      | delete streamId => exact hdelete streamId
      | discardPending => exact hdiscard
  | patchById => cases hinternal
  | webhook => cases hinternal
  | deleteCurrent => exact hdelete
  | _ => trivial

omit [PyRuntime] in
theorem eq_some_of_update_none {creating : ℕ → Option Registration} {ended request : ℕ}
    {registration : Registration}
    (hregistration : Function.update creating ended none request = some registration) :
    creating request = some registration := by
  by_cases hsame : request = ended
  · subst hsame
    rw [Function.update_self] at hregistration
    cases hregistration
  · rwa [Function.update_of_ne hsame] at hregistration

omit [PyRuntime] in
theorem exists_of_mem_restart {key : Key} {world : World Key} {row : StreamRow}
    (hrow : row ∈ (restart fernet key world).database.streams) :
    ∃ old ∈ world.database.streams, ∃ status, row = { old with status := status } := by
  have hstored : row ∈ (quarantineUndecryptableReceiverTokens fernet key
    world.database).streams := hrow
  rw [quarantineUndecryptableReceiverTokens] at hstored
  split_ifs at hstored
  · exact ⟨row, hstored, row.status, rfl⟩
  · obtain ⟨old, hold, rfl⟩ := List.mem_map.mp hstored
    rcases quarantinedRow_eq fernet key old with hsame | hpaused
    · exact ⟨old, hold, old.status, hsame⟩
    · exact ⟨old, hold, .paused, hpaused⟩

/-- Each happening keeps the stored streams registered. -/
theorem Registered.next {before after : Transmitter Key} (hbefore : Registered urls before)
    (hworld : Invariant fernet before.world) {happening : Happening Key Entropy}
    (hhappens : Happens fernet urls hmac stack before happening after) :
    Registered urls after := by
  cases hhappens with
  | internal hinternal hstep =>
      exact hbefore.of_step hworld (Step.of_step hstep) rfl rfl (List.Subset.refl _)
        (fun _ _ => id) (brings_of_isInternal hinternal (fun _ => trivial) trivial)
  | @start key configuration readable hcheck =>
      refine ⟨fun _ _ hnone => ?_, fun _ => trivial, fun row hrow => ?_⟩
      · cases hnone
      obtain ⟨old, hold, status, rfl⟩ := exists_of_mem_restart hrow
      obtain ⟨⟨uris, hloads, hdeliverable⟩, hconfirmed⟩ := hbefore.rows old hold
      refine ⟨⟨uris, hloads, { hdeliverable with allowed := ?_ }⟩, hconfirmed⟩
      cases readable with
      | false => rfl
      | true =>
          have hallowed := receiverHostAllowed_of_checkStored (hcheck rfl) hold
          exact hallowed
  | @create created authorization body resolver freshId =>
      refine ⟨fun request registration hregistration => ?_, hbefore.tasks, hbefore.rows⟩
      rcases eq_or_ne request created with rfl | hother
      · have hcandidate := (Function.update_self ..).symm.trans hregistration
        exact ⟨⟨_, _, _, _, _, _, hcandidate⟩, deliverable_of_candidate hcandidate⟩
      · exact hbefore.creating request registration
          ((Function.update_of_ne hother ..).symm.trans hregistration)
  | @confirmed request task registration world hcreating hstep =>
      obtain ⟨hgenuine, hdeliverable⟩ := hbefore.creating request registration hcreating
      refine hbefore.of_step hworld (Step.of_step hstep) rfl rfl (List.subset_append_left _ _)
        (fun _ _ => eq_some_of_update_none) ?_
      exact ⟨hdeliverable, registration, List.mem_append_right _ (List.mem_singleton_self _),
        hgenuine, rfl, rfl⟩
  | ended =>
      exact ⟨fun request registration hregistration =>
        hbefore.creating request registration (eq_some_of_update_none hregistration),
        hbefore.tasks, hbefore.rows⟩
  | dropped =>
      exact ⟨fun request registration hregistration =>
        hbefore.creating request registration (eq_some_of_update_none hregistration),
        hbefore.tasks, hbefore.rows⟩
  | @patch task authorization streamId body resolver world haccepted hstep =>
      refine hbefore.of_step hworld (Step.of_step hstep) rfl rfl (List.Subset.refl _)
        (fun _ _ => id) ?_
      cases streamId with
      | none => exact patchDeliverable_of_accepted haccepted
      | some streamId => exact patchDeliverable_of_accepted haccepted
  | patchRefused => exact hbefore
  | webhook hfound hstep =>
      exact hbefore.of_step hworld (Step.of_step hstep) rfl rfl (List.Subset.refl _)
        (fun _ _ => id) fun _ _ => trivial
  | webhookEnded => exact hbefore

theorem registered_of_reachable {transmitter : Transmitter Key}
    (hreachable : (transmission fernet urls hmac stack).Reachable transmitter) :
    Registered urls transmitter := by
  refine @TransitionSystem.ReachableBy.invariant _ _ _ _
    (fun transmitter : Transmitter Key => Registered urls transmitter) _ hreachable ?_ ?_
  · intro start hstart
    obtain ⟨key, configuration, rfl⟩ := hstart
    refine ⟨fun _ _ hnone => ?_, fun _ => trivial, fun _ hrow => absurd hrow List.not_mem_nil⟩
    cases hnone
  · intro before happening after hreached hbefore _ hstep
    have hworld := invariant_of_reachable (reachable_world hreached)
    exact hbefore.next hworld (Happens.of_transmit hstep)

/-- A stream that is read from its row. -/
theorem Registered.of_row {transmitter : Transmitter Key}
    (htransmitter : Registered urls transmitter) {key : Key} {row : StreamRow} {stream : Stream}
    (hrow : row ∈ transmitter.world.database.streams)
    (hread : rowToStream fernet key row = .ok stream) :
    StreamDeliverable urls transmitter.checkedHosts stream ∧
      Confirmed urls transmitter.registrations stream.streamId stream.createdAt := by
  obtain ⟨⟨uris, huris, hdeliverable⟩, hconfirmed⟩ := htransmitter.rows row hrow
  obtain ⟨hid, haud, hurl, -, hcreated, hloads, -⟩ := rowToStream_eq_ok fernet hread
  obtain rfl := Except.ok.inj (hloads.symm.trans huris)
  rw [StreamDeliverable, haud, hurl, hid, hcreated]
  exact ⟨hdeliverable, hconfirmed⟩

/-- In every state the stored streams can be listed.  Each was created by an authorized
request whose verification SET was delivered, and it may deliver under the allowlist that
the running process has held its streams against, which may be another one since. -/
theorem exists_listed_registered {transmitter : Transmitter Key}
    (hreachable : (transmission fernet urls hmac stack).Reachable transmitter) :
    ∃ streams, listStreams fernet transmitter.world.key transmitter.world.database =
        .ok streams ∧ streams.length ≤ 1 ∧
      ∀ stream ∈ streams, StreamDeliverable urls transmitter.checkedHosts stream ∧
        Confirmed urls transmitter.registrations stream.streamId stream.createdAt := by
  have hregistered := registered_of_reachable hreachable
  have hworld := invariant_of_reachable (reachable_world hreachable)
  rcases hstreams : transmitter.world.database.streams with _ | ⟨row, _ | ⟨other, rest⟩⟩
  · refine ⟨[], ?_, Nat.zero_le 1, fun _ hnone => absurd hnone List.not_mem_nil⟩
    rw [listStreams, streamsByCreation, hstreams]
    rfl
  · have hrow : row ∈ transmitter.world.database.streams :=
      hstreams ▸ List.mem_singleton_self row
    obtain ⟨stream, hread⟩ := (hworld.sound.readable.encoded row hrow).exists_rowToStream
      transmitter.world.key
    refine ⟨[stream], (readsBack_of_row hstreams hread).list, le_refl 1, fun found hfound => ?_⟩
    obtain rfl := List.mem_singleton.mp hfound
    exact hregistered.of_row hrow hread
  · have hsingle := hworld.sound.wellFormed.single
    rw [hstreams, List.length_cons, List.length_cons] at hsingle
    omega

omit [PyRuntime] in
theorem revalidateEndpoint_eq_of_allowed {allowedHosts : List String} {url : String}
    (hallowed : receiverHostAllowed urls.hostname allowedHosts url = true)
    (resolver : ℕ → String → Resolution) (check : ℕ) :
    revalidateEndpoint urls.hostname allowedHosts resolver check url =
      revalidateEndpoint urls.hostname [] resolver check url := by
  rw [revalidateEndpoint, revalidateEndpoint, hallowed]
  simp

/-- A delivery that is under way goes to a stream that may deliver: where the running
process could read its streams, the allowlist is not what `_revalidate_endpoint` refuses it
for. -/
theorem pushing_deliverable {transmitter : Transmitter Key}
    (hreachable : (transmission fernet urls hmac stack).Reachable transmitter) {task : ℕ}
    {item : OutboxItem} {payload : Dict} {stream : Stream} {rest : List OutboxItem}
    (htask : transmitter.world.tasks task = .pushing item payload stream rest) :
    StreamDeliverable urls transmitter.checkedHosts stream ∧
      Confirmed urls transmitter.registrations stream.streamId stream.createdAt ∧
      (transmitter.checked = true → ∀ resolver check,
        revalidateEndpoint urls.hostname transmitter.configuration.allowedHosts resolver check
            stream.endpointUrl =
          revalidateEndpoint urls.hostname [] resolver check stream.endpointUrl) := by
  have hholds := (invariant_of_reachable (reachable_world hreachable)).tasks task
  rw [htask] at hholds
  obtain ⟨row, hrow, hread⟩ := getStreamById_eq_ok_some fernet hholds.2.2.1
  obtain ⟨hdeliverable, hconfirmed⟩ := (registered_of_reachable hreachable).of_row
    (List.mem_of_find?_eq_some hrow) hread
  refine ⟨hdeliverable, hconfirmed, fun hchecked => revalidateEndpoint_eq_of_allowed ?_⟩
  have hallowed := hdeliverable.allowed
  rwa [Transmitter.checkedHosts, if_pos hchecked] at hallowed

end Registered

section Sample

open scoped SsfTransmitter.Python.Ascii

theorem exists_listed_registered_created :
    ∃ registration, registration.stream = openStream ∧
      ∃ streams, listStreams clearFernet true
          (saveStream clearFernet true () registration.stream Database.init) = .ok streams ∧
        streams.length ≤ 1 ∧
        ∀ stream ∈ streams, StreamDeliverable sampleUrls ["receiver.example"] stream ∧
          Confirmed sampleUrls [registration] stream.streamId stream.createdAt := by
  obtain ⟨registration, hcandidate, hstream⟩ := exists_sampleRegistration
  have hcreated : (transmission clearFernet sampleUrls (fun _ message => message)
      ⟨100, 100, 100⟩).Reachable
        (Transmitter.created true () sampleConfiguration clearFernet registration) :=
    reachable_created true () sampleConfiguration hcandidate
  obtain ⟨streams, hlist, hlength, hregistered⟩ := exists_listed_registered hcreated
  exact ⟨registration, hstream, streams, hlist, hlength, hregistered⟩

/-- The worker of a checked process pushes a delivery. -/
theorem pushing_deliverable_sample :
    ∃ (transmitter : Transmitter Bool) (item : OutboxItem) (payload : Dict),
      transmitter.world.tasks 0 = .pushing item payload openStream [] ∧
      transmitter.configuration.allowedHosts = ["receiver.example"] ∧
      StreamDeliverable sampleUrls ["receiver.example"] openStream ∧
      ∀ resolver check,
        revalidateEndpoint sampleUrls.hostname ["receiver.example"] resolver check
            openStream.endpointUrl =
          revalidateEndpoint sampleUrls.hostname [] resolver check openStream.endpointUrl := by
  obtain ⟨⟨header, body, stream⟩, hcandidate, rfl⟩ := exists_sampleRegistration
  obtain ⟨found, event, hfound, hevent⟩ := exists_sampleNotification
  have hpushing : (transmission clearFernet sampleUrls (fun _ message => message)
      ⟨100, 100, 100⟩).Reachable (Transmitter.pushing true () sampleConfiguration clearFernet
        ⟨header, body, openStream⟩ found event) :=
    reachable_pushing true () sampleConfiguration hcandidate hfound hevent rfl (Or.inl rfl)
  have htask := @Transmitter.tasks_pushing _ _ clearFernet true () sampleConfiguration
    ⟨header, body, openStream⟩ found event
  obtain ⟨hdeliverable, -, hrevalidate⟩ := pushing_deliverable hpushing htask
  exact ⟨_, _, _, htask, rfl, hdeliverable, hrevalidate rfl⟩

end Sample

end SsfTransmitter.Service
