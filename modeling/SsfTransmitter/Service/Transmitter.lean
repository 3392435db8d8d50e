import SsfTransmitter.Python.Ascii
import SsfTransmitter.Routes.EndpointUrl
import SsfTransmitter.Routes.ReceiverHeader
import SsfTransmitter.Service.Progress
import SsfTransmitter.Store.ClearFernet
import SsfTransmitter.Webhook.Handler

/-!
# The transmitter with its routes

The service as its requests reach it: streams come from `POST` and `PATCH` requests
that pass their checks, deliveries from webhooks that are authenticated, and a process
starts only where the stored streams that it can read are on the allowlist.  Every run of
the transmitter is one of the service.
-/

namespace SsfTransmitter.Service

open SsfTransmitter.Core
open SsfTransmitter.Python
open SsfTransmitter.Store
open SsfTransmitter.Outbox
open SsfTransmitter.Routes
open SsfTransmitter.Webhook

/-- The settings that a process is started with. -/
structure Configuration where
  allowedHosts : List String
  settings : Webhook.Settings

/-- A create request that has passed its checks, with the stream it prepared. -/
structure Registration where
  authorization : HeaderText
  body : StreamCreateRequest
  stream : Stream

/-- A webhook that got to `enqueue_events`, with the signatures that it drew. -/
structure Notification where
  settings : Webhook.Settings
  request : Request
  time : ℕ
  streams : List Stream
  events : List MappedEvent
  email : PyStr
  sign : ℕ → SetClaims → String

/-- The process with its database, whether the stored streams could be read when it
started, the create requests that wait for the answer to their verification SET, and what
has happened: the registrations that were confirmed and the webhooks that were passed on. -/
structure Transmitter (Key : Type*) where
  world : World Key
  configuration : Configuration
  checked : Bool
  creating : ℕ → Option Registration
  registrations : List Registration
  notifications : List Notification

/-- The allowlist that the stored streams have been held against: the empty one, which
allows all, where they could not be read. -/
def Transmitter.checkedHosts {Key : Type*} (transmitter : Transmitter Key) : List String :=
  if transmitter.checked then transmitter.configuration.allowedHosts else []

/-- The requests and the other steps of the process.  A resolver answers while the
request is checked, and a process may find the stored streams unreadable when it starts. -/
inductive Happening (Key Entropy : Type*) where
  | internal (action : Action Key Entropy)
  | start (key : Key) (configuration : Configuration) (readable : Bool)
  | create (request : ℕ) (authorization : Option HeaderText) (body : StreamCreateRequest)
      (resolver : String → Resolution) (freshId : String)
  | verified (request task : ℕ) (pushed : Option Bool)
  | dropped (request : ℕ)
  | patch (task : ℕ) (authorization : Option HeaderText) (streamId : Option String)
      (body : StreamPatchRequest) (resolver : String → Resolution)
  | webhook (task : ℕ) (request : Request) (sign : ℕ → SetClaims → String)

/-- The steps that bring no stream, no patch and no event. -/
def Action.isInternal {Key Entropy : Type*} : Action Key Entropy → Bool
  | .restart _ => false
  | .webhook _ _ _ _ => false
  | .request _ (.save _) => false
  | .request _ (.update _ _) => false
  | .patchById _ _ _ => false
  | _ => true

/-- `require_management_auth`: a header with the management token. -/
def managementAuthorized (managementToken : String) (authorization : Option HeaderText) :
    Option HeaderText :=
  authorization.filter fun header =>
    startsWithText header.val "Bearer " &&
      encodeUtf8 (header.val.drop 7) = some managementToken.toUTF8.toList

section Requests

variable {Key Entropy : Type*} (fernet : Fernet Key Entropy) [PyRuntime] (urls : UrlLibrary)
  (hmac : Hmac) (stack : Stack)

/-- `create_stream_endpoint` up to its verification SET, `none` where it is refused. -/
def candidate (configuration : Configuration) (authorization : Option HeaderText)
    (body : StreamCreateRequest) (resolver : String → Resolution) (freshId : String)
    (now : ℕ) : Option Registration :=
  match managementAuthorized configuration.settings.managementToken authorization with
  | none => none
  | some header =>
    match validateReceiverEndpointUrl urls configuration.allowedHosts resolver
        body.delivery.endpointUrl, prepareStream freshId now (createPayload body) with
    | .ok _, .ok stream => some ⟨header, body, stream⟩
    | _, _ => none

/-- The check of `_patch_stream_body`. -/
def patchAccepted (configuration : Configuration) (authorization : Option HeaderText)
    (body : StreamPatchRequest) (resolver : String → Resolution) : Bool :=
  (managementAuthorized configuration.settings.managementToken authorization).isSome &&
    match body.delivery with
    | none => true
    | some delivery => (validateReceiverEndpointUrl urls configuration.allowedHosts resolver
        delivery.endpointUrl).isOk

/-- The call of `update_stream` that a patch leads to. -/
def patchAction (task : ℕ) (streamId : Option String) (body : StreamPatchRequest) :
    Action Key Entropy :=
  match streamId with
  | none => .request task (.update none (patchPayload body))
  | some streamId => .patchById task streamId (patchPayload body)

/-- `authentik_webhook` up to `enqueue_events`, `none` where it gets no further. -/
def notification (world : World Key) (settings : Webhook.Settings) (request : Request)
    (sign : ℕ → SetClaims → String) : Option Notification :=
  match listStreams fernet world.key world.database with
  | .error _ => none
  | .ok streams =>
    match authentikWebhook hmac stack settings world.clock streams request with
    | .ok (.enqueueing enabled events email) =>
      some ⟨settings, request, world.clock, enabled, events, email, sign⟩
    | _ => none

def transmit (transmitter : Transmitter Key) : Happening Key Entropy → Option (Transmitter Key)
  | .internal action =>
    if action.isInternal then
      (step fernet transmitter.world action).map fun world =>
        { transmitter with world := world }
    else none
  | .start key configuration readable =>
    if checkStoredStreamsAllowlist urls configuration.allowedHosts
        (if readable then some transmitter.world.database.streams else none) then
      some { transmitter with
        world := restart fernet key transmitter.world
        configuration := configuration
        checked := readable
        creating := fun _ => none }
    else none
  | .create request authorization body resolver freshId =>
    if (transmitter.creating request).isSome then none
    else some { transmitter with
      creating := Function.update transmitter.creating request
        (candidate urls transmitter.configuration authorization body resolver freshId
          transmitter.world.clock) }
  | .verified request task pushed =>
    match transmitter.creating request with
    | none => none
    | some registration =>
      if pushed = some true then
        (step fernet transmitter.world
            (Action.request task (.save registration.stream) : Action Key Entropy)).map
          fun world => { transmitter with
            world := world
            creating := Function.update transmitter.creating request none
            registrations := transmitter.registrations ++ [registration] }
      else some { transmitter with
        creating := Function.update transmitter.creating request none }
  | .dropped request =>
    some { transmitter with creating := Function.update transmitter.creating request none }
  | .patch task authorization streamId body resolver =>
    if patchAccepted urls transmitter.configuration authorization body resolver then
      (step fernet transmitter.world
          (patchAction task streamId body : Action Key Entropy)).map
        fun world => { transmitter with world := world }
    else some transmitter
  | .webhook task request sign =>
    match notification fernet hmac stack transmitter.world transmitter.configuration.settings
        request sign with
    | none => some transmitter
    | some found =>
      (step fernet transmitter.world
          (Action.webhook task found.events found.email found.sign : Action Key Entropy)).map
        fun world => { transmitter with
          world := world
          notifications := transmitter.notifications ++ [found] }

/-- A first process on an empty database. -/
def Transmitter.init (key : Key) (configuration : Configuration) : Transmitter Key where
  world := World.init key
  configuration := configuration
  checked := true
  creating _ := none
  registrations := []
  notifications := []

/-- The transmitter on an empty database, under any key and configuration. -/
def transmission : TransitionSystem (Transmitter Key) (Happening Key Entropy) where
  initial := fun transmitter => ∃ key configuration,
    transmitter = Transmitter.init key configuration
  step := transmit fernet urls hmac stack

theorem transmission_step : (transmission fernet urls hmac stack).step =
    transmit fernet urls hmac stack := rfl

end Requests

/-! ## What a happening does -/

section Inversion

variable {Key Entropy : Type*} (fernet : Fernet Key Entropy) [PyRuntime] (urls : UrlLibrary)
  (hmac : Hmac) (stack : Stack)

/-- What a happening requires and what it leaves. -/
inductive Happens (before : Transmitter Key) :
    Happening Key Entropy → Transmitter Key → Prop where
  | internal {action : Action Key Entropy} {world : World Key}
      (hinternal : action.isInternal = true)
      (hstep : step fernet before.world action = some world) :
      Happens before (.internal action) { before with world := world }
  | start {key : Key} {configuration : Configuration} {readable : Bool}
      (hcheck : readable = true → checkStoredStreamsAllowlist urls configuration.allowedHosts
        (some before.world.database.streams) = true) :
      Happens before (.start key configuration readable) { before with
        world := restart fernet key before.world
        configuration := configuration
        checked := readable
        creating := fun _ => none }
  | create {request : ℕ} {authorization : Option HeaderText} {body : StreamCreateRequest}
      {resolver : String → Resolution} {freshId : String} :
      Happens before (.create request authorization body resolver freshId) { before with
        creating := Function.update before.creating request
          (candidate urls before.configuration authorization body resolver freshId
            before.world.clock) }
  | confirmed {request task : ℕ} {registration : Registration} {world : World Key}
      (hcreating : before.creating request = some registration)
      (hstep : step fernet before.world
        (Action.request task (.save registration.stream) : Action Key Entropy) = some world) :
      Happens before (.verified request task (some true)) { before with
        world := world
        creating := Function.update before.creating request none
        registrations := before.registrations ++ [registration] }
  | ended {request task : ℕ} {pushed : Option Bool} :
      Happens before (.verified request task pushed) { before with
        creating := Function.update before.creating request none }
  | dropped {request : ℕ} :
      Happens before (.dropped request) { before with
        creating := Function.update before.creating request none }
  | patch {task : ℕ} {authorization : Option HeaderText} {streamId : Option String}
      {body : StreamPatchRequest} {resolver : String → Resolution} {world : World Key}
      (haccepted : patchAccepted urls before.configuration authorization body resolver = true)
      (hstep : step fernet before.world
        (patchAction task streamId body : Action Key Entropy) = some world) :
      Happens before (.patch task authorization streamId body resolver)
        { before with world := world }
  | patchRefused {task : ℕ} {authorization : Option HeaderText} {streamId : Option String}
      {body : StreamPatchRequest} {resolver : String → Resolution} :
      Happens before (.patch task authorization streamId body resolver) before
  | webhook {task : ℕ} {request : Request} {sign : ℕ → SetClaims → String}
      {found : Notification} {world : World Key}
      (hfound : notification fernet hmac stack before.world before.configuration.settings
        request sign = some found)
      (hstep : step fernet before.world
        (Action.webhook task found.events found.email found.sign : Action Key Entropy) =
          some world) :
      Happens before (.webhook task request sign) { before with
        world := world
        notifications := before.notifications ++ [found] }
  | webhookEnded {task : ℕ} {request : Request} {sign : ℕ → SetClaims → String} :
      Happens before (.webhook task request sign) before

variable {fernet urls hmac stack}

/-- The transmitter does nothing that `Happens` does not describe. -/
theorem Happens.of_transmit {before after : Transmitter Key} {happening : Happening Key Entropy}
    (hstep : transmit fernet urls hmac stack before happening = some after) :
    Happens fernet urls hmac stack before happening after := by
  cases happening with
  | internal action =>
      rw [transmit] at hstep
      split_ifs at hstep with hinternal
      obtain ⟨world, hworld, rfl⟩ := Option.map_eq_some_iff.mp hstep
      exact .internal hinternal hworld
  | start key configuration readable =>
      rw [transmit] at hstep
      split_ifs at hstep with hread hcheck hcheck
      · obtain rfl := Option.some.inj hstep
        exact .start fun _ => hcheck
      · obtain rfl := Option.some.inj hstep
        exact .start fun hreadable => absurd hreadable hread
  | create request authorization body resolver freshId =>
      rw [transmit] at hstep
      split_ifs at hstep
      obtain rfl := Option.some.inj hstep
      exact .create
  | verified request task pushed =>
      rw [transmit] at hstep
      rcases hcreating : before.creating request with _ | registration
      · rw [hcreating] at hstep
        cases hstep
      · rw [hcreating] at hstep
        dsimp only at hstep
        split_ifs at hstep with hpushed
        · subst hpushed
          obtain ⟨world, hworld, rfl⟩ := Option.map_eq_some_iff.mp hstep
          exact .confirmed hcreating hworld
        · obtain rfl := Option.some.inj hstep
          exact .ended
  | dropped request =>
      obtain rfl := Option.some.inj hstep
      exact .dropped
  | patch task authorization streamId body resolver =>
      rw [transmit] at hstep
      split_ifs at hstep with haccepted
      · obtain ⟨world, hworld, rfl⟩ := Option.map_eq_some_iff.mp hstep
        exact .patch haccepted hworld
      · obtain rfl := Option.some.inj hstep
        exact .patchRefused
  | webhook task request sign =>
      rw [transmit] at hstep
      rcases hfound : notification fernet hmac stack before.world
        before.configuration.settings request sign with _ | found
      · rw [hfound] at hstep
        obtain rfl := Option.some.inj hstep
        exact .webhookEnded
      · rw [hfound] at hstep
        obtain ⟨world, hworld, rfl⟩ := Option.map_eq_some_iff.mp hstep
        exact .webhook hfound hworld

/-! ## Runs of the service -/

/-- Each happening is a step of the service, or leaves the service as it is. -/
theorem Happens.world {before after : Transmitter Key} {happening : Happening Key Entropy}
    (hhappens : Happens fernet urls hmac stack before happening after) :
    after.world = before.world ∨
      ∃ action : Action Key Entropy, step fernet before.world action = some after.world := by
  cases hhappens with
  | internal _ hstep => exact Or.inr ⟨_, hstep⟩
  | @start key configuration readable _ => exact Or.inr ⟨.restart key, rfl⟩
  | create => exact Or.inl rfl
  | confirmed _ hstep => exact Or.inr ⟨_, hstep⟩
  | ended => exact Or.inl rfl
  | dropped => exact Or.inl rfl
  | patch _ hstep => exact Or.inr ⟨_, hstep⟩
  | patchRefused => exact Or.inl rfl
  | webhook _ hstep => exact Or.inr ⟨_, hstep⟩
  | webhookEnded => exact Or.inl rfl

/-- What holds of every state of the service holds of every state of the transmitter. -/
theorem reachable_world {transmitter : Transmitter Key}
    (hreachable : (transmission fernet urls hmac stack).Reachable transmitter) :
    (service fernet).Reachable transmitter.world := by
  refine @TransitionSystem.ReachableBy.invariant _ _ _ _
    (fun transmitter : Transmitter Key => (service fernet).Reachable transmitter.world) _
    hreachable ?_ ?_
  · intro start hstart
    obtain ⟨key, configuration, rfl⟩ := hstart
    exact TransitionSystem.ReachableBy.of_initial ⟨key, rfl⟩
  · intro before happening after _ hbefore _ hstep
    rcases (Happens.of_transmit hstep).world with hsame | ⟨action, haction⟩
    · rw [hsame]
      exact hbefore
    · exact hbefore.next trivial haction

end Inversion

/-! ## From the requests to a push -/

section Requested

variable {Key Entropy : Type*} {fernet : Fernet Key Entropy} [PyRuntime] {urls : UrlLibrary}
  {hmac : Hmac} {stack : Stack}

theorem step_internal {transmitter : Transmitter Key} {action : Action Key Entropy}
    {world : World Key} (hinternal : action.isInternal = true)
    (hstep : step fernet transmitter.world action = some world) :
    (transmission fernet urls hmac stack).step transmitter (.internal action) =
      some { transmitter with world := world } := by
  rw [transmission_step, transmit, if_pos hinternal, hstep]
  rfl

/-- Internal actions run in the transmitter as in the service. -/
theorem path_of_run_internal {transmitter : Transmitter Key} {world : World Key}
    {actions : List (Action Key Entropy)}
    (hinternal : ∀ action ∈ actions, action.isInternal = true)
    (hrun : (service fernet).run transmitter.world actions = some world) :
    (transmission fernet urls hmac stack).Path (fun _ => True) transmitter
      { transmitter with world := world } := by
  induction actions generalizing transmitter with
  | nil =>
      obtain rfl := Option.some.inj hrun
      exact .refl
  | cons action rest ih =>
      obtain ⟨next, hnext, hrest⟩ := Option.bind_eq_some_iff.mp hrun
      rw [service_step] at hnext
      have hfirst : (transmission fernet urls hmac stack).Path (fun _ => True) transmitter
          { transmitter with world := next } := TransitionSystem.Path.refl.step trivial
            (step_internal (hinternal action List.mem_cons_self) hnext)
      have hlast := @ih { transmitter with world := next }
        (fun other hother => hinternal other (List.mem_cons_of_mem _ hother)) hrest
      exact hfirst.trans hlast

variable (key : Key) (entropy : Entropy) (configuration : Configuration)

/-- The transmitter after its first stream was created. -/
def Transmitter.created (fernet : Fernet Key Entropy) (registration : Registration) :
    Transmitter Key where
  world := savedWorld fernet key entropy registration.stream
  configuration := configuration
  checked := true
  creating _ := none
  registrations := [registration]
  notifications := []

theorem reachable_created {authorization : Option HeaderText} {body : StreamCreateRequest}
    {resolver : String → Resolution} {freshId : String} {registration : Registration}
    (hcandidate : candidate urls configuration authorization body resolver freshId 0 =
      some registration) :
    (transmission fernet urls hmac stack).Reachable
      (Transmitter.created key entropy configuration fernet registration) := by
  have hrun : (transmission fernet urls hmac stack).run (Transmitter.init key configuration)
      [.create 0 authorization body resolver freshId, .verified 0 0 (some true),
        .internal (.acquire 0), .internal (.commit 0 entropy), .internal (.release 0)] =
      some (Transmitter.created key entropy configuration fernet registration) := by
    simp [TransitionSystem.run, transmission, transmit, hcandidate, Transmitter.init,
      World.init, step, Action.isInternal, World.setTask, World.enter, World.leave,
      World.transact, LockedOperation.isDirect, LockedOperation.commit, Transmitter.created,
      savedWorld]
  exact ⟨_, ⟨key, configuration, rfl⟩, TransitionSystem.path_of_run (fun _ _ => trivial) hrun⟩

/-- The transmitter when it pushes the one event of a webhook. -/
def Transmitter.pushing (fernet : Fernet Key Entropy) (registration : Registration)
    (found : Notification) (event : MappedEvent) : Transmitter Key where
  world := pushingWorld fernet key entropy registration.stream event found.email found.sign
  configuration := configuration
  checked := true
  creating _ := none
  registrations := [registration]
  notifications := [found]

omit [PyRuntime] in
theorem Transmitter.tasks_pushing (registration : Registration) (found : Notification)
    (event : MappedEvent) :
    (Transmitter.pushing key entropy configuration fernet registration found
        event).world.tasks 0 =
      .pushing
        (queuedRow fernet key entropy registration.stream event found.email
          found.sign).toOutboxItem
        (queuedPayload registration.stream event found.email found.sign)
        registration.stream [] := by
  simp [Transmitter.pushing, pushingWorld]

theorem reachable_notified {authorization : Option HeaderText} {body : StreamCreateRequest}
    {resolver : String → Resolution} {freshId : String} {registration : Registration}
    (hcandidate : candidate urls configuration authorization body resolver freshId 0 =
      some registration)
    {request : Request} {sign : ℕ → SetClaims → String} {found : Notification}
    (hfound : notification fernet hmac stack
      (savedWorld fernet key entropy registration.stream) configuration.settings request
      sign = some found)
    {event : MappedEvent} (hevent : found.events = [event]) {next : World Key}
    (hwebhook : step fernet (savedWorld fernet key entropy registration.stream)
      (.webhook 0 [event] found.email found.sign) = some next) :
    (transmission fernet urls hmac stack).Reachable {
      Transmitter.created key entropy configuration fernet registration with
      world := next
      notifications := [found] } := by
  have hcreated : (transmission fernet urls hmac stack).Reachable
      (Transmitter.created key entropy configuration fernet registration) :=
    reachable_created key entropy configuration hcandidate
  have hstep : (transmission fernet urls hmac stack).step
      (Transmitter.created key entropy configuration fernet registration)
      (.webhook 0 request sign) = some {
        Transmitter.created key entropy configuration fernet registration with
        world := next
        notifications := [found] } := by
    rw [transmission_step, transmit, Transmitter.created, hfound]
    dsimp only
    rw [hevent, hwebhook]
    rfl
  exact hcreated.next trivial hstep

theorem reachable_pushing {authorization : Option HeaderText} {body : StreamCreateRequest}
    {resolver : String → Resolution} {freshId : String} {registration : Registration}
    (hcandidate : candidate urls configuration authorization body resolver freshId 0 =
      some registration)
    {request : Request} {sign : ℕ → SetClaims → String} {found : Notification}
    (hfound : notification fernet hmac stack
      (savedWorld fernet key entropy registration.stream) configuration.settings request
      sign = some found)
    {event : MappedEvent} (hevent : found.events = [event])
    (henabled : registration.stream.status = .enabled)
    (hrequested : registration.stream.eventsRequested = [] ∨
      event.uri ∈ registration.stream.eventsRequested) :
    (transmission fernet urls hmac stack).Reachable
      (Transmitter.pushing key entropy configuration fernet registration found event) := by
  obtain ⟨next, hwebhook, henqueue⟩ := Option.bind_eq_some_iff.mp
    (run_webhook fernet key entropy registration.stream event found.email found.sign henabled
      hrequested)
  have hnext := reachable_notified key entropy configuration hcandidate hfound
    hevent hwebhook
  have hqueued := hnext.path (path_of_run_internal (by simp [Action.isInternal]) henqueue)
  exact hqueued.path (path_of_run_internal (by simp [Action.isInternal])
    (run_delivery fernet key entropy registration.stream event found.email found.sign henabled))

end Requested

section Sample

open scoped SsfTransmitter.Python.Ascii

/-- A library that knows one URL. -/
def sampleUrls : UrlLibrary where
  urlparse url :=
    if url = openStream.endpointUrl then .ok ⟨"https", "", "", "", "receiver.example"⟩
    else .error "not known"
  lower := String.toLower

def sampleConfiguration : Configuration where
  allowedHosts := ["receiver.example"]
  settings := {
    authMode := .unsigned
    webhookToken := none
    webhookSecret := ""
    logPii := false
    piiPepper := "pepper"
    managementToken := "management"
    logLevel := .error }

def sampleBody : StreamCreateRequest where
  aud := openStream.aud
  delivery := { endpointUrl := openStream.endpointUrl, endpointUrlToken := some "secret" }
  aud_not_blank := openStream_aud_not_blank
  events_supported := nil_events_supported

theorem bearerManagement_latin1 : ∀ point ∈ ofString "Bearer management", point.val < 256 := by
  have hall : (ofString "Bearer management").all (fun point => point.val < 256) = true := by
    decide +kernel
  intro point hpoint
  exact of_decide_eq_true (List.all_eq_true.mp hall point hpoint)

def sampleHeader : HeaderText :=
  ⟨ofString "Bearer management", bearerManagement_latin1⟩

/-- A logout of a user. -/
def sampleLogout : Request where
  contentLength := none
  authorization := none
  signature := none
  chunks := [("\x7b\"action\": \"authentik.core.auth.logout\", " ++
    "\"user\": \x7b\"email\": \"ada@example.com\"\x7d\x7d").toUTF8.toList]

theorem exists_sampleRegistration : ∃ registration,
    candidate sampleUrls sampleConfiguration (some sampleHeader) sampleBody
      (fun _ => .addresses ["93.184.216.34"]) "stream" 0 = some registration ∧
      registration.stream = openStream := by
  have hstream : (candidate sampleUrls sampleConfiguration (some sampleHeader) sampleBody
      (fun _ => .addresses ["93.184.216.34"]) "stream" 0).map Registration.stream =
      some openStream := by decide +kernel
  exact Option.map_eq_some_iff.mp hstream

theorem exists_sampleNotification : ∃ found event,
    notification clearFernet (fun _ message => message) ⟨100, 100, 100⟩
      (savedWorld clearFernet true () openStream) sampleConfiguration.settings sampleLogout
      (fun _ _ => "signed") = some found ∧ found.events = [event] := by
  have hevents : (notification clearFernet (fun _ message => message) ⟨100, 100, 100⟩
      (savedWorld clearFernet true () openStream) sampleConfiguration.settings sampleLogout
      (fun _ _ => "signed")).map (fun found => found.events.length) = some 1 := by
    decide +kernel
  obtain ⟨found, hfound, hlength⟩ := Option.map_eq_some_iff.mp hevents
  obtain ⟨event, hevent⟩ := List.length_eq_one_iff.mp hlength
  exact ⟨found, event, hfound, hevent⟩

end Sample

end SsfTransmitter.Service
