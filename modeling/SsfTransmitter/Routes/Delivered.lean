import SsfTransmitter.Routes.Streams
import SsfTransmitter.Python.Ascii
import SsfTransmitter.Webhook.Mapper

/-!
# Reported and actual event filter

`_stream_response` reports the events that a stream gets, `enqueue_events`
decides which ones it queues.  Each reads `events_requested` in its own way.
-/

namespace SsfTransmitter.Routes

open SsfTransmitter.Python
open SsfTransmitter.Store
open SsfTransmitter.Outbox
open SsfTransmitter.Webhook

/-- The mapper builds an event with this URI for some payload. -/
def Emitted [PyRuntime] (uri : String) : Prop :=
  ∃ stack level now payload events, mapAuthentikEvent stack level now payload = .ok events ∧
    ∃ event ∈ events, event.uri = uri

/-- The filter of `enqueue_events`. -/
def Passes (stream : Stream) (event : MappedEvent) : Prop :=
  stream.status = .enabled ∧
    (stream.eventsRequested = [] ∨ event.uri ∈ stream.eventsRequested)

instance (stream : Stream) (event : MappedEvent) : Decidable (Passes stream event) :=
  inferInstanceAs (Decidable (_ ∧ _))

/-- The positions of a stream and an event that pass the filter, in the order of
the two loops. -/
def passingPositions (streams : List Stream) (events : List MappedEvent) :
    List (Fin streams.length × Fin events.length) :=
  (List.finRange streams.length).flatMap fun row =>
    ((List.finRange events.length).filter fun column =>
      Passes streams[row] events[column]).map fun column => (row, column)

theorem mem_passingPositions {streams : List Stream} {events : List MappedEvent}
    {position : Fin streams.length × Fin events.length} :
    position ∈ passingPositions streams events ↔
      Passes streams[position.1] events[position.2] := by
  obtain ⟨row, column⟩ := position
  simp [passingPositions]

theorem nodup_passingPositions (streams : List Stream) (events : List MappedEvent) :
    (passingPositions streams events).Nodup := by
  rw [passingPositions, List.nodup_flatMap]
  constructor
  · intro row _
    exact ((List.nodup_finRange _).filter _).map (Prod.mk_right_injective row)
  · refine (List.nodup_finRange _).imp fun hrows => ?_
    intro position hleft hright
    obtain ⟨_, -, rfl⟩ := List.mem_map.mp hleft
    obtain ⟨_, -, heq⟩ := List.mem_map.mp hright
    exact hrows (congrArg Prod.fst heq).symm

/-- The pairs that `enqueue_events` signs for are those at the passing positions. -/
theorem matchingEvents_eq_map (streams : List Stream) (events : List MappedEvent) :
    matchingEvents streams events =
      (passingPositions streams events).map fun position =>
        (streams[position.1], events[position.2]) := by
  have hevents : ∀ stream : Stream,
      (if stream.status ≠ .enabled then []
        else (events.filter fun event =>
          stream.eventsRequested = [] ∨ event.uri ∈ stream.eventsRequested).map
            fun event => (stream, event)) =
        ((List.finRange events.length).filter fun column =>
          Passes stream events[column]).map fun column => (stream, events[column]) := by
    intro stream
    calc
      _ = (events.filter fun event => Passes stream event).map fun event =>
          (stream, event) := by
        by_cases hstatus : stream.status = .enabled <;> simp [Passes, hstatus]
      _ = _ := by
        conv_lhs => rw [← List.map_getElem_finRange events, List.filter_map, List.map_map]
        rfl
  calc
    matchingEvents streams events =
        streams.flatMap fun stream =>
          ((List.finRange events.length).filter fun column =>
            Passes stream events[column]).map fun column => (stream, events[column]) :=
      congrArg (streams.flatMap ·) (funext hevents)
    _ = _ := by
      conv_lhs => rw [← List.map_getElem_finRange streams, List.flatMap_map]
      rw [passingPositions, List.map_flatMap]
      simp only [List.map_map]
      rfl

@[simp]
theorem length_enqueueEvents (sign : ℕ → SetClaims → String) (streams : List Stream)
    (events : List MappedEvent) (email : PyStr) :
    (enqueueEvents sign streams events email).length =
      (passingPositions streams events).length := by
  rw [enqueueEvents, List.length_mapIdx, matchingEvents_eq_map, List.length_map]

/-- The claims that `enqueue_events` signs for a stream and an event. -/
def claimsFor (stream : Stream) (event : MappedEvent) (email : PyStr) : SetClaims where
  eventUri := event.uri
  audience := stream.aud
  email := email
  eventPayload := event.payload
  txn := event.txn

theorem getElem_enqueueEvents (sign : ℕ → SetClaims → String) {streams : List Stream}
    {events : List MappedEvent} (email : PyStr) {index : ℕ}
    (hindex : index < (enqueueEvents sign streams events email).length) :
    (enqueueEvents sign streams events email)[index] =
      let position := (passingPositions streams events).get
        ⟨index, by simpa using hindex⟩
      let stream := streams[position.1]
      let event := events[position.2]
      (stream, deliveryPayload stream event.uri
        (sign index (claimsFor stream event email))) := by
  simp only [enqueueEvents, List.getElem_mapIdx, matchingEvents_eq_map, List.getElem_map]
  rfl

/-- `enqueue_events` queues something for one stream and one event exactly when
they pass. -/
theorem enqueueEvents_ne_nil_iff (sign : ℕ → SetClaims → String) (stream : Stream)
    (event : MappedEvent) (email : PyStr) :
    enqueueEvents sign [stream] [event] email ≠ [] ↔ Passes stream event := by
  rw [enqueueEvents, ne_eq, List.mapIdx_eq_nil_iff, matchingEvents]
  by_cases hstatus : stream.status = .enabled <;>
    by_cases hevents : stream.eventsRequested = [] ∨ event.uri ∈ stream.eventsRequested <;>
      simp [Passes, hstatus, hevents]

section Mapper

variable [PyRuntime] {stack : Stack} {level : LogLevel} {now : ℤ}

omit [PyRuntime] in
theorem eq_of_mem_mapUserWrite {txn : Option PyStr} {payload : Dict}
    {events : List MappedEvent}
    (hmap : mapUserWrite stack level now txn payload = .ok events)
    {event : MappedEvent} (hevent : event ∈ events) : event = passwordEvent now txn := by
  have hevents : events = if Json.str "password" ∈ changedFields payload then
      [passwordEvent now txn] else [] := by
    by_cases hpassword : Json.str "password" ∈ changedFields payload <;>
      by_cases hactive : Json.str "is_active" ∈ changedFields payload <;>
        simp_all [mapUserWrite, bind_eq_ok_iff]
  rw [hevents] at hevent
  split_ifs at hevent with hpassword
  · exact List.mem_singleton.mp hevent
  · simp at hevent

/-- An event that the mapper builds is a logout or a changed password. -/
theorem eq_of_mem_mapAuthentikEvent {payload : Dict} {events : List MappedEvent}
    (hmap : mapAuthentikEvent stack level now payload = .ok events)
    {event : MappedEvent} (hevent : event ∈ events) :
    ∃ txn, event = logoutEvent now txn ∨ event = passwordEvent now txn := by
  rw [mapAuthentikEvent] at hmap
  obtain ⟨txn, -, hmap⟩ := bind_eq_ok_iff.mp hmap
  refine ⟨txn, ?_⟩
  split_ifs at hmap
  · obtain rfl := Except.ok.inj hmap
    simp at hevent
  · obtain rfl := Except.ok.inj hmap
    exact Or.inl (List.mem_singleton.mp hevent)
  · obtain rfl := Except.ok.inj hmap
    simp at hevent
  · obtain ⟨_, -, hmap⟩ := bind_eq_ok_iff.mp hmap
    obtain rfl := Except.ok.inj hmap
    simp at hevent
  · exact Or.inr (eq_of_mem_mapUserWrite hmap hevent)

theorem Emitted.supported {uri : String} (huri : Emitted uri) :
    uri ∈ supportedEventUris := by
  obtain ⟨_, _, _, _, _, hmap, event, hevent, rfl⟩ := huri
  obtain ⟨txn, rfl | rfl⟩ := eq_of_mem_mapAuthentikEvent hmap hevent
  · simp [logoutEvent, sessionRevoked, supportedEventUris]
  · simp [passwordEvent, credentialChange, supportedEventUris]

/-- A logout is mapped. -/
theorem emitted_sessionRevoked : Emitted sessionRevoked := by
  refine ⟨⟨0, 0, 0⟩, .error, 0, [("action", .str "authentik.core.auth.logout")],
    [logoutEvent 0 none], ?_, logoutEvent 0 none, List.mem_singleton_self _, rfl⟩
  simp [mapAuthentikEvent, extractSourceTxn, sourceTxn, extractAction, extractBody,
    Dict.getD, Dict.get?_cons, bind, Except.bind]

end Mapper

/-- The deliveries of `enqueue_events` are numbered by the positions that pass: each
position has one delivery, with the stream and the event that stand there. -/
def OneForEachPassing (sign : ℕ → SetClaims → String) (streams : List Stream)
    (events : List MappedEvent) (email : PyStr) : Prop :=
  ∃ origin : Fin (enqueueEvents sign streams events email).length →
      Fin streams.length × Fin events.length,
    Function.Injective origin ∧
      (∀ position, position ∈ Set.range origin ↔
        Passes streams[position.1] events[position.2]) ∧
      ∀ index, (enqueueEvents sign streams events email).get index =
        (streams[(origin index).1],
          deliveryPayload streams[(origin index).1] events[(origin index).2].uri
            (sign index (claimsFor streams[(origin index).1]
              events[(origin index).2] email)))

theorem oneForEachPassing_enqueueEvents (sign : ℕ → SetClaims → String)
    (streams : List Stream) (events : List MappedEvent) (email : PyStr) :
    OneForEachPassing sign streams events email := by
  have hlength := length_enqueueEvents sign streams events email
  refine ⟨fun index => (passingPositions streams events).get (index.cast hlength),
    ?_, ?_, ?_⟩
  · have hget := List.nodup_iff_injective_get.mp (nodup_passingPositions streams events)
    exact hget.comp (Fin.cast_injective hlength)
  · intro position
    rw [← mem_passingPositions, List.mem_iff_get]
    constructor
    · rintro ⟨index, rfl⟩
      exact ⟨index.cast hlength, rfl⟩
    · rintro ⟨index, rfl⟩
      exact ⟨index.cast hlength.symm, rfl⟩
  · intro index
    exact getElem_enqueueEvents sign email index.isLt

/-- The report and the queue agree on an event exactly when the stream asks for
some event; the queue always holds one delivery for each pair that passes. -/
theorem eventsDelivered_agrees_iff [PyRuntime] (stream : Stream) (event : MappedEvent)
    (huri : Emitted event.uri) (issuer : String) (sign : ℕ → SetClaims → String)
    (email : PyStr) :
    ((event.uri ∈ (streamResponse issuer stream).eventsDelivered ↔
        enqueueEvents sign [{ stream with status := .enabled }] [event] email ≠ []) ↔
      stream.eventsRequested ≠ []) ∧
    ∀ streams events, OneForEachPassing sign streams events email := by
  refine ⟨?_, fun streams events => oneForEachPassing_enqueueEvents sign streams events email⟩
  rw [enqueueEvents_ne_nil_iff, streamResponse, mem_eventsDelivered_some, Passes]
  simp only [huri.supported, and_true, true_and]
  by_cases hrequested : stream.eventsRequested = []
  · simp [hrequested]
  · simp [hrequested]

open SsfTransmitter.Python.Ascii in
theorem eventsDelivered_agrees_sample :
    (sessionRevoked ∈ (streamResponse "https://issuer.example"
        { openStream with eventsRequested := [sessionRevoked] }).eventsDelivered ↔
      enqueueEvents (fun _ _ => "signed")
        [{ openStream with eventsRequested := [sessionRevoked], status := .enabled }]
        [logoutEvent 0 none] "ada@example.com" ≠ []) :=
  (eventsDelivered_agrees_iff { openStream with eventsRequested := [sessionRevoked] }
    (logoutEvent 0 none) emitted_sessionRevoked "https://issuer.example"
    (fun _ _ => "signed") "ada@example.com").1.mpr (List.cons_ne_nil _ _)

open SsfTransmitter.Python.Ascii in
/-- It is reported to get nothing and is queued everything. -/
theorem eventsDelivered_empty_but_queued :
    Emitted (logoutEvent 0 none).uri ∧
      (streamResponse "https://issuer.example" openStream).eventsDelivered = [] ∧
      (enqueueEvents (fun _ _ => "signed") [openStream] [logoutEvent 0 none]
        "ada@example.com").length = 1 :=
  ⟨emitted_sessionRevoked, rfl, rfl⟩

end SsfTransmitter.Routes
