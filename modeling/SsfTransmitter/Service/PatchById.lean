import SsfTransmitter.Service.Loss

/-!
# Patching a stream by its id

`PATCH /ssf/streams/{stream_id}` checks the id, waits for the lock and patches the
stream that is stored by then.  A commit keeps to the requested stream exactly
when no other stream has taken its place, or the patch is refused anyway.
-/

namespace SsfTransmitter.Service

open SsfTransmitter.Core
open SsfTransmitter.Python
open SsfTransmitter.Store
open SsfTransmitter.Outbox

section PatchById

variable {Key Entropy : Type*} (fernet : Fernet Key Entropy) [PyRuntime]

/-- The commit of a patch by id keeps to its stream: a stream that is returned has
the id, rows of other streams stay, and nothing changes when the stream is gone. -/
structure PatchKeepsTo (streamId : String) (task : ℕ) (world next : World Key) :
    Prop where
  returned : ∀ operation stream,
    next.tasks task = .replying operation (.updated (.ok (some stream))) →
    stream.streamId = streamId
  others : ∀ row ∈ world.database.streams, row.streamId ≠ streamId →
    row ∈ next.database.streams
  untouched : streamRow streamId world.database = none →
    next.database = world.database

/-- A stored stream for which `update_stream` accepts the patch has the id. -/
def PatchFindsTarget (streamId : String) (payload : StreamPayload)
    (world : World Key) : Prop :=
  ∀ row ∈ world.database.streams, ∀ stream eventsRequested,
    rowToStream fernet world.key row = .ok stream →
    requestedEvents payload stream = .ok eventsRequested →
    enablingWithoutToken payload row stream = false → row.streamId = streamId

variable {fernet}

/-- One commit keeps to the requested stream exactly when it finds it. -/
theorem patchKeepsTo_iff {world next : World Key}
    (hworld : world.database.streams.length ≤ 1) {task : ℕ} {entropy : Entropy}
    {streamId : String} {payload : StreamPayload}
    (htask : world.tasks task = .holding (.update (some streamId) payload))
    (hstep : step fernet world (.commit task entropy) = some next) :
    PatchKeepsTo streamId task world next ↔
      PatchFindsTarget fernet streamId payload world := by
  have hnext : next = world.transact task
      (.replying (.update (some streamId) payload)
        (.updated (updateStream fernet world.key entropy payload world.database).1))
      (updateStream fernet world.key entropy payload world.database).2
      ((LockedOperation.update (some streamId) payload).commit fernet world.key
        entropy world.database).2.2 := by
    cases Step.of_step hstep with
    | commit _ hholding =>
        rw [htask] at hholding
        obtain rfl := Task.holding.inj hholding
        rfl
  subst hnext
  rcases updateStream_cases fernet hworld world.key entropy payload with
    ⟨hsame, hnone⟩ | ⟨row, stream, uris, hstreams, hread, huris, hguard, hupdate⟩
  · -- the patch is refused, or there is no stream
    constructor
    · intro _ row hrow stream uris hread huris hguard
      have hupdate := updateStream_of_accepted fernet (eq_singleton_of_mem hworld hrow)
        hread huris hguard entropy
      exact absurd (congrArg Prod.fst hupdate) (hnone _)
    · intro _
      refine ⟨fun operation stream hreply => ?_, fun row hrow _ => ?_, fun _ => hsame⟩
      · simp only [World.transact, World.setTask, Function.update_self,
          Task.replying.injEq, Reply.updated.injEq] at hreply
        exact absurd hreply.2 (hnone stream)
      · simpa [World.transact, hsame] using hrow
  · have hid := (rowToStream_eq_ok fernet hread).1
    constructor
    · intro hkeeps other hother _ _ _ _ _
      rw [hstreams, List.mem_singleton] at hother
      subst hother
      have hreturned := hkeeps.returned (.update (some streamId) payload)
        (patchedStream payload stream uris)
        (by simp [World.transact, World.setTask, hupdate])
      exact hid.symm.trans hreturned
    · intro hfinds
      have htarget := hfinds row (by simp [hstreams]) stream uris hread huris hguard
      refine ⟨fun operation returned hreply => ?_, fun other hother hne => ?_,
        fun hmissing => ?_⟩
      · simp only [World.transact, World.setTask, Function.update_self,
          Task.replying.injEq, Reply.updated.injEq, hupdate, Except.ok.injEq,
          Option.some.injEq] at hreply
        rw [← hreply.2]
        exact hid.trans htarget
      · rw [hstreams, List.mem_singleton] at hother
        exact absurd (hother ▸ htarget) hne
      · have hfound := List.find?_eq_none.mp hmissing row (by simp [hstreams])
        simp [htarget] at hfound

/-- In a run every commit of a patch by id keeps to the requested stream exactly
when every such commit finds that stream. -/
theorem patches_keep_to_iff (key : Key) (actions : List (Action Key Entropy)) :
    (∀ transition ∈ (service fernet).transitions (World.init key) actions,
      ∀ task entropy streamId payload, transition.action = .commit task entropy →
        transition.source.tasks task = .holding (.update (some streamId) payload) →
        PatchKeepsTo streamId task transition.source transition.target) ↔
    ∀ transition ∈ (service fernet).transitions (World.init key) actions,
      ∀ task entropy streamId payload, transition.action = .commit task entropy →
        transition.source.tasks task = .holding (.update (some streamId) payload) →
        PatchFindsTarget fernet streamId payload transition.source := by
  refine forall₂_congr fun transition htransition => ?_
  obtain ⟨hpath, hstep⟩ := TransitionSystem.path_of_mem_transitions htransition
  have hsource : (service fernet).Reachable transition.source :=
    TransitionSystem.ReachableBy.path (.of_initial ⟨key, rfl⟩) hpath
  have hsingle := (invariant_of_reachable hsource).sound.wellFormed.single
  refine forall₄_congr fun task entropy streamId payload =>
    forall₂_congr fun haction htask => ?_
  rw [haction] at hstep
  exact patchKeepsTo_iff hsingle htask hstep

/-! ## A replacement between the check and the lock -/

variable (fernet) (key : Key) (entropy : Entropy) (stream replacement : Stream)
  (payload : StreamPayload)

/-- The stream is saved. -/
def savedFirst : List (Action Key Entropy) :=
  [.request 0 (.save stream), .acquire 0, .commit 0 entropy, .release 0]

/-- The patch is checked while the stream is stored, then the stream is replaced,
then the patch takes the lock. -/
def replacedDuringPatch : List (Action Key Entropy) :=
  [.patchById 1 stream.streamId payload, .request 0 (.save replacement),
    .acquire 0, .commit 0 entropy, .release 0, .acquire 1]

/-- The patch is about to commit, the replacement is stored. -/
def replacedWorld : World Key where
  key := key
  database := saveStream fernet key entropy replacement
    (saveStream fernet key entropy stream Database.init)
  clock := 0
  lock := some 1
  tasks := Function.update (fun _ => .idle) 1
    (.holding (.update (some stream.streamId) payload))
  log := [.saved, .saved]

theorem run_replacedDuringPatch :
    (service fernet).run (World.init key)
        (savedFirst entropy stream ++
          replacedDuringPatch entropy stream replacement payload) =
      some (replacedWorld fernet key entropy stream replacement payload) := by
  have hfirst : getFirstStream fernet key
      (saveStream fernet key entropy stream Database.init) = .ok (some stream) := by
    rw [getFirstStream_of_singleton fernet rfl, rowToStream_savedRow]
    rfl
  rw [TransitionSystem.run_append, savedFirst, run_save, Option.bind_some,
    replacedDuringPatch]
  simp [TransitionSystem.run, service_step, step, savedWorld, hfirst, afterLookup,
    World.setTask, World.enter, World.leave, World.transact,
    LockedOperation.isDirect, LockedOperation.commit, replacedWorld]
  funext task
  by_cases htask : task = 1
  · simp [htask]
  · simp [Function.update_apply, htask]

/-- A patch that brings no token and no events patches the replacement. -/
theorem not_patchKeepsTo_of_replaced (hid : replacement.streamId ≠ stream.streamId)
    (hevents : payload.eventsRequested = none)
    (hstatus : payload.status = some .paused) :
    ∃ transition ∈ (service fernet).transitions (World.init key)
        (savedFirst entropy stream ++
          replacedDuringPatch entropy stream replacement payload ++
            [.commit 1 entropy]),
      transition.action = .commit 1 entropy ∧
        transition.source.tasks 1 =
          .holding (.update (some stream.streamId) payload) ∧
        ¬PatchKeepsTo stream.streamId 1 transition.source transition.target := by
  set world := replacedWorld fernet key entropy stream replacement payload with hworld
  have htask : world.tasks 1 = .holding (.update (some stream.streamId) payload) := by
    simp [hworld, replacedWorld]
  obtain ⟨next, hnext⟩ : ∃ next,
      (service fernet).step world (.commit 1 entropy) = some next := by
    simp [service_step, step, htask]
  refine ⟨_, TransitionSystem.mem_transitions_of_run
    (run_replacedDuringPatch fernet key entropy stream replacement payload) hnext,
    rfl, htask, fun hkeeps => ?_⟩
  rw [service_step] at hnext
  have hstreams : world.database.streams = [savedRow fernet key entropy replacement] :=
    by simp [hworld, replacedWorld, saveStream]
  have hfinds := (patchKeepsTo_iff (by simp [hstreams]) htask hnext).mp hkeeps
  exact hid (hfinds (savedRow fernet key entropy replacement) (by simp [hstreams])
    replacement replacement.eventsRequested (rowToStream_savedRow ..)
    (by simp [requestedEvents, hevents]) (by simp [enablingWithoutToken, hstatus]))

end PatchById

section Sample

open scoped SsfTransmitter.Python.Ascii

/-- A stream that replaces the sample stream. -/
def replacementStream : Stream := { sampleStream with streamId := "replacement" }

/-- A patch that pauses the stream. -/
def pausePatch : StreamPayload := { status := some .paused }

/-- A patch of a replaced stream patches its replacement. -/
theorem patch_hits_replacement :
    ¬∀ (actions : List (Action Bool Unit)),
      ∀ transition ∈ (service clearFernet).transitions (World.init true) actions,
        ∀ task entropy streamId payload, transition.action = .commit task entropy →
          transition.source.tasks task = .holding (.update (some streamId) payload) →
          PatchKeepsTo streamId task transition.source transition.target := by
  intro hkeeps
  obtain ⟨transition, hmem, haction, htask, hnot⟩ :=
    not_patchKeepsTo_of_replaced clearFernet true () sampleStream replacementStream
      pausePatch (by decide) rfl rfl
  exact hnot (hkeeps _ transition hmem 1 () _ pausePatch haction htask)

end Sample

end SsfTransmitter.Service
