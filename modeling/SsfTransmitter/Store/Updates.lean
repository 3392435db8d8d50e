import SsfTransmitter.Store.Capacity

/-!
# Concurrent updates of the stream

`update_stream` calls that overlap have the effect of the successful ones run
one after another, in the order in which they took the lock.  Each field of the
stored stream is that of the last successful patch that supplies it.
-/

namespace SsfTransmitter.Store

open SsfTransmitter.Core
open SsfTransmitter.Core.Transactional
open SsfTransmitter.Python

section Updates

variable {Key Entropy : Type*} (fernet : Fernet Key Entropy) [PyRuntime] (key : Key)

/-- A call of `update_stream`: its payload and the randomness of its encryption. -/
structure Patch (Entropy : Type*) where
  entropy : Entropy
  payload : StreamPayload

/-- Each call updates the stream with a patch of its own. -/
def updateCalls (patches : ℕ → Patch Entropy) : ℕ → Call Database StoreReply :=
  storeCalls fernet fun call =>
    (key, .updateStream (patches call).entropy (patches call).payload)

/-- Any number of `update_stream` calls on any tables. -/
def updates (patches : ℕ → Patch Entropy) (start : Database) :
    TransitionSystem (Shared Database StoreReply) Transactional.Action :=
  system (updateCalls fernet key patches) start

/-- The tables after a patch that runs alone. -/
def applyPatch (database : Database) (patch : Patch Entropy) : Database :=
  (updateStream fernet key patch.entropy patch.payload database).2

/-- The row that `update_stream` reads and writes: the newest one. -/
def currentRow (database : Database) : Option StreamRow :=
  (streamsByCreation database).head?

/-! ## The fields that a patch supplies -/

namespace Patch

def aud? (patch : Patch Entropy) : Option String :=
  patch.payload.aud.filter (· ≠ "")

def endpointUrl? (patch : Patch Entropy) : Option String :=
  (patch.payload.block.endpointUrl.filter (· ≠ "")).or
    (patch.payload.endpointUrl.filter (· ≠ ""))

/-- The ciphertext of the token that the patch brings. -/
def storedToken? (patch : Patch Entropy) : Option String :=
  (replacementEndpointToken patch.payload).map (encryptToken fernet key patch.entropy)

def eventsRequested? (patch : Patch Entropy) : Option (List String) :=
  match patch.payload.eventsRequested with
  | some (.uris uris) => some uris
  | _ => none

def status? (patch : Patch Entropy) : Option StreamStatus :=
  patch.payload.status

end Patch

/-- The value of a field after patches: the last one supplied, else the old one. -/
def lastSupplied {Value : Type*} (field : Patch Entropy → Option Value)
    (patches : List (Patch Entropy)) (old : Value) : Value :=
  ((patches.filterMap field).getLast?).getD old

omit [PyRuntime] in
theorem lastSupplied_cons {Value : Type*} (field : Patch Entropy → Option Value)
    (patch : Patch Entropy) (patches : List (Patch Entropy)) (old : Value) :
    lastSupplied field (patch :: patches) old =
      lastSupplied field patches ((field patch).getD old) := by
  rcases hfield : field patch with _ | value
  · simp [lastSupplied, hfield]
  · simp [lastSupplied, hfield, List.getLast?_cons]

omit [PyRuntime] in
theorem lastSupplied_singleton {Value : Type*} (field : Patch Entropy → Option Value)
    (patch : Patch Entropy) (old : Value) :
    lastSupplied field [patch] old = (field patch).getD old :=
  lastSupplied_cons field patch [] old

/-- Each field of the row is what the patches supplied last. -/
structure Patched (patches : List (Patch Entropy)) (row final : StreamRow) : Prop where
  streamId : final.streamId = row.streamId
  createdAt : final.createdAt = row.createdAt
  aud : final.aud = lastSupplied Patch.aud? patches row.aud
  endpointUrl : final.endpointUrl = lastSupplied Patch.endpointUrl? patches row.endpointUrl
  endpointToken : final.endpointToken =
    lastSupplied (Patch.storedToken? fernet key) patches row.endpointToken
  runtimeToken : decryptToken fernet key final.endpointToken =
    lastSupplied (fun patch => (replacementEndpointToken patch.payload).map .ok) patches
      (decryptToken fernet key row.endpointToken)
  eventsRequested : loadsEvents final.eventsRequested =
    lastSupplied (fun patch => patch.eventsRequested?.map .ok) patches
      (loadsEvents row.eventsRequested)
  status : final.status = lastSupplied Patch.status? patches row.status

variable {fernet key}

omit [PyRuntime] in
theorem orElse_eq (value : Option String) (fallback : String) :
    orElse value fallback = (value.filter (· ≠ "")).getD fallback := by
  rcases value with _ | text
  · rfl
  · by_cases hempty : text = "" <;> simp [orElse, Option.filter, hempty]

/-- What a patch that returns a stream has read. -/
theorem updateStream_eq_ok {patch : Patch Entropy} {database : Database} {updated : Stream}
    (hupdate : (updateStream fernet key patch.entropy patch.payload database).1 =
      .ok (some updated)) :
    ∃ row stream uris, currentRow database = some row ∧
      rowToStream fernet key row = .ok stream ∧
      requestedEvents patch.payload stream = .ok uris ∧
      (applyPatch fernet key database patch).streams =
        database.streams.map fun stored =>
          if stored.streamId = stream.streamId then
            patchedRow fernet key patch.entropy patch.payload stored
              (patchedStream patch.payload stream uris)
          else stored := by
  rw [applyPatch, currentRow]
  rw [updateStream] at hupdate ⊢
  rcases hrow : (streamsByCreation database).head? with _ | row
  · simp [hrow] at hupdate
  rcases hread : rowToStream fernet key row with error | stream
  · simp [hrow, hread] at hupdate
  rcases hevents : requestedEvents patch.payload stream with error | uris
  · simp [hrow, hread, hevents] at hupdate
  rcases hguard : enablingWithoutToken patch.payload row stream with _ | _
  · exact ⟨row, stream, uris, rfl, hread, hevents, by simp [hread, hevents, hguard]⟩
  · simp [hrow, hread, hevents, hguard] at hupdate

omit [PyRuntime] in
/-- Rewriting rows in place keeps which one is the newest. -/
theorem currentRow_of_map {database next : Database} {change : StreamRow → StreamRow}
    (hstreams : next.streams = database.streams.map change)
    (hcreated : ∀ row, (change row).createdAt = row.createdAt) :
    currentRow next = (currentRow database).map change := by
  have hsorted : streamsByCreation next = (streamsByCreation database).map change := by
    rw [streamsByCreation, streamsByCreation, hstreams]
    exact (List.map_insertionSort _ _ change database.streams fun left _ right _ => by
      simp [hcreated]).symm
  rw [currentRow, currentRow, hsorted, List.head?_map]

/-- The fields of the row that a patch writes. -/
theorem patched_patchedRow {patch : Patch Entropy} {row : StreamRow} {stream : Stream}
    {uris : List String} (hread : rowToStream fernet key row = .ok stream)
    (hevents : requestedEvents patch.payload stream = .ok uris) :
    Patched fernet key [patch] row
      (patchedRow fernet key patch.entropy patch.payload row
        (patchedStream patch.payload stream uris)) := by
  obtain ⟨-, haud, hurl, hstatus, -, huris, -⟩ := rowToStream_eq_ok fernet hread
  constructor
  case streamId => rfl
  case createdAt => rfl
  case aud =>
    rw [lastSupplied_singleton, patchedRow, patchedStream, orElse_eq, haud]
    rfl
  case endpointUrl =>
    have hurls : orElse patch.payload.block.endpointUrl
        (orElse patch.payload.endpointUrl row.endpointUrl) =
          (Patch.endpointUrl? patch).getD row.endpointUrl := by
      rw [orElse_eq, orElse_eq, Patch.endpointUrl?]
      cases Option.filter (· ≠ "") patch.payload.block.endpointUrl <;> rfl
    rw [lastSupplied_singleton, patchedRow, patchedStream, hurl]
    exact hurls
  case endpointToken =>
    rw [lastSupplied_singleton, patchedRow, Patch.storedToken?]
    rcases replacementEndpointToken patch.payload with _ | token <;> rfl
  case runtimeToken =>
    rw [lastSupplied_singleton, patchedRow]
    rcases replacementEndpointToken patch.payload with _ | token
    · rfl
    · exact decryptToken_encryptToken fernet key patch.entropy token
  case eventsRequested =>
    rw [lastSupplied_singleton, patchedRow, Patch.eventsRequested?, loadsEvents_dumpsEvents, huris]
    rw [requestedEvents] at hevents
    split at hevents
    · next hnone => rw [hnone]; exact congrArg _ (Except.ok.inj hevents).symm
    · next hsome => rw [hsome]; exact congrArg _ (Except.ok.inj hevents).symm
    · cases hevents
  case status =>
    rw [lastSupplied_singleton, patchedRow, patchedStream, hstatus]
    rfl

/-- A patch that returns a stream rewrites the newest row. -/
theorem currentRow_of_updateStream {patch : Patch Entropy} {database : Database}
    {updated : Stream}
    (hupdate : (updateStream fernet key patch.entropy patch.payload database).1 =
      .ok (some updated)) :
    ∃ row final, currentRow database = some row ∧
      currentRow (applyPatch fernet key database patch) = some final ∧
      Patched fernet key [patch] row final := by
  obtain ⟨row, stream, uris, hrow, hread, hevents, hstreams⟩ := updateStream_eq_ok hupdate
  have hid : row.streamId = stream.streamId := (rowToStream_eq_ok fernet hread).1.symm
  refine ⟨row, _, hrow, ?_, patched_patchedRow hread hevents⟩
  rw [currentRow_of_map hstreams, hrow, Option.map_some, if_pos hid]
  intro stored
  split_ifs <;> rfl

theorem Patched.nil (row : StreamRow) : Patched fernet key [] row row := by
  constructor <;> rfl

theorem Patched.cons {patch : Patch Entropy} {patches : List (Patch Entropy)}
    {row middle final : StreamRow} (hfirst : Patched fernet key [patch] row middle)
    (hrest : Patched fernet key patches middle final) :
    Patched fernet key (patch :: patches) row final := by
  constructor
  case streamId => rw [hrest.streamId, hfirst.streamId]
  case createdAt => rw [hrest.createdAt, hfirst.createdAt]
  case aud => rw [lastSupplied_cons, hrest.aud, hfirst.aud, lastSupplied_singleton]
  case endpointUrl =>
    rw [lastSupplied_cons, hrest.endpointUrl, hfirst.endpointUrl, lastSupplied_singleton]
  case endpointToken =>
    rw [lastSupplied_cons, hrest.endpointToken, hfirst.endpointToken, lastSupplied_singleton]
  case runtimeToken =>
    rw [lastSupplied_cons, hrest.runtimeToken, hfirst.runtimeToken, lastSupplied_singleton]
  case eventsRequested =>
    rw [lastSupplied_cons, hrest.eventsRequested, hfirst.eventsRequested, lastSupplied_singleton]
  case status => rw [lastSupplied_cons, hrest.status, hfirst.status, lastSupplied_singleton]

/-! ## Any interleaving -/

variable {patches : ℕ → Patch Entropy} {start : Database}
  {shared : Shared Database StoreReply}

/-- The call returned a stream. -/
def Succeeded (shared : Shared Database StoreReply) (call : ℕ) : Prop :=
  ∃ updated, shared.Ended call (some (.updated (.ok (some updated))))

theorem run_updateCalls (call : ℕ) (database : Database) :
    (updateCalls fernet key patches call).body.run database =
      (.updated (updateStream fernet key (patches call).entropy (patches call).payload
          database).1,
        match (updateStream fernet key (patches call).entropy (patches call).payload
          database).1 with
        | .ok (some _) => some (applyPatch fernet key database (patches call))
        | _ => none) :=
  run_updateStream fernet _ _ database

/-- A patch that returns no stream leaves the tables alone. -/
theorem applyPatch_eq_self {patch : Patch Entropy} {database : Database}
    (hupdate : ∀ updated, (updateStream fernet key patch.entropy patch.payload
      database).1 ≠ .ok (some updated)) :
    applyPatch fernet key database patch = database := by
  rw [applyPatch]
  rw [updateStream] at hupdate ⊢
  split
  · rfl
  · split
    · rfl
    · split
      · rfl
      · split_ifs with hguard
        · rfl
        · next hrow _ _ hread _ _ hevents =>
          simp [hrow, hread, hevents, hguard] at hupdate

/-- A call that runs alone leaves the tables of its patch. -/
theorem getD_run_updateCalls (call : ℕ) (database : Database) :
    ((updateCalls fernet key patches call).body.run database).2.getD database =
      applyPatch fernet key database (patches call) := by
  rw [run_updateCalls]
  dsimp only
  split
  · rfl
  · next hupdate => exact (applyPatch_eq_self hupdate).symm

/-- What a commit of `update_stream` does. -/
theorem updated_of_run {call : ℕ} {database after : Database} {reply : StoreReply}
    (hrun : (updateCalls fernet key patches call).body.run database =
      (reply, some after)) :
    ∃ updated, reply = .updated (.ok (some updated)) ∧
      (updateStream fernet key (patches call).entropy (patches call).payload
        database).1 = .ok (some updated) ∧
      after = applyPatch fernet key database (patches call) := by
  rw [run_updateCalls] at hrun
  obtain ⟨rfl, hafter⟩ := Prod.mk.inj hrun
  split at hafter
  · next updated hupdated =>
    exact ⟨updated, by rw [hupdated], hupdated, (Option.some.inj hafter).symm⟩
  · cases hafter

/-- The calls that committed are those that returned a stream. -/
theorem mem_committers_iff_succeeded
    (hshared : (updates fernet key patches start).Reachable shared) (call : ℕ) :
    call ∈ shared.committers ↔ Succeeded shared call := by
  have hserial := (invariant_of_reachable hshared).serial
  constructor
  · intro hmem
    obtain ⟨commit, hcommit, rfl⟩ := List.mem_map.mp hmem
    obtain ⟨reply, hrun, hended⟩ := hserial.committed commit hcommit
    obtain ⟨updated, rfl, -⟩ := updated_of_run hrun
    exact ⟨updated, hended⟩
  · rintro ⟨updated, hended⟩
    rcases hserial.ended call _ hended with hmem | ⟨version, -, hrun⟩
    · exact hmem
    · rw [run_updateCalls] at hrun
      obtain ⟨hreply, hnone⟩ := Prod.mk.inj hrun
      rw [StoreReply.updated.injEq] at hreply
      simp [hreply] at hnone

/-- Along the commits, each field follows the patches. -/
theorem patched_of_chain {commits : List (Commit Database)} {first last : Database}
    {row : StreamRow} (hchain : Chain first commits last)
    (hcommits : ∀ commit ∈ commits, ∃ reply,
      (updateCalls fernet key patches commit.call).body.run commit.before =
        (reply, some commit.after))
    (hrow : currentRow first = some row) :
    ∃ final, currentRow last = some final ∧
      Patched fernet key ((commits.map Commit.call).map patches) row final := by
  induction commits generalizing first row with
  | nil =>
      obtain rfl : last = first := hchain
      exact ⟨row, hrow, Patched.nil row⟩
  | cons commit rest ih =>
      obtain ⟨reply, hrun⟩ := hcommits commit List.mem_cons_self
      obtain ⟨updated, -, hupdate, hafter⟩ := updated_of_run hrun
      obtain ⟨before, middle, hbefore, hmiddle, hfirst⟩ :=
        currentRow_of_updateStream hupdate
      rw [hchain.1, hrow] at hbefore
      obtain rfl := Option.some.inj hbefore
      obtain ⟨final, hfinal, hrest⟩ := ih hchain.2
        (fun other hother => hcommits other (List.mem_cons_of_mem _ hother))
        (hafter ▸ hmiddle)
      exact ⟨final, hfinal, hfirst.cons hrest⟩

/-- Without a stream there is nothing to commit. -/
theorem commits_eq_nil_of_currentRow {commits : List (Commit Database)}
    {first last : Database} (hchain : Chain first commits last)
    (hcommits : ∀ commit ∈ commits, ∃ reply,
      (updateCalls fernet key patches commit.call).body.run commit.before =
        (reply, some commit.after))
    (hrow : currentRow first = none) : commits = [] := by
  cases commits with
  | nil => rfl
  | cons commit rest =>
      obtain ⟨reply, hrun⟩ := hcommits commit List.mem_cons_self
      obtain ⟨updated, -, hupdate, -⟩ := updated_of_run hrun
      obtain ⟨row, -, hbefore, -⟩ := currentRow_of_updateStream hupdate
      rw [hchain.1, hrow] at hbefore
      cases hbefore

/-- No update is lost.  The tables are those of the patches that returned a
stream, run alone one after another in the order in which they took the lock,
and nothing else changed them. -/
theorem updates_serial_of_reachable
    (hshared : (updates fernet key patches start).Reachable shared) :
    shared.acquired.Nodup ∧ shared.committers.Sublist shared.acquired ∧
    (∀ call, call ∈ shared.committers ↔ Succeeded shared call) ∧
    shared.data = (shared.committers.map patches).foldl (applyPatch fernet key) start ∧
    match currentRow start with
    | none => shared.committers = []
    | some row => ∃ final, currentRow shared.data = some final ∧
        Patched fernet key (shared.committers.map patches) row final := by
  have hinvariant := invariant_of_reachable hshared
  have hserial := hinvariant.serial
  have hcommits := fun commit hcommit =>
    (hserial.committed commit hcommit).imp fun _ hcommitted => hcommitted.1
  refine ⟨hinvariant.ordered.nodup, ?_, mem_committers_iff_succeeded hshared, ?_, ?_⟩
  · have hlocked := hinvariant.ordered.commits
    have hall : (shared.committers.filter fun call =>
        (updateCalls fernet key patches call).locked) = shared.committers :=
      List.filter_eq_self.mpr fun _ _ => rfl
    rwa [hall] at hlocked
  · rw [hserial.data_eq, List.foldl_map]
    apply congrArg fun change => shared.committers.foldl change start
    funext database call
    exact getD_run_updateCalls call database
  · split
    · next hnone =>
      rw [Shared.committers, commits_eq_nil_of_currentRow hserial.chain hcommits hnone]
      rfl
    · next row hrow => exact patched_of_chain hserial.chain hcommits hrow

end Updates

section Sample

open scoped SsfTransmitter.Python.Ascii

/-- A new audience, a pause, and a token for a stream that is to be enabled. -/
def samplePatches : ℕ → Patch Unit
  | 0 => ⟨(), { aud := some "next" }⟩
  | 1 => ⟨(), { status := some .paused }⟩
  | _ => ⟨(), { endpointToken := some "rotated" }⟩

def sampleStart : Database :=
  { Database.init with streams := [savedRow clearFernet true () receiver] }

/-- The calls 0 and 1 wait while call 2 has the lock. -/
def samplePatchesRun : List Transactional.Action :=
  [.acquire 2, .begin 2, .execute 2, .execute 2, .execute 2, .finish 2, .release 2,
    .acquire 0, .begin 0, .execute 0, .execute 0, .execute 0, .finish 0, .release 0,
    .acquire 1, .begin 1, .execute 1, .execute 1, .finish 1, .release 1]

theorem updates_serial_sample : ∃ shared final,
    currentRow (shared : Shared Database StoreReply).data = some final ∧
      shared.committers = [2, 0, 1] ∧
      Patched clearFernet true [samplePatches 2, samplePatches 0, samplePatches 1]
        (savedRow clearFernet true () receiver) final := by
  have hsample : ((updates clearFernet true samplePatches sampleStart).run
      (Shared.init sampleStart) samplePatchesRun).map Shared.committers =
        some [2, 0, 1] := by decide +kernel
  obtain ⟨shared, hrun, hcommitters⟩ := Option.map_eq_some_iff.mp hsample
  have hreachable : (updates clearFernet true samplePatches sampleStart).Reachable
      shared :=
    ⟨_, rfl, TransitionSystem.path_of_run (fun _ _ => trivial) hrun⟩
  have hserial := (updates_serial_of_reachable hreachable).2.2.2.2
  obtain ⟨final, hfinal, hpatched⟩ : ∃ final, currentRow shared.data = some final ∧
      Patched clearFernet true (shared.committers.map samplePatches)
        (savedRow clearFernet true () receiver) final := hserial
  rw [hcommitters] at hpatched
  exact ⟨shared, final, hfinal, hcommitters, hpatched⟩

end Sample

end SsfTransmitter.Store
