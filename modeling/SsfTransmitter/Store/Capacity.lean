import SsfTransmitter.Python.Ascii
import SsfTransmitter.Store.Calls
import SsfTransmitter.Store.ClearFernet

/-!
# Enqueueing is atomic and bounded

Whatever calls run between the statements of `enqueue_outbox`, the deliveries of
a call are queued together for the streams as they are stored at that point, or
not at all, and the outbox never outgrows its limit.
-/

namespace SsfTransmitter.Store

open SsfTransmitter.Core
open SsfTransmitter.Core.Transactional
open SsfTransmitter.Python

section Enqueueing

variable {Key Entropy : Type*} (fernet : Fernet Key Entropy) [PyRuntime]

/-- The calls of a run, each under the key of the process that makes it. -/
def storeCalls (calls : ℕ → Key × StoreOperation Entropy) (call : ℕ) :
    Call Database StoreReply where
  locked := (calls call).2.locked
  body := (calls call).2.statements fernet (calls call).1

/-- Any number of store calls on the tables that `init_db` creates. -/
def store (calls : ℕ → Key × StoreOperation Entropy) :
    TransitionSystem (Shared Database StoreReply) Transactional.Action :=
  system (storeCalls fernet calls) Database.init

/-- A row that queues a delivery for its first attempt. -/
structure QueuedFor (key : Key) (delivery : Stream × Dict) (row : OutboxRow) : Prop where
  streamId : row.streamId = delivery.1.streamId
  payload : decryptSensitiveData fernet key row.payload = .ok (dumpsPayload delivery.2)
  pending : row.status = .pending
  attempts : row.attempts = 0

/-- The stream is stored, enabled, and read with exactly these fields. -/
def StoredEnabled (key : Key) (database : Database) (stream : Stream) : Prop :=
  ∃ row, streamRow stream.streamId database = some row ∧
    rowToStream fernet key row = .ok stream ∧ stream.status = .enabled

/-- One pending row was added for each delivery, while the streams that the
deliveries were signed for were stored like that. -/
structure EnqueuedAt (key : Key) (deliveries : List (Stream × Dict))
    (before after : Database) : Prop where
  streams : after.streams = before.streams
  rows : ∃ rows, after.setOutbox = before.setOutbox ++ rows ∧
    List.Forall₂ (QueuedFor fernet key) deliveries rows
  current : ∀ delivery ∈ deliveries, StoredEnabled fernet key before delivery.1

/-! ## One call alone -/

variable {fernet} {key : Key} {before after : Database}

omit [PyRuntime] in
private theorem length_outboxAfterUpdate_le (stream updated : Stream)
    (outbox : List OutboxRow) :
    (outboxAfterUpdate stream updated outbox).length ≤ outbox.length := by
  rw [outboxAfterUpdate]
  split_ifs
  · exact List.length_filter_le ..
  · exact (List.length_map ..).le
  · exact le_rfl

theorem length_updateStream_le (entropy : Entropy) (payload : StreamPayload) :
    (updateStream fernet key entropy payload before).2.setOutbox.length ≤
      before.setOutbox.length := by
  rw [updateStream]
  split
  · exact le_rfl
  · split
    · exact le_rfl
    · split
      · exact le_rfl
      · split_ifs
        · exact le_rfl
        · exact length_outboxAfterUpdate_le ..

/-- An insertion fits into the outbox. -/
theorem length_enqueueOutbox_le (entropy : ℕ → Entropy) (now : ℕ)
    (deliveries : List (Stream × Dict)) (hbefore : before.setOutbox.length ≤ maxOutboxItems) :
    (enqueueOutbox fernet key entropy now deliveries before).2.setOutbox.length ≤
      maxOutboxItems := by
  rw [enqueueOutbox]
  split
  · exact hbefore
  · split
    · exact hbefore
    · split_ifs with hfull
      · exact hbefore
      · simpa [insertedRows] using hfull

omit [PyRuntime] in
theorem queuedFor_insertedRows (entropy : ℕ → Entropy) (now nextId : ℕ)
    (deliveries : List (Stream × Dict)) :
    List.Forall₂ (QueuedFor fernet key) deliveries
      (insertedRows fernet key entropy now nextId deliveries) := by
  refine List.forall₂_iff_get.mpr ⟨by simp [insertedRows], fun index hleft hright => ?_⟩
  constructor
  case payload =>
    simp [insertedRows, decryptSensitiveData_encryptSensitiveData]
  all_goals simp [insertedRows]

/-- What `enqueue_outbox` commits, and when. -/
theorem enqueuedAt_of_run {entropy : ℕ → Entropy} {now : ℕ}
    {deliveries : List (Stream × Dict)} {reply : StoreReply}
    (hrun : ((StoreOperation.enqueueOutbox entropy now deliveries).statements fernet
      key).run before = (reply, some after)) :
    deliveries ≠ [] ∧ reply = .enqueued (.ok deliveries.length) ∧
      EnqueuedAt fernet key deliveries before after ∧
      after = (enqueueOutbox fernet key entropy now deliveries before).2 := by
  rw [run_enqueueOutbox] at hrun
  rcases enqueueOutbox_cases fernet key entropy now deliveries before with
    ⟨error, hcase⟩ | ⟨hcurrent, hcase⟩
  · simp [hcase] at hrun
  · rw [hcase] at hrun ⊢
    dsimp only at hrun
    split_ifs at hrun with hempty
    · cases hrun
    · obtain ⟨rfl, hafter⟩ := Prod.mk.inj hrun
      obtain rfl := Option.some.inj hafter
      exact ⟨hempty, rfl, ⟨rfl, ⟨_, rfl, queuedFor_insertedRows ..⟩, fun delivery hdelivery =>
        checkCurrent_eq_ok fernet (hcurrent delivery hdelivery)⟩, rfl⟩

/-- No call takes the outbox over its limit. -/
theorem length_le_of_run {operation : StoreOperation Entropy} {reply : StoreReply}
    (hrun : (operation.statements fernet key).run before = (reply, some after))
    (hbefore : before.setOutbox.length ≤ maxOutboxItems) :
    after.setOutbox.length ≤ maxOutboxItems := by
  have hsingle : ∀ {effect : Database → Database} {result : Database → StoreReply},
      operation.statements fernet key = .single effect result →
      (effect before).setOutbox.length ≤ before.setOutbox.length →
      after.setOutbox.length ≤ maxOutboxItems := by
    intro effect result hstatements hle
    rw [hstatements, Statements.run_single] at hrun
    obtain rfl := Option.some.inj (Prod.mk.inj hrun).2
    exact hle.trans hbefore
  cases operation with
  | saveStream entropy stream =>
      obtain rfl := Option.some.inj (Prod.mk.inj hrun).2
      exact (List.length_filter_le ..).trans hbefore
  | updateStream entropy payload =>
      rw [run_updateStream] at hrun
      have hle : (updateStream fernet key entropy payload before).2.setOutbox.length ≤ _ :=
        (length_updateStream_le entropy payload).trans hbefore
      obtain ⟨-, hafter⟩ := Prod.mk.inj hrun
      split at hafter
      · exact Option.some.inj hafter ▸ hle
      · cases hafter
  | deleteStreamById streamId =>
      simp only [StoreOperation.statements, Statements.run] at hrun
      split at hrun <;> obtain rfl := Option.some.inj (Prod.mk.inj hrun).2
      · exact (List.length_filter_le ..).trans hbefore
      · exact hbefore
  | enqueueOutbox entropy now deliveries =>
      rw [(enqueuedAt_of_run hrun).2.2.2]
      exact length_enqueueOutbox_le entropy now deliveries hbefore
  | quarantineUndecryptableReceiverTokens =>
      refine hsingle rfl ?_
      rw [quarantineUndecryptableReceiverTokens]
      split_ifs <;> exact le_rfl
  | completeOutboxItem itemId => exact hsingle rfl (List.length_filter_le ..)
  | retryOutboxItem itemId attempts nextAttemptAt reason =>
      exact hsingle rfl (List.length_map ..).le
  | blockOutboxItem itemId reason => exact hsingle rfl (List.length_map ..).le
  | cancelOutboxItem itemId => exact hsingle rfl (List.length_filter_le ..)
  | requeueBlockedOutbox now => exact hsingle rfl (List.length_map ..).le
  | deleteBlockedOutbox => exact hsingle rfl (List.length_filter_le ..)
  | deletePendingOutbox => exact hsingle rfl (List.length_filter_le ..)

/-! ## Any interleaving -/

/-- The commits of an enqueueing call, of which there is one at most. -/
theorem enqueuedAt_of_commit {calls : ℕ → Key × StoreOperation Entropy}
    {shared : Shared Database StoreReply}
    (hserial : Serial (storeCalls fernet calls) Database.init shared)
    {commit : Commit Database} (hcommit : commit ∈ shared.commits)
    {entropy : ℕ → Entropy} {now : ℕ} {deliveries : List (Stream × Dict)}
    (hcall : calls commit.call = (key, .enqueueOutbox entropy now deliveries)) :
    deliveries ≠ [] ∧
      shared.Ended commit.call (some (.enqueued (.ok deliveries.length))) ∧
      EnqueuedAt fernet key deliveries commit.before commit.after := by
  obtain ⟨reply, hrun, hended⟩ := hserial.committed commit hcommit
  rw [storeCalls, hcall] at hrun
  obtain ⟨hdeliveries, rfl, henqueued, -⟩ := enqueuedAt_of_run hrun
  exact ⟨hdeliveries, hended, henqueued⟩

/-- An enqueueing that returned without a commit had nothing to queue. -/
theorem deliveries_eq_nil_of_run {entropy : ℕ → Entropy} {now count : ℕ}
    {deliveries : List (Stream × Dict)}
    (hrun : ((StoreOperation.enqueueOutbox entropy now deliveries).statements fernet
      key).run before = (.enqueued (.ok count), none)) :
    deliveries = [] ∧ count = 0 := by
  by_contra hsome
  rw [run_enqueueOutbox] at hrun
  obtain ⟨hresult, hnone⟩ := Prod.mk.inj hrun
  rw [StoreReply.enqueued.injEq] at hresult
  rw [hresult] at hnone
  dsimp only at hnone
  split_ifs at hnone with hempty
  rw [enqueueOutbox, if_pos hempty] at hresult
  exact hsome ⟨hempty, (Except.ok.inj hresult).symm⟩

/-- The outbox stays within its limit.  The commits follow each other; a call
that raises is none of them, and one that returns a count is exactly one of
them, which queues all its deliveries for current streams. -/
theorem enqueue_atomic_of_reachable {calls : ℕ → Key × StoreOperation Entropy}
    {shared : Shared Database StoreReply}
    (hshared : (store fernet calls).Reachable shared) :
    Chain Database.init shared.commits shared.data ∧
    (∀ version ∈ versions Database.init shared.commits,
      version.setOutbox.length ≤ maxOutboxItems) ∧
    ∀ call key entropy now deliveries,
      calls call = (key, .enqueueOutbox entropy now deliveries) →
      (∀ error, shared.Ended call (some (.enqueued (.error error))) →
        ∀ commit ∈ shared.commits, commit.call ≠ call) ∧
      (shared.Ended call none → ∀ commit ∈ shared.commits, commit.call ≠ call) ∧
      ∀ count, shared.Ended call (some (.enqueued (.ok count))) →
        count = deliveries.length ∧
        if deliveries = [] then ∀ commit ∈ shared.commits, commit.call ≠ call
        else ∃! commit, commit ∈ shared.commits ∧ commit.call = call ∧
          EnqueuedAt fernet key deliveries commit.before commit.after := by
  have hserial := (invariant_of_reachable hshared).serial
  refine ⟨hserial.chain, ?_, ?_⟩
  · refine (hserial.chain.preserves (by simp [Database.init]) ?_).2
    intro commit hcommit hbefore
    obtain ⟨reply, hrun, -⟩ := hserial.committed commit hcommit
    exact length_le_of_run hrun hbefore
  intro call key entropy now deliveries hcall
  refine ⟨?_, ?_, ?_⟩
  · rintro error hended commit hcommit rfl
    have hcommitted := (enqueuedAt_of_commit hserial hcommit hcall).2.1
    have heq := hended.unique hcommitted
    simp at heq
  · rintro hended commit hcommit rfl
    have hcommitted := (enqueuedAt_of_commit hserial hcommit hcall).2.1
    have heq := hended.unique hcommitted
    simp at heq
  · intro count hended
    rcases hserial.ended call _ hended with hmem | ⟨version, -, hrun⟩
    · obtain ⟨commit, hcommit, rfl⟩ := List.mem_map.mp hmem
      obtain ⟨hdeliveries, hcommitted, henqueued⟩ :=
        enqueuedAt_of_commit hserial hcommit hcall
      have heq := hended.unique hcommitted
      simp only [Option.some.injEq, StoreReply.enqueued.injEq, Except.ok.injEq] at heq
      rw [if_neg hdeliveries]
      exact ⟨heq, commit, ⟨hcommit, rfl, henqueued⟩, fun other hother =>
        hserial.commit_unique hother.1 hcommit hother.2.1⟩
    · rw [storeCalls, hcall] at hrun
      obtain ⟨rfl, rfl⟩ := deliveries_eq_nil_of_run hrun
      rw [if_pos rfl]
      refine ⟨rfl, ?_⟩
      rintro commit hcommit rfl
      exact absurd rfl (enqueuedAt_of_commit hserial hcommit hcall).1

end Enqueueing

section Sample

open scoped SsfTransmitter.Python.Ascii

/-- A stream that is stored by one call and asked for by the next. -/
def receiver : Stream where
  streamId := "stream"
  aud := "audience"
  endpointUrl := "https://receiver.example/events"
  endpointToken := "secret"
  eventsRequested := []
  status := .enabled
  createdAt := 0

def saveThenEnqueue : ℕ → Bool × StoreOperation Unit
  | 0 => (true, .saveStream () receiver)
  | _ => (true, .enqueueOutbox (fun _ => ()) 0 [(receiver, [])])

/-- The second call is still leaving when the run ends. -/
def saveThenEnqueueRun : List Transactional.Action :=
  [.acquire 0, .begin 0, .execute 0, .execute 0, .execute 0, .finish 0, .release 0,
    .begin 1, .execute 1, .execute 1, .execute 1, .finish 1]

def queuedCount (shared : Shared Database StoreReply) : Option ℕ :=
  match shared.phases 1 with
  | .closing (some (.enqueued (.ok count))) => some count
  | _ => none

private theorem ended_of_queuedCount {shared : Shared Database StoreReply} {count : ℕ}
    (hcount : queuedCount shared = some count) :
    shared.Ended 1 (some (.enqueued (.ok count))) := by
  rw [queuedCount] at hcount
  split at hcount
  · next hphase => exact Or.inl (Option.some.inj hcount ▸ hphase)
  · cases hcount

theorem enqueue_atomic_saved : ∃ commit : Commit Database,
    commit.call = 1 ∧
      EnqueuedAt clearFernet true [(receiver, [])] commit.before commit.after := by
  have hsample : ((store clearFernet saveThenEnqueue).run (Shared.init Database.init)
      saveThenEnqueueRun).bind queuedCount = some 1 := by decide +kernel
  obtain ⟨shared, hrun, hcount⟩ := Option.bind_eq_some_iff.mp hsample
  have hreachable : (store clearFernet saveThenEnqueue).Reachable shared :=
    ⟨_, rfl, TransitionSystem.path_of_run (fun _ _ => trivial) hrun⟩
  obtain ⟨-, commit, hcommit, -⟩ := ((enqueue_atomic_of_reachable hreachable).2.2 1 true _ _
    _ rfl).2.2 1 (ended_of_queuedCount hcount)
  exact ⟨commit, hcommit.2⟩

end Sample

end SsfTransmitter.Store
