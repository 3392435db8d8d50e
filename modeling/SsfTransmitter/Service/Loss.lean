import SsfTransmitter.Python.Ascii
import SsfTransmitter.Service.Progress
import SsfTransmitter.Store.ClearFernet

/-!
# No queued delivery is lost silently

In every reachable state a delivery whose enqueueing committed is still stored,
or one of the events that may take it came after.
-/

namespace SsfTransmitter.Service

open SsfTransmitter.Core
open SsfTransmitter.Python
open SsfTransmitter.Store
open SsfTransmitter.Outbox

section Account

variable {Key Entropy : Type*} {fernet : Fernet Key Entropy} [PyRuntime]

/-- Every admitted delivery is stored or excused, and a delivery that is about to
be cancelled had its stream reconfigured after it was queued. -/
theorem stored_or_excused_of_reachable {world : World Key}
    (hworld : (service fernet).Reachable world) :
    (∀ before items after, world.log = before ++ .enqueued items :: after →
      ∀ item ∈ items, item ∈ world.database.stored ∨
        ∃ event ∈ after, excuses event item) ∧
    ∀ task item rest, world.tasks task = .settling item .cancel rest →
      ∀ before items after, world.log = before ++ .enqueued items :: after →
        item.identity ∈ items →
        ∃ event ∈ after, reconfigures event item.identity := by
  have hinvariant := invariant_of_reachable hworld
  constructor
  · intro before items after hlog item hitem
    exact hinvariant.sound.kept before (.enqueued items) after hlog item hitem
  · intro task item rest htask before items after hlog hitem
    have hholds := hinvariant.tasks task
    rw [htask] at hholds
    rcases hholds.2.1 rfl before (.enqueued items) after hlog item.identity hitem with
      hne | hexcused
    · exact absurd rfl hne
    · exact hexcused

end Account

section Sample

open scoped SsfTransmitter.Python.Ascii

/-- A stream and an event of one service. -/
def sampleStream : Stream where
  streamId := "stream"
  aud := "audience"
  endpointUrl := "https://receiver.example/events"
  endpointToken := "secret"
  eventsRequested := []
  status := .enabled
  createdAt := 0

def sampleEvent : MappedEvent where
  uri := "event"
  payload := []
  txn := none

/-- The delivery queued for the sample stream is still stored while it is
pushed. -/
theorem stored_or_excused_pushing :
    ∃ (world : World Bool) (item : ItemIdentity),
      world.log = [.saved, .enqueued [item]] ∧
        (item ∈ world.database.stored ∨
          ∃ event ∈ ([] : List Event), excuses event item) := by
  have hworld := reachable_pushingWorld clearFernet true () sampleStream sampleEvent
    (ofString "user@example.com") (fun _ _ => "signed") rfl (Or.inl rfl)
  exact ⟨_, _, rfl, (stored_or_excused_of_reachable hworld).1 [.saved] _ [] rfl _
    (List.mem_singleton_self _)⟩

end Sample

end SsfTransmitter.Service
