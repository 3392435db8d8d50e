import SsfTransmitter.Core.TransitionSystem
import SsfTransmitter.Python.Ascii
import SsfTransmitter.Store.ClearFernet
import SsfTransmitter.Store.Invariants

/-!
# Streams whose token cannot be decrypted

A start under a key that cannot decrypt the stored token pauses the stream.  The
guard of `update_stream` looks at the row as the earlier patches left it: it keeps
the stream out of service as long as no patch stores a blank token.
-/

namespace SsfTransmitter.Store

open SsfTransmitter.Core
open SsfTransmitter.Python

section Quarantine

variable {Key Entropy : Type*} (fernet : Fernet Key Entropy) [PyRuntime]

/-- `update_stream`, patch after patch. -/
def patching (key : Key) : TransitionSystem Database (Entropy × StreamPayload) where
  initial := fun _ => True
  step database patch :=
    some (updateStream fernet key patch.1 patch.2 database).2

/-- The database after a sequence of patches. -/
def patchAll (key : Key) (patches : List (Entropy × StreamPayload))
    (database : Database) : Database :=
  patches.foldl (fun current patch =>
    (updateStream fernet key patch.1 patch.2 current).2) database

/-- A patch that `update_stream` accepts for a row whose token cannot be
decrypted, and that stores a blank token over it. -/
def WearsGuard (key : Key) (payload : StreamPayload) (database : Database) : Prop :=
  ∃ row ∈ database.streams, ∃ stream eventsRequested token,
    rowToStream fernet key row = .ok stream ∧
    decryptToken fernet key row.endpointToken = .error .tokenDecryption ∧
    requestedEvents payload stream = .ok eventsRequested ∧
    replacementEndpointToken payload = some token ∧ isBlank (ofString token) = true ∧
    payload.status.getD stream.status ≠ .enabled

/-- No patch of the sequence wears the guard down. -/
def NeverWears (key : Key) (patches : List (Entropy × StreamPayload))
    (database : Database) : Prop :=
  ∀ transition ∈ (patching fernet key).transitions database patches,
    ¬WearsGuard fernet key transition.action.2 transition.source

/-- The one stored stream is out of service with a token that cannot be
decrypted. -/
def Quarantined (key : Key) (database : Database) : Prop :=
  ∃ row, database.streams = [row] ∧
    decryptToken fernet key row.endpointToken = .error .tokenDecryption ∧
    row.status ≠ .enabled

variable {fernet} {key : Key} {database : Database}

omit [PyRuntime] in
/-- A start under a key that cannot decrypt the token quarantines the stream. -/
theorem quarantined_of_undecryptable {row : StreamRow}
    (hstreams : database.streams = [row])
    (hundecryptable : decryptToken fernet key row.endpointToken =
      .error .tokenDecryption) :
    Quarantined fernet key
      (quarantineUndecryptableReceiverTokens fernet key database) := by
  refine ⟨{ row with status := .paused }, ?_, hundecryptable, by simp⟩
  simp [quarantineUndecryptableReceiverTokens, hstreams, hundecryptable, raisesOther,
    quarantinedRow]

omit [PyRuntime] in
private theorem ne_empty_of_undecryptable {token : String}
    (hundecryptable : decryptToken fernet key token = .error .tokenDecryption) :
    token ≠ "" := by
  rintro rfl
  simp [decryptToken] at hundecryptable

/-- Without a replacement that is not blank a patch keeps the quarantine, unless it
wears the guard down. -/
theorem Quarantined.patch (hdatabase : Quarantined fernet key database)
    (entropy : Entropy) {payload : StreamPayload}
    (hmissing : receiverReplacementIsMissing (replacementEndpointToken payload) = true)
    (hwears : ¬WearsGuard fernet key payload database) :
    Quarantined fernet key (updateStream fernet key entropy payload database).2 := by
  obtain ⟨row, hstreams, hundecryptable, hstatus⟩ := hdatabase
  rcases updateStream_cases fernet (by rw [hstreams]; rfl) key entropy payload with
    ⟨hsame, -⟩ | ⟨stored, stream, uris, hstored, hread, huris, hguard, hupdate⟩
  · rw [hsame]
    exact ⟨row, hstreams, hundecryptable, hstatus⟩
  obtain rfl : row = stored := by simpa [hstreams] using hstored
  have hruntime : stream.endpointToken = "" := by
    rcases (rowToStream_eq_ok fernet hread).2.2.2.2.2.2 with htoken | ⟨-, hempty⟩
    · rw [hundecryptable] at htoken
      cases htoken
    · exact hempty
  have hdisabled : payload.status.getD stream.status ≠ .enabled := by
    intro henabled
    simp [enablingWithoutToken, henabled, hmissing, storedTokenIsUndecryptable,
      hruntime, ne_empty_of_undecryptable hundecryptable] at hguard
  rw [hupdate]
  refine ⟨_, rfl, ?_, hdisabled⟩
  rcases hreplacement : replacementEndpointToken payload with _ | token
  · simpa [patchedRow, hreplacement] using hundecryptable
  · -- the token that is stored is blank: the patch wears the guard
    refine absurd ⟨row, by simp [hstreams], stream, uris, token, hread, hundecryptable,
      huris, hreplacement, ?_, hdisabled⟩ hwears
    simpa [receiverReplacementIsMissing, hreplacement] using hmissing

/-- As long as no patch brings a token and none wears the guard, the stream stays
quarantined. -/
theorem Quarantined.patchAll (hdatabase : Quarantined fernet key database)
    {patches : List (Entropy × StreamPayload)}
    (hmissing : ∀ patch ∈ patches,
      receiverReplacementIsMissing (replacementEndpointToken patch.2) = true)
    (hwears : NeverWears fernet key patches database) :
    Quarantined fernet key (patchAll fernet key patches database) := by
  induction patches generalizing database with
  | nil => exact hdatabase
  | cons patch rest ih =>
      have hfirst : ¬WearsGuard fernet key patch.2 database :=
        hwears ⟨database, patch, _⟩ List.mem_cons_self
      refine ih (hdatabase.patch patch.1 (hmissing patch List.mem_cons_self) hfirst)
        (fun other hother => hmissing other (List.mem_cons_of_mem _ hother))
        fun transition htransition => hwears transition ?_
      exact List.mem_cons_of_mem _ htransition

theorem neverWears_singleton {patch : Entropy × StreamPayload}
    (hwears : ¬WearsGuard fernet key patch.2 database) :
    NeverWears fernet key [patch] database := by
  intro transition htransition
  rw [List.mem_singleton.mp htransition]
  exact hwears

theorem NeverWears.of_prefix {taken patches : List (Entropy × StreamPayload)}
    (hwears : NeverWears fernet key patches database) (htaken : taken <+: patches) :
    NeverWears fernet key taken database := by
  induction taken generalizing patches database with
  | nil => simp [NeverWears, TransitionSystem.transitions]
  | cons patch rest ih =>
      obtain ⟨others, rfl⟩ := htaken
      intro transition htransition
      rcases List.mem_cons.mp htransition with rfl | hrest
      · exact hwears _ List.mem_cons_self
      · exact ih (fun other hother => hwears other (List.mem_cons_of_mem _ hother))
          (List.prefix_append rest others) transition hrest

/-- After a start under which the token cannot be decrypted, in a sequence of patches
none of which wears the guard down, the stream is enabled only after a patch that
brought a token that is not blank. -/
theorem enabled_only_with_replacement {row : StreamRow}
    (hstreams : database.streams = [row])
    (hundecryptable : decryptToken fernet key row.endpointToken =
      .error .tokenDecryption)
    {patches : List (Entropy × StreamPayload)}
    (hwears : NeverWears fernet key patches
      (quarantineUndecryptableReceiverTokens fernet key database)) :
    ∀ taken, taken <+: patches →
      ∀ stored ∈ (patchAll fernet key taken
        (quarantineUndecryptableReceiverTokens fernet key database)).streams,
      stored.status = .enabled →
      ∃ patch ∈ taken, receiverReplacementIsMissing
        (replacementEndpointToken patch.2) = false := by
  intro taken htaken stored hstored henabled
  by_contra hnone
  push Not at hnone
  have hquarantined := (quarantined_of_undecryptable hstreams hundecryptable).patchAll
    (fun patch hpatch => by simpa using hnone patch hpatch)
    (hwears.of_prefix htaken)
  obtain ⟨only, honly, -, hstatus⟩ := hquarantined
  rw [honly, List.mem_singleton] at hstored
  exact hstatus (hstored ▸ henabled)

/-! ## How the guard is worn down -/

/-- A patch that enables the stream and brings nothing else. -/
def enablePatch : StreamPayload := { status := some .enabled }

/-- After a patch that wears the guard down, a patch that only enables the stream is
accepted. -/
theorem enabled_of_wearsGuard (hsingle : database.streams.length ≤ 1)
    (entropy entropy' : Entropy) {payload : StreamPayload}
    (hwears : WearsGuard fernet key payload database) :
    ∃ stored, (patchAll fernet key [(entropy, payload), (entropy', enablePatch)]
      database).streams = [stored] ∧ stored.status = .enabled := by
  obtain ⟨row, hrow, stream, uris, token, hread, hundecryptable, huris, hreplacement,
    hblank, hstatus⟩ := hwears
  have hguard : enablingWithoutToken payload row stream = false := by
    simp [enablingWithoutToken, hstatus]
  have hfirst := updateStream_of_accepted fernet (eq_singleton_of_mem hsingle hrow)
    hread huris hguard entropy
  set updated := patchedStream payload stream uris with hupdated
  set worn := patchedRow fernet key entropy payload row updated with hworn
  -- the stored token is now blank and decrypts, so that the guard lets it pass
  have hreadWorn : rowToStream fernet key worn = .ok updated :=
    rowToStream_patchedRow fernet hread
  have htoken : updated.endpointToken = token := by
    simp [hupdated, patchedStream, hreplacement]
  have hstored : worn.endpointToken = encryptToken fernet key entropy token := by
    simp [hworn, patchedRow, hreplacement]
  have hguardWorn : enablingWithoutToken enablePatch worn updated = false := by
    by_cases hempty : token = ""
    · simp [enablingWithoutToken, storedTokenIsUndecryptable, hstored, hempty,
        encryptToken]
    · simp [enablingWithoutToken, storedTokenIsUndecryptable, htoken, hempty]
  have hstreams : (updateStream fernet key entropy payload database).2.streams =
      [worn] := congrArg (fun result => result.2.streams) hfirst
  have hsecond := updateStream_of_accepted fernet hstreams hreadWorn rfl hguardWorn
    entropy'
  exact ⟨_, congrArg (fun result => result.2.streams) hsecond, rfl⟩

end Quarantine

section Sample

open scoped SsfTransmitter.Python.Ascii

/-- A stream that was saved under another key. -/
def rotatedRow : StreamRow where
  streamId := "stream"
  aud := "audience"
  endpointUrl := "https://receiver.example/events"
  endpointToken := encryptToken clearFernet true () "secret"
  eventsRequested := dumpsEvents []
  status := .enabled
  createdAt := 0

theorem undecryptable_rotatedRow :
    decryptToken clearFernet false rotatedRow.endpointToken =
      .error .tokenDecryption := by
  have hformat : isValidFernetTokenFormat
      (clearFernet.encrypt true () "secret".toByteArray) = true := by
    simp only [isValidFernetTokenFormat, startsWith, clearFernet, String.toList_ofList]
    decide +kernel
  rw [rotatedRow, decryptToken_encryptToken_of_ne clearFernet (by decide) _ (by decide),
    if_pos hformat]

/-- A patch that clears the token and does not enable the stream. -/
def clearPatch : StreamPayload where
  delivery := some {
    endpointUrl := some "https://receiver.example/events"
    endpointUrlToken := some "" }

/-- The rotated stream after a start under the new key. -/
def rotatedDatabase : Database :=
  quarantineUndecryptableReceiverTokens clearFernet false ⟨[rotatedRow], [], 1⟩

theorem streams_rotatedDatabase :
    rotatedDatabase.streams = [{ rotatedRow with status := .paused }] := by
  simp [rotatedDatabase, quarantineUndecryptableReceiverTokens,
    undecryptable_rotatedRow, raisesOther, quarantinedRow]

theorem wearsGuard_clearPatch :
    WearsGuard clearFernet false clearPatch rotatedDatabase := by
  have hencoded : StreamRow.Encoded clearFernet { rotatedRow with status := .paused } :=
    ⟨⟨true, (), "secret", rfl⟩, [], rfl⟩
  obtain ⟨stream, hread⟩ := hencoded.exists_rowToStream false
  have hstatus := (rowToStream_eq_ok clearFernet hread).2.2.2.1
  refine ⟨_, by rw [streams_rotatedDatabase]; exact List.mem_singleton_self _, stream,
    stream.eventsRequested, "", hread, undecryptable_rotatedRow, rfl, rfl, by decide, ?_⟩
  rw [clearPatch, hstatus]
  decide

/-- Clearing the token of a quarantined stream and then enabling it succeeds, though
no patch brought a token. -/
theorem enabled_without_replacement :
    ¬∀ (database : Database) (row : StreamRow), database.streams = [row] →
      decryptToken clearFernet false row.endpointToken = .error .tokenDecryption →
      ∀ patches : List (Unit × StreamPayload), ∀ stored ∈ (patchAll clearFernet false
        patches (quarantineUndecryptableReceiverTokens clearFernet false
          database)).streams,
      stored.status = .enabled →
      ∃ patch ∈ patches, receiverReplacementIsMissing
        (replacementEndpointToken patch.2) = false := by
  intro hclaim
  obtain ⟨stored, hstored, henabled⟩ := enabled_of_wearsGuard
    (by rw [streams_rotatedDatabase]; rfl) () () wearsGuard_clearPatch
  obtain ⟨patch, hpatch, hreplacement⟩ := hclaim ⟨[rotatedRow], [], 1⟩ rotatedRow rfl
    undecryptable_rotatedRow [((), clearPatch), ((), enablePatch)] stored
    (by rw [← rotatedDatabase, hstored]; exact List.mem_singleton_self _) henabled
  have hmissing : ∀ patch ∈ [((), clearPatch), ((), enablePatch)],
      receiverReplacementIsMissing (replacementEndpointToken patch.2) = true := by
    decide
  rw [hmissing patch hpatch] at hreplacement
  cases hreplacement

/-- A patch that enables the stream with a fresh token. -/
def restorePatch : StreamPayload where
  delivery := some {
    endpointUrl := some "https://receiver.example/events"
    endpointUrlToken := some "fresh" }
  status := some .enabled

theorem not_wearsGuard_restorePatch :
    ¬WearsGuard clearFernet false restorePatch rotatedDatabase := by
  rintro ⟨_, _, _, _, token, -, -, -, hreplacement, hblank, -⟩
  obtain rfl : "fresh" = token := Option.some.inj hreplacement
  revert hblank
  decide

theorem enabled_restorePatch :
    ∃ stored ∈ (patchAll clearFernet false [((), restorePatch)]
      rotatedDatabase).streams, stored.status = .enabled := by
  have hencoded : StreamRow.Encoded clearFernet { rotatedRow with status := .paused } :=
    ⟨⟨true, (), "secret", rfl⟩, [], rfl⟩
  obtain ⟨stream, hread⟩ := hencoded.exists_rowToStream false
  have hguard : enablingWithoutToken restorePatch { rotatedRow with status := .paused }
      stream = false := by
    have hmissing : receiverReplacementIsMissing
        (replacementEndpointToken restorePatch) = false := by decide
    simp [enablingWithoutToken, hmissing]
  have hupdate := updateStream_of_accepted clearFernet streams_rotatedDatabase hread rfl
    hguard ()
  simp only [patchAll, List.foldl_cons, List.foldl_nil, hupdate]
  exact ⟨_, List.mem_singleton_self _, by simp [patchedRow, patchedStream, restorePatch]⟩

/-- The rotated stream is enabled by a patch that brings a fresh token. -/
theorem enabled_only_with_replacement_rotated :
    ∃ stored ∈ (patchAll clearFernet false [((), restorePatch)]
        rotatedDatabase).streams, stored.status = .enabled ∧
      ∃ patch ∈ [((), restorePatch)], receiverReplacementIsMissing
        (replacementEndpointToken patch.2) = false := by
  have hstreams : (Database.mk [rotatedRow] [] 1).streams = [rotatedRow] := rfl
  obtain ⟨stored, hstored, henabled⟩ := enabled_restorePatch
  exact ⟨stored, hstored, henabled, enabled_only_with_replacement hstreams
    undecryptable_rotatedRow (neverWears_singleton not_wearsGuard_restorePatch) _
    (List.prefix_refl _) stored hstored henabled⟩

end Sample

end SsfTransmitter.Store
