import SsfTransmitter.Routes.Credentials
import SsfTransmitter.Service.Staleness
import SsfTransmitter.Store.FernetFormat

/-!
# The header of a push

A client may give the credential of its endpoint as a whole `Authorization` header.
The code takes `"Bearer "` off it where it is there, stores the rest and puts
`"Bearer "` before what it reads at a push.
-/

namespace SsfTransmitter.Routes

open SsfTransmitter.Core
open SsfTransmitter.Python
open SsfTransmitter.Store
open SsfTransmitter.Outbox
open SsfTransmitter.Service

/-- The `headers` of `push_signed_set` and of `push_verification_set`. -/
def pushHeaders (stream : Stream) : List (String × String) :=
  [("Content-Type", "application/secevent+jwt"), ("Accept", "application/json")] ++
    if stream.endpointToken = "" then []
    else [("Authorization", "Bearer " ++ stream.endpointToken)]

theorem lookup_pushHeaders (stream : Stream) :
    (pushHeaders stream).lookup "Authorization" =
      if stream.endpointToken = "" then none
      else some ("Bearer " ++ stream.endpointToken) := by
  rw [pushHeaders]
  split_ifs <;> rfl

theorem removeBearer_append (token : String) : removeBearer ("Bearer " ++ token) = token := by
  rw [removeBearer, if_pos (startsWith_append _ _), dropChars_append]

section Header

variable {Key Entropy : Type*} (fernet : Fernet Key Entropy) [PyRuntime]

/-- The row that creation or `PATCH` stores for a delivery block that has this header
and no token. -/
inductive Configured (key : Key) (header : String) : StreamRow → Prop where
  | created {body : StreamCreateRequest} {freshId : String} {now : ℕ} {stream : Stream}
      (entropy : Entropy) (htoken : body.delivery.endpointUrlToken = none)
      (hheader : body.delivery.authorizationHeader = some header)
      (hprepare : prepareStream freshId now (createPayload body) = .ok stream) :
      Configured key header (savedRow fernet key entropy stream)
  | patched {body : StreamPatchRequest} {delivery : DeliveryConfig} {database : Database}
      {entropy : Entropy} {updated : Stream} {row : StreamRow}
      (hdelivery : body.delivery = some delivery)
      (htoken : delivery.endpointUrlToken = none)
      (hheader : delivery.authorizationHeader = some header)
      (hupdate : (updateStream fernet key entropy (patchPayload body) database).1 =
        .ok (some updated))
      (hrow : currentRow
        (updateStream fernet key entropy (patchPayload body) database).2 = some row) :
      Configured key header row

/-- A push of the worker or of a verification request reads the stream. -/
inductive PushedFrom (world : World Key) (stream : Stream) : Prop where
  | queued {task : ℕ} {item : OutboxItem} {payload : Dict} {rest : List OutboxItem}
      (htask : world.tasks task = .pushing item payload stream rest)
  | verification
      (hfirst : getFirstStream fernet world.key world.database = .ok (some stream))

variable {fernet} {key : Key} {header : String}

/-- Both ways store the header without its prefix. -/
theorem Configured.endpointToken_eq {row : StreamRow}
    (hrow : Configured fernet key header row) :
    ∃ entropy, row.endpointToken =
      encryptToken fernet key entropy (removeBearer header) := by
  cases hrow with
  | created entropy htoken hheader hprepare =>
      refine ⟨entropy, ?_⟩
      rw [savedRow, (prepareStream_eq_ok hprepare).1, preparedToken_createPayload, htoken,
        hheader, orElse_none, Option.getD_some]
  | @patched body delivery database entropy updated row hdelivery htoken hheader hupdate
      hrow =>
      refine ⟨entropy, ?_⟩
      let patch : Patch Entropy := ⟨entropy, patchPayload body⟩
      have hpatch : (updateStream fernet key patch.entropy patch.payload database).1 =
          .ok (some updated) := hupdate
      obtain ⟨old, final, -, hfinal, hpatched⟩ := currentRow_of_updateStream hpatch
      obtain rfl := Option.some.inj (hrow.symm.trans hfinal)
      have hreplacement : replacementEndpointToken (patchPayload body) =
          some (removeBearer header) := by
        rw [replacementEndpointToken_patchPayload hdelivery, htoken, hheader]
        rfl
      have hstored := hpatched.endpointToken
      rw [lastSupplied_singleton, Patch.storedToken?] at hstored
      rw [hstored, show patch.payload = patchPayload body from rfl, hreplacement]
      rfl

/-- The token that a key reads from a row: the one that was stored under it, and none
where it was stored under another. -/
theorem endpointToken_of_rowToStream (hformat : fernet.WireFormat) {row : StreamRow}
    {reader : Key} {stream : Stream} (hread : rowToStream fernet reader row = .ok stream)
    {entropy : Entropy} {token : String}
    (hrow : row.endpointToken = encryptToken fernet key entropy token) :
    (reader = key ∧ stream.endpointToken = token) ∨
      (reader ≠ key ∧ stream.endpointToken = "") := by
  have htoken := (rowToStream_eq_ok fernet hread).2.2.2.2.2.2
  rw [hrow] at htoken
  by_cases hreader : reader = key
  · subst hreader
    rw [decryptToken_encryptToken] at htoken
    rcases htoken with hok | ⟨herror, -⟩
    · exact Or.inl ⟨rfl, (Except.ok.inj hok).symm⟩
    · cases herror
  · refine Or.inr ⟨hreader, ?_⟩
    by_cases hempty : token = ""
    · simpa [hempty, encryptToken, decryptToken] using htoken
    · rw [decryptToken_encryptToken_of_ne fernet hreader entropy hempty,
        if_pos (isValidFernetTokenFormat_encrypt hformat key entropy token.toByteArray)]
        at htoken
      rcases htoken with hok | ⟨-, hstream⟩
      · cases hok
      · exact hstream

theorem PushedFrom.rowToStream_eq {world : World Key} {stream : Stream} {row : StreamRow}
    (hworld : Invariant fernet world) (hrow : row ∈ world.database.streams)
    (hpushed : PushedFrom fernet world stream) :
    rowToStream fernet world.key row = .ok stream := by
  have hsingle := hworld.sound.wellFormed.single
  have hstreams := eq_singleton_of_mem hsingle hrow
  cases hpushed with
  | queued htask =>
      obtain ⟨stored, hcurrent⟩ := hworld.pushIsCurrent htask
      have hstored := (streams_eq_of_streamRow hsingle hcurrent.stored).1
      obtain rfl := List.singleton_injective (hstreams.symm.trans hstored)
      exact hcurrent.pushed
  | verification hfirst =>
      rw [getFirstStream_of_singleton fernet hstreams] at hfirst
      cases hread : rowToStream fernet world.key row with
      | error error => simp [hread, Except.map] at hfirst
      | ok found => simpa [hread, Except.map] using hfirst

/-- While the token that a delivery block with a header stored is in the row, a push
carries that header exactly when it is `"Bearer "` with a token and the process runs
under the key of the encryption. -/
theorem authorization_header_honoured_iff (hformat : fernet.WireFormat) {world : World Key}
    (hworld : (service fernet).Reachable world) {configured row : StreamRow}
    (hconfigured : Configured fernet key header configured)
    (hrow : row ∈ world.database.streams)
    (hstored : row.endpointToken = configured.endpointToken) {stream : Stream}
    (hpushed : PushedFrom fernet world stream) :
    (pushHeaders stream).lookup "Authorization" = some header ↔
      world.key = key ∧ ∃ token, token ≠ "" ∧ header = "Bearer " ++ token := by
  obtain ⟨entropy, hencrypted⟩ := hconfigured.endpointToken_eq
  have hread := hpushed.rowToStream_eq (invariant_of_reachable hworld) hrow
  rw [lookup_pushHeaders]
  rcases endpointToken_of_rowToStream hformat hread (hstored.trans hencrypted) with
    ⟨hkey, htoken⟩ | ⟨hkey, hempty⟩
  · rw [htoken]
    constructor
    · intro hheader
      split_ifs at hheader with hempty
      exact ⟨hkey, removeBearer header, hempty, (Option.some.inj hheader).symm⟩
    · rintro ⟨-, token, hne, rfl⟩
      rw [removeBearer_append, if_neg hne]
  · simp [hempty, hkey]

end Header

section Samples

open scoped SsfTransmitter.Python.Ascii

theorem openStream_aud_not_blank : isBlank (ofString openStream.aud) = false := by
  decide

theorem nil_events_supported : ∀ uri ∈ ([] : List String), uri ∈ supportedEventUris :=
  fun _ huri => absurd huri List.not_mem_nil

/-- A creation with a header and no token. -/
def headerCreate (header : String) : StreamCreateRequest where
  aud := openStream.aud
  delivery := {
    endpointUrl := openStream.endpointUrl
    authorizationHeader := some header }
  aud_not_blank := openStream_aud_not_blank
  events_supported := nil_events_supported

/-- The stream that it creates. -/
def headerStream (header : String) : Stream :=
  { openStream with endpointToken := removeBearer header }

/-- The worker pushes to the stream as it was created. -/
theorem pushedFrom_headerStream (header : String) :
    ∃ world : World Bool, (service wireFernet).Reachable world ∧
      world.key = true ∧ savedRow wireFernet true () (headerStream header) ∈
        world.database.streams ∧
      PushedFrom wireFernet world (headerStream header) := by
  have hworld := reachable_pushingWorld wireFernet true () (headerStream header)
    sampleEvent "ada@example.com" (fun _ _ => "signed") rfl (Or.inl rfl)
  refine ⟨_, hworld, rfl, List.mem_singleton_self _, ?_⟩
  exact @PushedFrom.queued _ _ _ _ _ _ 0 _ _ _ rfl

theorem authorization_header_honoured_sample :
    (pushHeaders (headerStream "Bearer secret")).lookup "Authorization" =
      some "Bearer secret" := by
  obtain ⟨world, hworld, hkey, hrow, hpushed⟩ := pushedFrom_headerStream "Bearer secret"
  have hprepare : prepareStream "stream" 0 (createPayload (headerCreate "Bearer secret")) =
      .ok (headerStream "Bearer secret") := by decide +kernel
  exact (authorization_header_honoured_iff wireFormat_wireFernet hworld
    (.created () rfl rfl hprepare) hrow rfl hpushed).mpr
    ⟨hkey, "secret", by decide, by decide⟩

/-- A header of another scheme gets a second one before it. -/
theorem authorization_header_not_honoured :
    prepareStream "stream" 0 (createPayload (headerCreate "Basic YWRhOnB3")) =
        .ok (headerStream "Basic YWRhOnB3") ∧
      (∃ world : World Bool, (service wireFernet).Reachable world ∧
        savedRow wireFernet true () (headerStream "Basic YWRhOnB3") ∈
          world.database.streams ∧
        PushedFrom wireFernet world (headerStream "Basic YWRhOnB3")) ∧
      (pushHeaders (headerStream "Basic YWRhOnB3")).lookup "Authorization" =
        some "Bearer Basic YWRhOnB3" := by
  obtain ⟨world, hworld, -, hrow, hpushed⟩ := pushedFrom_headerStream "Basic YWRhOnB3"
  exact ⟨by decide +kernel, ⟨world, hworld, hrow, hpushed⟩, by decide +kernel⟩

end Samples

end SsfTransmitter.Routes
