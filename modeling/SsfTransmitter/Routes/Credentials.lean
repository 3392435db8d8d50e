import SsfTransmitter.Routes.Streams
import SsfTransmitter.Store.ClearFernet
import SsfTransmitter.Store.Updates

/-!
# The receiver token of a delivery block

Creation and `PATCH` each derive the token to store from the delivery block of a
request: `prepare_stream` takes the first true value, `_replacement_endpoint_token`
the first key that is present.
-/

namespace SsfTransmitter.Routes

open SsfTransmitter.Python
open SsfTransmitter.Store

/-- At least one credential of the block is not empty. -/
def DeliveryConfig.HasCredential (delivery : DeliveryConfig) : Prop :=
  (∃ token ∈ delivery.endpointUrlToken, token ≠ "") ∨
    ∃ header ∈ delivery.authorizationHeader, header ≠ ""

/-- An empty token stands next to a header that holds one. -/
def DeliveryConfig.Shadowed (delivery : DeliveryConfig) : Prop :=
  delivery.endpointUrlToken = some "" ∧
    ∃ header ∈ delivery.authorizationHeader, removeBearer header ≠ ""

@[simp]
theorem removeBearer_empty : removeBearer "" = "" := rfl

theorem orElse_none (fallback : String) : orElse none fallback = fallback := rfl

theorem orElse_some_empty (fallback : String) : orElse (some "") fallback = fallback := by
  simp [orElse]

theorem orElse_some_of_ne {text : String} (htext : text ≠ "") (fallback : String) :
    orElse (some text) fallback = text := by
  simp [orElse, htext]

theorem orElse_empty (value : Option String) : orElse value "" = value.getD "" := by
  cases value with
  | none => rfl
  | some text => by_cases htext : text = "" <;> simp [orElse, htext]

/-- Creation falls back on the header when the token is empty. -/
theorem preparedToken_createPayload (body : StreamCreateRequest) :
    preparedToken (createPayload body).toStreamPayload =
      orElse body.delivery.endpointUrlToken
        (removeBearer (body.delivery.authorizationHeader.getD "")) := by
  have hheader : ∀ header : String,
      (if header = "" then "" else removeBearer header) = removeBearer header := by
    intro header
    split_ifs with hempty
    · rw [hempty, removeBearer_empty]
    · rfl
  rw [preparedToken, block_createPayload]
  simp only [orElse_empty, Option.getD_some, hheader]
  cases body.delivery.endpointUrlToken with
  | none => rfl
  | some token => rfl

/-- A patch takes the token whenever its key is present. -/
theorem replacementEndpointToken_patchPayload {body : StreamPatchRequest}
    {delivery : DeliveryConfig} (hdelivery : body.delivery = some delivery) :
    replacementEndpointToken (patchPayload body) =
      delivery.endpointUrlToken.or (delivery.authorizationHeader.map removeBearer) := by
  rw [replacementEndpointToken, block_patchPayload hdelivery]
  cases delivery.endpointUrlToken with
  | some token => rfl
  | none =>
      cases delivery.authorizationHeader with
      | none => rfl
      | some header =>
          by_cases hheader : header = "" <;> simp [patchPayload, hheader]

/-- Where a block brings a credential, a patch replaces the token. -/
theorem tokens_agree_iff {delivery : DeliveryConfig} (hcredential : delivery.HasCredential) :
    some (orElse delivery.endpointUrlToken
        (removeBearer (delivery.authorizationHeader.getD ""))) =
      delivery.endpointUrlToken.or (delivery.authorizationHeader.map removeBearer) ↔
      ¬delivery.Shadowed := by
  rcases delivery with ⟨url, token, header⟩
  simp only [DeliveryConfig.HasCredential, DeliveryConfig.Shadowed] at hcredential ⊢
  cases token with
  | none =>
      -- both read the header, which the block then has
      obtain ⟨text, rfl, -⟩ := hcredential.resolve_left (by simp)
      simp [orElse_none]
  | some token =>
      by_cases htoken : token = ""
      · subst htoken
        obtain ⟨text, rfl, -⟩ := hcredential.resolve_left (by simp)
        simp [orElse_some_empty]
      · simp [orElse_some_of_ne htoken, htoken]

section Stored

variable {Key Entropy : Type*} (fernet : Fernet Key Entropy)

/-- The receiver token of the newest stream, as the key reads it. -/
def receiverToken (key : Key) (database : Database) : Option (Except CryptoError String) :=
  (currentRow database).map fun row => decryptToken fernet key row.endpointToken

theorem receiverToken_saveStream (key : Key) (entropy : Entropy) (stream : Stream)
    (database : Database) :
    receiverToken fernet key (saveStream fernet key entropy stream database) =
      some (.ok stream.endpointToken) := by
  have hread := decryptToken_encryptToken fernet key entropy stream.endpointToken
  exact congrArg some hread

/-- A patch that replaces the token stores the replacement. -/
theorem receiverToken_updateStream [PyRuntime] {key : Key} {entropy : Entropy}
    {payload : StreamPayload} {database : Database} {updated : Stream}
    (hupdate : (updateStream fernet key entropy payload database).1 = .ok (some updated))
    {token : String} (htoken : replacementEndpointToken payload = some token) :
    receiverToken fernet key (updateStream fernet key entropy payload database).2 =
      some (.ok token) := by
  let patch : Patch Entropy := ⟨entropy, payload⟩
  have hpatch : (updateStream fernet key patch.entropy patch.payload database).1 =
      .ok (some updated) := hupdate
  obtain ⟨row, final, -, hfinal, hpatched⟩ := currentRow_of_updateStream hpatch
  have hruntime := hpatched.runtimeToken
  rw [lastSupplied_singleton, htoken] at hruntime
  exact (congrArg (Option.map _) hfinal).trans (congrArg some hruntime)

end Stored

/-- Creation and `PATCH` store the same token for a delivery block with a credential
exactly when no empty token shadows the header. -/
theorem created_token_eq_patched_token_iff {Key Entropy : Type*}
    (fernet : Fernet Key Entropy) [PyRuntime] (create : StreamCreateRequest)
    (patch : StreamPatchRequest) (hdelivery : patch.delivery = some create.delivery)
    (hcredential : create.delivery.HasCredential) {freshId : String} {now : ℕ}
    {created : Stream}
    (hcreate : prepareStream freshId now (createPayload create) = .ok created)
    {key key' : Key} {entropy entropy' : Entropy} {before stored : Database}
    {updated : Stream}
    (hpatch : (updateStream fernet key' entropy' (patchPayload patch) stored).1 =
      .ok (some updated)) :
    receiverToken fernet key (saveStream fernet key entropy created before) =
        receiverToken fernet key'
          (updateStream fernet key' entropy' (patchPayload patch) stored).2 ↔
      ¬create.delivery.Shadowed := by
  have hsome : (replacementEndpointToken (patchPayload patch)).isSome := by
    rw [replacementEndpointToken_patchPayload hdelivery]
    rcases hcredential with ⟨token, htoken, -⟩ | ⟨header, hheader, -⟩
    · simp [Option.mem_def.mp htoken]
    · cases create.delivery.endpointUrlToken <;> simp [Option.mem_def.mp hheader]
  obtain ⟨token, htoken⟩ := Option.isSome_iff_exists.mp hsome
  rw [receiverToken_saveStream, receiverToken_updateStream fernet hpatch htoken,
    (prepareStream_eq_ok hcreate).1, preparedToken_createPayload,
    ← tokens_agree_iff hcredential, ← replacementEndpointToken_patchPayload hdelivery,
    htoken]
  simp

section Samples

open scoped SsfTransmitter.Python.Ascii

/-- A creation with the token and the header of a client that sends both keys. -/
def sampleCreate (token header : String) : StreamCreateRequest where
  aud := openStream.aud
  delivery := {
    endpointUrl := openStream.endpointUrl
    endpointUrlToken := some token
    authorizationHeader := some header }
  aud_not_blank := by decide
  events_supported := by simp

/-- A patch with the same delivery block. -/
def samplePatch (token header : String) : StreamPatchRequest where
  delivery := some (sampleCreate token header).delivery
  aud_not_blank := by simp
  events_supported := by simp

/-- The tables with the sample stream. -/
def registered : Database :=
  saveStream clearFernet true () openStream Database.init

theorem created_token_eq_patched_token_sample :
    receiverToken clearFernet true (saveStream clearFernet true ()
        { openStream with endpointToken := "fresh" } Database.init) =
      receiverToken clearFernet true
        (updateStream clearFernet true () (patchPayload (samplePatch "fresh" "")) registered).2 := by
  have hcreate : prepareStream "stream" 0 (createPayload (sampleCreate "fresh" "")) =
      .ok { openStream with endpointToken := "fresh" } := by decide +kernel
  have hpatch : (updateStream clearFernet true () (patchPayload (samplePatch "fresh" ""))
      registered).1 = .ok (some { openStream with endpointToken := "fresh" }) := by
    decide +kernel
  refine (created_token_eq_patched_token_iff clearFernet (sampleCreate "fresh" "")
    (samplePatch "fresh" "") rfl (Or.inl ⟨"fresh", rfl, by decide⟩) hcreate hpatch).mpr ?_
  rintro ⟨htoken, -⟩
  exact absurd htoken (by decide)

/-- An empty token next to a header: creation stores the header's token, the patch
stores none. -/
theorem created_token_ne_patched_token :
    (sampleCreate "" "Bearer fresh").delivery.HasCredential ∧
      ∃ created updated,
        prepareStream "stream" 0 (createPayload (sampleCreate "" "Bearer fresh")) =
          .ok created ∧
        (updateStream clearFernet true () (patchPayload (samplePatch "" "Bearer fresh"))
          registered).1 = .ok (some updated) ∧
        receiverToken clearFernet true
          (saveStream clearFernet true () created Database.init) = some (.ok "fresh") ∧
        receiverToken clearFernet true
          (updateStream clearFernet true () (patchPayload (samplePatch "" "Bearer fresh"))
            registered).2 = some (.ok "") := by
  have hpatch : (updateStream clearFernet true ()
      (patchPayload (samplePatch "" "Bearer fresh")) registered).1 =
        .ok (some { openStream with endpointToken := "" }) := by decide +kernel
  exact ⟨Or.inr ⟨"Bearer fresh", rfl, by decide⟩,
    { openStream with endpointToken := "fresh" }, _, by decide +kernel, hpatch,
    receiverToken_saveStream clearFernet true () _ _,
    receiverToken_updateStream clearFernet hpatch rfl⟩

end Samples

end SsfTransmitter.Routes
