import SsfTransmitter.Python.Ascii
import SsfTransmitter.Webhook.Handler

/-!
# Which requests the webhook answers

The handler answers by a value or by an `HTTPException`.  Each stage has one lemma
that says when no other exception leaves it, and a request is answered exactly when
every stage that it reaches is such.
-/

namespace SsfTransmitter.Webhook

open SsfTransmitter.Python
open SsfTransmitter.Store
open SsfTransmitter.Outbox

/-- An exception that the framework turns into the reply 400, 401 or 413. -/
def Raised.IsReply : Raised → Prop
  | .http status _ => status = 400 ∨ status = 401 ∨ status = 413
  | _ => False

instance (raised : Raised) : Decidable raised.IsReply :=
  match raised with
  | .http status _ =>
    inferInstanceAs (Decidable (status = 400 ∨ status = 401 ∨ status = 413))
  | .typeError | .valueError | .unicodeEncodeError | .recursionError => isFalse id

/-- No exception but a reply leaves the computation. -/
def Answers {A : Type} (result : Except Raised A) : Prop :=
  ∀ raised, result = .error raised → raised.IsReply

section Rules

variable {A B : Type}

@[simp]
theorem answers_ok (value : A) : Answers (.ok value) :=
  fun _ hraised => nomatch hraised

@[simp]
theorem answers_error_iff {raised : Raised} :
    Answers (.error raised : Except Raised A) ↔ raised.IsReply := by
  constructor
  · exact fun hanswers => hanswers raised rfl
  · intro hreply other hother
    rwa [← Except.error.inj hother]

instance (result : Except Raised A) : Decidable (Answers result) :=
  match result with
  | .ok value => isTrue (answers_ok value)
  | .error _ => decidable_of_iff _ answers_error_iff.symm

theorem answers_bind_iff {first : Except Raised A} {next : A → Except Raised B} :
    Answers (first >>= next) ↔
      Answers first ∧ ∀ value, first = .ok value → Answers (next value) := by
  cases first with
  | error raised => simp [bind, Except.bind]
  | ok value => simp [bind, Except.bind]

theorem answers_map_iff {first : Except Raised A} {image : A → B} :
    Answers (first.map image) ↔ Answers first := by
  cases first with
  | error raised => simp [Except.map]
  | ok value => simp [Except.map]

/-- A stage that raises no reply itself. -/
def Silent (result : Except Raised A) : Prop :=
  ∀ raised, result = .error raised → ¬ raised.IsReply

theorem silent_ok (value : A) : Silent (.ok value) :=
  fun _ hraised => nomatch hraised

theorem silent_error {raised : Raised} (hraised : ¬ raised.IsReply) :
    Silent (.error raised : Except Raised A) := by
  intro other hother
  rwa [← Except.error.inj hother]

theorem silent_bind {first : Except Raised A} {next : A → Except Raised B}
    (hfirst : Silent first) (hnext : ∀ value, Silent (next value)) :
    Silent (first >>= next) := by
  cases first with
  | error raised => exact silent_error (hfirst raised rfl)
  | ok value => exact hnext value

/-- A silent stage that answers returns, so what follows it is reached. -/
theorem answers_bind_iff_of_silent {first : Except Raised A}
    {next : A → Except Raised B} {condition : Prop} (hfirst : Silent first)
    (hnext : ∀ value, Answers (next value) ↔ condition) :
    Answers (first >>= next) ↔ Answers first ∧ condition := by
  rw [answers_bind_iff]
  refine and_congr_right fun hanswers => ?_
  cases first with
  | error raised => exact absurd (hanswers raised rfl) (hfirst raised rfl)
  | ok value => simp [hnext]

end Rules

section Reading

/-- Reading never fails but with 413. -/
theorem answers_readChunks (read : PyBytes) (chunks : List PyBytes) :
    Answers (readChunks read chunks) := by
  induction chunks generalizing read with
  | nil => exact answers_ok read
  | cons chunk chunks ih =>
      rw [readChunks]
      split_ifs
      · exact answers_error_iff.mpr (.inr (.inr rfl))
      · exact ih (read ++ chunk)

theorem answers_readBodyWithinLimit (request : Request) :
    Answers (readBodyWithinLimit request) := by
  simp only [readBodyWithinLimit]
  split_ifs
  · exact answers_error_iff.mpr (.inr (.inr rfl))
  · exact answers_readChunks [] request.chunks

end Reading

section Authenticating

theorem encodable_of_headerText {text : PyStr} (htext : ∀ point ∈ text, point.val < 256) :
    encodable text = true := by
  rw [encodable, List.all_eq_true]
  intro point hpoint
  have hsmall := htext point hpoint
  simp only [isSurrogate, Bool.not_eq_true', Bool.and_eq_false_iff, decide_eq_false_iff_not]
  omega

/-- The bearer token is a part of a Latin-1 header, and can be encoded. -/
theorem answers_verifyBearerToken [PyRuntime] (settings : Settings)
    (authorization : Option HeaderText) :
    Answers (verifyBearerToken settings authorization) := by
  rw [verifyBearerToken.eq_def]
  split
  · exact answers_ok false
  next header =>
    dsimp only
    split_ifs
    · exact answers_ok false
    · split
      · exact answers_ok false
      next expected _ =>
        split_ifs
        · exact answers_ok false
        · split
          · next hnone =>
            have htoken : ∀ point ∈ (partitionSpace header.val).2, point.val < 256 :=
              fun point hpoint => header.property point
                ((List.dropWhile_sublist _).subset (List.mem_of_mem_tail hpoint))
            have hsome := encodeUtf8_isSome_iff.mpr (encodable_of_headerText htoken)
            rw [hnone] at hsome
            exact absurd hsome Bool.false_ne_true
          · exact answers_ok _

theorem isAscii_hexDigest (digest : PyBytes) : isAscii (hexDigest digest) = true := by
  have hdigit : ∀ digit < 16, (ofChar (Nat.digitChar digit)).val < 128 := by decide
  rw [isAscii, hexDigest, List.all_flatMap, List.all_eq_true]
  intro byte _
  have hbyte := byte.toNat_lt
  have hhigh := hdigit (byte.toNat / 16) (by omega)
  have hlow := hdigit (byte.toNat % 16) (by omega)
  simp [hhigh, hlow]

/-- The signature's text is ASCII where the handler compares it to a digest. -/
def SignatureComparable (settings : Settings) (request : Request) : Prop :=
  settings.authMode = .hmac → ∀ signature, request.signature = some signature →
    startsWithText signature.val "sha256=" = true → isAscii (signature.val.drop 7) = true

variable (hmac : Hmac) (settings : Settings)

theorem answers_verifyHmacSignature_iff {rawBody : PyBytes} {signature : Option HeaderText} :
    Answers (verifyHmacSignature hmac settings rawBody signature) ↔
      ∀ text, signature = some text → startsWithText text.val "sha256=" = true →
        isAscii (text.val.drop 7) = true := by
  cases signature with
  | none => simp [verifyHmacSignature]
  | some text =>
      cases hstarts : startsWithText text.val "sha256=" with
      | false => simp [verifyHmacSignature, hstarts]
      | true =>
          cases hascii : isAscii (text.val.drop 7) with
          | false => simp [verifyHmacSignature, hstarts, hascii, compareDigest, Raised.IsReply]
          | true =>
              simp [verifyHmacSignature, hstarts, hascii, compareDigest, isAscii_hexDigest]

theorem answers_authenticateWebhook_iff [PyRuntime] {request : Request} {rawBody : PyBytes} :
    Answers (authenticateWebhook hmac settings request rawBody) ↔
      SignatureComparable settings request := by
  have hverdict : ∀ accepted : Bool,
      Answers (if accepted then .ok () else .error (.http 401 "Unauthorized")) := by
    intro accepted
    cases accepted <;> simp [Raised.IsReply]
  rw [authenticateWebhook, SignatureComparable]
  cases settings.authMode with
  | bearer =>
      rw [answers_bind_iff, and_iff_left fun accepted _ => hverdict accepted]
      simpa using answers_verifyBearerToken settings request.authorization
  | hmac =>
      rw [answers_bind_iff, and_iff_left fun accepted _ => hverdict accepted]
      simpa using answers_verifyHmacSignature_iff hmac settings
  | unsigned =>
      rw [answers_bind_iff, and_iff_left fun accepted _ => hverdict accepted]
      simp

end Authenticating

section Parsing

variable [PyRuntime]

/-- The two exceptions of `json.loads` that the handler does not name. -/
def Decodable (stack : Stack) (rawBody : PyBytes) : Prop :=
  loadsBytes stack.loads rawBody ≠ .error .recursion ∧
    loadsBytes stack.loads rawBody ≠ .error .intDigits

theorem answers_parseWebhookJson_iff {stack : Stack} {rawBody : PyBytes} :
    Answers (parseWebhookJson stack rawBody) ↔ Decodable stack rawBody := by
  rw [parseWebhookJson, Decodable]
  split <;> rename_i hloads <;> simp [hloads, Raised.IsReply]

theorem parseWebhookJson_eq_ok_iff {stack : Stack} {rawBody : PyBytes} {payload : Dict} :
    parseWebhookJson stack rawBody = .ok payload ↔
      loadsBytes stack.loads rawBody = .ok (.dict payload) := by
  rw [parseWebhookJson]
  split <;> rename_i hloads <;> simp_all

end Parsing

section Mapping

theorem shortIntegers_of_get? {fields : Dict} (hfields : Json.shortFields fields = true)
    {key : PyStr} {value : Json} (hvalue : fields.get? key = some value) :
    value.shortIntegers = true := by
  rw [Dict.get?] at hvalue
  induction fields with
  | nil => cases hvalue
  | cons field fields ih =>
      obtain ⟨name, first⟩ := field
      simp only [Json.shortFields, Bool.and_eq_true] at hfields
      rw [List.lookup_cons] at hvalue
      split at hvalue
      · rw [← Option.some.inj hvalue]
        exact hfields.1
      · exact ih hfields.2 hvalue

theorem shortFields_extractBody {payload : Dict}
    (hpayload : Json.shortFields payload = true) :
    Json.shortFields (extractBody payload) = true := by
  rw [extractBody]
  split
  next body hbody => exact shortIntegers_of_get? hpayload hbody
  · exact hpayload

theorem shortIntegers_of_sourceTxn {payload : Dict}
    (hpayload : Json.shortFields payload = true) {value : Json}
    (hvalue : sourceTxn payload = some value) : value.shortIntegers = true := by
  rw [sourceTxn] at hvalue
  obtain ⟨key, -, hkey⟩ := List.mem_map.mp (List.mem_of_find?_eq_some hvalue)
  have hsome : value ≠ .null := by simpa using List.find?_some hvalue
  cases hget : (extractBody payload).get? key with
  | none => simp_all [Dict.getD]
  | some found =>
      obtain rfl : found = value := by simpa [Dict.getD, hget] using hkey
      exact shortIntegers_of_get? (shortFields_extractBody hpayload) hget

variable {stack : Stack}

theorem answers_str_iff [PyRuntime] {value : Json} (hshort : value.shortIntegers = true) :
    Answers (str stack value) ↔ value.depth ≤ stack.str := by
  rw [str, if_pos hshort]
  split_ifs with hdeep
  · simpa [Raised.IsReply] using hdeep
  · simpa using hdeep

theorem answers_extractSourceTxn_iff [PyRuntime] {payload : Dict}
    (hpayload : Json.shortFields payload = true) :
    Answers (extractSourceTxn stack payload) ↔
      ∀ value, sourceTxn payload = some value → value.depth ≤ stack.str := by
  rw [extractSourceTxn]
  split
  next value hvalue =>
    rw [answers_map_iff, answers_str_iff (shortIntegers_of_sourceTxn hpayload hvalue)]
    simp [hvalue]
  next hnone => simp [hnone]

theorem answers_logArgument_iff {enabled : Bool} {argument : Json} :
    Answers (logArgument stack enabled argument) ↔
      (enabled = true → argument.depth ≤ stack.log) := by
  rw [logArgument]
  split_ifs with hdeep
  · simpa [Raised.IsReply] using hdeep
  · simpa using hdeep

theorem silent_extractSourceTxn [PyRuntime] (payload : Dict) :
    Silent (extractSourceTxn stack payload) := by
  rw [extractSourceTxn]
  split
  · rw [str]
    split_ifs
    · exact silent_error id
    · exact silent_ok _
    · exact silent_error id
  · exact silent_ok none

theorem silent_logArgument (enabled : Bool) (argument : Json) :
    Silent (logArgument stack enabled argument) := by
  rw [logArgument]
  split_ifs
  · exact silent_error id
  · exact silent_ok ()

/-- A log call and what follows it. -/
theorem answers_logArgument_bind_iff {B : Type} {enabled : Bool} {argument : Json}
    {next : Except Raised B} :
    Answers (logArgument stack enabled argument >>= fun _ => next) ↔
      (enabled = true → argument.depth ≤ stack.log) ∧ Answers next := by
  rw [answers_bind_iff_of_silent (silent_logArgument enabled argument) fun _ => Iff.rfl,
    answers_logArgument_iff]

/-- What a payload must be for the log calls of a `user.write` event. -/
structure WriteLoggable (stack : Stack) (level : LogLevel) (payload : Dict) : Prop where
  isActive : level.infoEnabled = true → Json.str "is_active" ∈ changedFields payload →
    ((nestedDict (extractBody payload) "context").getD "is_active" .null).depth ≤ stack.log
  changed : level.warningEnabled = true → Json.str "password" ∉ changedFields payload →
    (Json.list (changedFields payload)).depth ≤ stack.log

theorem answers_mapUserWrite_iff {level : LogLevel} {now : ℤ} {txn : Option PyStr}
    {payload : Dict} :
    Answers (mapUserWrite stack level now txn payload) ↔
      WriteLoggable stack level payload := by
  have hwrite : WriteLoggable stack level payload ↔ _ ∧ _ :=
    ⟨fun ⟨hactive, hchanged⟩ => ⟨hactive, hchanged⟩,
      fun ⟨hactive, hchanged⟩ => ⟨hactive, hchanged⟩⟩
  rw [mapUserWrite, hwrite]
  by_cases hactive : Json.str "is_active" ∈ changedFields payload <;>
    by_cases hpassword : Json.str "password" ∈ changedFields payload <;>
    simp [hactive, hpassword, answers_logArgument_bind_iff]

/-- What a payload must be for the mapper. -/
structure Mappable (stack : Stack) (level : LogLevel) (payload : Dict) : Prop where
  txn : ∀ value, sourceTxn payload = some value → value.depth ≤ stack.str
  action : level.warningEnabled = true → (extractAction payload).depth ≤ stack.log
  write : extractAction payload = .str "authentik.core.user.write" →
    WriteLoggable stack level payload

theorem answers_mapAuthentikEvent_iff [PyRuntime] {level : LogLevel} {now : ℤ} {payload : Dict}
    (hpayload : Json.shortFields payload = true) :
    Answers (mapAuthentikEvent stack level now payload) ↔ Mappable stack level payload := by
  have hmappable : Mappable stack level payload ↔ _ ∧ _ ∧ _ :=
    ⟨fun ⟨htxn, haction, hwrite⟩ => ⟨htxn, haction, hwrite⟩,
      fun ⟨htxn, haction, hwrite⟩ => ⟨htxn, haction, hwrite⟩⟩
  have htext : ∀ text : PyStr, (Json.str text).depth = 0 := fun _ => rfl
  rw [mapAuthentikEvent, hmappable, ← answers_extractSourceTxn_iff hpayload]
  refine answers_bind_iff_of_silent (silent_extractSourceTxn payload) fun txn => ?_
  -- an action that the mapper names is a text, and costs the log nothing
  split_ifs with hlogin hlogout hdelete hother
  · simp [hlogin, htext]
  · simp [hlogout, htext]
  · simp [hdelete, htext]
  · simp [answers_logArgument_bind_iff, hother]
  · rw [not_not] at hother
    simp [answers_mapUserWrite_iff, hother, htext]

theorem silent_mapUserWrite (level : LogLevel) (now : ℤ) (txn : Option PyStr)
    (payload : Dict) : Silent (mapUserWrite stack level now txn payload) := by
  rw [mapUserWrite]
  dsimp only
  split_ifs <;> repeat' first
    | exact silent_ok _
    | refine silent_bind (silent_logArgument _ _) fun _ => ?_

theorem silent_mapAuthentikEvent [PyRuntime] (level : LogLevel) (now : ℤ)
    (payload : Dict) : Silent (mapAuthentikEvent stack level now payload) := by
  rw [mapAuthentikEvent]
  refine silent_bind (silent_extractSourceTxn payload) fun txn => ?_
  split_ifs
  · exact silent_ok _
  · exact silent_ok _
  · exact silent_ok _
  · exact silent_bind (silent_logArgument _ _) fun _ => silent_ok _
  · exact silent_mapUserWrite level now txn payload

end Mapping

section Handling

variable (hmac : Hmac) (stack : Stack) (settings : Settings)

/-- The email can be hashed, where it is. -/
def Maskable (settings : Settings) (email : Option PyStr) : Prop :=
  settings.logPii = false → ∀ text, email = some text → encodable text = true

theorem silent_maskEmail (email : Option PyStr) (logPii : Bool) (key : String) :
    Silent (maskEmail hmac email logPii key) := by
  rw [maskEmail.eq_def]
  split
  · exact silent_ok _
  · split_ifs
    · exact silent_ok _
    · split
      · exact silent_error id
      · exact silent_ok _

theorem answers_maskEmail_iff {key : String} {email : Option PyStr} :
    Answers (maskEmail hmac email settings.logPii key) ↔ Maskable settings email := by
  rw [Maskable]
  cases email with
  | none => simp [maskEmail]
  | some text =>
      cases hpii : settings.logPii with
      | true => simp [maskEmail]
      | false =>
          have hsome : (encodeUtf8 text).isSome ↔ encodable text = true :=
            encodeUtf8_isSome_iff
          cases hencode : encodeUtf8 text with
          | none =>
              have hno : ¬ encodable text = true := fun hyes => by
                simpa [hencode] using hsome.mpr hyes
              simp [maskEmail, hencode, Raised.IsReply, hno]
          | some bytes =>
              have hyes : encodable text = true := hsome.mp (by simp [hencode])
              simp [maskEmail, hencode, hyes]

/-- What a request must be so that the handler answers it: the condition of each
stage that the request reaches. -/
structure Answerable [PyRuntime] (request : Request) : Prop where
  signature : ∀ rawBody, readBodyWithinLimit request = .ok rawBody →
    SignatureComparable settings request
  body : ∀ rawBody, readBodyWithinLimit request = .ok rawBody →
    authenticateWebhook hmac settings request rawBody = .ok () → Decodable stack rawBody
  payload : ∀ rawBody payload, readBodyWithinLimit request = .ok rawBody →
    authenticateWebhook hmac settings request rawBody = .ok () →
    loadsBytes stack.loads rawBody = .ok (.dict payload) →
    Mappable stack settings.logLevel payload ∧ Maskable settings (extractEmail payload)

theorem answers_handlePayload_iff [PyRuntime] {now : ℤ} {streams : List Stream} {payload : Dict}
    (hpayload : Json.shortFields payload = true) :
    Answers (handlePayload hmac stack settings now streams payload) ↔
      Mappable stack settings.logLevel payload ∧ Maskable settings (extractEmail payload) := by
  have hinfo : settings.logLevel.infoEnabled = true → settings.logLevel.warningEnabled = true := by
    cases settings.logLevel <;> decide
  have himplied : Mappable stack settings.logLevel payload →
      settings.logLevel.infoEnabled = true → (extractAction payload).depth ≤ stack.log :=
    fun hmappable hlogged => hmappable.action (hinfo hlogged)
  calc Answers (handlePayload hmac stack settings now streams payload)
    _ ↔ Mappable stack settings.logLevel payload ∧
          Maskable settings (extractEmail payload) ∧
            (settings.logLevel.infoEnabled = true →
              (extractAction payload).depth ≤ stack.log) := by
      rw [handlePayload, ← answers_mapAuthentikEvent_iff hpayload,
        ← answers_maskEmail_iff hmac settings]
      refine answers_bind_iff_of_silent (silent_mapAuthentikEvent _ now payload)
        fun events => ?_
      refine answers_bind_iff_of_silent (silent_maskEmail hmac _ _ _) fun masked => ?_
      rw [answers_logArgument_bind_iff, and_iff_left]
      split_ifs
      · exact answers_ok _
      · split
        · exact answers_ok _
        · dsimp only
          split_ifs <;> exact answers_ok _
    _ ↔ _ := and_congr_right fun hmappable => and_iff_left (himplied hmappable)

/-- The stages after the body is read. -/
theorem answers_afterReading_iff [PyRuntime] {now : ℤ} {streams : List Stream}
    {request : Request} {rawBody : PyBytes} :
    Answers (do
      authenticateWebhook hmac settings request rawBody
      let payload ← parseWebhookJson stack rawBody
      handlePayload hmac stack settings now streams payload) ↔
    SignatureComparable settings request ∧
      (authenticateWebhook hmac settings request rawBody = .ok () →
        Decodable stack rawBody ∧
          ∀ payload, loadsBytes stack.loads rawBody = .ok (.dict payload) →
            Mappable stack settings.logLevel payload ∧
              Maskable settings (extractEmail payload)) := by
  have hparsed : ∀ payload, loadsBytes stack.loads rawBody = .ok (.dict payload) →
      (Answers (handlePayload hmac stack settings now streams payload) ↔
        Mappable stack settings.logLevel payload ∧ Maskable settings (extractEmail payload)) :=
    fun payload hloads => answers_handlePayload_iff hmac stack settings
      (shortIntegers_of_loadsBytes hloads)
  rw [answers_bind_iff, answers_authenticateWebhook_iff]
  refine and_congr_right fun _ => ?_
  rw [Unique.forall_iff]
  refine imp_congr_right fun _ => ?_
  rw [answers_bind_iff, answers_parseWebhookJson_iff]
  refine and_congr_right fun _ => forall_congr' fun payload => ?_
  rw [parseWebhookJson_eq_ok_iff]
  exact imp_congr_right (hparsed payload)

/-- A request is answered, and no exception escapes, exactly when every stage that it
reaches can take it. -/
theorem answers_authentikWebhook_iff [PyRuntime] {now : ℤ} {streams : List Stream}
    {request : Request} :
    Answers (authentikWebhook hmac stack settings now streams request) ↔
      Answerable hmac stack settings request := by
  rw [authentikWebhook, answers_bind_iff, and_iff_right (answers_readBodyWithinLimit request)]
  have hstage : ∀ rawBody, Answers (do
      authenticateWebhook hmac settings request rawBody
      let payload ← parseWebhookJson stack rawBody
      handlePayload hmac stack settings now streams payload) ↔ _ :=
    fun rawBody => answers_afterReading_iff hmac stack settings
  simp only [hstage]
  constructor
  · intro hstages
    exact {
      signature := fun rawBody hread => (hstages rawBody hread).1
      body := fun rawBody hread haccepted => ((hstages rawBody hread).2 haccepted).1
      payload := fun rawBody payload hread haccepted =>
        ((hstages rawBody hread).2 haccepted).2 payload }
  · intro hanswerable rawBody hread
    exact ⟨hanswerable.signature rawBody hread, fun haccepted =>
      ⟨hanswerable.body rawBody hread haccepted, fun payload =>
        hanswerable.payload rawBody payload hread haccepted⟩⟩

end Handling

section Escaping

open SsfTransmitter.Python.Ascii

def labSettings (authMode : AuthMode) : Settings where
  authMode := authMode
  webhookToken := none
  webhookSecret := "webhook-secret"
  logPii := false
  piiPepper := "pepper"
  managementToken := "management"
  logLevel := .info

def deepStack : Stack := ⟨1000, 1000, 1000⟩

def postedBody (body : String) : Request where
  contentLength := none
  authorization := none
  signature := none
  chunks := [body.toUTF8.toList]

def header (text : PyStr) (htext : text.all (fun point => point.val < 256) = true) :
    HeaderText :=
  ⟨text, fun point hpoint => by simpa using List.all_eq_true.mp htext point hpoint⟩

/-- A signature header with a byte beyond ASCII. -/
def nonAsciiSignature : Request :=
  { postedBody "" with signature := some (header "sha256=é" (by decide +kernel)) }

/-- An email of one unpaired surrogate. -/
def surrogateEmail : Request :=
  postedBody "\x7b\"user\": \x7b\"email\": \"\\ud800\"\x7d\x7d"

def zeroHmac : Hmac := fun _ _ => List.replicate 32 0

/-- The header ends in a `TypeError`, the email in a `UnicodeEncodeError`. -/
theorem exception_escapes :
    ¬ Answers (authentikWebhook zeroHmac deepStack (labSettings .hmac) 0 []
      nonAsciiSignature) ∧
    ¬ Answers (authentikWebhook zeroHmac deepStack (labSettings .unsigned) 0 []
      surrogateEmail) := by
  constructor
  · decide +kernel
  · decide +kernel

end Escaping

end SsfTransmitter.Webhook
