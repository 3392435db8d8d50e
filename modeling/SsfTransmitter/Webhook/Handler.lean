import SsfTransmitter.Webhook.Mapper

/-!
# The webhook handler

`app.routes.webhook` from the arrival of a request to the call of
`enqueue_events`: reading, authenticating, parsing, mapping and masking.
-/

namespace SsfTransmitter.Webhook

open SsfTransmitter.Python
open SsfTransmitter.Store
open SsfTransmitter.Outbox

/-- The value of a header, decoded as Latin-1. -/
abbrev HeaderText := {text : PyStr // ∀ point ∈ text, point.val < 256}

/-- What the handler reads of a request. -/
structure Request where
  contentLength : Option HeaderText
  authorization : Option HeaderText
  signature : Option HeaderText
  chunks : List PyBytes

inductive AuthMode where
  | bearer
  | hmac
  | unsigned
  deriving DecidableEq

/-- The settings that the handler reads. -/
structure Settings where
  authMode : AuthMode
  webhookToken : Option String
  webhookSecret : String
  logPii : Bool
  piiPepper : String
  managementToken : String
  logLevel : LogLevel

/-- Where the handler gets to: a reply, or the call of `enqueue_events`. -/
inductive Reached where
  | ignored (reason : String)
  | enqueueing (streams : List Stream) (events : List MappedEvent) (email : PyStr)

/-- `_MAX_BODY_BYTES` -/
def maxBodyBytes : ℕ := 64 * 1024

/-- White space that `int` skips. -/
def isIntSpace (point : CodePoint) : Bool :=
  (9 ≤ point.val && point.val ≤ 13) || point.val == 32 ||
    (127 ≤ point.val && isSpace point)

/-- The digits of `int(text)`, between which single underscores may stand. -/
def intDigits : PyStr → Option (List ℕ)
  | [] => none
  | [last] => if 48 ≤ last.val ∧ last.val ≤ 57 then some [last.val - 48] else none
  | first :: second :: rest =>
    if 48 ≤ first.val ∧ first.val ≤ 57 then
      (intDigits (if second = ofChar '_' then rest else second :: rest)).map
        ((first.val - 48) :: ·)
    else none
termination_by text => text.length
decreasing_by split <;> simp

/-- `int(text)`, `none` for `ValueError`. -/
def intOf (text : PyStr) : Option ℤ :=
  let trimmed := (text.dropWhile isIntSpace).rdropWhile isIntSpace
  let (negative, digits) := match trimmed with
    | [] => (false, [])
    | sign :: rest =>
      if sign = ofChar '-' then (true, rest)
      else if sign = ofChar '+' then (false, rest)
      else (false, trimmed)
  (intDigits digits).bind fun digits =>
    if 4300 < digits.length then none
    else
      let magnitude : ℕ := digits.foldl (fun value digit => 10 * value + digit) 0
      some (if negative then -(magnitude : ℤ) else magnitude)

/-- The loop of `_read_body_within_limit`. -/
def readChunks (read : PyBytes) : List PyBytes → Except Raised PyBytes
  | [] => .ok read
  | chunk :: chunks =>
    if maxBodyBytes < read.length + chunk.length then
      .error (.http 413 "Request body too large")
    else readChunks (read ++ chunk) chunks

/-- `_read_body_within_limit` -/
def readBodyWithinLimit (request : Request) : Except Raised PyBytes :=
  let declaredOversized : Bool :=
    match request.contentLength.bind fun text => intOf text.val with
    | some declared => (maxBodyBytes : ℤ) < declared
    | none => false
  if declaredOversized then .error (.http 413 "Request body too large")
  else readChunks [] request.chunks

section Handler

variable [runtime : PyRuntime] (hmac : Hmac) (stack : Stack) (settings : Settings)

/-- `text.partition(" ")`, without the separator. -/
def partitionSpace (text : PyStr) : PyStr × PyStr :=
  (text.takeWhile (· ≠ ofChar ' '), (text.dropWhile (· ≠ ofChar ' ')).tail)

/-- `_verify_bearer_token` -/
def verifyBearerToken (authorization : Option HeaderText) : Except Raised Bool :=
  match authorization with
  | none => .ok false
  | some authorization =>
    let (scheme, token) := partitionSpace authorization.val
    if runtime.lower scheme ≠ "bearer" ∨ token = [] then .ok false
    else match settings.webhookToken with
      | none => .ok false
      | some expected =>
        if expected = "" then .ok false
        else match encodeUtf8 token with
          | none => .error .unicodeEncodeError
          | some token => .ok (token = expected.toUTF8.toList)

def isAscii (text : PyStr) : Bool :=
  text.all fun point => point.val < 128

/-- `hmac.compare_digest` on two texts. -/
def compareDigest (left right : PyStr) : Except Raised Bool :=
  if isAscii left && isAscii right then .ok (left = right) else .error .typeError

/-- `text.startswith(head)` -/
def startsWithText (text head : PyStr) : Bool :=
  head.isPrefixOf text

/-- `_verify_hmac_signature` -/
def verifyHmacSignature (rawBody : PyBytes) (signature : Option HeaderText) :
    Except Raised Bool :=
  match signature with
  | none => .ok false
  | some signature =>
    if !startsWithText signature.val "sha256=" then .ok false
    else
      let expected := hexDigest (hmac settings.webhookSecret.toUTF8.toList rawBody)
      compareDigest expected (signature.val.drop 7)

/-- `_authenticate_webhook` -/
def authenticateWebhook (request : Request) (rawBody : PyBytes) : Except Raised Unit := do
  let accepted ← match settings.authMode with
    | .bearer => verifyBearerToken settings request.authorization
    | .hmac => verifyHmacSignature hmac settings rawBody request.signature
    | .unsigned => .ok true
  if accepted then .ok () else .error (.http 401 "Unauthorized")

/-- `_parse_webhook_json` -/
def parseWebhookJson (rawBody : PyBytes) : Except Raised Dict :=
  match loadsBytes stack.loads rawBody with
  | .ok (.dict payload) => .ok payload
  | .ok _ => .error (.http 400 "Invalid JSON body")
  | .error .jsonDecode | .error .unicodeDecode => .error (.http 400 "Invalid JSON body")
  | .error .recursion => .error .recursionError
  | .error .intDigits => .error .valueError

/-- `_pii_key` -/
def piiKey : String :=
  if settings.piiPepper = "" then settings.managementToken else settings.piiPepper

/-- `authentik_webhook` from the parsed payload to `enqueue_events`, at time `now` and
with what `list_streams` returns. -/
def handlePayload (now : ℤ) (streams : List Stream) (payload : Dict) :
    Except Raised Reached := do
  let email := extractEmail payload
  let events ← mapAuthentikEvent stack settings.logLevel now payload
  let _ ← maskEmail hmac email settings.logPii (piiKey settings)
  logArgument stack settings.logLevel.infoEnabled (extractAction payload)
  if events.isEmpty then .ok (.ignored "unmapped_event")
  else match email with
    | none => .ok (.ignored "missing_email")
    | some email =>
      let enabledStreams := streams.filter fun stream => stream.status = .enabled
      if enabledStreams.isEmpty then .ok (.ignored "no_enabled_stream")
      else .ok (.enqueueing enabledStreams events email)

/-- `authentik_webhook` up to `enqueue_events`. -/
def authentikWebhook (now : ℤ) (streams : List Stream) (request : Request) :
    Except Raised Reached := do
  let rawBody ← readBodyWithinLimit request
  authenticateWebhook hmac settings request rawBody
  let payload ← parseWebhookJson stack rawBody
  handlePayload hmac stack settings now streams payload

end Handler

end SsfTransmitter.Webhook
