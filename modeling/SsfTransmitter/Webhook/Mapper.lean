import SsfTransmitter.Outbox.Delivery
import SsfTransmitter.Python.JsonDecoder

/-!
# Mapping webhook payloads to events

`app.events.mapper` and `app.security.pii`.  A payload is any JSON object; each
function is written with the exceptions that the library calls in it may raise.
-/

namespace SsfTransmitter.Webhook

open SsfTransmitter.Python
open SsfTransmitter.Outbox

/-- What leaves the handler by `raise`. -/
inductive Raised where
  | http (status : ℕ) (detail : String)
  | typeError
  | valueError
  | unicodeEncodeError
  | recursionError
  deriving DecidableEq

/-- The nesting that the interpreter's stack allows where the handler calls
`json.loads`, `str` and a log handler. -/
structure Stack where
  loads : ℕ
  str : ℕ
  log : ℕ

inductive LogLevel where
  | debug
  | info
  | warning
  | error
  | critical
  deriving DecidableEq

def LogLevel.infoEnabled : LogLevel → Bool
  | .debug | .info => true
  | _ => false

def LogLevel.warningEnabled : LogLevel → Bool
  | .debug | .info | .warning => true
  | _ => false

section Mapper

variable [PyRuntime] (stack : Stack) (level : LogLevel)

/-- `str(value)` -/
def str (value : Json) : Except Raised PyStr :=
  if stack.str < value.depth then .error .recursionError
  else if value.shortIntegers then .ok value.pyStr
  else .error .valueError

/-- A log call that is enabled formats its argument.  A handler swallows every
exception of that but `RecursionError`. -/
def logArgument (enabled : Bool) (argument : Json) : Except Raised Unit :=
  if enabled && stack.log < argument.depth then .error .recursionError else .ok ()

/-- `_extract_body` -/
def extractBody (payload : Dict) : Dict :=
  match payload.get? "body" with
  | some (.dict body) => body
  | _ => payload

/-- `_nested_dict` -/
def nestedDict (container : Dict) (key : String) : Dict :=
  match container.get? key with
  | some (.dict fields) => fields
  | _ => []

/-- `extract_action` -/
def extractAction (payload : Dict) : Json :=
  (extractBody payload).getD "action" .null

/-- `extract_email` -/
def extractEmail (payload : Dict) : Option PyStr :=
  match (nestedDict (extractBody payload) "user").get? "email" with
  | some (.str raw) => if strip raw = [] then none else some (strip raw)
  | _ => none

/-- The value that `extract_source_txn` takes: the first that is not `None`. -/
def sourceTxn (payload : Dict) : Option Json :=
  (["pk", "event_uuid", "request_id"].map fun key : String =>
    (extractBody payload).getD key .null).find? (· ≠ .null)

/-- `extract_source_txn` -/
def extractSourceTxn (payload : Dict) : Except Raised (Option PyStr) :=
  match sourceTxn payload with
  | some value => (str stack value).map some
  | none => .ok none

def sessionRevoked : String :=
  "https://schemas.openid.net/secevent/caep/event-type/session-revoked"

def credentialChange : String :=
  "https://schemas.openid.net/secevent/caep/event-type/credential-change"

/-- The event of a logout at `now`. -/
def logoutEvent (now : ℤ) (txn : Option PyStr) : MappedEvent where
  uri := sessionRevoked
  payload := [("event_timestamp", .int now), ("initiating_entity", .str "policy"),
    ("reason_admin", .dict [("en", .str "Session revoked in Authentik")])]
  txn := txn

/-- The event of a changed password at `now`. -/
def passwordEvent (now : ℤ) (txn : Option PyStr) : MappedEvent where
  uri := credentialChange
  payload := [("event_timestamp", .int now), ("initiating_entity", .str "user"),
    ("credential_type", .str "password"), ("change_type", .str "update"),
    ("reason_admin", .dict [("en", .str "Password changed in Authentik")])]
  txn := txn

/-- `changed_fields` of a `user.write` event. -/
def changedFields (payload : Dict) : List Json :=
  match (nestedDict (extractBody payload) "context").get? "changed_fields" with
  | some (.list items) => items
  | _ => []

/-- The part of `map_authentik_event` for `authentik.core.user.write`. -/
def mapUserWrite (now : ℤ) (txn : Option PyStr) (payload : Dict) :
    Except Raised (List MappedEvent) := do
  let changed := changedFields payload
  let events := if Json.str "password" ∈ changed then [passwordEvent now txn] else []
  if Json.str "is_active" ∈ changed then
    logArgument stack level.infoEnabled
      ((nestedDict (extractBody payload) "context").getD "is_active" .null)
  if events.isEmpty then logArgument stack level.warningEnabled (.list changed)
  .ok events

/-- `map_authentik_event` -/
def mapAuthentikEvent (now : ℤ) (payload : Dict) : Except Raised (List MappedEvent) := do
  let action := extractAction payload
  let txn ← extractSourceTxn stack payload
  if action = .str "authentik.core.auth.login_failed" then .ok []
  else if action = .str "authentik.core.auth.logout" then .ok [logoutEvent now txn]
  else if action = .str "authentik.core.user.delete" then .ok []
  else if action ≠ .str "authentik.core.user.write" then do
    logArgument stack level.warningEnabled action
    .ok []
  else mapUserWrite stack level now txn payload

end Mapper

/-- `hmac.new(key, message, hashlib.sha256).digest()` -/
abbrev Hmac := PyBytes → PyBytes → PyBytes

/-- `hexdigest()` -/
def hexDigest (digest : PyBytes) : PyStr :=
  digest.flatMap fun byte =>
    [ofChar (Nat.digitChar (byte.toNat / 16)), ofChar (Nat.digitChar (byte.toNat % 16))]

/-- `mask_email` -/
def maskEmail (hmac : Hmac) (email : Option PyStr) (logPii : Bool) (piiKey : String) :
    Except Raised PyStr :=
  match email with
  | none => .ok "[pii:none]"
  | some email =>
    if logPii then .ok email
    else match encodeUtf8 email with
      | none => .error .unicodeEncodeError
      | some message =>
        let digest := (hexDigest (hmac piiKey.toUTF8.toList message)).take 8
        .ok ("[pii:" ++ digest ++ "]")

end SsfTransmitter.Webhook
