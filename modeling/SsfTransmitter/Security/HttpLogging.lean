import SsfTransmitter.Core.Regex
import SsfTransmitter.Webhook.Mapper

/-!
# Previews of response bodies

`safe_response_body_text` cuts a body, redacts what it takes for secrets and e-mail
addresses, and cuts the result again.
-/

namespace SsfTransmitter.Security

open SsfTransmitter.Core
open SsfTransmitter.Python
open SsfTransmitter.Webhook

/-! ## Addresses -/

/-- `[A-Z]` under `re.IGNORECASE`: the ASCII letters and the four others whose case
variants are among them. -/
def isLetter (point : CodePoint) : Bool :=
  (0x41 ≤ point.val && point.val ≤ 0x5A) || (0x61 ≤ point.val && point.val ≤ 0x7A) ||
    point.val == 0x130 || point.val == 0x131 || point.val == 0x17F || point.val == 0x212A

/-- `[A-Z0-9\-]` -/
def isLabelPoint (point : CodePoint) : Bool :=
  isLetter point || (0x30 ≤ point.val && point.val ≤ 0x39) || point == ofChar '-'

/-- `[A-Z0-9._%+\-]` -/
def isLocalPoint (point : CodePoint) : Bool :=
  isLabelPoint point || point == ofChar '.' || point == ofChar '_' || point == ofChar '%' ||
    point == ofChar '+'

/-- `_EMAIL_RE` -/
def emailRegex : Regex CodePoint :=
  .seq (.repeated (.one isLocalPoint) 1 512)
    (.seq (.one fun point => point == ofChar '@')
      (.seq
        (.repeated
          (.seq (.repeated (.one isLabelPoint) 1 512) (.one fun point => point == ofChar '.'))
          1 256)
        (.repeated (.one isLetter) 2 512)))

/-! ## Redaction -/

/-- The settings a preview depends on. -/
structure LogSettings where
  logPii : Bool
  piiKey : String

section Redaction

variable (hmac : Hmac) (settings : LogSettings)

/-- What `redact_text` puts in the place of an address. -/
def replacement (email : PyStr) : PyStr :=
  match maskEmail hmac (some email) settings.logPii settings.piiKey with
  | .ok masked => masked
  -- never for a match, of which every code point can be encoded
  | .error _ => []

/-- `redact_text` -/
def redactText (text : PyStr) : PyStr :=
  emailRegex.sub (replacement hmac settings) text

/-- `_SENSITIVE_KEYS` -/
def sensitiveKeys : List PyStr :=
  [ofString "access_token", ofString "refresh_token", ofString "token",
    ofString "client_secret", ofString "authorization", ofString "secret",
    ofString "id_token"]

variable [runtime : PyRuntime]

/-- `key_text.lower() in _SENSITIVE_KEYS` -/
def isSensitive (key : PyStr) : Bool :=
  sensitiveKeys.contains (runtime.lower key)

mutual

/-- `_sanitize` -/
def sanitize : Json → Json
  | .dict fields => .dict (sanitizeFields fields)
  | .list items => .list (sanitizeItems items)
  | .str value => .str (redactText hmac settings value)
  | value => value

def sanitizeItems : List Json → List Json
  | [] => []
  | item :: items => sanitize item :: sanitizeItems items

def sanitizeField : PyStr × Json → PyStr × Json
  | (key, nested) =>
    (key, if isSensitive key then .str (ofString "[redacted]") else sanitize nested)

def sanitizeFields : List (PyStr × Json) → List (PyStr × Json)
  | [] => []
  | field :: fields => sanitizeField field :: sanitizeFields fields

end

end Redaction

/-! ## Previews -/

mutual

/-- The order in which `sort_keys=True` writes a value. -/
def sortKeys : Json → Json
  | .dict fields => .dict ((sortFields fields).insertionSort fun left right => left.1 ≤ right.1)
  | .list items => .list (sortItems items)
  | value => value

def sortItems : List Json → List Json
  | [] => []
  | item :: items => sortKeys item :: sortItems items

def sortField : PyStr × Json → PyStr × Json
  | (key, value) => (key, sortKeys value)

def sortFields : List (PyStr × Json) → List (PyStr × Json)
  | [] => []
  | field :: fields => sortField field :: sortFields fields

end

/-- `json.dumps(value, ensure_ascii=True, sort_keys=True)` -/
def dumpsSorted (value : Json) : PyStr :=
  (dumps defaultSeparators (sortKeys value)).map ofChar

/-- `text[:limit]` -/
def upTo (limit : ℤ) (text : PyStr) : PyStr :=
  if 0 ≤ limit then text.take limit.toNat else text.take (text.length - limit.natAbs)

/-- How deep the interpreter nests: containers in the decoder, calls of `_sanitize`. -/
structure StackLimits where
  containers : ℕ
  calls : ℕ

/-- `safe_response_body_text` of a body with text `body`. -/
def safeResponseBodyText [PyRuntime] (hmac : Hmac) (settings : LogSettings)
    (stack : StackLimits) (limit : ℤ) (body : PyStr) : Except LoadsError PyStr :=
  let rawText := upTo limit body
  match loadsText stack.containers rawText with
  | .error .jsonDecode => .ok (redactText hmac settings rawText)
  | .error error => .error error
  | .ok parsed =>
    let sanitized := sanitize hmac settings parsed
    if stack.calls < sanitized.depth then .error .recursion
    else .ok (upTo limit (dumpsSorted sanitized))

end SsfTransmitter.Security
