import SsfTransmitter.Scim.Records

/-!
# Field differences and update requests

What counts as a difference between an Apple record and a source user, which
differences an update mode acts on, and the PATCH or PUT body it sends.
-/

namespace SsfTransmitter.Scim

open SsfTransmitter.Python

/-- The keys of a diff. -/
inductive DiffKey where
  | userName
  | givenName
  | familyName
  | active
  | email
  | externalId
deriving DecidableEq, Repr

/-- The SCIM fields that an update may name. -/
inductive ScimField where
  | externalId
  | userName
  | name
  | emails
  | active
deriving DecidableEq, Repr

def ScimField.path : ScimField → PyStr
  | .externalId => "externalId"
  | .userName => "userName"
  | .name => "name"
  | .emails => "emails"
  | .active => "active"

/-- `_MODE_FIELD_TO_DIFF_KEYS`. -/
def ScimField.diffKeys : ScimField → List DiffKey
  | .externalId => [.externalId]
  | .userName => [.userName]
  | .name => [.givenName, .familyName]
  | .emails => [.email]
  | .active => [.active]

abbrev Diffs := List (DiffKey × Bool)

/-- `diffs.get(key, False)`. -/
def Diffs.changed (diffs : Diffs) (key : DiffKey) : Bool :=
  (diffs.lookup key).getD false

section Comparing

variable [PyRuntime]

/-- The address of one entry of `emails`, where it has one. -/
def emailValue (email : Json) : Option (PyStr × Bool) :=
  match email with
  | .dict entry =>
    match Dict.get? entry "value" with
    | some value =>
      if value.truthy
      then some (strip value.pyStr, Dict.get? entry "primary" = some (.bool true))
      else none
    | none => none
  | _ => none

/-- The primary email address, or the first one where none is marked primary.
Malformed entries are ignored. -/
def primaryEmail (user : Dict) : Option PyStr :=
  let emails :=
    match user.getD "emails" (.list []) with
    | .dict entry => [Json.dict entry]
    | .list items => items
    | _ => []
  let values := emails.filterMap emailValue
  ((values.find? Prod.snd).or values.head?).map Prod.fst

/-- `user.get("name", {}).get(subfield)`. -/
def nameOf (user : Dict) : Except PyExc Dict :=
  match user.getD "name" (.dict []) with
  | .dict name => .ok name
  | _ => .error .attributeError

/-- `bool(user.get("active", True))`. -/
def activeOf (user : Dict) : Bool :=
  (user.getD "active" (.bool true)).truthy

/-- Normalized differences between an Apple record and a source user. -/
def fieldDiffs (existing new : Dict) (includeExternalId : Bool) : Except PyExc Diffs := do
  let existingName ← nameOf existing
  let newName ← nameOf new
  let diffs : Diffs :=
    [(.userName, usernameOf existing != usernameOf new),
      (.givenName, trimmed (existingName.get? "givenName") !=
        trimmed (newName.get? "givenName")),
      (.familyName, trimmed (existingName.get? "familyName") !=
        trimmed (newName.get? "familyName")),
      (.active, activeOf existing != activeOf new),
      (.email, normalizeEmail ((primaryEmail existing).map .str) !=
        normalizeEmail ((primaryEmail new).map .str))]
  if includeExternalId then
    pure (diffs ++ [(.externalId, externalIdOf existing != externalIdOf new)])
  else
    pure diffs

end Comparing

/-! ## Updates -/

/-- The requested field set for the configured update mode. -/
def updateFieldsForMode : UpdateMode → List ScimField
  | .externalIdOnly => [.externalId]
  | .emailsOnly => [.emails]
  | .usernameOnly => [.userName]
  | .replaceAll => [.externalId, .userName, .name, .emails, .active]
  | .patchAll => [.externalId, .userName, .name, .emails, .active]

/-- Only the differences that an update will write under the mode. -/
def actionableDiffs (diffs : Diffs) (mode : UpdateMode) : Diffs :=
  let allowedKeys := (updateFieldsForMode mode).flatMap ScimField.diffKeys
  diffs.filter fun diff => diff.1 ∈ allowedKeys

/-- A PATCH operation. -/
def replaceOperation (path : PyStr) (value : Json) : Json :=
  .dict [("op", .str "Replace"), ("path", .str path), ("value", value)]

def patchBody (operations : List Json) : Dict :=
  [("schemas", .list [.str "urn:ietf:params:scim:api:messages:2.0:PatchOp"]),
    ("Operations", .list operations)]

/-- The subfield of `name` that a diff key stands for. -/
def nameSubfield : DiffKey → PyStr
  | .givenName => "givenName"
  | _ => "familyName"

/-- One operation for each changed subattribute of `name`. -/
def changedNameOperations (user : Dict) (diffs : Diffs) :
    Except PyExc (List (PyStr × Json)) := do
  let changed := ScimField.name.diffKeys.filter diffs.changed
  changed.mapM fun key => do
    let name ← nameOf user
    pure ("name." ++ nameSubfield key, name.getD (nameSubfield key) (.str []))

inductive UpdateMethod where
  | put
  | patch
deriving DecidableEq, Repr

structure UpdateRequest where
  method : UpdateMethod
  body : Dict
  changedFields : List PyStr

section Building

variable [PyRuntime]

/-- Paths and values of the operations that one field of an update needs. -/
def fieldOperations (user : Dict) (diffs : Diffs) :
    ScimField → Except PyExc (List (PyStr × Json))
  | .name => changedNameOperations user diffs
  | .externalId => .ok [(ScimField.externalId.path, .str (externalIdOf user))]
  | .userName => .ok [(ScimField.userName.path, user.getD "userName" .null)]
  | .emails => .ok [(ScimField.emails.path, user.getD "emails" (.list []))]
  | .active => .ok [(ScimField.active.path, user.getD "active" (.bool true))]

/-- Build the outbound update request for the configured mode. -/
def buildUpdateRequest (user : Dict) (mode : UpdateMode) (appleId : PyStr)
    (diffs : Diffs) : Except PyExc UpdateRequest := do
  let fields := updateFieldsForMode mode
  if mode = .replaceAll then
    -- Apple rejects `externalId` in a PUT body and requires the resource id.
    let putBody : Dict := user.filter fun field => field.1 != ofString "externalId"
    pure ⟨.put, putBody.set "id" (.str appleId),
      (fields.filter fun field => field != .externalId).map ScimField.path⟩
  else
    let fields := fields.filter fun field => field.diffKeys.any diffs.changed
    ensure (fields ≠ []) .valueError
    let operations ← fields.mapM (fieldOperations user diffs)
    let operations := operations.flatten
    pure ⟨.patch, patchBody (operations.map fun operation =>
      replaceOperation operation.1 operation.2), operations.map Prod.fst⟩

end Building

end SsfTransmitter.Scim
