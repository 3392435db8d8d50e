import SsfTransmitter.Python.Json

/-!
# SCIM user records

The values the Apple client exchanges, the identities it reads out of a user
record, and the counters of a sync run.  A record is any JSON object: Apple's
answers are not trusted to have a particular shape.
-/

namespace SsfTransmitter.Scim

open SsfTransmitter.Python

inductive UpdateMode where
  | patchAll
  | replaceAll
  | externalIdOnly
  | emailsOnly
  | usernameOnly
deriving DecidableEq, Repr

/-- The settings a sync run reads. -/
structure Settings where
  appleScimUpdateMode : UpdateMode
  appleScimAllowUsernameRecovery : Bool
  logPii : Bool
  appleScimLogErrorBody : Bool
deriving DecidableEq, Repr

/-- Counters returned after a sync run. -/
structure SyncResult where
  created : ℕ := 0
  updated : ℕ := 0
  unchanged : ℕ := 0
  conflicts : ℕ := 0
  errors : ℕ := 0
  update400InvalidRequest : ℕ := 0
  outOfScopeDiffs : ℕ := 0
  conflictUsernames : List PyStr := []
deriving DecidableEq

/-! ## Identities -/

section Identities

variable [PyRuntime]

/-- `str(value or "")`. -/
def textOf : Option Json → PyStr
  | none => []
  | some value => if value.truthy then value.pyStr else []

/-- `str(value or "").strip()`. -/
def trimmed (value : Option Json) : PyStr :=
  strip (textOf value)

def normalizeIdentifier (value : Option Json) : PyStr :=
  PyRuntime.lower (trimmed value)

def normalizeEmail (value : Option Json) : PyStr :=
  PyRuntime.lower (trimmed value)

/-- `str(user.get("externalId") or "").strip()`. -/
def externalIdOf (user : Dict) : PyStr :=
  trimmed (user.get? "externalId")

/-- `_normalize_identifier(user.get("userName"))`. -/
def usernameOf (user : Dict) : PyStr :=
  normalizeIdentifier (user.get? "userName")

@[simp]
theorem textOf_str (text : PyStr) : textOf (some (.str text)) = text := by
  rcases text with _ | ⟨first, rest⟩ <;> rfl

theorem trimmed_str (text : PyStr) : trimmed (some (.str text)) = strip text := by
  rw [trimmed, textOf_str]

/-- Only a string that names a single URL segment is accepted as an id. -/
def isSafeUserId : Option Json → Bool
  | some (.str value) =>
    value = strip value &&
    !([[], ofString ".", ofString ".."].contains value) &&
    !(value.any fun char => [ofChar '/', ofChar '\\', ofChar '%'].contains char) &&
    !(value.any fun char => char.val < 32 || char.val = 127)
  | _ => false

omit [PyRuntime] in
theorem exists_str_of_isSafeUserId {value : Option Json} (hsafe : isSafeUserId value = true) :
    ∃ userId, value = some (.str userId) := by
  rcases value with _ | _ | _ | _ | _ | userId | _ | _ <;>
    first | exact ⟨userId, rfl⟩ | exact absurd hsafe (by simp [isSafeUserId])

/-- A `userName` that is a string with more than whitespace. -/
def hasUsername (user : Dict) : Bool :=
  match user.get? "userName" with
  | some (.str username) => !isBlank username
  | _ => false

/-- Whether two records, or two absences, agree on the stable identity fields. -/
def sameIdentity : Option Dict → Option Dict → Bool
  | none, none => true
  | some first, some second =>
    first.get? "id" = second.get? "id" &&
    usernameOf first = usernameOf second &&
    externalIdOf first = externalIdOf second
  | _, _ => false

/-- Whether a userName match may be reconciled with a source user: a linked
record must carry that user's externalId, an unlinked one needs the opt-in. -/
def canRecoverByUsername (settings : Settings) (appleUser : Dict)
    (authentikExternalId : Option Json) : Bool :=
  let foundExt := externalIdOf appleUser
  let currentExt := trimmed authentikExternalId
  if currentExt.isEmpty then false
  else if !foundExt.isEmpty then foundExt = currentExt
  else settings.appleScimAllowUsernameRecovery

/-- `isinstance(user.get("name", {}), dict)`. -/
def hasObjectName (user : Dict) : Bool :=
  match user.getD "name" (.dict []) with
  | .dict _ => true
  | _ => false

end Identities

/-! ## Listings -/

/-- Positions of records under an identifier.  The latest assignment to a key
comes first and is the one a lookup finds. -/
abbrev Index := List (PyStr × ℕ)

/-- Records with the indexes built over them.  The two indexes of the source
share their record objects; here they hold positions in `users`. -/
structure Listing where
  users : List Dict := []
  seenIds : List PyStr := []
  byExternalId : Index := []
  byUsername : Index := []
deriving DecidableEq

namespace Listing

/-- `by_ext_id.get(key)`. -/
def externalIdMatch (listing : Listing) (externalId : PyStr) : Option Dict :=
  (listing.byExternalId.lookup externalId).bind fun position => listing.users[position]?

/-- `by_username.get(key)`. -/
def usernameMatch (listing : Listing) (username : PyStr) : Option Dict :=
  (listing.byUsername.lookup username).bind fun position => listing.users[position]?

end Listing

/-! ## Errors -/

/-- The exceptions that the client raises or lets through. -/
inductive PyExc where
  /-- `httpx.HTTPError` -/
  | httpError
  | appleUserList (message : String)
  /-- `_AppleFilteredLookupRequired`, with the sample it carries -/
  | filteredLookupRequired (sample : Listing)
  | attributeError
  | keyError
  | indexError
  | typeError
  | valueError
  | unicodeEncodeError
  /-- from the codec that `response.text` decodes a body with -/
  | unicodeError
  | recursionError
  /-- any other exception with which the HTTP client declines to send -/
  | clientError
deriving DecidableEq

/-- `if not condition: raise error`. -/
def ensure (condition : Prop) [Decidable condition] (error : PyExc) : Except PyExc Unit :=
  if condition then .ok () else .error error

@[simp]
theorem ensure_bind_eq_ok {Value : Type} {condition : Prop} [Decidable condition]
    {error : PyExc} {rest : Unit → Except PyExc Value} {value : Value} :
    (ensure condition error >>= rest) = .ok value ↔
      condition ∧ rest () = .ok value := by
  by_cases hcondition : condition <;>
    simp [ensure, hcondition, bind, Except.bind]

/-- A computation that raises nothing but the allowed errors. -/
def RaisesOnly {Value : Type} (allowed : PyExc → Prop) (result : Except PyExc Value) : Prop :=
  ∀ error, result = .error error → allowed error

namespace RaisesOnly

variable {Value Item Result : Type} {allowed : PyExc → Prop}

theorem ok (value : Value) : RaisesOnly allowed (.ok value) :=
  nofun

theorem error {error : PyExc} (herror : allowed error) :
    RaisesOnly allowed (.error error : Except PyExc Value) :=
  fun _ heq => Except.error.inj heq ▸ herror

theorem bind {first : Except PyExc Value} {rest : Value → Except PyExc Result}
    (hfirst : RaisesOnly allowed first) (hrest : ∀ value, RaisesOnly allowed (rest value)) :
    RaisesOnly allowed (first >>= rest) := by
  cases first with
  | error raised =>
      intro other hother
      exact hfirst other (by simpa [Bind.bind, Except.bind] using hother)
  | ok value => exact hrest value

theorem ensure {condition : Prop} [Decidable condition] {error : PyExc}
    (herror : allowed error) : RaisesOnly allowed (ensure condition error) := by
  rw [Scim.ensure]
  split_ifs
  · exact ok ()
  · exact RaisesOnly.error herror

theorem mapM {body : Item → Except PyExc Result} (hbody : ∀ item, RaisesOnly allowed (body item))
    (items : List Item) : RaisesOnly allowed (items.mapM body) := by
  induction items with
  | nil =>
      rw [List.mapM_nil]
      exact ok []
  | cons item items ih =>
      rw [List.mapM_cons]
      exact bind (hbody item) fun first => bind ih fun rest => ok (first :: rest)

end RaisesOnly

/-- `user["id"]`, used where only a string is usable. -/
def requireId (user : Dict) : Except PyExc PyStr :=
  match user.get? "id" with
  | some (.str userId) => .ok userId
  | some _ => .error .typeError
  | none => .error .keyError

end SsfTransmitter.Scim
