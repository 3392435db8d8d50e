import SsfTransmitter.Scim.Diffs
import SsfTransmitter.Scim.Lookup

/-!
# The sync run

Every source user is matched against the indexed Apple records, created where
no account matches, and otherwise updated.  A record object is shared by the
two indexes and is refreshed in place when its externalId has been repaired.
-/

namespace SsfTransmitter.Scim

open SsfTransmitter.Core
open SsfTransmitter.Python

variable [PyRuntime]

/-- What changes while the users are processed: the record objects, those of
the listing first and at the positions its indexes name, and the counters. -/
structure Session where
  records : List Dict := []
  result : SyncResult := {}
deriving DecidableEq

/-! ## Logging -/

/-- `mask_email(email)`: hashing for the log needs text that can be encoded. -/
def maskEmail (settings : Settings) (email : Json) : Except PyExc Unit :=
  if email = .null ∨ settings.logPii then .ok ()
  else
    match email with
    | .str text => ensure (encodable text) .unicodeEncodeError
    | _ => .error .attributeError

/-- `_scim_log_username(username)`: the mask of `username or ""`. -/
def scimLogUsername (settings : Settings) (username : Option Json) : Except PyExc Unit :=
  match username with
  | some username =>
    maskEmail settings (if username.truthy then username else .str [])
  | none => maskEmail settings (.str [])

/-- `_log_user_ref(user)`, evaluated for every log line about a user. -/
def logUserRef (settings : Settings) (user : Dict) : Except PyExc Unit :=
  scimLogUsername settings (user.get? "userName")

/-! ## Counters and records -/

def count (change : SyncResult → SyncResult) : Client Session Unit :=
  modify fun session => { session with result := change session.result }

def countError : Client Session Unit :=
  count fun result => { result with errors := result.errors + 1 }

def recordAt (position : ℕ) : Client Session Dict := do
  let session ← get
  pure (session.records.getD position [])

/-- Keep a record that no index holds. -/
def keepRecord (record : Dict) : Client Session ℕ := do
  let session ← get
  modify fun session => { session with records := session.records ++ [record] }
  pure session.records.length

/-- Record a conflict without writing to the account. -/
def recordUsernameConflict (settings : Settings) (user : Dict) : Client Session Unit := do
  count fun result =>
    { result with
      conflicts := result.conflicts + 1
      conflictUsernames :=
        match user.get? "userName" with
        | some (.str username) =>
          if username = [] then result.conflictUsernames
          else result.conflictUsernames ++ [username]
        | _ => result.conflictUsernames }
  Script.ofExcept (logUserRef settings user)

/-- Whether an Apple 400 likely represents an invalid update request. -/
def classifyUpdate400 (response : Response) : Bool :=
  response.status = 400

/-- Log a failed write.  The log has a preview of the body where that is enabled; once the
text is read, a preview of 512 characters is always made. -/
def logUpdateFailure (settings : Settings) (user : Dict) (response : Response) :
    Except PyExc Unit := do
  ensure (settings.appleScimLogErrorBody = true → response.readable = true) .unicodeError
  scimLogUsername settings (user.get? "userName")

/-- Count and log a failed write. -/
def countUpdateFailure (settings : Settings) (user : Dict) (response : Response) :
    Client Session Unit := do
  countError
  if classifyUpdate400 response then
    count fun result =>
      { result with update400InvalidRequest := result.update400InvalidRequest + 1 }
  Script.ofExcept (logUpdateFailure settings user response)

/-! ## Writers -/

/-- PATCH or PUT a user update. -/
def patchUser (settings : Settings) (position : ℕ) (newUser : Dict) (diffs : Diffs) :
    Client Session Unit := do
  let appleUser ← recordAt position
  let appleId ← Script.ofExcept (requireId appleUser)
  let update ← Script.ofExcept
    (buildUpdateRequest newUser settings.appleScimUpdateMode appleId diffs)
  Script.ofExcept (userUrl appleId)
  let response ← send
    (match update.method with
    | .put => .putUser newUser appleId update.body
    | .patch => .patchUser newUser appleId update.body)
  if response.status = 200 ∨ response.status = 204 then
    count fun result => { result with updated := result.updated + 1 }
    Script.ofExcept (logUserRef settings newUser)
  else
    countUpdateFailure settings newUser response

/-- The body of the externalId repair. -/
def repairBody (externalId : PyStr) : Dict :=
  patchBody [replaceOperation "externalId" (.str externalId)]

/-- The record read back after a repair, when it confirms identity and linkage. -/
def verifiedRepair (appleId : PyStr) (newUser : Dict) (verified : Json) : Option Dict :=
  match verified with
  | .dict verified =>
    if Dict.get? verified "id" = some (.str appleId) ∧
        externalIdOf verified = externalIdOf newUser ∧
        usernameOf verified = usernameOf newUser ∧ hasObjectName verified
    then some verified else none
  | _ => none

/-- Read the account back after a repair. -/
def readRepaired (appleId : PyStr) (newUser : Dict) : Client Session (Option Dict) := do
  match ← tryCatch (some <$> send (.readUser appleId)) (fun error =>
      match error with
      | .httpError => pure none
      | error => throw error) with
  | none => pure none
  | some verification =>
    if verification.status ≠ 200 then pure none
    else
      match verification.json with
      | .error .valueError => pure none
      | .error error => throw error
      | .ok verified => pure (verifiedRepair appleId newUser verified)

/-- Patch the externalId of a user recovered by userName and refresh the record
in place once it is verified. -/
def patchExternalId (settings : Settings) (position : ℕ) (newUser : Dict) :
    Client Session Bool := do
  let appleUser ← recordAt position
  let appleId ← Script.ofExcept (requireId appleUser)
  Script.ofExcept (userUrl appleId)
  let response ← send (.patchUser newUser appleId (repairBody (externalIdOf newUser)))
  if response.status = 200 ∨ response.status = 204 then
    match ← readRepaired appleId newUser with
    | none => do
      countError
      Script.ofExcept (logUserRef settings newUser)
      pure false
    | some verified => do
      modify fun session =>
        { session with records := session.records.set position verified }
      count fun result => { result with updated := result.updated + 1 }
      Script.ofExcept (logUserRef settings newUser)
      pure true
  else do
    countUpdateFailure settings newUser response
    pure false

/-! ## Reconciling one account -/

/-- Record unsafe userName matches. -/
def usernameRecoveryAllowed (settings : Settings) (appleUser user : Dict) :
    Client Session Bool := do
  if canRecoverByUsername settings appleUser (user.get? "externalId") then
    if externalIdOf appleUser = [] then
      Script.ofExcept (logUserRef settings user)
    pure true
  else
    recordUsernameConflict settings user
    pure false

/-- Update what differs under the mode, and count what the mode leaves out. -/
def applyDiffs (settings : Settings) (position : ℕ) (user : Dict)
    (patchLabel : Option PyStr) (repaired : Bool) (diffs : Diffs) :
    Client Session Unit := do
  let actionable := actionableDiffs diffs settings.appleScimUpdateMode
  if diffs.any fun diff => diff.2 && !(actionable.map Prod.fst).contains diff.1 then
    count fun result => { result with outOfScopeDiffs := result.outOfScopeDiffs + 1 }
    Script.ofExcept (logUserRef settings user)
  if actionable.any Prod.snd then
    if patchLabel = none then
      Script.ofExcept (logUserRef settings user)
    patchUser settings position user actionable
  else if !repaired then
    -- A repaired linkage was already counted as updated.
    count fun result => { result with unchanged := result.unchanged + 1 }
    if patchLabel = none then
      Script.ofExcept (logUserRef settings user)

/-- Repair the linkage of a recovered account, then apply the other changes. -/
def reconcileDiffs (settings : Settings) (position : ℕ) (user : Dict)
    (recoveredByUsername : Bool) (patchLabel : Option PyStr) : Client Session Unit := do
  let appleUser ← recordAt position
  let allowed ←
    if recoveredByUsername then usernameRecoveryAllowed settings appleUser user
    else pure true
  if allowed then
    let diffs ← Script.ofExcept (fieldDiffs appleUser user true)
    if recoveredByUsername && diffs.changed .externalId then
      if ← patchExternalId settings position user then
        let appleUser ← recordAt position
        let diffs ← Script.ofExcept (fieldDiffs appleUser user false)
        applyDiffs settings position user patchLabel true diffs
    else
      applyDiffs settings position user patchLabel false diffs

/-! ## Create conflicts -/

/-- The JSON object that Apple answers to a userName filter, or none on any
failure. -/
def queryUsernameFilter (username : Json) : Client Session (Option Dict) := do
  Script.ofExcept (quoteLiteral username)
  match ← tryCatch (some <$> send (.filterUsers .userName username)) (fun error =>
      match error with
      | .httpError => pure none
      | error => throw error) with
  | none => pure none
  | some response =>
    if response.status ≠ 200 then pure none
    else
      match response.json with
      | .error .valueError => pure none
      | .error error => throw error
      | .ok (.dict payload) => pure (some payload)
      | .ok _ => pure none

/-- A freshly listed user that agrees with the filter result. -/
def verifiedFilteredUser (username : Json) (found user : Dict) :
    Client Session (Option Dict) := do
  match ← tryCatch (some <$> existingUsers [user]) (fun error =>
      match error with
      | .appleUserList _ | .filteredLookupRequired _ => pure none
      | error => throw error) with
  | none => pure none
  | some (listing, _) =>
    match listing.usernameMatch (normalizeIdentifier (some username)) with
    | none => pure none
    | some listed =>
      if listed.get? "id" ≠ found.get? "id" ∨ externalIdOf listed ≠ externalIdOf found
      then pure none else pure (some listed)

/-- The part of `_handle_409` before it reconciles: the account that the
userName lookup identifies, if it is eligible. -/
def conflictingUser (settings : Settings) (user : Dict) : Client Session (Option ℕ) := do
  let username := user.getD "userName" (.str [])
  Script.ofExcept (maskEmail settings username)
  match ← queryUsernameFilter username with
  | none => do
    countError
    pure none
  | some payload => do
    let zeroBased : Bool := payload.get? "startIndex" = some (.int 0)
    let payload := if zeroBased then payload.set "startIndex" (.int 1) else payload
    match validateUsersPage payload 1 none with
    | .error (.appleUserList _) => do
      countError
      pure none
    | .error error => throw error
    | .ok (resources, total) =>
      if 1 < total ∨ total = 0 then do
        recordUsernameConflict settings user
        pure none
      else
        match resources with
        | [] => throw .indexError
        | found :: _ =>
          if ¬(isSafeUserId (found.get? "id") ∧ hasUsername found ∧
              usernameOf found = normalizeIdentifier (some username)) then do
            countError
            pure none
          else if zeroBased then do
            match ← verifiedFilteredUser username found user with
            | none => do
              countError
              pure none
            | some verified => some <$> keepRecord verified
          else
            some <$> keepRecord found

/-- Resolve a create conflict only when the userName lookup identifies an
eligible account. -/
def handle409 (settings : Settings) (user : Dict) : Client Session Unit := do
  match ← conflictingUser settings user with
  | none => pure ()
  | some position => reconcileDiffs settings position user true (some "409-recovery")

/-! ## Creating users -/

/-- `str(user["externalId"]).strip()`. -/
def sourceExternalId (user : Dict) : Except PyExc PyStr :=
  match user.get? "externalId" with
  | some value => .ok (strip value.pyStr)
  | none => .error .keyError

/-- Check a created user against both identity filters and a direct read. -/
def verifyCreatedUser (settings : Settings) (user : Dict) (response : Response) :
    Client Session Bool := do
  let createdId ←
    match response.json with
    | .ok (.dict created) => pure (Dict.get? created "id")
    | .ok _ | .error .valueError => pure none
    | .error error => throw error
  if ¬isSafeUserId createdId then do
    Script.ofExcept (logUserRef settings user)
    pure false
  else
    match ← tryCatch (some <$> getExistingUsersByFilter [user] {}) (fun error =>
        match error with
        | .appleUserList _ | .filteredLookupRequired _ => pure none
        | error => throw error) with
    | none => do
      Script.ofExcept (logUserRef settings user)
      pure false
    | some listing => do
      let externalId ← Script.ofExcept (sourceExternalId user)
      let externalMatch := listing.externalIdMatch externalId
      let usernameMatch := listing.usernameMatch (usernameOf user)
      let isVerified : Bool :=
        match externalMatch with
        | none => false
        | some found =>
          sameIdentity (some found) usernameMatch && found.get? "id" = createdId
      if isVerified then pure true
      else do
        Script.ofExcept (logUserRef settings user)
        pure false

/-- POST a new user, delegating 409s to the userName recovery. -/
def createUser (settings : Settings) (user : Dict) (verifyIdentity : Bool) :
    Client Session Unit := do
  let response ← send (.createUser user)
  if response.status = 200 ∨ response.status = 201 then
    let verified ←
      if verifyIdentity then verifyCreatedUser settings user response else pure true
    if verified then
      count fun result => { result with created := result.created + 1 }
      Script.ofExcept (logUserRef settings user)
    else
      countError
  else if response.status = 409 then
    handle409 settings user
  else
    countError
    Script.ofExcept (logUpdateFailure settings user response)

/-! ## The loop over the users -/

/-- How a source user matches the indexed records. -/
inductive Match where
  | conflict
  | absent
  | matched (position : ℕ) (recoveredByUsername : Bool)
deriving DecidableEq

/-- Match by externalId, then by userName; the two must not disagree. -/
def matchAppleUser (listing : Listing) (records : List Dict) (user : Dict) :
    Except PyExc Match := do
  let externalId ← sourceExternalId user
  let usernameMatch := listing.byUsername.lookup (usernameOf user)
  match listing.byExternalId.lookup externalId with
  | some byExt =>
    match usernameMatch with
    | some position => do
      let usernameId ← requireId (records.getD position [])
      let externalIdId ← requireId (records.getD byExt [])
      if usernameId ≠ externalIdId then pure .conflict else pure (.matched byExt false)
    | none => pure (.matched byExt false)
  | none =>
    match usernameMatch with
    | some position =>
      if records.getD position [] ≠ [] then pure (.matched position true)
      else pure .absent
    | none => pure .absent

/-- One turn of the loop. -/
def syncUser (settings : Settings) (listing : Listing) (filtered : Bool) (user : Dict) :
    Client Session Unit := do
  let session ← get
  match ← Script.ofExcept (matchAppleUser listing session.records user) with
  | .conflict => recordUsernameConflict settings user
  | outcome =>
    tryCatch
      (match outcome with
      | .matched position recoveredByUsername =>
        reconcileDiffs settings position user recoveredByUsername none
      | _ => createUser settings user filtered)
      fun error =>
        match error with
        | .httpError => countError
        | error => throw error

/-- `_log_sync_start` reads the externalId of every source user. -/
def logSyncStart (scimUsers : List Dict) : Except PyExc Unit :=
  ensure (∀ user ∈ scimUsers, user.get? "externalId" ≠ none) .keyError

/-- The run after the listing has been read. -/
def syncListed (settings : Settings) (scimUsers : List Dict) (listing : Listing)
    (filtered : Bool) : Client Session SyncResult := do
  modify fun session => { session with records := listing.users }
  Script.ofExcept (logSyncStart scimUsers)
  forM scimUsers (syncUser settings listing filtered)
  let session ← get
  pure session.result

/-- Upsert the source users into Apple Business Manager. -/
def syncUsers (settings : Settings) (scimUsers : List Dict) :
    Client Session SyncResult := do
  let (listing, filtered) ← existingUsers scimUsers
  syncListed settings scimUsers listing filtered

end SsfTransmitter.Scim
