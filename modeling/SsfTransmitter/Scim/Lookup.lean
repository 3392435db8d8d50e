import SsfTransmitter.Scim.Listing

/-!
# Looking up single identities

When Apple's metadata cannot establish that a listing is complete, every source
identity is looked up on its own, and every account found is read back before
any user is written.
-/

namespace SsfTransmitter.Scim

open SsfTransmitter.Core
open SsfTransmitter.Python

variable {State : Type} [PyRuntime]

/-- `quote(json.dumps(value, ensure_ascii=False), safe="")`: only text without
unpaired surrogates can be quoted. -/
def quoteLiteral (value : Json) : Except PyExc Unit :=
  ensure value.encodable .unicodeEncodeError

/-- `_user_url(user_id)`. -/
def userUrl (userId : PyStr) : Except PyExc Unit :=
  ensure (encodable userId) .unicodeEncodeError

/-! ## Filter responses -/

/-- Validate filtered response metadata and return at most one resource. -/
def filteredResources (data : Dict) : Except PyExc (List Dict) := do
  let total ← requireInt (data.getD "totalResults" .null)
    (.appleUserList "Apple SCIM filtered lookup has an invalid totalResults")
  ensure (0 ≤ total)
    (.appleUserList "Apple SCIM filtered lookup has an invalid totalResults")
  let start ← requireInt (data.getD "startIndex" (.int 1))
    (.appleUserList "Apple SCIM filtered lookup has an invalid startIndex")
  ensure (start = 0 ∨ start = 1)
    (.appleUserList "Apple SCIM filtered lookup has an invalid startIndex")
  let resources ← requireObjects
    (data.getD "Resources" (if total = 0 then .list [] else .null))
    (.appleUserList "Apple SCIM filtered lookup has invalid Resources")
  let perPage ← requireInt (data.getD "itemsPerPage" (.int resources.length))
    (.appleUserList "Apple SCIM filtered lookup has inconsistent result counts")
  ensure (perPage = resources.length ∧ total = resources.length)
    (.appleUserList "Apple SCIM filtered lookup has inconsistent result counts")
  ensure (¬1 < total)
    (.appleUserList "Apple SCIM filtered lookup returned multiple matching users")
  pure resources

/-- Validate an exact-match response before using it as identity evidence. -/
def validateFilteredUser (data : Dict) (identity : IdentityAttribute) (expected : PyStr) :
    Except PyExc (Option Dict) := do
  match ← filteredResources data with
  | [] => pure none
  | user :: _ =>
    ensure (isSafeUserId (user.get? "id"))
      (.appleUserList "Apple SCIM filtered lookup has an invalid user id")
    ensure (hasUsername user ∧ hasObjectName user)
      (.appleUserList "Apple SCIM filtered lookup has invalid user attributes")
    let isMatch : Bool :=
      match identity with
      | .userName => usernameOf user = normalizeIdentifier (some (.str expected))
      | .externalId => externalIdOf user = expected
    ensure isMatch
      (.appleUserList "Apple SCIM filtered lookup returned a mismatched identity")
    pure (some user)

/-- Look up one identity and reject disagreement with the initial sample. -/
def lookupFilteredUser (identity : IdentityAttribute) (value : PyStr)
    (sampled : Option Dict) : Client State (Option Dict) := do
  Script.ofExcept (quoteLiteral (.str value))
  let data ← fetchUsersPage (.filterUsers identity (.str value))
  let found ← Script.ofExcept (validateFilteredUser data identity value)
  Script.ofExcept (ensure (sampled.isSome → sameIdentity sampled found)
    (.appleUserList "Apple SCIM filtered lookup disagrees with the initial listing"))
  pure found

/-! ## Preflight -/

/-- The trimmed externalId and the userName of every source user. -/
def sourceIdentities (seenExternalIds seenUsernames : List PyStr) :
    List Dict → Except PyExc (List (PyStr × PyStr))
  | [] => pure []
  | user :: rest => do
    let externalId := externalIdOf user
    match user.get? "userName" with
    | some (.str username) =>
      ensure (¬(externalId = [] ∨ isBlank username))
        (.appleUserList "Authentik SCIM user has an invalid identity")
      let normalizedUsername := usernameOf user
      ensure (¬(externalId ∈ seenExternalIds ∨ normalizedUsername ∈ seenUsernames))
        (.appleUserList "Authentik SCIM users contain duplicate identities")
      let identities ← sourceIdentities (externalId :: seenExternalIds)
        (normalizedUsername :: seenUsernames) rest
      pure ((externalId, username) :: identities)
    | _ => throw (.appleUserList "Authentik SCIM user has an invalid identity")

/-- The result of looking up both identities of a source user. -/
structure IdentityLookup where
  externalId : PyStr
  username : PyStr
  externalMatch : Option Dict
  usernameMatch : Option Dict

/-- The accounts found so far, by id, and the lookups that found them. -/
structure Preflight where
  byId : List (PyStr × Dict) := []
  results : List IdentityLookup := []

/-- Reject inconsistent filter results that claim the same Apple user id. -/
def recordFilteredIdentity (byId : List (PyStr × Dict)) (found : Option Dict) :
    Except PyExc (List (PyStr × Dict)) := do
  match found with
  | none => pure byId
  | some found =>
    let userId ← requireId found
    match byId.lookup userId with
    | none => pure (byId ++ [(userId, found)])
    | some previous =>
      ensure (sameIdentity (some previous) (some found))
        (.appleUserList "Apple SCIM filtered lookups disagree about a user")
      pure (byId.map fun entry => if entry.1 = userId then (userId, found) else entry)

/-- One turn of the preflight loop. -/
def lookupIdentity (sample : Listing) (preflight : Preflight)
    (identity : PyStr × PyStr) : Client State Preflight := do
  let (externalId, username) := identity
  let externalMatch ← lookupFilteredUser .externalId externalId
    (sample.externalIdMatch externalId)
  let usernameMatch ← lookupFilteredUser .userName username
    (sample.usernameMatch (normalizeIdentifier (some (.str username))))
  let byId ← Script.ofExcept (recordFilteredIdentity preflight.byId externalMatch)
  let byId ← Script.ofExcept (recordFilteredIdentity byId usernameMatch)
  pure ⟨byId, preflight.results ++ [⟨externalId, username, externalMatch, usernameMatch⟩]⟩

/-- Read an account back and index it when its identity has not changed. -/
def verifyFilteredUser (listing : Listing) (entry : PyStr × Dict) :
    Client State Listing := do
  let (userId, filtered) := entry
  Script.ofExcept (userUrl userId)
  let verified ← fetchUsersPage (.readUser userId)
  Script.ofExcept (ensure (sameIdentity (some filtered) (some verified) ∧
      hasObjectName verified)
    (.appleUserList "Apple SCIM user identity changed during lookup verification"))
  Script.ofExcept (indexUniqueUser listing verified)

/-- Preflight every source identity before making any Apple user writes. -/
def getExistingUsersByFilter (scimUsers : List Dict) (sample : Listing) :
    Client State Listing := do
  let identities ← Script.ofExcept (sourceIdentities [] [] scimUsers)
  let preflight ← identities.foldlM (lookupIdentity sample) {}
  let listing ← preflight.byId.foldlM verifyFilteredUser {}
  Script.ofExcept (ensure (preflight.results.all fun result =>
      sameIdentity result.externalMatch (listing.externalIdMatch result.externalId) &&
      sameIdentity result.usernameMatch
        (listing.usernameMatch (normalizeIdentifier (some (.str result.username)))))
    (.appleUserList "Apple SCIM filtered lookups returned inconsistent identities"))
  pure listing

/-- The full listing, or the preflight where Apple's metadata asks for it; the
flag tells which. -/
def existingUsers (scimUsers : List Dict) : Client State (Listing × Bool) :=
  tryCatch (do
    let listing ← getExistingUsers
    pure (listing, false))
    fun error =>
      match error with
      | .filteredLookupRequired sample => do
        let listing ← getExistingUsersByFilter scimUsers sample
        pure (listing, true)
      | error => throw error

end SsfTransmitter.Scim
