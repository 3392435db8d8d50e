import SsfTransmitter.Core.Script
import SsfTransmitter.Scim.Records

/-!
# Reading Apple's user listing

The requests and answers of the Apple endpoint, and the paged listing.  An
answer may be anything: any status, any JSON value, no JSON at all, or a
network failure.
-/

namespace SsfTransmitter.Scim

open SsfTransmitter.Core
open SsfTransmitter.Python

def userListCount : ℕ := 200

/-! ## Requests and answers -/

inductive IdentityAttribute where
  | externalId
  | userName
deriving DecidableEq

def IdentityAttribute.name : IdentityAttribute → PyStr
  | .externalId => "externalId"
  | .userName => "userName"

/-- The requests of a sync run.  The `source` of a write is the source user on
whose behalf it is sent; it is not part of what Apple receives. -/
inductive Request where
  /-- `GET /Users?count=200`, from a start index where one is given -/
  | listUsers (startIndex : Option ℤ)
  /-- `GET /Users?filter=identity eq "value"&count=2` -/
  | filterUsers (identity : IdentityAttribute) (value : Json)
  /-- `GET /Users/userId` -/
  | readUser (userId : PyStr)
  /-- `POST /Users` with the source user as body -/
  | createUser (source : Dict)
  /-- `PATCH /Users/userId` -/
  | patchUser (source : Dict) (userId : PyStr) (body : Dict)
  /-- `PUT /Users/userId` -/
  | putUser (source : Dict) (userId : PyStr) (body : Dict)
deriving DecidableEq

namespace Request

/-- The source user of a POST, PATCH or PUT. -/
def writer? : Request → Option Dict
  | .createUser source | .patchUser source _ _ | .putUser source _ _ => some source
  | _ => none

/-- POST, PATCH or PUT. -/
def isWrite (request : Request) : Bool :=
  request.writer?.isSome

/-- The account that a PATCH or PUT is sent to. -/
def account? : Request → Option PyStr
  | .patchUser _ userId _ | .putUser _ userId _ => some userId
  | _ => none

end Request

/-- What `response.json()` makes of a body. -/
inductive Body where
  | json (value : Json)
  | invalid
  /-- JSON nested deeper than the interpreter's recursion limit -/
  | tooDeep
deriving DecidableEq

structure Response where
  status : ℕ
  body : Body
  /-- whether `response.text` can be read: with some charsets the codec raises before it
  replaces what it cannot decode -/
  readable : Bool
deriving DecidableEq

/-- `response.json()`. -/
def Response.json (response : Response) : Except PyExc Json :=
  match response.body with
  | .json value => .ok value
  | .invalid => .error .valueError
  | .tooDeep => .error .recursionError

/-- What a request leads to: a response, an `httpx.HTTPError`, or any other
exception of the HTTP client, which then has sent nothing. -/
inductive Outcome where
  | response (response : Response)
  | networkError
  | refused
deriving DecidableEq

/-- Client code: it sends requests, raises exceptions and keeps a state. -/
abbrev Client (State : Type) := Script Request Outcome PyExc State

variable {State : Type}

/-- What awaiting a request gives or raises. -/
def Outcome.result : Outcome → Except PyExc Response
  | .response reply => .ok reply
  | .networkError => .error .httpError
  | .refused => .error .clientError

/-- Send a request and wait for the response. -/
def send (request : Request) : Client State Response := do
  let outcome ← Script.ask request
  Script.ofExcept outcome.result

/-- The JSON object of a page, or the failure to get one. -/
def Outcome.usersPage : Outcome → Except PyExc Dict
  | .networkError => .error (.appleUserList "Network error listing Apple SCIM users")
  | .refused => .error .clientError
  | .response reply =>
    if reply.status ≠ 200 then
      .error (.appleUserList s!"Apple SCIM user listing returned HTTP {reply.status}")
    else
      match reply.json with
      | .error .valueError =>
        .error (.appleUserList "Apple SCIM user listing returned non-JSON")
      | .error error => .error error
      | .ok (.dict data) => .ok data
      | .ok _ =>
        .error (.appleUserList "Apple SCIM user listing returned an invalid response")

/-- GET one page of the users list or raise on an upstream failure. -/
def fetchUsersPage (request : Request) : Client State Dict := do
  let outcome ← Script.ask request
  Script.ofExcept outcome.usersPage

/-! ## Validating a page -/

section Pages

/-- `data.get(key, default)`, required to be an integer other than a Boolean. -/
def requireInt (value : Json) (error : PyExc) : Except PyExc ℤ :=
  match value with
  | .int number => .ok number
  | _ => .error error

def objects? : List Json → Option (List Dict)
  | [] => some []
  | .dict record :: rest => (objects? rest).map (record :: ·)
  | _ :: _ => none

/-- A list all of whose items are objects. -/
def requireObjects (value : Json) (error : PyExc) : Except PyExc (List Dict) :=
  match value with
  | .list items =>
    match objects? items with
    | some records => .ok records
    | none => .error error
  | _ => .error error

@[simp]
theorem requireInt_bind_eq_ok {Value : Type} {value : Json} {error : PyExc}
    {rest : ℤ → Except PyExc Value} {result : Value} :
    (requireInt value error >>= rest) = .ok result ↔
      ∃ number, value = .int number ∧ rest number = .ok result := by
  cases value <;> simp [requireInt, bind, Except.bind]

@[simp]
theorem requireObjects_bind_eq_ok {Value : Type} {value : Json} {error : PyExc}
    {rest : List Dict → Except PyExc Value} {result : Value} :
    (requireObjects value error >>= rest) = .ok result ↔
      ∃ items records, value = .list items ∧ objects? items = some records ∧
        rest records = .ok result := by
  rcases value with _ | _ | _ | _ | _ | items | _
  case list => cases hitems : objects? items <;>
    simp [requireObjects, hitems, bind, Except.bind]
  all_goals simp [requireObjects, bind, Except.bind]

/-- The start index of the next page, or none on the last one. -/
def nextUsersPageUrl (data : Dict) (expectedStart : ℤ) : Except PyExc (Option ℤ) := do
  let total ← requireInt (data.getD "totalResults" .null) .typeError
  let start ← requireInt (data.getD "startIndex" (.int expectedStart)) .typeError
  let resources ← requireObjects (data.getD "Resources" (.list [])) .typeError
  let perPage ← requireInt (data.getD "itemsPerPage" (.int resources.length)) .typeError
  if perPage = 0 then
    ensure (¬start ≤ total)
      (.appleUserList "Apple SCIM user listing ended before all users were returned")
    pure none
  else if start + perPage - 1 < total then
    pure (some (start + perPage))
  else
    pure none

/-- Validate pagination metadata before any users from the page are used. -/
def validateUsersPage (data : Dict) (expectedStart : ℤ) (expectedTotal : Option ℤ) :
    Except PyExc (List Dict × ℤ) := do
  let total ← requireInt (data.getD "totalResults" .null)
    (.appleUserList "Apple SCIM user listing has an invalid totalResults")
  ensure (0 ≤ total)
    (.appleUserList "Apple SCIM user listing has an invalid totalResults")
  ensure (∀ expected ∈ expectedTotal, total = expected)
    (.appleUserList "Apple SCIM user listing changed during pagination")
  let start ← requireInt (data.getD "startIndex" (.int expectedStart))
    (.appleUserList "Apple SCIM user listing has an unexpected startIndex")
  ensure (start = expectedStart)
    (.appleUserList "Apple SCIM user listing has an unexpected startIndex")
  let resources ← requireObjects (data.getD "Resources" (.list []))
    (.appleUserList "Apple SCIM user listing has invalid Resources")
  let perPage ← requireInt (data.getD "itemsPerPage" (.int resources.length))
    (.appleUserList "Apple SCIM user listing has an invalid itemsPerPage")
  ensure (perPage = resources.length)
    (.appleUserList "Apple SCIM user listing has an invalid itemsPerPage")
  ensure (start - 1 + resources.length ≤ total)
    (.appleUserList "Apple SCIM user listing exceeds totalResults")
  ensure (¬(resources = [] ∧ start ≤ total))
    (.appleUserList "Apple SCIM user listing ended before all users were returned")
  pure (resources, total)

/-- The records of a page: the objects among its Resources. -/
def resourcesOf (data : Dict) : List Dict :=
  match data.getD "Resources" (.list []) with
  | .list items => items.filterMap fun item =>
    match item with
    | .dict record => some record
    | _ => none
  | _ => []

theorem eq_map_dict_of_objects? {items : List Json} {records : List Dict}
    (hrecords : objects? items = some records) : items = records.map .dict := by
  induction items generalizing records with
  | nil =>
      cases hrecords
      rfl
  | cons item items ih =>
      rcases item with _ | _ | _ | _ | _ | _ | record <;> try cases hrecords
      obtain ⟨rest, hrest, rfl⟩ := Option.map_eq_some_iff.mp hrecords
      rw [List.map_cons, ih hrest]

theorem resourcesOf_eq {data : Dict} {records : List Dict}
    (hitems : data.getD "Resources" (.list []) = .list (records.map .dict)) :
    resourcesOf data = records := by
  simp only [resourcesOf, hitems, List.filterMap_map, Function.comp_def,
    List.filterMap_some]

/-- What an accepted page says of itself. -/
structure AcceptedPage (data : Dict) (expectedStart total : ℤ) (users : List Dict) :
    Prop where
  total_eq : data.getD "totalResults" .null = .int total
  resources_eq : data.getD "Resources" (.list []) = .list (users.map .dict)
  nonneg : 0 ≤ total
  fits : expectedStart - 1 + users.length ≤ total
  progress : users = [] → total < expectedStart

theorem acceptedPage_of_validateUsersPage {data : Dict} {expectedStart total : ℤ}
    {expectedTotal : Option ℤ} {users : List Dict}
    (hpage : validateUsersPage data expectedStart expectedTotal = .ok (users, total)) :
    AcceptedPage data expectedStart total users ∧
      ∀ expected ∈ expectedTotal, total = expected := by
  simp only [validateUsersPage, requireInt_bind_eq_ok, ensure_bind_eq_ok,
    requireObjects_bind_eq_ok] at hpage
  obtain ⟨total, htotal, hnonneg, hexpected, start, -, rfl, items, records, hitems,
    hrecords, _, -, rfl, hfits, hprogress, hresult⟩ := hpage
  cases hresult
  rw [eq_map_dict_of_objects? hrecords] at hitems
  exact ⟨⟨htotal, hitems, hnonneg, hfits,
    fun hempty => not_le.mp fun hle => hprogress ⟨hempty, hle⟩⟩, hexpected⟩

/-- Another page follows an accepted one only where users are missing. -/
theorem nextUsersPageUrl_of_validateUsersPage {data : Dict} {expectedStart total : ℤ}
    {expectedTotal : Option ℤ} {users : List Dict}
    (hpage : validateUsersPage data expectedStart expectedTotal = .ok (users, total)) :
    nextUsersPageUrl data expectedStart =
      .ok (if expectedStart + users.length - 1 < total
        then some (expectedStart + users.length) else none) := by
  simp only [validateUsersPage, requireInt_bind_eq_ok, ensure_bind_eq_ok,
    requireObjects_bind_eq_ok] at hpage
  obtain ⟨total, htotal, -, -, start, hstart, rfl, items, records, hitems,
    hrecords, perPage, hperPage, rfl, -, hprogress, hresult⟩ := hpage
  cases hresult
  have hresources : requireObjects (data.getD "Resources" (.list [])) .typeError =
      .ok users := by
    rw [hitems, requireObjects, hrecords]
  simp only [nextUsersPageUrl, htotal, hstart, hresources, requireInt, hperPage, bind,
    Except.bind]
  split
  · next hempty =>
    have hnil : users = [] := List.eq_nil_of_length_eq_zero (by omega)
    have hpast : ¬start ≤ total := fun hle => hprogress ⟨hnil, hle⟩
    rw [ensure, if_pos hpast, if_neg (by omega)]
    rfl
  · split <;> rfl

/-- Recognize Apple's observed count-relative index and requested-count
metadata. -/
def appleSinglePage (data : Dict) (requestedCount : ℕ) :
    Except PyExc (Option (List Dict)) :=
  match data.get? "Resources", data.get? "totalResults", data.get? "startIndex",
    data.get? "itemsPerPage" with
  | some (.list resources), some (.int total), some (.int start), some (.int perPage) =>
    if total ≠ resources.length ∨ start ≠ resources.length + 1 ∨
        perPage ≠ requestedCount then
      pure none
    else do
      ensure (resources.length ≤ requestedCount)
        (.appleUserList "Apple SCIM user listing exceeds the requested count")
      let normalized :=
        (data.set "startIndex" (.int 1)).set "itemsPerPage" (.int resources.length)
      let (users, _) ← validateUsersPage normalized 1 none
      pure (some users)
  | _, _, _, _ => pure none

end Pages

/-! ## Indexing users -/

section Indexing

variable [PyRuntime]

/-- Index one record under its externalId and its userName. -/
def indexUsersPage (user : Dict) (listing : Listing) : Listing :=
  let position := listing.users.length
  { listing with
    users := listing.users ++ [user]
    byExternalId :=
      if (user.getD "externalId" .null).truthy
      then (externalIdOf user, position) :: listing.byExternalId
      else listing.byExternalId
    byUsername :=
      if (user.getD "userName" (.str [])).truthy
      then (usernameOf user, position) :: listing.byUsername
      else listing.byUsername }

/-- `user["id"]` after it was found to be safe. -/
def requireSafeId (user : Dict) (error : PyExc) : Except PyExc PyStr :=
  match user.get? "id" with
  | some (.str userId) =>
    if isSafeUserId (some (.str userId)) then .ok userId else .error error
  | _ => .error error

/-- Reject ambiguous identities before adding one listed user to the indexes. -/
def indexUniqueUser (listing : Listing) (user : Dict) : Except PyExc Listing := do
  let userId ← requireSafeId user
    (.appleUserList "Apple SCIM user listing contains a user with an invalid id")
  ensure (hasUsername user)
    (.appleUserList "Apple SCIM user listing contains a user without a userName")
  let externalId := externalIdOf user
  let normalizedUsername := usernameOf user
  ensure (¬(userId ∈ listing.seenIds ∨
      (listing.byUsername.lookup normalizedUsername).isSome ∨
      (externalId ≠ [] ∧ (listing.byExternalId.lookup externalId).isSome)))
    (.appleUserList "Apple SCIM user listing contains duplicate identities")
  pure (indexUsersPage user { listing with seenIds := userId :: listing.seenIds })

/-- Build unique externalId and userName indexes for an Apple listing. -/
def indexUserList (users : List Dict) : Except PyExc Listing :=
  users.foldlM indexUniqueUser {}

end Indexing

/-! ## The paged listing -/

section Paging

variable [PyRuntime]

/-- The loop variables between two pages. -/
structure Cursor where
  listing : Listing
  expectedStart : ℤ
  expectedTotal : ℤ
  /-- the start index of the page to read next -/
  url : Option ℤ

/-- Validate a page, index its users and find the next page. -/
def readUsersPage (data : Dict) (listing : Listing) (expectedStart : ℤ)
    (expectedTotal : Option ℤ) : Except PyExc Cursor := do
  let (users, total) ← validateUsersPage data expectedStart expectedTotal
  let listing ← users.foldlM indexUniqueUser listing
  let url ← nextUsersPageUrl data expectedStart
  pure ⟨listing, expectedStart + users.length, total, url⟩

theorem readUsersPage_eq_ok {data : Dict} {listing : Listing} {expectedStart : ℤ}
    {expectedTotal : Option ℤ} {cursor : Cursor}
    (hread : readUsersPage data listing expectedStart expectedTotal = .ok cursor) :
    ∃ users, AcceptedPage data expectedStart cursor.expectedTotal users ∧
      (∀ expected ∈ expectedTotal, cursor.expectedTotal = expected) ∧
      users.foldlM indexUniqueUser listing = .ok cursor.listing ∧
      cursor.expectedStart = expectedStart + users.length ∧
      cursor.url = if cursor.expectedStart - 1 < cursor.expectedTotal
        then some cursor.expectedStart else none := by
  rw [readUsersPage] at hread
  cases hpage : validateUsersPage data expectedStart expectedTotal with
  | error error => simp [hpage, bind, Except.bind] at hread
  | ok page =>
      obtain ⟨users, total⟩ := page
      cases hlisting : users.foldlM indexUniqueUser listing with
      | error error => simp [hpage, hlisting, bind, Except.bind] at hread
      | ok listed =>
          simp only [hpage, hlisting, nextUsersPageUrl_of_validateUsersPage hpage, bind,
            Except.bind, pure, Except.pure, Except.ok.injEq] at hread
          subst hread
          obtain ⟨haccepted, hexpected⟩ := acceptedPage_of_validateUsersPage hpage
          exact ⟨users, haccepted, hexpected, hlisting, rfl, rfl⟩

/-- Bounds the pages that the listing may still read. -/
def Cursor.remaining (cursor : Cursor) : ℕ :=
  if cursor.url.isSome then (cursor.expectedTotal + 1 - cursor.expectedStart).toNat + 1
  else 0

theorem remaining_lt_of_readUsersPage {data : Dict} {cursor next : Cursor}
    (hurl : cursor.url.isSome)
    (hread : readUsersPage data cursor.listing cursor.expectedStart
      (some cursor.expectedTotal) = .ok next) : next.remaining < cursor.remaining := by
  obtain ⟨users, haccepted, hexpected, -, hstart, hnext⟩ := readUsersPage_eq_ok hread
  have htotal : next.expectedTotal = cursor.expectedTotal := hexpected _ rfl
  rw [Cursor.remaining, Cursor.remaining, if_pos hurl]
  split
  · next hsome =>
    have hmore : next.expectedStart - 1 < next.expectedTotal := by
      by_contra hlast
      simp [hnext, hlast] at hsome
    have hlength : users.length ≠ 0 := by
      intro hzero
      have hpast := haccepted.progress (List.eq_nil_of_length_eq_zero hzero)
      omega
    omega
  · omega

/-- The pages after the first. -/
def listUsersFrom (cursor : Cursor) : Client State Listing :=
  match hurl : cursor.url with
  | none => pure cursor.listing
  | some start => do
    let data ← fetchUsersPage (.listUsers (some start))
    match hread : readUsersPage data cursor.listing cursor.expectedStart
      (some cursor.expectedTotal) with
    | .error error => throw error
    | .ok next =>
      have hlt := remaining_lt_of_readUsersPage (by rw [hurl]; rfl) hread
      listUsersFrom next
termination_by cursor.remaining

/-- The whole listing, indexed by externalId and userName. -/
def getExistingUsers : Client State Listing := do
  let data ← fetchUsersPage (.listUsers none)
  match ← Script.ofExcept (appleSinglePage data userListCount) with
  | some appleUsers => do
    let sample ← Script.ofExcept (indexUserList appleUsers)
    throw (.filteredLookupRequired sample)
  | none => do
    let cursor ← Script.ofExcept (readUsersPage data {} 1 none)
    listUsersFrom cursor

end Paging

end SsfTransmitter.Scim
