import SsfTransmitter.Scim.CompleteListing
import SsfTransmitter.Scim.Diffs
import SsfTransmitter.Scim.Lookup

/-!
# A server of a directory

It lists its directory in pages, stores what is posted under a new id, and what an
update names.  The HTTP client declines some requests and sends all others.
-/

namespace SsfTransmitter.Scim

open SsfTransmitter.Core
open SsfTransmitter.Python

/-- A response with some users of a directory. -/
def usersPage (users : List Dict) (total start perPage : ℤ) : Outcome :=
  .response ⟨200, .json (.dict [("totalResults", .int total), ("startIndex", .int start),
    ("itemsPerPage", .int perPage), ("Resources", .list (users.map .dict))]), true⟩

/-! ## Accounts -/

/-- Replace an attribute, or a subattribute of it. -/
def storeAt (record : Dict) (operation : PyStr × Json) : Dict :=
  match operation.1.dropWhile (· != ofChar '.') with
  | [] => record.set operation.1 operation.2
  | _ :: subattribute =>
    let name := operation.1.takeWhile (· != ofChar '.')
    let fields :=
      match record.get? name with
      | some (.dict fields) => fields
      | _ => []
    record.set name (.dict (Dict.set fields subattribute operation.2))

/-- An operation touches the attribute that its path starts with. -/
theorem get?_storeAt_of_ne {record : Dict} {operation : PyStr × Json} {key : PyStr}
    (hother : key ≠ operation.1.takeWhile (· != ofChar '.')) :
    (storeAt record operation).get? key = record.get? key := by
  rw [storeAt]
  split
  · next hwhole =>
    have hpath : operation.1.takeWhile (· != ofChar '.') ++
        operation.1.dropWhile (· != ofChar '.') = operation.1 := List.takeWhile_append_dropWhile
    rw [hwhole, List.append_nil] at hpath
    exact Dict.get?_set_of_ne _ _ (hpath ▸ hother)
  · exact Dict.get?_set_of_ne _ _ hother

/-- Path and value of a PATCH operation. -/
def operationOf (operation : Json) : Option (PyStr × Json) :=
  match operation with
  | .dict fields =>
    match Dict.get? fields "path", Dict.get? fields "value" with
    | some (.str path), some value => some (path, value)
    | _, _ => none
  | _ => none

/-- An account after the operations of a PATCH body. -/
def patched (body account : Dict) : Dict :=
  match body.get? "Operations" with
  | some (.list operations) => (operations.filterMap operationOf).foldl storeAt account
  | _ => account

theorem patched_patchBody (operations : List (PyStr × Json)) (account : Dict) :
    patched (patchBody (operations.map fun operation => replaceOperation operation.1 operation.2))
      account = operations.foldl storeAt account := by
  have hback : (operations.map fun operation =>
      replaceOperation operation.1 operation.2).filterMap operationOf = operations := by
    rw [List.filterMap_map]
    exact List.filterMap_some
  rw [patched, patchBody]
  change ((operations.map fun operation =>
    replaceOperation operation.1 operation.2).filterMap operationOf).foldl storeAt account = _
  rw [hback]

/-- An account after a PUT body, with the externalId it had. -/
def replaced (body account : Dict) : Dict :=
  match account.get? "externalId" with
  | some externalId => body.set "externalId" externalId
  | none => body

/-- What a request makes of an account. -/
def Request.rewrite (request : Request) (account : Dict) : Dict :=
  match request with
  | .patchUser _ userId body =>
    if account.get? "id" = some (.str userId) then patched body account else account
  | .putUser _ userId body =>
    if account.get? "id" = some (.str userId) then replaced body account else account
  | _ => account

/-! ## The server -/

/-- A page of a listing that counts from its first user. -/
structure StandardPage (users : List Dict) (total start : ℤ) (data : Dict) : Prop where
  resources : data.getD "Resources" (.list []) = .list (users.map .dict)
  total : data.get? "totalResults" = some (.int total)
  start : data.get? "startIndex" = some (.int start)
  perPage : data.get? "itemsPerPage" = some (.int users.length)

/-- Whether an account of the directory has this id. -/
def Holds (directory : List Dict) (userId : PyStr) : Prop :=
  ∃ account ∈ directory, account.get? "id" = some (.str userId)

/-- Answers of a server, and the directory it is left with. -/
def Serves (directory : List Dict) : Request → Outcome → List Dict → Prop
  | .listUsers start, answer, after =>
    after = directory ∧ ∃ count, 0 < count ∧ ∃ data, answer.usersPage = .ok data ∧
      StandardPage ((directory.drop (start.getD 1 - 1).toNat).take count) directory.length
        (start.getD 1) data
  | .filterUsers _ _, _, after => after = directory
  | .readUser userId, answer, after =>
    after = directory ∧ ∀ account ∈ directory, account.get? "id" = some (.str userId) →
      ∃ readable, answer = .response ⟨200, .json (.dict account), readable⟩
  | .createUser source, answer, after =>
    ∃ response userId, answer = .response response ∧
      (response.status = 200 ∨ response.status = 201) ∧
      isSafeUserId (some (.str userId)) = true ∧ ¬ Holds directory userId ∧
      after = directory ++ [source.set "id" (.str userId)]
  | .patchUser source userId body, answer, after =>
    ∃ response, answer = .response response ∧
      (Holds directory userId → response.status = 200 ∨ response.status = 204) ∧
      after = directory.map (Request.patchUser source userId body).rewrite
  | .putUser source userId body, answer, after =>
    ∃ response, answer = .response response ∧
      (Holds directory userId → response.status = 200 ∨ response.status = 204) ∧
      after = directory.map (Request.putUser source userId body).rewrite

/-- The server behind an HTTP client that declines what cannot be sent. -/
def Exchanges (sendable : Request → Bool) (directory : List Dict) (request : Request)
    (answer : Outcome) (after : List Dict) : Prop :=
  if sendable request then Serves directory request answer after
  else answer = .refused ∧ after = directory

abbrev faithful (sendable : Request → Bool) : Environment (List Dict) Request Outcome where
  permits _ _ := True
  moves := Exchanges sendable

/-! ## Listing -/

section Listings

variable {sendable : Request → Bool} {directory : List Dict} {State : Type} {state : State}

/-- A request is answered by the server, or declined. -/
theorem wp_ask_faithful {request : Request}
    {wanted : Except PyExc Outcome → List Dict → State → Prop}
    (hdeclined : sendable request = false → wanted (.ok .refused) directory state)
    (hserved : sendable request = true → ∀ answer after, Serves directory request answer after →
      wanted (.ok answer) after state) :
    Script.wp (faithful sendable) (Script.ask request : Client State Outcome) wanted directory
      state := by
  refine Script.wp_ask.mpr ⟨trivial, fun answer after hmove => ?_⟩
  cases hsendable : sendable request with
  | false =>
      obtain ⟨rfl, rfl⟩ : answer = .refused ∧ after = directory := by
        simpa [Exchanges, hsendable] using hmove
      exact hdeclined hsendable
  | true =>
      exact hserved hsendable answer after (by simpa [Exchanges, hsendable] using hmove)

theorem objects?_map_dict (users : List Dict) : objects? (users.map .dict) = some users := by
  induction users with
  | nil => rfl
  | cons user users ih => rw [List.map_cons, objects?, ih]; rfl

/-- A page of the right size is accepted. -/
theorem validateUsersPage_of_standardPage {users : List Dict} {total start : ℤ} {data : Dict}
    {expectedTotal : Option ℤ} (hpage : StandardPage users total start data)
    (hexpected : ∀ expected ∈ expectedTotal, total = expected)
    (hfits : start - 1 + users.length ≤ total) (hprogress : ¬(users = [] ∧ start ≤ total))
    (hstart : 1 ≤ start) :
    validateUsersPage data start expectedTotal = .ok (users, total) := by
  simp only [validateUsersPage, requireInt_bind_eq_ok, ensure_bind_eq_ok,
    requireObjects_bind_eq_ok]
  refine ⟨total, ?_, by omega, hexpected, start, ?_, rfl, _, users, hpage.resources,
    objects?_map_dict users, users.length, ?_, rfl, hfits, hprogress, rfl⟩
  · rw [Dict.getD, hpage.total, Option.getD_some]
  · rw [Dict.getD, hpage.start, Option.getD_some]
  · rw [Dict.getD, hpage.perPage, Option.getD_some]

theorem appleSinglePage_of_standardPage {users : List Dict} {total : ℤ} {data : Dict}
    (hpage : StandardPage users total 1 data) :
    appleSinglePage data userListCount = .ok none := by
  rw [appleSinglePage, hpage.total, hpage.start, hpage.perPage]
  cases hresources : data.get? "Resources" with
  | none => rfl
  | some value =>
      have hlist := hpage.resources
      rw [Dict.getD, hresources, Option.getD_some] at hlist
      subst hlist
      have hother : total ≠ ((users.map Json.dict).length : ℤ) ∨
          (1 : ℤ) ≠ ((users.map Json.dict).length : ℤ) + 1 ∨
          (users.length : ℤ) ≠ (userListCount : ℤ) := by
        rw [List.length_map]
        by_cases hempty : (users.length : ℤ) = 0
        · refine .inr (.inr ?_)
          rw [hempty]
          decide
        · exact .inr (.inl (by omega))
      dsimp only
      rw [if_pos hother]
      rfl

end Listings

section FaithfulListings

variable [PyRuntime]
variable {sendable : Request → Bool} {directory : List Dict} {State : Type} {state : State}

theorem readUsersPage_of_standardPage {users : List Dict} {total start : ℤ} {data : Dict}
    {expectedTotal : Option ℤ} {listing next : Listing}
    (hpage : validateUsersPage data start expectedTotal = .ok (users, total))
    (hindex : users.foldlM indexUniqueUser listing = .ok next) :
    readUsersPage data listing start expectedTotal =
      .ok ⟨next, start + users.length, total,
        if start + users.length - 1 < total then some (start + users.length) else none⟩ := by
  simp [readUsersPage, hpage, hindex, nextUsersPageUrl_of_validateUsersPage hpage, bind,
    Except.bind, pure, Except.pure]

/-- A cursor into a listing of the directory. -/
structure PartlyListed (directory : List Dict) (cursor : Cursor) : Prop where
  indexed : indexUserList (directory.take cursor.listing.users.length) = .ok cursor.listing
  start : cursor.expectedStart = cursor.listing.users.length + 1
  total : cursor.expectedTotal = directory.length
  url : cursor.url =
    if (cursor.listing.users.length : ℤ) < directory.length then some cursor.expectedStart
    else none

/-- The next page of the directory is read. -/
theorem exists_readUsersPage {listing : Listing} {count : ℕ} {data : Dict}
    {expectedTotal : Option ℤ} (hdirectory : Unambiguous directory)
    (hindexed : indexUserList (directory.take listing.users.length) = .ok listing)
    (hcount : 0 < count)
    (hpage : StandardPage ((directory.drop listing.users.length).take count) directory.length
      (listing.users.length + 1) data)
    (hexpected : ∀ expected ∈ expectedTotal, (directory.length : ℤ) = expected) :
    ∃ next, readUsersPage data listing (listing.users.length + 1) expectedTotal = .ok next ∧
      PartlyListed directory next := by
  obtain ⟨hexact, husers⟩ := Listing.Exact.empty.foldlM_index hindexed
  rw [List.nil_append] at husers
  have hshort : listing.users.length ≤ directory.length := by
    have hlength := congrArg List.length husers
    rw [List.length_take] at hlength
    omega
  have hlength : ((directory.drop listing.users.length).take count).length =
      min count (directory.length - listing.users.length) := by
    rw [List.length_take, List.length_drop]
  have htogether : directory.take listing.users.length ++
      (directory.drop listing.users.length).take count =
      directory.take (listing.users.length + count) := List.take_add.symm
  obtain ⟨next, hindex⟩ := hexact.exists_foldlM_index (by
    rw [husers, htogether]
    exact hdirectory.sublist (List.take_sublist _ _))
  obtain ⟨hnext, hlisted⟩ := hexact.foldlM_index hindex
  have hfound := congrArg List.length hlisted
  rw [List.length_append, hlength] at hfound
  have hvalid := validateUsersPage_of_standardPage hpage hexpected (by omega)
    (fun hempty => by
      have hzero := congrArg List.length hempty.1
      rw [hlength, List.length_nil] at hzero
      omega) (by omega)
  have hstart : directory.take next.users.length =
      directory.take (listing.users.length + count) :=
    List.take_eq_take_iff.mpr (by omega)
  refine ⟨_, readUsersPage_of_standardPage hvalid hindex, ?_, ?_, rfl, ?_⟩
  · dsimp only
    rw [hstart, ← htogether, indexUserList, List.foldlM_append]
    rw [indexUserList] at hindexed
    rw [hindexed]
    exact hindex
  · dsimp only
    omega
  · dsimp only
    congr 1
    apply propext
    omega

omit [PyRuntime] in
/-- A page of the listing, and what is made of it. -/
theorem wp_listUsers_bind_faithful {Value : Type} {start : Option ℤ}
    {rest : Dict → Client State Value} {wanted : Except PyExc Value → List Dict → State → Prop}
    (hlist : sendable (.listUsers start) = true)
    (hrest : ∀ count data, 0 < count →
      StandardPage ((directory.drop (start.getD 1 - 1).toNat).take count) directory.length
        (start.getD 1) data →
      Script.wp (faithful sendable) (rest data) wanted directory state) :
    Script.wp (faithful sendable) (fetchUsersPage (.listUsers start) >>= rest) wanted directory
      state := by
  rw [fetchUsersPage, Script.wp_bind, Script.wp_bind]
  refine wp_ask_faithful (fun hdeclined => ?_) fun _ answer after hserved => ?_
  · rw [hlist] at hdeclined
    cases hdeclined
  · obtain ⟨rfl, count, hcount, data, hdata, hpage⟩ := hserved
    dsimp only
    rw [Script.wp_ofExcept, hdata]
    exact hrest count data hcount hpage

/-- The pages after the first complete the listing. -/
theorem wp_listUsersFrom_faithful (hlist : ∀ start, sendable (.listUsers start) = true)
    (hdirectory : Unambiguous directory) {cursor : Cursor}
    (hlisted : PartlyListed directory cursor) :
    Script.wp (faithful sendable) (listUsersFrom cursor)
      (fun outcome after left => after = directory ∧ left = state ∧
        ∃ listing, outcome = .ok listing ∧ indexUserList directory = .ok listing)
      directory state := by
  induction cursor using listUsersFrom.induct with
  | case1 cursor hurl =>
      rw [listUsersFrom.eq_def]
      split
      · refine ⟨rfl, rfl, _, rfl, ?_⟩
        have hlast := hlisted.url
        rw [hurl] at hlast
        have hall : ¬(cursor.listing.users.length : ℤ) < directory.length := by
          intro hmissing
          rw [if_pos hmissing] at hlast
          cases hlast
        have hindexed := hlisted.indexed
        rwa [List.take_of_length_le (by omega)] at hindexed
      · next hsome => cases hurl.symm.trans hsome
  | case2 cursor start hurl ih =>
      rw [listUsersFrom.eq_def]
      split
      · next hnone => cases hurl.symm.trans hnone
      · next asked hasked =>
        have hstart : asked = cursor.listing.users.length + 1 := by
          have hurl' := hlisted.url
          rw [hasked] at hurl'
          split_ifs at hurl' with hmissing
          exact (Option.some.inj hurl').trans hlisted.start
        refine wp_listUsers_bind_faithful (hlist _) fun count data hcount hpage => ?_
        have htotal : ∀ expected ∈ some cursor.expectedTotal,
            (directory.length : ℤ) = expected := by
          rintro _ ⟨rfl⟩
          exact hlisted.total.symm
        obtain ⟨following, hread, hfollowing⟩ := exists_readUsersPage hdirectory
          hlisted.indexed hcount (by simpa [hstart] using hpage) htotal
        rw [← hlisted.start] at hread
        split
        · next hfailed => cases hread.symm.trans hfailed
        · next found hfound =>
          obtain rfl := Except.ok.inj (hread.symm.trans hfound)
          exact ih data _ hread hfollowing

/-- The whole directory is listed. -/
theorem wp_existingUsers_faithful {scimUsers : List Dict}
    (hlist : ∀ start, sendable (.listUsers start) = true) (hdirectory : Unambiguous directory) :
    Script.wp (faithful sendable) (existingUsers scimUsers)
      (fun outcome after left => after = directory ∧ left = state ∧
        ∃ listing, outcome = .ok (listing, false) ∧ indexUserList directory = .ok listing)
      directory state := by
  rw [existingUsers, Script.wp_tryCatch, Script.wp_bind, getExistingUsers]
  refine wp_listUsers_bind_faithful (hlist _) fun count data hcount hpage => ?_
  rw [Option.getD_none, sub_self, Int.toNat_zero, List.drop_zero] at hpage
  rw [appleSinglePage_of_standardPage hpage]
  have hindexed : indexUserList (directory.take ({} : Listing).users.length) = .ok {} := rfl
  have hnone : ∀ expected ∈ (none : Option ℤ), (directory.length : ℤ) = expected := nofun
  obtain ⟨cursor, hread, hcursor⟩ := exists_readUsersPage hdirectory hindexed hcount hpage hnone
  refine Script.wp_ofExcept_bind.mpr ⟨nofun, ?_⟩
  rintro _ ⟨rfl⟩
  refine Script.wp_ofExcept_bind.mpr ⟨fun error herror => ?_, fun found hfound => ?_⟩
  · cases hread.symm.trans herror
  · obtain rfl := Except.ok.inj (hread.symm.trans hfound)
    refine Script.wp_mono (wp_listUsersFrom_faithful hlist hdirectory hcursor) ?_
    rintro _ _ _ ⟨rfl, rfl, listing, rfl, hindexed⟩
    exact ⟨rfl, rfl, listing, rfl, hindexed⟩

end FaithfulListings

end SsfTransmitter.Scim
