import SsfTransmitter.Python.Ascii
import SsfTransmitter.Scim.Loop
import SsfTransmitter.Scim.Server

/-!
# Both lookup modes decide alike

Against a directory that does not change, the preflight and the complete listing
match every source user in the same way.
-/

namespace SsfTransmitter.Scim

open SsfTransmitter.Core
open SsfTransmitter.Python

section Lookups

variable [PyRuntime]

/-! ## Decisions -/

/-- The record, whether it was found by userName, and whether the identities conflict. -/
def Match.decision (records : List Dict) : Match → Option Dict × Bool × Bool
  | .conflict => (none, false, true)
  | .absent => (none, false, false)
  | .matched position recoveredByUsername =>
    (some (records.getD position []), recoveredByUsername, false)

/-- What `_match_apple_user` returns over the indexes of a listing. -/
def Listing.decision (listing : Listing) (user : Dict) :
    Except PyExc (Option Dict × Bool × Bool) :=
  (matchAppleUser listing listing.users user).map (Match.decision listing.users)

/-- The decision from the records that the two indexes hold. -/
def decideBy : Option Dict → Option Dict → Option Dict × Bool × Bool
  | some byExternalId, some byUsername =>
    if byUsername.get? "id" ≠ byExternalId.get? "id" then (none, false, true)
    else (some byExternalId, false, false)
  | some byExternalId, none => (some byExternalId, false, false)
  | none, some byUsername => (some byUsername, true, false)
  | none, none => (none, false, false)

section Deciding

variable {listing : Listing} {user : Dict}

/-- A position that an index names holds a record with an id. -/
theorem Listing.Exact.exists_id {position : ℕ} {record : Dict} (hexact : listing.Exact)
    (hrecord : listing.users[position]? = some record) :
    ∃ userId, record.get? "id" = some (.str userId) :=
  exists_str_of_isSafeUserId (hexact.unambiguous.safe record (List.mem_of_getElem? hrecord))

omit [PyRuntime] in
/-- A lookup that succeeds names the position of the record it leads to. -/
theorem Index.Finds.exists_record {index : Index} {users : List Dict} {keyOf : Dict → PyStr}
    {counts : PyStr → Prop} (hfinds : index.Finds users keyOf counts) {key : PyStr}
    (hkey : counts key) {position : ℕ} (hlookup : index.lookup key = some position) :
    ∃ record, users[position]? = some record ∧
      ((index.lookup key).bind fun position => users[position]?) = some record := by
  obtain ⟨record, hrecord, -⟩ := (hfinds key hkey position).mp hlookup
  exact ⟨record, hrecord, by rw [hlookup, Option.bind_some, hrecord]⟩

/-- Over an exact listing the decision depends on the two records only. -/
theorem Listing.Exact.decision_eq (hexact : listing.Exact) (hlinked : externalIdOf user ≠ []) :
    listing.decision user = .ok (decideBy (listing.externalIdMatch (externalIdOf user))
      (listing.usernameMatch (usernameOf user))) := by
  rw [Listing.decision, matchAppleUser, exists_sourceExternalId hlinked,
    Listing.externalIdMatch, Listing.usernameMatch]
  cases hexternalId : listing.byExternalId.lookup (externalIdOf user) with
  | none =>
      cases husername : listing.byUsername.lookup (usernameOf user) with
      | none =>
          simp [hexternalId, bind, Except.bind, Except.map, decideBy, Match.decision, pure,
            Except.pure]
      | some position =>
          obtain ⟨record, hrecord, -⟩ := hexact.byUsername.exists_record trivial husername
          obtain ⟨userId, hid⟩ := hexact.exists_id hrecord
          have hne : record ≠ [] := by
            rintro rfl
            cases hid
          simp [hexternalId, hrecord, hne, bind, Except.bind, Except.map, decideBy,
            Match.decision, pure, Except.pure]
  | some position =>
      obtain ⟨record, hrecord, -⟩ := hexact.byExternalId.exists_record hlinked hexternalId
      obtain ⟨userId, hid⟩ := hexact.exists_id hrecord
      cases husername : listing.byUsername.lookup (usernameOf user) with
      | none =>
          simp [hexternalId, hrecord, bind, Except.bind, Except.map, decideBy, Match.decision,
            pure, Except.pure]
      | some other =>
          obtain ⟨second, hsecond, -⟩ := hexact.byUsername.exists_record trivial husername
          obtain ⟨otherId, hotherId⟩ := hexact.exists_id hsecond
          have hrequire := requireId_eq_ok_iff.mpr hid
          have hrequire' := requireId_eq_ok_iff.mpr hotherId
          by_cases hsame : otherId = userId <;>
            simp [hexternalId, hrecord, hsecond, hrequire, hrequire', hid, hotherId, hsame,
              bind, Except.bind, Except.map, decideBy, Match.decision, pure, Except.pure]

end Deciding

/-! ## A truthful server -/

/-- The users of a directory that an identity denotes. -/
def holders (directory : List Dict) (identity : IdentityAttribute) (value : PyStr) :
    List Dict :=
  directory.filter fun user =>
    match identity with
    | .externalId => externalIdOf user = value
    | .userName => usernameOf user = normalizeIdentifier (some (.str value))

omit [PyRuntime] in
/-- A well-formed response to a filter. -/
structure FilterPage (users : List Dict) (data : Dict) : Prop where
  resources : data.getD "Resources" (.list []) = .list (users.map .dict)
  total : data.get? "totalResults" = some (.int users.length)
  start : data.get? "startIndex" = none ∨ data.get? "startIndex" = some (.int 0) ∨
    data.get? "startIndex" = some (.int 1)
  perPage : data.get? "itemsPerPage" = none ∨
    data.get? "itemsPerPage" = some (.int users.length)

omit [PyRuntime] in
/-- Apple's page-local format of a listing. -/
structure PageLocal (users : List Dict) (data : Dict) : Prop where
  resources : data.get? "Resources" = some (.list (users.map .dict))
  total : data.get? "totalResults" = some (.int users.length)
  start : data.get? "startIndex" = some (.int (users.length + 1))
  perPage : data.get? "itemsPerPage" = some (.int userListCount)

/-- Answers that are true of a directory, and a sample of it as its listing. -/
def Truthful (directory sample : List Dict) : Request → Outcome → Prop
  | .listUsers _, answer => ∃ data, answer.usersPage = .ok data ∧ PageLocal sample data
  | .filterUsers identity (.str value), answer =>
    ∃ data, answer.usersPage = .ok data ∧ FilterPage (holders directory identity value) data
  | .readUser userId, answer =>
    ∀ user ∈ directory, user.get? "id" = some (.str userId) → answer.usersPage = .ok user
  | _, _ => True

section Agreement

variable {directory sample scimUsers : List Dict} {transcript : Transcript}
variable {listing : Listing} {user : Dict}

theorem mem_holders {identity : IdentityAttribute} {value : PyStr} :
    user ∈ holders directory identity value ↔ user ∈ directory ∧
      match identity with
      | .externalId => externalIdOf user = value
      | .userName => usernameOf user = normalizeIdentifier (some (.str value)) := by
  rw [holders, List.mem_filter]
  cases identity <;> simp

/-- The one user that a truthful response to a filter shows. -/
theorem Truthful.shows_iff {identity : IdentityAttribute} {value : PyStr} {answer : Outcome}
    {found : Option Dict}
    (htruthful : Truthful directory sample (.filterUsers identity (.str value)) answer)
    (hshows : Outcome.Shows answer found) :
    found = some user ↔ user ∈ holders directory identity value := by
  obtain ⟨data, hdata, hpage⟩ := htruthful
  obtain ⟨shown, hshown, hresources⟩ := hshows
  obtain rfl := Except.ok.inj (hdata.symm.trans hshown)
  rw [← resourcesOf_eq hpage.resources, hresources]
  cases found with
  | none => simp
  | some other => simp [eq_comm]

/-- A preflight indexes users of the directory. -/
theorem Preflighted.subset (hpreflighted : Preflighted scimUsers transcript listing)
    (htruthful : ∀ exchange ∈ transcript, Truthful directory sample exchange.1 exchange.2) :
    listing.users ⊆ directory := by
  intro record hrecord
  obtain ⟨userId, answer, hid, hread, hpage⟩ := hpreflighted.read record hrecord
  obtain ⟨identity, value, shown, found, hasked, hshows, hsame⟩ :=
    hpreflighted.found record hrecord
  obtain ⟨hfound, -⟩ := mem_holders.mp ((htruthful _ hasked).shows_iff hshows |>.mp rfl)
  have hanswer := htruthful _ hread found hfound ((id_eq_of_sameIdentity hsame).trans hid)
  exact Except.ok.inj (hpage.symm.trans hanswer) ▸ hfound

/-- The preflight finds a user exactly where the directory has one. -/
theorem Preflighted.identityMatch_iff {identity : IdentityAttribute}
    (hdirectory : Unambiguous directory)
    (hpreflighted : Preflighted scimUsers transcript listing)
    (htruthful : ∀ exchange ∈ transcript, Truthful directory sample exchange.1 exchange.2)
    {source : Dict} (hsource : source ∈ scimUsers) :
    listing.identityMatch identity (identityValue source identity) = some user ↔
      user ∈ holders directory identity (identityValue source identity) := by
  obtain ⟨answer, hasked⟩ := hpreflighted.asked source hsource identity
  obtain ⟨found, hshows, hsame⟩ := hpreflighted.answered _ _ _ hasked
  have hshown : ∀ {shown}, found = some shown ↔
      shown ∈ holders directory identity (identityValue source identity) :=
    (htruthful _ hasked).shows_iff hshows
  rw [← hshown]
  cases hmatch : listing.identityMatch identity (identityValue source identity) with
  | none =>
      rw [hmatch] at hsame
      cases found with
      | none => exact Iff.rfl
      | some shown => cases hsame
  | some record =>
      rw [hmatch] at hsame
      cases found with
      | none => cases hsame
      | some shown =>
          have hrecord : record ∈ listing.users := by
            cases identity
            · exact ((hpreflighted.exact.externalIdMatch_eq_some_iff
                (hpreflighted.identifiable.linked source hsource)).mp hmatch).1
            · exact (hpreflighted.exact.usernameMatch_eq_some_iff.mp hmatch).1
          obtain ⟨hmem, -⟩ := mem_holders.mp (hshown.mp rfl)
          have heq : shown = record := hdirectory.eq_of_id hmem
            (hpreflighted.subset htruthful hrecord) (id_eq_of_sameIdentity hsame)
          rw [heq]

end Agreement

/-! ## The preflight returns -/

/-- The user that an identity denotes. -/
def holder (directory : List Dict) (identity : IdentityAttribute) (value : PyStr) :
    Option Dict :=
  (holders directory identity value).head?

/-- Answers that are true of the directory. -/
abbrev truthful (directory sample : List Dict) : Environment Transcript Request Outcome :=
  recording (fun _ _ => True) fun _ => Truthful directory sample

/-- A directory of named users that can be told apart and addressed. -/
structure Directory (users : List Dict) : Prop where
  unambiguous : Unambiguous users
  objectNames : ∀ user ∈ users, hasObjectName user = true
  encodable : ∀ user ∈ users, (user.getD "id" .null).encodable = true

section Returning

variable {State : Type} {state : State}
variable {directory sample : List Dict} {transcript : Transcript} {listing : Listing}

theorem length_holders_le (hdirectory : Unambiguous directory) {identity : IdentityAttribute}
    {value : PyStr} (hvalue : identity = .externalId → value ≠ []) :
    (holders directory identity value).length ≤ 1 := by
  have hnodup : (holders directory identity value).Nodup := hdirectory.nodup.filter _
  match hholders : holders directory identity value with
  | [] => exact Nat.zero_le 1
  | [_] => exact le_rfl
  | first :: second :: rest =>
      exfalso
      obtain ⟨hfirst, hfirst'⟩ := mem_holders.mp (hholders ▸ List.mem_cons_self)
      obtain ⟨hsecond, hsecond'⟩ := mem_holders.mp
        (hholders ▸ List.mem_cons_of_mem first List.mem_cons_self)
      have hsame : first = second := by
        cases identity
        · exact hdirectory.eq_of_externalId hfirst hsecond (hfirst' ▸ hvalue rfl)
            (hfirst'.trans hsecond'.symm)
        · exact hdirectory.eq_of_username hfirst hsecond (hfirst'.trans hsecond'.symm)
      rw [hholders, hsame] at hnodup
      simp at hnodup

theorem holder_eq_some_iff (hdirectory : Unambiguous directory)
    {identity : IdentityAttribute} {value : PyStr}
    (hvalue : identity = .externalId → value ≠ []) {user : Dict} :
    holder directory identity value = some user ↔ user ∈ holders directory identity value := by
  have hlength := length_holders_le hdirectory hvalue
  rw [holder]
  match holders directory identity value, hlength with
  | [], _ => simp
  | [other], _ => simp [eq_comm]

omit [PyRuntime] in
theorem filteredResources_of_filterPage {users : List Dict} {data : Dict}
    (hpage : FilterPage users data) (hone : users.length ≤ 1) :
    filteredResources data = .ok users := by
  have hresources : data.getD "Resources" (if (users.length : ℤ) = 0 then .list [] else .null) =
      .list (users.map .dict) := by
    have hlist := hpage.resources
    rw [Dict.getD] at hlist ⊢
    cases hget : data.get? "Resources" with
    | some value => rwa [hget] at hlist
    | none =>
        rw [hget] at hlist
        have hempty : users = [] := List.map_eq_nil_iff.mp (Json.list.inj hlist).symm
        simp [hempty]
  have hstart : ∃ start : ℤ, data.getD "startIndex" (.int 1) = .int start ∧
      (start = 0 ∨ start = 1) := by
    rw [Dict.getD]
    obtain hget | hget | hget := hpage.start <;> rw [hget]
    · exact ⟨1, rfl, .inr rfl⟩
    · exact ⟨0, rfl, .inl rfl⟩
    · exact ⟨1, rfl, .inr rfl⟩
  have hperPage : data.getD "itemsPerPage" (.int users.length) = .int users.length := by
    rw [Dict.getD]
    obtain hget | hget := hpage.perPage <;> rw [hget] <;> rfl
  obtain ⟨start, hstart, hvalid⟩ := hstart
  simp only [filteredResources, requireInt_bind_eq_ok, ensure_bind_eq_ok,
    requireObjects_bind_eq_ok]
  refine ⟨users.length, by rw [Dict.getD, hpage.total]; rfl, Int.natCast_nonneg _, start,
    hstart, hvalid, _, users, hresources, objects?_map_dict users, users.length, hperPage,
    ⟨rfl, rfl⟩, by omega, rfl⟩

theorem validateFilteredUser_of_filterPage (hdirectory : Directory directory)
    {identity : IdentityAttribute} {value : PyStr} {data : Dict}
    (hvalue : identity = .externalId → value ≠ [])
    (hpage : FilterPage (holders directory identity value) data) :
    validateFilteredUser data identity value = .ok (holder directory identity value) := by
  have hlength := length_holders_le hdirectory.unambiguous hvalue
  have hresources := filteredResources_of_filterPage hpage hlength
  rw [validateFilteredUser, bind_eq_ok_iff]
  refine ⟨_, hresources, ?_⟩
  rw [holder]
  cases hholders : holders directory identity value with
  | nil => rfl
  | cons user others =>
      obtain ⟨hmem, hmatched⟩ := mem_holders.mp (hholders ▸ List.mem_cons_self)
      simp only [ensure_bind_eq_ok]
      refine ⟨hdirectory.unambiguous.safe user hmem,
        ⟨hdirectory.unambiguous.named user hmem, hdirectory.objectNames user hmem⟩, ?_, rfl⟩
      cases identity <;> simpa using hmatched

/-! The parts of a preflight, with truthful answers. -/

variable {identity : IdentityAttribute} {value : PyStr}

/-- A page that is truthfully answered. -/
theorem wp_fetchUsersPage_truthful {Value : Type} {request : Request}
    {rest : Dict → Client State Value}
    {wanted : Except PyExc Value → Transcript → State → Prop} (data : Dict → Prop)
    (hanswered : ∀ answer, Truthful directory sample request answer →
      ∃ page, answer.usersPage = .ok page ∧ data page)
    (hrest : ∀ page later, data page →
      Script.wp (truthful directory sample) (rest page) wanted later state) :
    Script.wp (truthful directory sample) (fetchUsersPage request >>= rest) wanted transcript
      state := by
  simp only [fetchUsersPage, Script.wp_bind, Script.wp_ask, Script.wp_ofExcept]
  refine ⟨trivial, ?_⟩
  rintro answer _ ⟨hanswer, rfl⟩
  obtain ⟨page, hpage, hdata⟩ := hanswered answer hanswer
  rw [hpage]
  exact hrest page _ hdata

omit [PyRuntime] in
theorem ensure_eq_ok {condition : Prop} [Decidable condition] {error : PyExc}
    (hcondition : condition) : ensure condition error = .ok () :=
  if_pos hcondition

theorem sameIdentity_self (user : Option Dict) : sameIdentity user user = true := by
  cases user with
  | none => rfl
  | some user => simp [sameIdentity]

theorem wp_lookupFilteredUser_truthful (hdirectory : Directory directory)
    (hvalue : identity = .externalId → value ≠ []) (hencodable : encodable value = true)
    {sampled : Option Dict}
    (hsampled : ∀ user ∈ sampled, user ∈ holders directory identity value)
    {wanted : Except PyExc (Option Dict) → Transcript → State → Prop}
    (hwanted : ∀ later, wanted (.ok (holder directory identity value)) later state) :
    Script.wp (truthful directory sample) (lookupFilteredUser identity value sampled) wanted
      transcript state := by
  have hquote : quoteLiteral (.str value) = .ok () := ensure_eq_ok hencodable
  rw [lookupFilteredUser, hquote]
  refine wp_fetchUsersPage_truthful (FilterPage (holders directory identity value))
    (fun answer hanswer => hanswer) ?_
  intro page later hpage
  rw [validateFilteredUser_of_filterPage hdirectory hvalue hpage]
  have hagrees : sampled.isSome → sameIdentity sampled (holder directory identity value) := by
    intro hsome
    obtain ⟨user, rfl⟩ := Option.isSome_iff_exists.mp hsome
    rw [(holder_eq_some_iff hdirectory.unambiguous hvalue).mpr (hsampled user rfl)]
    exact sameIdentity_self _
  refine Script.wp_ofExcept_bind.mpr ⟨nofun, fun found hfound => ?_⟩
  obtain rfl := Except.ok.inj hfound
  refine Script.wp_ofExcept_bind.mpr ⟨fun error herror => ?_, fun _ _ => hwanted later⟩
  rw [ensure_eq_ok hagrees] at herror
  cases herror

/-- Users of the directory, filed under their ids. -/
structure Filed (directory : List Dict) (byId : List (PyStr × Dict)) : Prop where
  keys : (byId.map Prod.fst).Nodup
  entries : ∀ entry ∈ byId, entry.2 ∈ directory ∧ entry.2.get? "id" = some (.str entry.1)

omit [PyRuntime] in
theorem mem_of_lookup {byId : List (PyStr × Dict)} {userId : PyStr} {user : Dict}
    (hlookup : byId.lookup userId = some user) : (userId, user) ∈ byId := by
  obtain ⟨before, after, rfl, -⟩ := List.lookup_eq_some_iff.mp hlookup
  simp

omit [PyRuntime] in
/-- An id is filed once. -/
theorem Filed.snoc {byId : List (PyStr × Dict)} (hfiled : Filed directory byId)
    {userId : PyStr} {user : Dict} (hnew : byId.lookup userId = none) (huser : user ∈ directory)
    (hid : user.get? "id" = some (.str userId)) : Filed directory (byId ++ [(userId, user)]) where
  keys := by
    rw [List.map_append, List.map_singleton]
    refine List.nodup_append.mpr ⟨hfiled.keys, List.nodup_singleton _, ?_⟩
    intro key hkey other hother
    obtain rfl := List.mem_singleton.mp hother
    obtain ⟨entry, hentry, rfl⟩ := List.mem_map.mp hkey
    have hne := List.lookup_eq_none_iff.mp hnew entry hentry
    exact fun heq => by simp [← heq] at hne
  entries entry hentry := by
    rcases List.mem_append.mp hentry with hold | hnew
    · exact hfiled.entries entry hold
    · obtain rfl := List.mem_singleton.mp hnew
      exact ⟨huser, hid⟩

/-- A user of the directory is filed where it is not yet. -/
theorem Filed.record {byId : List (PyStr × Dict)} (hdirectory : Unambiguous directory)
    (hfiled : Filed directory byId) {found : Option Dict}
    (hfound : ∀ user ∈ found, user ∈ directory) :
    ∃ next, recordFilteredIdentity byId found = .ok next ∧ Filed directory next ∧
      (∀ entry ∈ byId, entry ∈ next) ∧ ∀ user ∈ found, ∃ userId, (userId, user) ∈ next := by
  cases found with
  | none => exact ⟨byId, rfl, hfiled, fun _ hentry => hentry, nofun⟩
  | some user =>
      have huser := hfound user rfl
      obtain ⟨userId, hid⟩ := exists_str_of_isSafeUserId (hdirectory.safe user huser)
      cases hlookup : byId.lookup userId with
      | none =>
          refine ⟨byId ++ [(userId, user)], ?_, ?_, fun _ => List.mem_append_left _, ?_⟩
          · simp [recordFilteredIdentity, requireId_eq_ok_iff.mpr hid, hlookup, bind,
              Except.bind, pure, Except.pure]
          · exact hfiled.snoc hlookup huser hid
          · rintro _ ⟨rfl⟩
            exact ⟨userId, by simp⟩
      | some previous =>
          have hmem := mem_of_lookup hlookup
          obtain ⟨hprevious, hpreviousId⟩ := hfiled.entries _ hmem
          obtain rfl := hdirectory.eq_of_id hprevious huser (hpreviousId.trans hid.symm)
          refine ⟨byId, ?_, hfiled, fun _ hentry => hentry, ?_⟩
          · have hsame : byId.map (fun entry =>
                if entry.1 = userId then (userId, previous) else entry) = byId := by
              refine (List.map_congr_left fun entry hentry => ?_).trans (List.map_id _)
              split_ifs with hsame
              · obtain ⟨hother, hotherId⟩ := hfiled.entries entry hentry
                rw [hsame] at hotherId
                have heq := hdirectory.eq_of_id hprevious hother (hid.trans hotherId.symm)
                exact Prod.ext hsame.symm heq
              · rfl
            simp [recordFilteredIdentity, requireId_eq_ok_iff.mpr hid, hlookup, bind,
              Except.bind, pure, Except.pure, ensure_eq_ok (sameIdentity_self previous), hsame]
          · rintro _ ⟨rfl⟩
            exact ⟨userId, hmem⟩

/-- The lookups so far are those of the directory. -/
structure Known (directory : List Dict) (preflight : Preflight) : Prop where
  filed : Filed directory preflight.byId
  found : ∀ result ∈ preflight.results, ∀ identity,
    (identity = .externalId → result.value identity ≠ []) ∧
    result.found identity = holder directory identity (result.value identity) ∧
    ∀ user ∈ result.found identity, ∃ userId, (userId, user) ∈ preflight.byId

theorem mem_directory_of_holder (hdirectory : Unambiguous directory)
    (hvalue : identity = .externalId → value ≠ []) :
    ∀ user ∈ holder directory identity value, user ∈ directory := by
  intro user huser
  exact (mem_holders.mp ((holder_eq_some_iff hdirectory hvalue).mp huser)).1

/-- A turn of the preflight loop. -/
theorem wp_lookupIdentity_truthful (hdirectory : Directory directory)
    (hsample : listing.Exact) (hsampled : listing.users ⊆ directory) {preflight : Preflight}
    (hknown : Known directory preflight) {externalId username : PyStr}
    (hlinked : externalId ≠ []) (hencodable : encodable externalId = true)
    (hencodable' : encodable username = true) :
    Script.wp (truthful directory sample)
      (lookupIdentity listing preflight (externalId, username))
      (fun outcome _ left => left = state ∧ ∃ next, outcome = .ok next ∧ Known directory next)
      transcript state := by
  have hunambiguous := hdirectory.unambiguous
  have hlinkedBy : IdentityAttribute.externalId = .externalId → externalId ≠ [] := fun _ => hlinked
  have hnamed : IdentityAttribute.userName = .externalId → username ≠ [] := by
    rintro ⟨⟩
  rw [lookupIdentity, Script.wp_bind]
  refine wp_lookupFilteredUser_truthful hdirectory hlinkedBy hencodable ?_
    fun middle => ?_
  · intro user huser
    obtain ⟨hmem, hsame⟩ := (hsample.externalIdMatch_eq_some_iff hlinked).mp huser
    exact mem_holders.mpr ⟨hsampled hmem, hsame⟩
  dsimp only
  rw [Script.wp_bind]
  refine wp_lookupFilteredUser_truthful hdirectory hnamed hencodable' ?_ fun later => ?_
  · intro user huser
    obtain ⟨hmem, hsame⟩ := hsample.usernameMatch_eq_some_iff.mp huser
    exact mem_holders.mpr ⟨hsampled hmem, hsame⟩
  obtain ⟨byId, hbyId, hfiled, hkept, hrecorded⟩ := hknown.filed.record hunambiguous
    (mem_directory_of_holder hunambiguous hlinkedBy)
  obtain ⟨byId', hbyId', hfiled', hkept', hrecorded'⟩ := hfiled.record hunambiguous
    (mem_directory_of_holder hunambiguous hnamed)
  dsimp only
  rw [hbyId]
  refine Script.wp_ofExcept_bind.mpr ⟨by rintro _ ⟨⟩, fun _ heq => ?_⟩
  obtain rfl := Except.ok.inj heq
  rw [hbyId']
  refine Script.wp_ofExcept_bind.mpr ⟨by rintro _ ⟨⟩, fun _ heq => ?_⟩
  obtain rfl := Except.ok.inj heq
  refine ⟨rfl, _, rfl, hfiled', ?_⟩
  intro result hresult
  rcases List.mem_append.mp hresult with hold | hnew
  · intro identity
    obtain ⟨hvalue, hfound, hkeptIn⟩ := hknown.found result hold identity
    refine ⟨hvalue, hfound, fun user huser => ?_⟩
    obtain ⟨userId, hmem⟩ := hkeptIn user huser
    exact ⟨userId, hkept' _ (hkept _ hmem)⟩
  · obtain rfl := List.mem_singleton.mp hnew
    rintro (_ | _)
    · refine ⟨fun _ => hlinked, rfl, fun user huser => ?_⟩
      obtain ⟨userId, hmem⟩ := hrecorded user huser
      exact ⟨userId, hkept' _ hmem⟩
    · exact ⟨by rintro ⟨⟩, rfl, hrecorded'⟩

/-- The accounts of a part of the directory, indexed in the order they were filed. -/
structure Indexed (byId : List (PyStr × Dict)) (listing : Listing) : Prop where
  exact : listing.Exact
  users : listing.users = byId.map Prod.snd

theorem Filed.unambiguous {byId : List (PyStr × Dict)} (hdirectory : Unambiguous directory)
    (hfiled : Filed directory byId) : Unambiguous (byId.map Prod.snd) := by
  refine hdirectory.of_subset ?_ ?_
  · refine List.Nodup.of_map (fun user => user.get? "id") ?_
    have hids : (byId.map Prod.snd).map (fun user => user.get? "id") =
        (byId.map Prod.fst).map fun userId => some (.str userId) := by
      rw [List.map_map, List.map_map]
      exact List.map_congr_left fun entry hentry => (hfiled.entries entry hentry).2
    rw [hids]
    exact hfiled.keys.map fun _ _ heq => Json.str.inj (Option.some.inj heq)
  · intro user huser
    obtain ⟨entry, hentry, rfl⟩ := List.mem_map.mp huser
    exact (hfiled.entries entry hentry).1

theorem wp_verifyFilteredUser_truthful (hdirectory : Directory directory)
    {before : List (PyStr × Dict)} {entry : PyStr × Dict}
    (hindexed : Indexed before listing)
    (hfiled : Unambiguous ((before ++ [entry]).map Prod.snd)) (hentry : entry.2 ∈ directory)
    (hid : entry.2.get? "id" = some (.str entry.1)) :
    Script.wp (truthful directory sample) (verifyFilteredUser listing entry)
      (fun outcome _ left => left = state ∧
        ∃ next, outcome = .ok next ∧ Indexed (before ++ [entry]) next)
      transcript state := by
  obtain ⟨userId, user⟩ := entry
  have hurl : userUrl userId = .ok () := by
    have hencodable := hdirectory.encodable user hentry
    rw [Dict.getD, hid] at hencodable
    exact ensure_eq_ok hencodable
  rw [verifyFilteredUser, hurl]
  refine wp_fetchUsersPage_truthful (· = user)
    (fun answer hanswer => ⟨user, hanswer user hentry hid, rfl⟩) ?_
  rintro _ later rfl
  refine Script.wp_ofExcept_bind.mpr ⟨fun error herror => ?_, fun _ _ => ?_⟩
  · rw [ensure_eq_ok ⟨sameIdentity_self _, hdirectory.objectNames _ hentry⟩] at herror
    cases herror
  · rw [Script.wp_ofExcept]
    rw [List.map_append, ← hindexed.users] at hfiled
    obtain ⟨next, hnext⟩ := hindexed.exact.exists_foldlM_index hfiled
    obtain ⟨hexact, husers⟩ := hindexed.exact.foldlM_index hnext
    refine ⟨rfl, next, ?_, hexact, ?_⟩
    · simpa using hnext
    · rw [husers, hindexed.users, List.map_append]

/-- A listing of what was found is what the directory holds. -/
theorem identityMatch_eq_holder (hdirectory : Unambiguous directory) {preflight : Preflight}
    (hknown : Known directory preflight) (hindexed : Indexed preflight.byId listing)
    {result : IdentityLookup} (hresult : result ∈ preflight.results)
    (identity : IdentityAttribute) :
    listing.identityMatch identity (result.value identity) = result.found identity := by
  obtain ⟨hvalue, hfound, hrecorded⟩ := hknown.found result hresult identity
  have hmatch : ∀ user, listing.identityMatch identity (result.value identity) = some user ↔
      user ∈ listing.users ∧ user ∈ holders directory identity (result.value identity) := by
    intro user
    have hsubset : user ∈ listing.users → user ∈ directory := by
      intro huser
      rw [hindexed.users] at huser
      obtain ⟨entry, hentry, rfl⟩ := List.mem_map.mp huser
      exact (hknown.filed.entries entry hentry).1
    rw [mem_holders]
    cases identity
    · rw [Listing.identityMatch, hindexed.exact.externalIdMatch_eq_some_iff (hvalue rfl)]
      exact ⟨fun hmatch => ⟨hmatch.1, hsubset hmatch.1, hmatch.2⟩,
        fun hmatch => ⟨hmatch.1, hmatch.2.2⟩⟩
    · rw [Listing.identityMatch, hindexed.exact.usernameMatch_eq_some_iff]
      exact ⟨fun hmatch => ⟨hmatch.1, hsubset hmatch.1, hmatch.2⟩,
        fun hmatch => ⟨hmatch.1, hmatch.2.2⟩⟩
  refine Option.ext fun user => ?_
  rw [hmatch]
  constructor
  · rintro ⟨-, hholder⟩
    rw [hfound]
    exact (holder_eq_some_iff hdirectory hvalue).mpr hholder
  · intro huser
    obtain ⟨userId, hmem⟩ := hrecorded user huser
    rw [hfound] at huser
    exact ⟨hindexed.users ▸ List.mem_map.mpr ⟨_, hmem, rfl⟩,
      (holder_eq_some_iff hdirectory hvalue).mp huser⟩

/-- Source users whose identities can be put into a URL. -/
def Quotable (scimUsers : List Dict) : Prop :=
  ∀ user ∈ scimUsers, hasUsername user = true ∧ encodable (externalIdOf user) = true ∧
    encodable (lookupUsername user) = true

theorem wp_getExistingUsersByFilter_truthful (hdirectory : Directory directory)
    {scimUsers : List Dict} (hsource : Identifiable [] [] scimUsers)
    (hquotable : Quotable scimUsers) (hexact : listing.Exact)
    (hsampled : listing.users ⊆ directory) :
    Script.wp (truthful directory sample) (getExistingUsersByFilter scimUsers listing)
      (fun outcome _ _ => ∃ next, outcome = .ok next) transcript state := by
  rw [getExistingUsersByFilter, sourceIdentities_eq_ok_iff.mpr ⟨hsource, rfl⟩]
  refine Script.wp_ofExcept_bind.mpr ⟨nofun, fun identities hidentities => ?_⟩
  obtain rfl := Except.ok.inj hidentities
  rw [Script.wp_bind]
  refine Script.wp_foldlM (fun _ preflight _ _ => Known directory preflight) ?_ ?_
    ⟨⟨.nil, nofun⟩, nofun⟩
  · intro before identity after hitems preflight later left hknown
    have hmem : identity ∈ scimUsers.map fun user => (externalIdOf user, lookupUsername user) := by
      simp [hitems]
    obtain ⟨user, huser, rfl⟩ := List.mem_map.mp hmem
    obtain ⟨-, hencodable, hencodable'⟩ := hquotable user huser
    refine Script.wp_mono (wp_lookupIdentity_truthful hdirectory hexact hsampled hknown
      (hsource.linked user huser) hencodable hencodable') ?_
    rintro _ _ _ ⟨-, next, rfl, hnext⟩
    exact hnext
  · intro preflight later left hknown
    dsimp only
    have hunambiguous := hknown.filed.unambiguous hdirectory.unambiguous
    rw [Script.wp_bind]
    refine Script.wp_foldlM (fun before listing _ _ => Indexed before listing) ?_ ?_
      ⟨.empty, rfl⟩
    · intro before entry after hitems listing middle left hindexed
      have hentry : entry ∈ preflight.byId := by simp [hitems]
      obtain ⟨hmem, hid⟩ := hknown.filed.entries entry hentry
      have hprefix : Unambiguous ((before ++ [entry]).map Prod.snd) := by
        rw [hitems] at hunambiguous
        refine hunambiguous.sublist (List.Sublist.map _ ?_)
        exact List.Sublist.append_left (List.singleton_sublist.mpr List.mem_cons_self) before
      refine Script.wp_mono
        (wp_verifyFilteredUser_truthful hdirectory hindexed hprefix hmem hid) ?_
      rintro _ _ _ ⟨-, next, rfl, hnext⟩
      exact hnext
    · intro found final left hindexed
      dsimp only
      have hagree : (preflight.results.all fun result =>
          sameIdentity result.externalMatch (found.externalIdMatch result.externalId) &&
          sameIdentity result.usernameMatch
            (found.usernameMatch (normalizeIdentifier (some (.str result.username))))) =
          true := by
        refine List.all_eq_true.mpr fun result hresult => Bool.and_eq_true_iff.mpr ⟨?_, ?_⟩
        · have hmatch := identityMatch_eq_holder hdirectory.unambiguous hknown hindexed hresult
            .externalId
          exact (congrArg _ hmatch).trans (sameIdentity_self _)
        · have hmatch := identityMatch_eq_holder hdirectory.unambiguous hknown hindexed hresult
            .userName
          exact (congrArg _ hmatch).trans (sameIdentity_self _)
      rw [ensure_eq_ok hagree]
      exact ⟨found, rfl⟩

/-! ## The whole lookup -/

omit [PyRuntime] in
theorem appleSinglePage_of_pageLocal {data : Dict} (hpage : PageLocal sample data)
    (hcount : sample.length ≤ userListCount) :
    appleSinglePage data userListCount = .ok (some sample) := by
  have hlength : (sample.map Json.dict).length = sample.length := List.length_map _
  have hnormalized : StandardPage sample sample.length 1
      ((data.set "startIndex" (.int 1)).set "itemsPerPage" (.int sample.length)) := by
    refine ⟨?_, ?_, ?_, Dict.get?_set_self _ _ _⟩
    · rw [Dict.getD, Dict.get?_set_of_ne _ _ (by decide), Dict.get?_set_of_ne _ _ (by decide),
        hpage.resources]
      rfl
    · rw [Dict.get?_set_of_ne _ _ (by decide), Dict.get?_set_of_ne _ _ (by decide), hpage.total]
    · rw [Dict.get?_set_of_ne _ _ (by decide), Dict.get?_set_self]
  have hpages : validateUsersPage
      ((data.set "startIndex" (.int 1)).set "itemsPerPage" (.int sample.length)) 1 none =
      .ok (sample, sample.length) :=
    validateUsersPage_of_standardPage hnormalized (by rintro _ ⟨⟩) (by omega)
      (by rintro ⟨rfl, hstart⟩; simp at hstart) le_rfl
  rw [appleSinglePage, hpage.resources, hpage.total, hpage.start, hpage.perPage]
  dsimp only
  rw [hlength, if_neg (by simp), ensure_eq_ok hcount]
  dsimp only [bind, Except.bind]
  rw [hpages]
  rfl

/-- Where the listing is page-local, the preflight takes over and returns. -/
theorem wp_existingUsers_truthful (hdirectory : Directory directory)
    (hsample : sample ⊆ directory) (hnodup : sample.Nodup)
    (hcount : sample.length ≤ userListCount) {scimUsers : List Dict}
    (hsource : Identifiable [] [] scimUsers) (hquotable : Quotable scimUsers) :
    Script.wp (truthful directory sample) (existingUsers scimUsers)
      (fun outcome _ _ => ∃ next, outcome = .ok (next, true)) transcript state := by
  have hsampled : Unambiguous ((({} : Listing).users) ++ sample) :=
    hdirectory.unambiguous.of_subset hnodup hsample
  obtain ⟨listing, hlisting⟩ := Listing.Exact.empty.exists_foldlM_index hsampled
  obtain ⟨hexact, husers⟩ := Listing.Exact.empty.foldlM_index hlisting
  have hsubset : listing.users ⊆ directory := by
    rw [husers]
    exact hsample
  rw [existingUsers, Script.wp_tryCatch, Script.wp_bind]
  refine wp_fetchUsersPage_truthful (PageLocal sample) (fun answer hanswer => hanswer) ?_
  intro page later hpage
  rw [appleSinglePage_of_pageLocal hpage hcount]
  refine Script.wp_ofExcept_bind.mpr ⟨by rintro _ ⟨⟩, fun single hsingle => ?_⟩
  obtain rfl := Except.ok.inj hsingle
  dsimp only
  rw [indexUserList, hlisting]
  refine Script.wp_ofExcept_bind.mpr ⟨by rintro _ ⟨⟩, fun first hfirst => ?_⟩
  obtain rfl := Except.ok.inj hfirst
  rw [Script.wp_throw]
  dsimp only
  rw [Script.wp_bind]
  refine Script.wp_mono
    (wp_getExistingUsersByFilter_truthful hdirectory hsource hquotable hexact hsubset) ?_
  rintro _ _ _ ⟨next, rfl⟩
  exact ⟨next, rfl⟩

end Returning

/-! ## Agreement of the two modes -/

section Modes

variable {directory sample scimUsers : List Dict} {transcript : Transcript}
variable {listing full : Listing} {user : Dict}

/-- A complete listing finds a user exactly where the directory has one. -/
theorem Listing.Exact.identityMatch_iff {identity : IdentityAttribute} {value : PyStr}
    (hexact : full.Exact) (hall : full.users.Perm directory)
    (hvalue : identity = .externalId → value ≠ []) :
    full.identityMatch identity value = some user ↔ user ∈ holders directory identity value := by
  rw [mem_holders, ← hall.mem_iff]
  cases identity
  · exact hexact.externalIdMatch_eq_some_iff (hvalue rfl)
  · exact hexact.usernameMatch_eq_some_iff

/-- The preflight decides as a complete listing does. -/
theorem Preflighted.decision_eq (hdirectory : Unambiguous directory)
    (hpreflighted : Preflighted scimUsers transcript listing)
    (htruthful : ∀ exchange ∈ transcript, Truthful directory sample exchange.1 exchange.2)
    (hexact : full.Exact) (hall : full.users.Perm directory) (huser : user ∈ scimUsers) :
    listing.decision user = full.decision user := by
  have hlinked := hpreflighted.identifiable.linked user huser
  have hnamed := hpreflighted.identifiable.named user huser
  have hmatch : ∀ identity, listing.identityMatch identity (identityValue user identity) =
      full.identityMatch identity (identityValue user identity) := by
    intro identity
    have hvalue : identity = .externalId → identityValue user identity ≠ [] := by
      rintro rfl
      exact hlinked
    refine Option.ext fun found => ?_
    rw [hpreflighted.identityMatch_iff hdirectory htruthful huser,
      hexact.identityMatch_iff hall hvalue]
  have hexternalId := hmatch .externalId
  have husername := hmatch .userName
  rw [Listing.identityMatch, Listing.identityMatch, identityValue] at hexternalId
  rw [Listing.identityMatch, Listing.identityMatch, identityValue,
    normalizeIdentifier_lookupUsername hnamed] at husername
  rw [hpreflighted.exact.decision_eq hlinked, hexact.decision_eq hlinked, hexternalId, husername]

/-- Against a fixed directory whose filters and direct reads are truthful, the lookup of
single identities returns, and matches every source user as a complete listing does. -/
theorem lookups_decide_alike (hdirectory : Unambiguous directory)
    (hnames : ∀ user ∈ directory, hasObjectName user = true) (hsample : sample ⊆ directory)
    (hnodup : sample.Nodup) (hcount : sample.length ≤ userListCount)
    (hlinked : ∀ user ∈ scimUsers, externalIdOf user ≠ [])
    (hexternalIds : (scimUsers.map externalIdOf).Nodup)
    (husernames : (scimUsers.map usernameOf).Nodup) (answers pages : ℕ → Outcome)
    (htruthful : ∀ exchange ∈ (Script.converse answers (existingUsers scimUsers) ()).1,
      Truthful directory sample exchange.1 exchange.2)
    (hfull : (Script.converse pages getExistingUsers ()).2.1 = .ok full)
    (hall : (usersOf (Script.converse pages getExistingUsers ()).1).Perm directory) :
    (∀ listing, (Script.converse answers (existingUsers scimUsers) ()).2.1 =
        .ok (listing, true) →
      ∀ user ∈ scimUsers, listing.decision user = full.decision user) ∧
    (Quotable scimUsers →
      (∀ user ∈ directory, (user.getD "id" .null).encodable = true) →
      ∃ listing, (Script.converse answers (existingUsers scimUsers) ()).2.1 =
        .ok (listing, true)) := by
  obtain ⟨-, -, hlistedBy⟩ := runs_getExistingUsers (Script.runs_converse pages
    getExistingUsers ())
  have hcomplete := hlistedBy.complete full hfull
  constructor
  · intro listing hlisting user huser
    obtain ⟨-, -, hlisted⟩ := runs_existingUsers (Script.runs_converse answers
      (existingUsers scimUsers) ())
    obtain ⟨first, later, heq, hpreflighted⟩ :=
      (hlisted listing true hlisting).preflighted rfl
    have hlater : ∀ exchange ∈ later, Truthful directory sample exchange.1 exchange.2 :=
      fun exchange hexchange =>
        htruthful exchange (heq ▸ List.mem_append_right first hexchange)
    exact hpreflighted.decision_eq hdirectory hlater hcomplete.exact (hcomplete.users ▸ hall)
      huser
  · intro hquotable hencodable
    have hidentifiable : Identifiable [] [] scimUsers :=
      ⟨hlinked, fun user huser => (hquotable user huser).1, hexternalIds, husernames, nofun,
        nofun⟩
    refine (Script.converse_of_wp_of_admitted (wp_existingUsers_truthful
      ⟨hdirectory, hnames, hencodable⟩ hsample hnodup hcount hidentifiable hquotable)
      fun before exchange after heq => htruthful exchange ?_).2
    rw [heq]
    exact List.mem_append_right before List.mem_cons_self

end Modes

end Lookups

/-! Two accounts of a directory, each found by one identity of the same source user. -/

section Sample

open SsfTransmitter.Python.Ascii

def adaRecord : Dict :=
  [("id", .str "1"), ("userName", .str "Ada")]

def bobRecord : Dict :=
  [("id", .str "2"), ("userName", .str "bob"), ("externalId", .str "a")]

def adaSource : Dict :=
  [("externalId", .str "a"), ("userName", .str "ada")]

def filteredAnswers (position : ℕ) : Outcome :=
  [usersPage [bobRecord] 1 2 200, usersPage [bobRecord] 1 1 1, usersPage [adaRecord] 1 1 1,
    .response ⟨200, .json (.dict bobRecord), true⟩,
    .response ⟨200, .json (.dict adaRecord), true⟩].getD position .networkError

def pagedAnswers (position : ℕ) : Outcome :=
  [usersPage [adaRecord] 2 1 1, usersPage [bobRecord] 2 2 1].getD position .networkError

theorem truthful_filteredAnswers :
    ∀ exchange ∈ (Script.converse filteredAnswers (existingUsers [adaSource]) ()).1,
      Truthful [adaRecord, bobRecord] [bobRecord] exchange.1 exchange.2 := by
  have hrun : (Script.converse filteredAnswers (existingUsers [adaSource]) ()).1 =
      [(.listUsers none, filteredAnswers 0),
        (.filterUsers .externalId (.str "a"), filteredAnswers 1),
        (.filterUsers .userName (.str "ada"), filteredAnswers 2),
        (.readUser "2", filteredAnswers 3), (.readUser "1", filteredAnswers 4)] := by
    decide +kernel
  rw [hrun]
  simp only [List.forall_mem_cons]
  refine ⟨⟨_, rfl, rfl, rfl, rfl, rfl⟩, ⟨_, rfl, ?_⟩, ⟨_, rfl, ?_⟩, ?_, ?_, nofun⟩
  · exact ⟨by decide +kernel, by decide +kernel, by decide +kernel, by decide +kernel⟩
  · exact ⟨by decide +kernel, by decide +kernel, by decide +kernel, by decide +kernel⟩
  · rw [Truthful]
    decide +kernel
  · rw [Truthful]
    decide +kernel

theorem lookups_decide_alike_conflict :
    ∃ listing full,
      (Script.converse filteredAnswers (existingUsers [adaSource]) ()).2.1 =
        .ok (listing, true) ∧
      (Script.converse pagedAnswers getExistingUsers ()).2.1 = .ok full ∧
      listing.decision adaSource = full.decision adaSource ∧
      full.decision adaSource = .ok (none, false, true) := by
  obtain ⟨full, hfull, hdecision⟩ : ∃ full,
      (Script.converse pagedAnswers getExistingUsers ()).2.1 = .ok full ∧
      full.decision adaSource = .ok (none, false, true) := by
    refine ⟨⟨[adaRecord, bobRecord], ["2", "1"], [("a", 1)], [("bob", 1), ("ada", 0)]⟩, ?_, ?_⟩
    · decide +kernel
    · decide +kernel
  have hdirectory : Unambiguous [adaRecord, bobRecord] :=
    ⟨by decide +kernel, by decide +kernel, by decide +kernel, by decide +kernel,
      by decide +kernel⟩
  have halike := lookups_decide_alike hdirectory (by decide +kernel) (by decide +kernel)
    (by decide +kernel) (by decide +kernel) (by decide +kernel) (by decide +kernel)
    (by decide +kernel) filteredAnswers pagedAnswers truthful_filteredAnswers hfull
    (by decide +kernel)
  obtain ⟨listing, hlisting⟩ := halike.2 (by rw [Quotable]; decide +kernel) (by decide +kernel)
  exact ⟨listing, full, hlisting, hfull, halike.1 listing hlisting adaSource List.mem_cons_self,
    hdecision⟩

end Sample

end SsfTransmitter.Scim
