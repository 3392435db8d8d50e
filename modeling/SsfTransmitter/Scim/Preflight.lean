import SsfTransmitter.Scim.CompleteListing
import SsfTransmitter.Scim.Lookup

/-!
# What the preflight establishes

A preflight only reads.  Where it returns, its indexes agree with every filter
response, and each indexed record was read directly.
-/

namespace SsfTransmitter.Scim

open SsfTransmitter.Core
open SsfTransmitter.Python

variable [PyRuntime]

/-! ## Filter responses -/

/-- A response to a filter that holds this user, or none. -/
def Outcome.Shows (outcome : Outcome) (found : Option Dict) : Prop :=
  ∃ data, outcome.usersPage = .ok data ∧ resourcesOf data = found.toList

/-- A user that was found under an identity. -/
structure Identified (identity : IdentityAttribute) (value : PyStr) (user : Dict) : Prop where
  safe : isSafeUserId (user.get? "id") = true
  named : hasUsername user = true
  objectName : hasObjectName user = true
  matched : match identity with
    | .userName => usernameOf user = normalizeIdentifier (some (.str value))
    | .externalId => externalIdOf user = value

omit [PyRuntime] in
theorem filteredResources_eq_ok {data : Dict} {resources : List Dict}
    (hresources : filteredResources data = .ok resources) :
    resourcesOf data = resources ∧ resources.length ≤ 1 := by
  simp only [filteredResources, requireInt_bind_eq_ok, ensure_bind_eq_ok,
    requireObjects_bind_eq_ok] at hresources
  obtain ⟨total, -, -, start, -, -, items, records, hitems, hrecords, perPage, -,
    ⟨-, htotal⟩, hone, hresult⟩ := hresources
  cases hresult
  refine ⟨resourcesOf_eq ?_, by omega⟩
  rw [eq_map_dict_of_objects? hrecords] at hitems
  rw [← hitems, Dict.getD, Dict.getD]
  cases hget : data.get? "Resources" with
  | some value => rfl
  | none =>
      rw [Dict.getD, hget, Option.getD_none] at hitems
      split_ifs at hitems with hzero
      rw [if_pos hzero]

theorem validateFilteredUser_eq_ok {data : Dict} {identity : IdentityAttribute}
    {value : PyStr} {found : Option Dict}
    (hfound : validateFilteredUser data identity value = .ok found) :
    resourcesOf data = found.toList ∧ ∀ user ∈ found, Identified identity value user := by
  rw [validateFilteredUser, bind_eq_ok_iff] at hfound
  obtain ⟨resources, hresources, hfound⟩ := hfound
  obtain ⟨heq, hlength⟩ := filteredResources_eq_ok hresources
  match resources, hlength with
  | [], _ =>
      cases hfound
      exact ⟨heq, nofun⟩
  | [user], _ =>
      simp only [ensure_bind_eq_ok] at hfound
      obtain ⟨hsafe, ⟨hnamed, hname⟩, hmatched, hresult⟩ := hfound
      cases hresult
      refine ⟨heq, ?_⟩
      rintro _ ⟨rfl⟩
      refine ⟨hsafe, hnamed, hname, ?_⟩
      cases identity <;> simpa using hmatched

/-! ## Looking up the source identities -/

namespace IdentityLookup

/-- The value that an identity was looked up by. -/
def value (result : IdentityLookup) : IdentityAttribute → PyStr
  | .externalId => result.externalId
  | .userName => result.username

/-- The user that was found by it. -/
def found (result : IdentityLookup) : IdentityAttribute → Option Dict
  | .externalId => result.externalMatch
  | .userName => result.usernameMatch

def request (result : IdentityLookup) (identity : IdentityAttribute) : Request :=
  .filterUsers identity (.str (result.value identity))

end IdentityLookup

variable {State : Type} {state : State}

theorem wp_lookupFilteredUser {identity : IdentityAttribute} {value : PyStr}
    {sampled : Option Dict} {transcript : Transcript}
    {wanted : Except PyExc (Option Dict) → Transcript → State → Prop}
    (hfailed : ∀ error later, wanted (.error error) later state)
    (hfound : ∀ outcome found, Outcome.Shows outcome found →
      (∀ user ∈ found, Identified identity value user) →
      wanted (.ok found) (transcript ++ [(.filterUsers identity (.str value), outcome)])
        state) :
    Script.wp reading (lookupFilteredUser identity value sampled) wanted transcript
      state := by
  refine Script.wp_ofExcept_bind.mpr ⟨fun error _ => hfailed error _, fun _ _ => ?_⟩
  refine wp_fetchUsersPage_bind (reads_filterUsers _ _ _) (fun _ error _ => hfailed error _)
    fun outcome data hdata => ?_
  refine Script.wp_ofExcept_bind.mpr ⟨fun error _ => hfailed error _, fun found hvalid => ?_⟩
  refine Script.wp_ofExcept_bind.mpr ⟨fun error _ => hfailed error _, fun _ _ => ?_⟩
  obtain ⟨hshown, hidentified⟩ := validateFilteredUser_eq_ok hvalid
  exact hfound outcome found ⟨data, hdata, hshown⟩ hidentified

omit [PyRuntime] in
/-- Recorded accounts are filed under their own id. -/
theorem requireId_eq_ok_iff {user : Dict} {userId : PyStr} :
    requireId user = .ok userId ↔ user.get? "id" = some (.str userId) := by
  rw [requireId]
  split <;> simp_all

theorem mem_of_recordFilteredIdentity {byId next : List (PyStr × Dict)}
    {found : Option Dict} (hrecord : recordFilteredIdentity byId found = .ok next)
    {entry : PyStr × Dict} (hentry : entry ∈ next) :
    entry ∈ byId ∨ found = some entry.2 ∧ entry.2.get? "id" = some (.str entry.1) := by
  rw [recordFilteredIdentity.eq_def] at hrecord
  split at hrecord
  · cases hrecord
    exact .inl hentry
  next user =>
    obtain ⟨userId, huserId, hrecord⟩ := bind_eq_ok_iff.mp hrecord
    rw [requireId_eq_ok_iff] at huserId
    split at hrecord
    · cases hrecord
      rcases List.mem_append.mp hentry with hentry | hentry
      · exact .inl hentry
      · obtain rfl := List.mem_singleton.mp hentry
        exact .inr ⟨rfl, huserId⟩
    · rw [ensure_bind_eq_ok] at hrecord
      cases hrecord.2
      obtain ⟨old, hold, rfl⟩ := List.mem_map.mp hentry
      split_ifs
      · exact .inr ⟨rfl, huserId⟩
      · exact .inl hold

/-- The lookups so far, and the exchanges that they are read from. -/
structure Looked (identities : List (PyStr × PyStr)) (transcript : Transcript)
    (preflight : Preflight) : Prop where
  identities : preflight.results.map (fun result => (result.externalId, result.username)) =
    identities
  shown : ∀ exchange ∈ transcript, ∃ result ∈ preflight.results, ∃ identity,
    exchange.1 = result.request identity ∧ exchange.2.Shows (result.found identity)
  asked : ∀ result ∈ preflight.results, ∀ identity, ∃ outcome,
    (result.request identity, outcome) ∈ transcript ∧ outcome.Shows (result.found identity)
  identified : ∀ result ∈ preflight.results, ∀ identity, ∀ user ∈ result.found identity,
    Identified identity (result.value identity) user
  byId : ∀ entry ∈ preflight.byId, entry.2.get? "id" = some (.str entry.1) ∧
    ∃ result ∈ preflight.results, ∃ identity, result.found identity = some entry.2

theorem Looked.start : Looked [] [] {} :=
  ⟨rfl, nofun, nofun, nofun, nofun⟩

/-- One more result with its two exchanges. -/
theorem Looked.add {identities : List (PyStr × PyStr)} {transcript : Transcript}
    {preflight : Preflight} (hlooked : Looked identities transcript preflight)
    (result : IdentityLookup) {first second : Outcome} {byId byId' : List (PyStr × Dict)}
    (hfirst : first.Shows result.externalMatch) (hsecond : second.Shows result.usernameMatch)
    (hidentified : ∀ identity, ∀ user ∈ result.found identity,
      Identified identity (result.value identity) user)
    (hbyId : recordFilteredIdentity preflight.byId result.externalMatch = .ok byId)
    (hbyId' : recordFilteredIdentity byId result.usernameMatch = .ok byId') :
    Looked (identities ++ [(result.externalId, result.username)])
      (transcript ++ [(result.request .externalId, first)] ++
        [(result.request .userName, second)])
      ⟨byId', preflight.results ++ [result]⟩ where
  identities := by rw [List.map_append, hlooked.identities]; rfl
  shown exchange hexchange := by
    simp only [List.mem_append, List.mem_singleton] at hexchange
    rcases hexchange with (hold | rfl) | rfl
    · obtain ⟨earlier, hearlier, hshown⟩ := hlooked.shown exchange hold
      exact ⟨earlier, List.mem_append_left _ hearlier, hshown⟩
    · exact ⟨result, List.mem_append_right _ List.mem_cons_self, .externalId, rfl, hfirst⟩
    · exact ⟨result, List.mem_append_right _ List.mem_cons_self, .userName, rfl, hsecond⟩
  asked other hother identity := by
    rcases List.mem_append.mp hother with hold | hnew
    · obtain ⟨outcome, hasked, hshown⟩ := hlooked.asked other hold identity
      exact ⟨outcome, List.mem_append_left _ (List.mem_append_left _ hasked), hshown⟩
    · obtain rfl := List.mem_singleton.mp hnew
      cases identity
      · exact ⟨first, by simp, hfirst⟩
      · exact ⟨second, by simp, hsecond⟩
  identified other hother := by
    rcases List.mem_append.mp hother with hold | hnew
    · exact hlooked.identified other hold
    · obtain rfl := List.mem_singleton.mp hnew
      exact hidentified
  byId entry hentry := by
    have hnew : ∀ identity, result.found identity = some entry.2 →
        ∃ other ∈ preflight.results ++ [result], ∃ identity,
          other.found identity = some entry.2 := fun identity hfound =>
      ⟨result, List.mem_append_right _ List.mem_cons_self, identity, hfound⟩
    rcases mem_of_recordFilteredIdentity hbyId' hentry with hentry | ⟨hfound, huserId⟩
    · rcases mem_of_recordFilteredIdentity hbyId hentry with hentry | ⟨hfound, huserId⟩
      · obtain ⟨huserId, other, hother, hfound⟩ := hlooked.byId entry hentry
        exact ⟨huserId, other, List.mem_append_left _ hother, hfound⟩
      · exact ⟨huserId, hnew .externalId hfound⟩
    · exact ⟨huserId, hnew .userName hfound⟩

theorem wp_lookupIdentity {sample : Listing} {preflight : Preflight}
    {identities : List (PyStr × PyStr)} {identity : PyStr × PyStr} {transcript : Transcript}
    (hlooked : Looked identities transcript preflight) :
    Script.wp reading (lookupIdentity sample preflight identity)
      (fun outcome after left => left = state ∧
        ∀ next, outcome = .ok next → Looked (identities ++ [identity]) after next)
      transcript state := by
  obtain ⟨externalId, username⟩ := identity
  rw [lookupIdentity, Script.wp_bind]
  refine wp_lookupFilteredUser (fun error later => ⟨rfl, nofun⟩)
    fun first externalMatch hexternalShown hexternalIdentified => ?_
  dsimp only
  rw [Script.wp_bind]
  refine wp_lookupFilteredUser (fun error later => ⟨rfl, nofun⟩)
    fun second usernameMatch husernameShown husernameIdentified => ?_
  refine Script.wp_ofExcept_bind.mpr ⟨fun error _ => ⟨rfl, nofun⟩, fun byId hbyId => ?_⟩
  refine Script.wp_ofExcept_bind.mpr ⟨fun error _ => ⟨rfl, nofun⟩, fun byId' hbyId' => ?_⟩
  refine ⟨rfl, ?_⟩
  rintro _ ⟨rfl⟩
  refine hlooked.add ⟨externalId, username, externalMatch, usernameMatch⟩ hexternalShown
    husernameShown ?_ hbyId hbyId'
  rintro (_ | _)
  · exact hexternalIdentified
  · exact husernameIdentified

/-! ## Reading the accounts back -/

/-- The accounts read so far agree with what was found, and are indexed. -/
structure Verified (byId : List (PyStr × Dict)) (looked transcript : Transcript)
    (listing : Listing) : Prop where
  exact : listing.Exact
  kept : ∀ exchange ∈ looked, exchange ∈ transcript
  reads : ∀ exchange ∈ transcript, exchange ∈ looked ∨ ∃ userId, exchange.1 = .readUser userId
  read : ∀ record ∈ listing.users, ∃ userId outcome,
    record.get? "id" = some (.str userId) ∧ (.readUser userId, outcome) ∈ transcript ∧
      outcome.usersPage = .ok record
  found : ∀ record ∈ listing.users, ∃ entry ∈ byId,
    sameIdentity (some entry.2) (some record) = true

theorem Verified.start (byId : List (PyStr × Dict)) (looked : Transcript) :
    Verified byId looked looked {} :=
  ⟨.empty, fun _ hexchange => hexchange, fun _ hexchange => .inl hexchange, nofun, nofun⟩

theorem id_eq_of_sameIdentity {first second : Dict}
    (hsame : sameIdentity (some first) (some second) = true) :
    first.get? "id" = second.get? "id" := by
  simp only [sameIdentity, Bool.and_eq_true, decide_eq_true_eq] at hsame
  exact hsame.1.1

theorem wp_verifyFilteredUser {byId : List (PyStr × Dict)} {looked transcript : Transcript}
    {listing : Listing} (hverified : Verified byId looked transcript listing)
    (hstarted : transcript ≠ []) {entry : PyStr × Dict} (hentry : entry ∈ byId)
    (hid : entry.2.get? "id" = some (.str entry.1)) :
    Script.wp reading (verifyFilteredUser listing entry)
      (fun outcome after left => left = state ∧
        ∀ next, outcome = .ok next → Verified byId looked after next)
      transcript state := by
  obtain ⟨userId, filtered⟩ := entry
  refine Script.wp_ofExcept_bind.mpr ⟨fun error _ => ⟨rfl, nofun⟩, fun _ _ => ?_⟩
  refine wp_fetchUsersPage_bind (reads_readUser hstarted userId)
    (fun _ error _ => ⟨rfl, nofun⟩) fun outcome record hrecord => ?_
  refine Script.wp_ofExcept_bind.mpr ⟨fun error _ => ⟨rfl, nofun⟩, fun _ hchecked => ?_⟩
  rw [Script.wp_ofExcept]
  refine ⟨rfl, fun next hnext => ?_⟩
  have hsame : sameIdentity (some filtered) (some record) = true := by
    rw [ensure] at hchecked
    split_ifs at hchecked with hboth
    exact hboth.1
  have hindexed : [record].foldlM indexUniqueUser listing = .ok next := by simp [hnext]
  obtain ⟨hexact, husers⟩ := hverified.exact.foldlM_index hindexed
  refine ⟨hexact, fun exchange hexchange => List.mem_append_left _ (hverified.kept _ hexchange),
    ?_, ?_, ?_⟩
  · intro exchange hexchange
    rcases List.mem_append.mp hexchange with hold | hread
    · exact hverified.reads exchange hold
    · exact .inr ⟨userId, by rw [List.mem_singleton.mp hread]⟩
  · intro other hother
    rw [husers] at hother
    rcases List.mem_append.mp hother with hold | hread
    · obtain ⟨otherId, answer, hotherId, hread, hpage⟩ := hverified.read other hold
      exact ⟨otherId, answer, hotherId, List.mem_append_left _ hread, hpage⟩
    · obtain rfl := List.mem_singleton.mp hread
      exact ⟨userId, outcome, (id_eq_of_sameIdentity hsame).symm.trans hid, by simp, hrecord⟩
  · intro other hother
    rw [husers] at hother
    rcases List.mem_append.mp hother with hold | hread
    · exact hverified.found other hold
    · obtain rfl := List.mem_singleton.mp hread
      exact ⟨(userId, filtered), hentry, hsame⟩

/-! ## The whole preflight -/

/-- The record that an index holds under an identity. -/
def Listing.identityMatch (listing : Listing) : IdentityAttribute → PyStr → Option Dict
  | .externalId, value => listing.externalIdMatch value
  | .userName, value => listing.usernameMatch (normalizeIdentifier (some (.str value)))

/-- The `userName` of a source user, as it is looked up. -/
def lookupUsername (user : Dict) : PyStr :=
  match user.get? "userName" with
  | some (.str username) => username
  | _ => []

/-- The value that a source user is looked up by. -/
def identityValue (user : Dict) : IdentityAttribute → PyStr
  | .externalId => externalIdOf user
  | .userName => lookupUsername user

/-- The lookup of a source user by one of its identities. -/
def identityRequest (user : Dict) (identity : IdentityAttribute) : Request :=
  .filterUsers identity (.str (identityValue user identity))

/-- Source users that the preflight accepts: linked, named and told apart. -/
structure Identifiable (seenExternalIds seenUsernames : List PyStr) (users : List Dict) :
    Prop where
  linked : ∀ user ∈ users, externalIdOf user ≠ []
  named : ∀ user ∈ users, hasUsername user = true
  externalIds : (users.map externalIdOf).Nodup
  usernames : (users.map usernameOf).Nodup
  newExternalIds : ∀ user ∈ users, externalIdOf user ∉ seenExternalIds
  newUsernames : ∀ user ∈ users, usernameOf user ∉ seenUsernames

theorem Identifiable.cons_iff {seenExternalIds seenUsernames : List PyStr} {user : Dict}
    {users : List Dict} :
    Identifiable seenExternalIds seenUsernames (user :: users) ↔
      (externalIdOf user ≠ [] ∧ hasUsername user = true) ∧
      (externalIdOf user ∉ seenExternalIds ∧ usernameOf user ∉ seenUsernames) ∧
      Identifiable (externalIdOf user :: seenExternalIds) (usernameOf user :: seenUsernames)
        users := by
  constructor
  · rintro ⟨hlinked, hnamed, hexternalIds, husernames, hnewExternalIds, hnewUsernames⟩
    rw [List.forall_mem_cons] at hlinked hnamed hnewExternalIds hnewUsernames
    rw [List.map_cons, List.nodup_cons] at hexternalIds husernames
    refine ⟨⟨hlinked.1, hnamed.1⟩, ⟨hnewExternalIds.1, hnewUsernames.1⟩, hlinked.2, hnamed.2,
      hexternalIds.2, husernames.2, fun other hother => ?_, fun other hother => ?_⟩
    · exact fun hmem => (List.mem_cons.mp hmem).elim
        (fun heq => hexternalIds.1 (heq ▸ List.mem_map_of_mem hother))
        (hnewExternalIds.2 other hother)
    · exact fun hmem => (List.mem_cons.mp hmem).elim
        (fun heq => husernames.1 (heq ▸ List.mem_map_of_mem hother))
        (hnewUsernames.2 other hother)
  · rintro ⟨⟨hlinked, hnamed⟩, ⟨hnewExternalId, hnewUsername⟩, hrest⟩
    refine ⟨List.forall_mem_cons.mpr ⟨hlinked, hrest.linked⟩,
      List.forall_mem_cons.mpr ⟨hnamed, hrest.named⟩,
      List.nodup_cons.mpr ⟨?_, hrest.externalIds⟩, List.nodup_cons.mpr ⟨?_, hrest.usernames⟩,
      List.forall_mem_cons.mpr ⟨hnewExternalId, fun other hother => ?_⟩,
      List.forall_mem_cons.mpr ⟨hnewUsername, fun other hother => ?_⟩⟩
    · rintro hmem
      obtain ⟨other, hother, heq⟩ := List.mem_map.mp hmem
      exact hrest.newExternalIds other hother (heq ▸ List.mem_cons_self)
    · rintro hmem
      obtain ⟨other, hother, heq⟩ := List.mem_map.mp hmem
      exact hrest.newUsernames other hother (heq ▸ List.mem_cons_self)
    · exact fun hmem => hrest.newExternalIds other hother (List.mem_cons_of_mem _ hmem)
    · exact fun hmem => hrest.newUsernames other hother (List.mem_cons_of_mem _ hmem)

omit [PyRuntime] in
theorem hasUsername_iff {user : Dict} :
    hasUsername user = true ↔
      ∃ username, user.get? "userName" = some (.str username) ∧ isBlank username = false := by
  rw [hasUsername]
  split
  next username husername => simp [husername]
  next hother => simpa using fun username husername => absurd husername (hother username)

theorem sourceIdentities_eq_ok_iff {seenExternalIds seenUsernames : List PyStr}
    {users : List Dict} {identities : List (PyStr × PyStr)} :
    sourceIdentities seenExternalIds seenUsernames users = .ok identities ↔
      Identifiable seenExternalIds seenUsernames users ∧
        identities = users.map fun user => (externalIdOf user, lookupUsername user) := by
  induction users generalizing seenExternalIds seenUsernames identities with
  | nil =>
      have hempty : Identifiable seenExternalIds seenUsernames [] :=
        ⟨nofun, nofun, .nil, .nil, nofun, nofun⟩
      simp only [sourceIdentities, pure, Except.pure, Except.ok.injEq, List.map_nil, hempty,
        true_and, eq_comm]
  | cons user users ih =>
      rw [Identifiable.cons_iff, hasUsername_iff, List.map_cons, sourceIdentities]
      split
      next username husername =>
        have hlookup : lookupUsername user = username := by rw [lookupUsername, husername]
        simp only [ensure_bind_eq_ok]
        simp only [bind_eq_ok_iff, ih, pure, Except.pure, Except.ok.injEq,
          hlookup, husername, not_or, Option.some.injEq, Json.str.injEq, Bool.not_eq_true,
          exists_eq_left']
        constructor
        · rintro ⟨hvalid, hnew, rest, ⟨hrest, rfl⟩, rfl⟩
          exact ⟨⟨hvalid, hnew, hrest⟩, rfl⟩
        · rintro ⟨⟨hvalid, hnew, hrest⟩, rfl⟩
          exact ⟨hvalid, hnew, _, ⟨hrest, rfl⟩, rfl⟩
      next hother =>
        refine iff_of_false (fun hraised => by cases hraised) ?_
        rintro ⟨⟨⟨-, username, husername, -⟩, -⟩, -⟩
        exact hother username husername

/-- What a preflight has made sure of when it returns. -/
structure Preflighted (scimUsers : List Dict) (transcript : Transcript)
    (listing : Listing) : Prop where
  identifiable : Identifiable [] [] scimUsers
  asked : ∀ user ∈ scimUsers, ∀ identity, ∃ outcome,
    (identityRequest user identity, outcome) ∈ transcript
  /-- no record where a filter found none, and an agreeing one where it found one -/
  answered : ∀ identity value outcome,
    (.filterUsers identity (.str value), outcome) ∈ transcript →
      ∃ found, Outcome.Shows outcome found ∧
        sameIdentity found (listing.identityMatch identity value) = true
  read : ∀ record ∈ listing.users, ∃ userId outcome,
    record.get? "id" = some (.str userId) ∧ (.readUser userId, outcome) ∈ transcript ∧
      outcome.usersPage = .ok record
  found : ∀ record ∈ listing.users, ∃ identity value outcome found,
    (.filterUsers identity (.str value), outcome) ∈ transcript ∧
      Outcome.Shows outcome (some found) ∧ sameIdentity (some found) (some record) = true
  exact : listing.Exact

theorem wp_lookupIdentities {sample : Listing} (identities : List (PyStr × PyStr)) :
    Script.wp reading (identities.foldlM (lookupIdentity sample) {})
      (fun outcome after left => left = state ∧
        ∀ preflight, outcome = .ok preflight → Looked identities after preflight)
      [] state := by
  refine Script.wp_foldlM
    (fun before preflight transcript left => left = state ∧ Looked before transcript preflight)
    ?_ ?_ ⟨rfl, .start⟩
  · rintro before identity after - preflight transcript _ ⟨rfl, hlooked⟩
    refine Script.wp_mono (wp_lookupIdentity hlooked) ?_
    rintro (error | next) later left ⟨hleft, hnext⟩
    · exact ⟨hleft, nofun⟩
    · exact ⟨hleft, hnext next rfl⟩
  · rintro preflight transcript left ⟨hleft, hlooked⟩
    exact ⟨hleft, fun _ heq => Except.ok.inj heq ▸ hlooked⟩

theorem wp_verifyFilteredUsers {identities : List (PyStr × PyStr)} {looked : Transcript}
    {preflight : Preflight} (hlooked : Looked identities looked preflight) :
    Script.wp reading (preflight.byId.foldlM verifyFilteredUser {})
      (fun outcome after left => left = state ∧
        ∀ listing, outcome = .ok listing → Verified preflight.byId looked after listing)
      looked state := by
  refine Script.wp_foldlM
    (fun _ listing transcript left =>
      left = state ∧ Verified preflight.byId looked transcript listing)
    ?_ ?_ ⟨rfl, .start _ _⟩
  · rintro before entry after hentries listing transcript _ ⟨rfl, hverified⟩
    have hentry : entry ∈ preflight.byId := by simp [hentries]
    obtain ⟨hid, result, hresult, identity, -⟩ := hlooked.byId entry hentry
    obtain ⟨outcome, hasked, -⟩ := hlooked.asked result hresult identity
    have hstarted : transcript ≠ [] := List.ne_nil_of_mem (hverified.kept _ hasked)
    refine Script.wp_mono (wp_verifyFilteredUser hverified hstarted hentry hid) ?_
    rintro (error | next) later left ⟨hleft, hnext⟩
    · exact ⟨hleft, nofun⟩
    · exact ⟨hleft, hnext next rfl⟩
  · rintro listing transcript left ⟨hleft, hverified⟩
    exact ⟨hleft, fun _ heq => Except.ok.inj heq ▸ hverified⟩

/-- The lookups, the reads and the final comparison make a sound preflight. -/
theorem Preflighted.of_verified {scimUsers : List Dict} {looked transcript : Transcript}
    {preflight : Preflight} {listing : Listing}
    (husers : Identifiable [] [] scimUsers)
    (hlooked : Looked (scimUsers.map fun user => (externalIdOf user, lookupUsername user))
      looked preflight)
    (hverified : Verified preflight.byId looked transcript listing)
    (hagree : ∀ result ∈ preflight.results, ∀ identity,
      sameIdentity (result.found identity)
        (listing.identityMatch identity (result.value identity)) = true) :
    Preflighted scimUsers transcript listing where
  identifiable := husers
  asked user huser identity := by
    have hmem : (externalIdOf user, lookupUsername user) ∈
        preflight.results.map fun result => (result.externalId, result.username) :=
      hlooked.identities ▸ List.mem_map_of_mem huser
    obtain ⟨result, hresult, heq⟩ := List.mem_map.mp hmem
    obtain ⟨hexternalId, husername⟩ := Prod.mk.inj heq
    have hvalue : result.value identity = identityValue user identity := by
      cases identity
      · exact hexternalId
      · exact husername
    have hrequest : result.request identity = identityRequest user identity := by
      rw [IdentityLookup.request, hvalue, identityRequest]
    exact (hlooked.asked result hresult identity).imp fun _ hasked =>
      hverified.kept _ (hrequest ▸ hasked.1)
  answered identity value outcome hexchange := by
    rcases hverified.reads _ hexchange with hlook | ⟨userId, hread⟩
    · obtain ⟨result, hresult, looked, hrequest, hshown⟩ := hlooked.shown _ hlook
      obtain ⟨rfl, hvalue⟩ := Request.filterUsers.inj hrequest
      obtain rfl := Json.str.inj hvalue
      exact ⟨result.found identity, hshown, hagree result hresult identity⟩
    · cases hread
  read := hverified.read
  found record hrecord := by
    obtain ⟨entry, hentry, hsame⟩ := hverified.found record hrecord
    obtain ⟨-, result, hresult, identity, hfound⟩ := hlooked.byId entry hentry
    obtain ⟨outcome, hasked, hshown⟩ := hlooked.asked result hresult identity
    rw [hfound] at hshown
    exact ⟨identity, _, outcome, entry.2, hverified.kept _ hasked, hshown, hsame⟩
  exact := hverified.exact

theorem wp_getExistingUsersByFilter {scimUsers : List Dict} {sample : Listing} :
    Script.wp reading (getExistingUsersByFilter scimUsers sample)
      (fun outcome after left => left = state ∧
        ∀ listing, outcome = .ok listing → Preflighted scimUsers after listing)
      [] state := by
  refine Script.wp_ofExcept_bind.mpr
    ⟨fun error _ => ⟨rfl, nofun⟩, fun identities hidentities => ?_⟩
  rw [Script.wp_bind]
  refine Script.wp_mono (wp_lookupIdentities identities) ?_
  rintro (error | preflight) looked _ ⟨rfl, hlooked⟩
  · exact ⟨rfl, nofun⟩
  · dsimp only
    rw [Script.wp_bind]
    refine Script.wp_mono (wp_verifyFilteredUsers (hlooked preflight rfl)) ?_
    rintro (error | listing) after _ ⟨rfl, hverified⟩
    · exact ⟨rfl, nofun⟩
    · refine Script.wp_ofExcept_bind.mpr ⟨fun error _ => ⟨rfl, nofun⟩, fun _ hchecked => ?_⟩
      refine ⟨rfl, ?_⟩
      rintro _ ⟨rfl⟩
      obtain ⟨husers, rfl⟩ := sourceIdentities_eq_ok_iff.mp hidentities
      refine .of_verified husers (hlooked preflight rfl) (hverified listing rfl) ?_
      have hall : preflight.results.all (fun result =>
          sameIdentity result.externalMatch (listing.externalIdMatch result.externalId) &&
          sameIdentity result.usernameMatch (listing.usernameMatch
            (normalizeIdentifier (some (.str result.username))))) = true := by
        rw [ensure] at hchecked
        split_ifs at hchecked with hall
        exact hall
      intro result hresult identity
      have hboth := Bool.and_eq_true_iff.mp (List.all_eq_true.mp hall result hresult)
      cases identity
      · exact hboth.1
      · exact hboth.2

end SsfTransmitter.Scim
