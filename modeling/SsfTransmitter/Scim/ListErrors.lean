import SsfTransmitter.Scim.Creating

/-!
# How a listing can fail

Where every answer can be decoded and every identity be put into a URL, reading the listing
and the preflight raise list errors only, which the callers in the middle of a run catch.
-/

namespace SsfTransmitter.Scim

open SsfTransmitter.Core
open SsfTransmitter.Python

/-- An answer that the client can decode, or a network failure. -/
def Plain (outcome : Outcome) : Prop :=
  outcome ≠ .refused ∧ ∀ response, outcome = .response response → response.body ≠ .tooDeep

/-- A record that an answer to a read showed. -/
def Shown (transcript : Transcript) (record : Dict) : Prop :=
  ∃ exchange ∈ transcript, exchange.1.isWrite = false ∧ ∃ data,
    exchange.2.usersPage = .ok data ∧ (data = record ∨ record ∈ resourcesOf data)

/-- All that the answers to reads showed. -/
def shownRecords (transcript : Transcript) : List Dict :=
  transcript.flatMap fun exchange =>
    if exchange.1.isWrite then []
    else
      match exchange.2.usersPage with
      | .ok data => data :: resourcesOf data
      | .error _ => []

theorem shown_iff {transcript : Transcript} {record : Dict} :
    Shown transcript record ↔ record ∈ shownRecords transcript := by
  rw [shownRecords, List.mem_flatMap]
  refine exists_congr fun exchange => and_congr_right fun _ => ?_
  cases exchange.1.isWrite with
  | true => simp
  | false =>
      cases exchange.2.usersPage with
      | error error => simp
      | ok data => simp [eq_comm]

theorem Shown.mono {first second : Transcript} {record : Dict} (hshown : Shown first record)
    (hsubset : first ⊆ second) : Shown second record := by
  obtain ⟨exchange, hexchange, hbrought⟩ := hshown
  exact ⟨exchange, hsubset hexchange, hbrought⟩

theorem Shown.received {transcript : Transcript} {record : Dict}
    (hshown : Shown transcript record) : Received transcript record := by
  obtain ⟨exchange, hexchange, -, hbrought⟩ := hshown
  exact ⟨exchange, hexchange, hbrought⟩

theorem Reading.shown {transcript : Transcript} {record : Dict} (hreading : Reading transcript)
    (hreceived : Received transcript record) : Shown transcript record := by
  obtain ⟨exchange, hexchange, hbrought⟩ := hreceived
  exact ⟨exchange, hexchange, hreading.isWrite_eq_false hexchange, hbrought⟩

/-! ## Checks -/

namespace RaisesOnly

variable {Value Item Result : Type} {allowed : PyExc → Prop}

theorem bind_of_ok {first : Except PyExc Value} {rest : Value → Except PyExc Result}
    (hfirst : RaisesOnly allowed first)
    (hrest : ∀ value, first = .ok value → RaisesOnly allowed (rest value)) :
    RaisesOnly allowed (first >>= rest) := by
  cases first with
  | error raised =>
      intro other hother
      exact hfirst other (by simpa [Bind.bind, Except.bind] using hother)
  | ok value => exact hrest value rfl

theorem foldlM {body : Result → Item → Except PyExc Result}
    (hbody : ∀ value item, RaisesOnly allowed (body value item)) (items : List Item)
    (start : Result) : RaisesOnly allowed (items.foldlM body start) := by
  induction items generalizing start with
  | nil =>
      rw [List.foldlM_nil]
      exact ok start
  | cons item items ih =>
      rw [List.foldlM_cons]
      exact bind (hbody start item) ih

end RaisesOnly

theorem raisesOnly_usersPage {outcome : Outcome} (hplain : Plain outcome) :
    RaisesOnly IsListError outcome.usersPage := by
  rw [Outcome.usersPage.eq_def]
  split
  · exact .error ⟨_, rfl⟩
  · exact absurd rfl hplain.1
  · next reply =>
    split_ifs
    · exact .error ⟨_, rfl⟩
    · have hbody := hplain.2 reply rfl
      rw [Response.json.eq_def]
      split
      · next hjson =>
        exact .error ⟨_, rfl⟩
      · next error hother hjson =>
        split at hjson
        · cases hjson
        · obtain rfl := Except.error.inj hjson
          exact absurd rfl hother
        · next hdeep => exact absurd hdeep hbody
      · exact .ok _
      · exact .error ⟨_, rfl⟩

theorem raisesOnly_filteredResources (data : Dict) :
    RaisesOnly IsListError (filteredResources data) :=
  .bind (raisesOnly_requireInt _ _) fun _ =>
  .bind (.ensure ⟨_, rfl⟩) fun _ =>
  .bind (raisesOnly_requireInt _ _) fun _ =>
  .bind (.ensure ⟨_, rfl⟩) fun _ =>
  .bind (raisesOnly_requireObjects _ _) fun _ =>
  .bind (raisesOnly_requireInt _ _) fun _ =>
  .bind (.ensure ⟨_, rfl⟩) fun _ =>
  .bind (.ensure ⟨_, rfl⟩) fun _ => .ok _

section Checks

variable [PyRuntime]

theorem raisesOnly_validateFilteredUser (data : Dict) (identity : IdentityAttribute)
    (expected : PyStr) : RaisesOnly IsListError (validateFilteredUser data identity expected) := by
  refine .bind (raisesOnly_filteredResources data) fun resources => ?_
  cases resources with
  | nil => exact .ok _
  | cons user _ =>
      exact .bind (.ensure ⟨_, rfl⟩) fun _ => .bind (.ensure ⟨_, rfl⟩) fun _ =>
        .bind (.ensure ⟨_, rfl⟩) fun _ => .ok _

theorem raisesOnly_indexUniqueUser (listing : Listing) (user : Dict) :
    RaisesOnly IsListError (indexUniqueUser listing user) := by
  refine .bind ?_ fun _ => .bind (.ensure ⟨_, rfl⟩) fun _ =>
    .bind (.ensure ⟨_, rfl⟩) fun _ => .ok _
  rw [requireSafeId.eq_def]
  split
  · split_ifs
    · exact .ok _
    · exact .error ⟨_, rfl⟩
  · exact .error ⟨_, rfl⟩

theorem raisesOnly_indexUserList (users : List Dict) :
    RaisesOnly IsListError (indexUserList users) :=
  .foldlM raisesOnly_indexUniqueUser users {}

theorem raisesOnly_readUsersPage (data : Dict) (listing : Listing) (expectedStart : ℤ)
    (expectedTotal : Option ℤ) :
    RaisesOnly IsListError (readUsersPage data listing expectedStart expectedTotal) := by
  refine .bind_of_ok (raisesOnly_validateUsersPage _ _ _) ?_
  rintro ⟨users, total⟩ hpage
  refine .bind (.foldlM raisesOnly_indexUniqueUser _ _) fun _ => ?_
  rw [nextUsersPageUrl_of_validateUsersPage hpage]
  exact .ok _

omit [PyRuntime] in
theorem raisesOnly_appleSinglePage (data : Dict) (requestedCount : ℕ) :
    RaisesOnly IsListError (appleSinglePage data requestedCount) := by
  rw [appleSinglePage.eq_def]
  split
  · split_ifs
    · exact .ok _
    · exact .bind (.ensure ⟨_, rfl⟩) fun _ =>
        .bind (raisesOnly_validateUsersPage _ _ _) fun _ => .ok _
  · exact .ok _

theorem raisesOnly_sourceIdentities (seenExternalIds seenUsernames : List PyStr)
    (users : List Dict) :
    RaisesOnly IsListError (sourceIdentities seenExternalIds seenUsernames users) := by
  induction users generalizing seenExternalIds seenUsernames with
  | nil => exact .ok _
  | cons user users ih =>
      rw [sourceIdentities]
      split
      · exact .bind (.ensure ⟨_, rfl⟩) fun _ => .bind (.ensure ⟨_, rfl⟩) fun _ =>
          .bind (ih _ _) fun _ => .ok _
      · exact .error ⟨_, rfl⟩

theorem raisesOnly_recordFilteredIdentity (byId : List (PyStr × Dict)) {found : Option Dict}
    (hsafe : ∀ user ∈ found, isSafeUserId (user.get? "id") = true) :
    RaisesOnly IsListError (recordFilteredIdentity byId found) := by
  rw [recordFilteredIdentity.eq_def]
  split
  · exact .ok _
  · next user =>
    obtain ⟨userId, hid⟩ := exists_str_of_isSafeUserId (hsafe user rfl)
    rw [requireId_eq_ok_iff.mpr hid]
    dsimp only [bind, Except.bind]
    split
    · exact .ok _
    · exact .bind (.ensure ⟨_, rfl⟩) fun _ => .ok _

end Checks

/-! ## Listings -/

/-- Answers that the client can decode. -/
def AllPlain (transcript : Transcript) : Prop :=
  ∀ exchange ∈ transcript, Plain exchange.2

namespace AllPlain

variable {first second : Transcript}

theorem left (hplain : AllPlain (first ++ second)) : AllPlain first :=
  (List.forall_mem_append.mp hplain).1

theorem right (hplain : AllPlain (first ++ second)) : AllPlain second :=
  (List.forall_mem_append.mp hplain).2

theorem head {exchange : Exchange Request Outcome} (hplain : AllPlain (exchange :: second)) :
    Plain exchange.2 :=
  hplain exchange List.mem_cons_self

theorem tail {exchange : Exchange Request Outcome} (hplain : AllPlain (exchange :: second)) :
    AllPlain second :=
  (List.forall_mem_cons.mp hplain).2

end AllPlain

section Listing

variable {State : Type} {state left : State} {transcript : Transcript} {error : PyExc}

/-- A failed page, or what comes after a page. -/
theorem error_of_fetchUsersPage_bind {Value : Type} {request : Request}
    {rest : Dict → Client State Value}
    (hruns : Script.Runs (fetchUsersPage request >>= rest) state transcript (.error error) left)
    (hplain : AllPlain transcript) :
    IsListError error ∨ ∃ answer data later, transcript = (request, answer) :: later ∧
      answer.usersPage = .ok data ∧ (rest data).Runs state later (.error error) left := by
  rw [fetchUsersPage, bind_assoc, Script.runs_ask_bind_iff] at hruns
  obtain ⟨answer, later, rfl, hrest⟩ := hruns
  obtain ⟨raised, hpage, rfl, heq, rfl⟩ | ⟨data, hpage, hrest⟩ :=
    Script.runs_ofExcept_bind_iff.mp hrest
  · obtain rfl := Except.error.inj heq
    exact .inl (raisesOnly_usersPage hplain.head _ hpage)
  · exact .inr ⟨answer, data, later, rfl, hpage, hrest⟩

variable [PyRuntime]

theorem error_of_listUsersFrom {cursor : Cursor}
    (hruns : Script.Runs (listUsersFrom cursor) state transcript (.error error) left)
    (hplain : AllPlain transcript) : IsListError error := by
  induction cursor using listUsersFrom.induct generalizing transcript with
  | case1 cursor hurl =>
      rw [listUsersFrom.eq_def] at hruns
      split at hruns
      · obtain ⟨-, hnone, -⟩ := Script.runs_pure_iff.mp hruns
        cases hnone
      · next hsome => cases hurl.symm.trans hsome
  | case2 cursor start hurl ih =>
      rw [listUsersFrom.eq_def] at hruns
      split at hruns
      · next hnone => cases hurl.symm.trans hnone
      · obtain hlist | ⟨answer, data, later, rfl, -, hrest⟩ :=
          error_of_fetchUsersPage_bind hruns hplain
        · exact hlist
        · split at hrest
          · next raised hread =>
            obtain ⟨rfl, heq, rfl⟩ := Script.runs_throw_iff.mp hrest
            obtain rfl := Except.error.inj heq
            exact raisesOnly_readUsersPage _ _ _ _ _ hread
          · next following hread => exact ih data following hread hrest hplain.tail

/-- The listing fails with a list error, or asks for the preflight. -/
theorem error_of_getExistingUsers
    (hruns : Script.Runs getExistingUsers state transcript (.error error) left)
    (hplain : AllPlain transcript) :
    IsListError error ∨ ∃ sample, error = .filteredLookupRequired sample := by
  obtain hlist | ⟨answer, data, later, rfl, -, hrest⟩ :=
    error_of_fetchUsersPage_bind hruns hplain
  · exact .inl hlist
  obtain ⟨raised, hsingle, rfl, heq, rfl⟩ | ⟨single, -, hrest⟩ :=
    Script.runs_ofExcept_bind_iff.mp hrest
  · obtain rfl := Except.error.inj heq
    exact .inl (raisesOnly_appleSinglePage _ _ _ hsingle)
  cases single with
  | some appleUsers =>
      obtain ⟨raised, hindex, rfl, heq, rfl⟩ | ⟨sample, -, hthrow⟩ :=
        Script.runs_ofExcept_bind_iff.mp hrest
      · obtain rfl := Except.error.inj heq
        exact .inl (raisesOnly_indexUserList _ _ hindex)
      · obtain ⟨rfl, heq, rfl⟩ := Script.runs_throw_iff.mp hthrow
        exact .inr ⟨sample, Except.error.inj heq⟩
  | none =>
      obtain ⟨raised, hread, rfl, heq, rfl⟩ | ⟨cursor, -, hrest⟩ :=
        Script.runs_ofExcept_bind_iff.mp hrest
      · obtain rfl := Except.error.inj heq
        exact .inl (raisesOnly_readUsersPage _ _ _ _ _ hread)
      · exact .inl (error_of_listUsersFrom hrest hplain.tail)

end Listing

/-! ## The preflight -/

section Preflight

variable [PyRuntime]
variable {State : Type} {state left : State} {transcript : Transcript} {error : PyExc}

/-- A lookup of a value that can be put into a URL. -/
theorem error_of_lookupFilteredUser {identity : IdentityAttribute} {value : PyStr}
    {sampled : Option Dict} (hquotable : encodable value = true)
    (hruns : Script.Runs (lookupFilteredUser identity value sampled) state transcript
      (.error error) left) (hplain : AllPlain transcript) : IsListError error := by
  have hquoted : quoteLiteral (.str value) = .ok () := if_pos hquotable
  obtain ⟨raised, hraised, -⟩ | ⟨_, -, hruns⟩ := Script.runs_ofExcept_bind_iff.mp hruns
  · rw [hquoted] at hraised
    cases hraised
  obtain hlist | ⟨answer, data, later, rfl, -, hrest⟩ :=
    error_of_fetchUsersPage_bind hruns hplain
  · exact hlist
  obtain ⟨raised, hvalid, rfl, heq, rfl⟩ | ⟨found, -, hrest⟩ :=
    Script.runs_ofExcept_bind_iff.mp hrest
  · obtain rfl := Except.error.inj heq
    exact raisesOnly_validateFilteredUser _ _ _ _ hvalid
  obtain ⟨raised, hagrees, rfl, heq, rfl⟩ | ⟨_, -, hpure⟩ :=
    Script.runs_ofExcept_bind_iff.mp hrest
  · obtain rfl := Except.error.inj heq
    exact RaisesOnly.ensure ⟨_, rfl⟩ _ hagrees
  · obtain ⟨-, hnone, -⟩ := Script.runs_pure_iff.mp hpure
    cases hnone

/-- What a lookup finds has an id that is safe. -/
theorem safe_of_lookupFilteredUser {identity : IdentityAttribute} {value : PyStr}
    {sampled found : Option Dict}
    (hruns : Script.Runs (lookupFilteredUser identity value sampled) state transcript
      (.ok found) left) : ∀ user ∈ found, isSafeUserId (user.get? "id") = true := by
  have hwp : Script.wp reading (lookupFilteredUser identity value sampled)
      (fun outcome _ _ => ∀ shown, outcome = .ok shown →
        ∀ user ∈ shown, isSafeUserId (user.get? "id") = true) [] state := by
    refine wp_lookupFilteredUser (fun _ _ => nofun) ?_
    rintro _ _ _ hidentified _ ⟨rfl⟩ user huser
    exact (hidentified user huser).safe
  exact (Script.of_wp_of_runs hwp hruns).2 found rfl

theorem error_of_lookupIdentity {sample : Listing} {preflight : Preflight}
    {identity : PyStr × PyStr} (hexternalId : encodable identity.1 = true)
    (husername : encodable identity.2 = true)
    (hruns : Script.Runs (lookupIdentity sample preflight identity) state transcript
      (.error error) left) (hplain : AllPlain transcript) : IsListError error := by
  obtain ⟨_, hfirst, heq⟩ | ⟨first, externalMatch, _, rest, rfl, hfirst, hruns⟩ :=
    Script.runs_bind_iff.mp hruns
  · obtain rfl := Except.error.inj heq
    exact error_of_lookupFilteredUser hexternalId hfirst hplain
  obtain ⟨_, hsecond, heq⟩ | ⟨second, usernameMatch, _, last, rfl, hsecond, hruns⟩ :=
    Script.runs_bind_iff.mp hruns
  · obtain rfl := Except.error.inj heq
    exact error_of_lookupFilteredUser husername hsecond hplain.right
  obtain ⟨raised, hrecord, rfl, heq, rfl⟩ | ⟨byId, -, hruns⟩ :=
    Script.runs_ofExcept_bind_iff.mp hruns
  · obtain rfl := Except.error.inj heq
    exact raisesOnly_recordFilteredIdentity _ (safe_of_lookupFilteredUser hfirst) _ hrecord
  obtain ⟨raised, hrecord, rfl, heq, rfl⟩ | ⟨_, -, hpure⟩ :=
    Script.runs_ofExcept_bind_iff.mp hruns
  · obtain rfl := Except.error.inj heq
    exact raisesOnly_recordFilteredIdentity _ (safe_of_lookupFilteredUser hsecond) _ hrecord
  · obtain ⟨-, hnone, -⟩ := Script.runs_pure_iff.mp hpure
    cases hnone

theorem error_of_verifyFilteredUser {listing : Listing} {entry : PyStr × Dict}
    (hquotable : encodable entry.1 = true)
    (hruns : Script.Runs (verifyFilteredUser listing entry) state transcript (.error error)
      left) (hplain : AllPlain transcript) : IsListError error := by
  have hurl : userUrl entry.1 = .ok () := if_pos hquotable
  obtain ⟨raised, hraised, -⟩ | ⟨_, -, hruns⟩ := Script.runs_ofExcept_bind_iff.mp hruns
  · rw [hurl] at hraised
    cases hraised
  obtain hlist | ⟨answer, data, later, rfl, -, hrest⟩ :=
    error_of_fetchUsersPage_bind hruns hplain
  · exact hlist
  obtain ⟨raised, hsame, rfl, heq, rfl⟩ | ⟨_, -, hrest⟩ :=
    Script.runs_ofExcept_bind_iff.mp hrest
  · obtain rfl := Except.error.inj heq
    exact RaisesOnly.ensure ⟨_, rfl⟩ _ hsame
  · obtain ⟨-, hindex, -⟩ := Script.runs_ofExcept_iff.mp hrest
    exact raisesOnly_indexUniqueUser _ _ _ hindex.symm

/-- A record that has an identity of one of the users. -/
def Concerns (record : Dict) (users : List Dict) : Prop :=
  ∃ user ∈ users, externalIdOf record = externalIdOf user ∨ usernameOf record = usernameOf user

theorem Concerns.of_mem {record user : Dict} {users : List Dict}
    (hconcerns : Concerns record [user]) (huser : user ∈ users) : Concerns record users := by
  obtain ⟨other, hother, hidentity⟩ := hconcerns
  obtain rfl := List.mem_singleton.mp hother
  exact ⟨other, huser, hidentity⟩

/-- Source users and shown accounts whose identities can be put into a URL. -/
structure Addressable (users : List Dict) (transcript : Transcript) : Prop where
  externalIds : ∀ user ∈ users, encodable (externalIdOf user) = true
  usernames : ∀ user ∈ users, encodable (lookupUsername user) = true
  ids : ∀ record, Shown transcript record → Concerns record users →
    ∀ userId, record.get? "id" = some (.str userId) → encodable userId = true

theorem Addressable.of_subset {users : List Dict} {first second : Transcript}
    (haddressable : Addressable users second) (hsubset : first ⊆ second) :
    Addressable users first where
  externalIds := haddressable.externalIds
  usernames := haddressable.usernames
  ids record hshown := haddressable.ids record (hshown.mono hsubset)

/-- What was looked up is shown, and concerns the users. -/
theorem Looked.concerns {users : List Dict} {preflight : Preflight} {entry : PyStr × Dict}
    (husers : Identifiable [] [] users)
    (hlooked : Looked (users.map fun user => (externalIdOf user, lookupUsername user))
      transcript preflight) (hentry : entry ∈ preflight.byId) :
    Shown transcript entry.2 ∧ Concerns entry.2 users := by
  obtain ⟨-, result, hresult, identity, hfound⟩ := hlooked.byId entry hentry
  obtain ⟨outcome, hasked, data, hdata, hresources⟩ := hlooked.asked result hresult identity
  have hmem : (result.externalId, result.username) ∈
      users.map fun user => (externalIdOf user, lookupUsername user) :=
    hlooked.identities ▸ List.mem_map_of_mem hresult
  obtain ⟨user, huser, heq⟩ := List.mem_map.mp hmem
  obtain ⟨hexternalId, husername⟩ := Prod.mk.inj heq
  have hmatched := (hlooked.identified result hresult identity entry.2 hfound).matched
  refine ⟨⟨_, hasked, rfl, data, hdata, .inr ?_⟩, user, huser, ?_⟩
  · rw [hresources, hfound]
    exact List.mem_cons_self
  · cases identity with
    | externalId => exact .inl (hmatched.trans hexternalId.symm)
    | userName =>
        right
        rw [← normalizeIdentifier_lookupUsername (husers.named user huser), husername]
        exact hmatched

/-- The preflight fails with a list error. -/
theorem error_of_getExistingUsersByFilter {users : List Dict} {sample : Listing}
    (hruns : Script.Runs (getExistingUsersByFilter users sample) state transcript
      (.error error) left)
    (hplain : AllPlain transcript) (haddressable : Addressable users transcript) :
    IsListError error := by
  obtain ⟨raised, hsource, rfl, heq, rfl⟩ | ⟨identities, hsource, hruns⟩ :=
    Script.runs_ofExcept_bind_iff.mp hruns
  · obtain rfl := Except.error.inj heq
    exact raisesOnly_sourceIdentities _ _ _ _ hsource
  obtain ⟨husers, rfl⟩ := sourceIdentities_eq_ok_iff.mp hsource
  obtain ⟨_, hlookups, heq⟩ | ⟨first, preflight, middle, rest, rfl, hlookups, hruns⟩ :=
    Script.runs_bind_iff.mp hruns
  · obtain rfl := Except.error.inj heq
    obtain ⟨before, identity, after, _, _, earlier, later, hitems, rfl, -, hfails⟩ :=
      Script.runs_foldlM_error hlookups
    have hmem : identity ∈ users.map fun user => (externalIdOf user, lookupUsername user) := by
      simp [hitems]
    obtain ⟨user, huser, rfl⟩ := List.mem_map.mp hmem
    exact error_of_lookupIdentity (haddressable.externalIds user huser)
      (haddressable.usernames user huser) hfails hplain.right
  have hlooked := (Script.of_wp_of_runs (wp_lookupIdentities _) hlookups).2.2 preflight rfl
  obtain ⟨_, hverify, heq⟩ | ⟨second, listing, _, last, rfl, hverify, hruns⟩ :=
    Script.runs_bind_iff.mp hruns
  · obtain rfl := Except.error.inj heq
    obtain ⟨before, entry, after, _, _, earlier, later, hitems, rfl, -, hfails⟩ :=
      Script.runs_foldlM_error hverify
    have hentry : entry ∈ preflight.byId := by simp [hitems]
    obtain ⟨hshown, hconcerns⟩ := hlooked.concerns husers hentry
    obtain ⟨hid, -⟩ := hlooked.byId entry hentry
    refine error_of_verifyFilteredUser ?_ hfails hplain.right.right
    exact (haddressable.of_subset (List.subset_append_left _ _)).ids entry.2 hshown hconcerns
      entry.1 hid
  · obtain ⟨raised, hagree, rfl, heq, rfl⟩ | ⟨_, -, hpure⟩ :=
      Script.runs_ofExcept_bind_iff.mp hruns
    · obtain rfl := Except.error.inj heq
      exact RaisesOnly.ensure ⟨_, rfl⟩ _ hagree
    · obtain ⟨-, hnone, -⟩ := Script.runs_pure_iff.mp hpure
      cases hnone

/-- Reading what exists fails with a list error, in either mode. -/
theorem error_of_existingUsers {users : List Dict}
    (hruns : Script.Runs (existingUsers users) state transcript (.error error) left)
    (hplain : AllPlain transcript) (haddressable : Addressable users transcript) :
    IsListError error := by
  obtain ⟨_, _, hnone⟩ | ⟨first, raised, middle, second, rfl, hlisting, hhandled⟩ :=
    Script.runs_tryCatch_iff.mp hruns
  · cases hnone
  obtain ⟨_, hlisted, heq⟩ | ⟨_, listing, _, _, rfl, _, hpure⟩ :=
    Script.runs_bind_iff.mp hlisting
  · obtain rfl := Except.error.inj heq
    obtain ⟨message, rfl⟩ | ⟨sample, rfl⟩ := error_of_getExistingUsers hlisted hplain.left
    · obtain ⟨-, heq, -⟩ := Script.runs_throw_iff.mp hhandled
      exact ⟨message, Except.error.inj heq⟩
    · obtain ⟨_, hpreflight, heq⟩ | ⟨_, listing, _, _, rfl, _, hpure⟩ :=
        Script.runs_bind_iff.mp hhandled
      · obtain rfl := Except.error.inj heq
        exact error_of_getExistingUsersByFilter hpreflight hplain.right
          (haddressable.of_subset (List.subset_append_right _ _))
      · obtain ⟨-, hnone, -⟩ := Script.runs_pure_iff.mp hpure
        cases hnone
  · obtain ⟨-, hnone, -⟩ := Script.runs_pure_iff.mp hpure
    cases hnone

end Preflight

end SsfTransmitter.Scim
