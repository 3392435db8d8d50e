import SsfTransmitter.Scim.Turns

/-!
# What creating a user can do

Reading the listing again, recovering from a create conflict, and verifying what was
created, as parts of a turn.
-/

namespace SsfTransmitter.Scim

open SsfTransmitter.Core
open SsfTransmitter.Python

/-! ## Reading -/

/-- A transcript without writes, in which no account is read first. -/
def Reading (transcript : Transcript) : Prop :=
  Throughout (fun before exchange => Reads before exchange.1) transcript

theorem account?_eq_none_of_isWrite {request : Request} (hread : request.isWrite = false) :
    request.account? = none := by
  cases request <;> first | rfl | simp [Request.isWrite, Request.writer?] at hread

namespace Reading

variable {first second : Transcript}

theorem nil : Reading [] :=
  Throughout.nil

theorem isWrite_eq_false (hreading : Reading first) {exchange : Exchange Request Outcome}
    (hexchange : exchange ∈ first) : exchange.1.isWrite = false := by
  obtain ⟨before, after, rfl⟩ := List.append_of_mem hexchange
  exact (hreading before exchange after rfl).notWrite

theorem account? (hreading : Reading first) :
    ∀ exchange ∈ first, exchange.1.account? = none :=
  fun _ hexchange => account?_eq_none_of_isWrite (hreading.isWrite_eq_false hexchange)

theorem append (hfirst : Reading first) (hsecond : Reading second) :
    Reading (first ++ second) := by
  refine Throughout.append hfirst fun before exchange after heq => ?_
  obtain ⟨hnotWrite, hnotFirst⟩ := hsecond before exchange after heq
  exact ⟨hnotWrite, fun hread hempty =>
    hnotFirst hread (List.append_eq_nil_iff.mp hempty).2⟩

theorem single {identity : IdentityAttribute} {value : Json} {answer : Outcome} :
    Reading [(.filterUsers identity value, answer)] :=
  Throughout.nil.snoc (reads_filterUsers [] identity value)

end Reading

/-- A record that an answer brought, by itself or among its Resources. -/
def Received (transcript : Transcript) (record : Dict) : Prop :=
  ∃ exchange ∈ transcript, ∃ data, exchange.2.usersPage = .ok data ∧
    (data = record ∨ record ∈ resourcesOf data)

theorem Received.mono {first second : Transcript} {record : Dict}
    (hreceived : Received first record) (hsubset : first ⊆ second) : Received second record := by
  obtain ⟨exchange, hexchange, hbrought⟩ := hreceived
  exact ⟨exchange, hsubset hexchange, hbrought⟩

variable [PyRuntime]

/-- What is known of a listing that was read for source users. -/
structure ListedFor (scimUsers : List Dict) (transcript : Transcript) (listing : Listing)
    (filtered : Bool) : Prop where
  exact : listing.Exact
  received : ∀ record ∈ listing.users, Received transcript record
  complete : filtered = false → Complete transcript listing
  preflighted : filtered = true → ∃ first later, transcript = first ++ later ∧
    Preflighted scimUsers later listing

namespace ListedFor

variable {scimUsers : List Dict} {transcript first later : Transcript} {listing : Listing}

theorem of_complete (hcomplete : Complete transcript listing) :
    ListedFor scimUsers transcript listing false where
  exact := hcomplete.exact
  received record hrecord := by
    rw [hcomplete.users, usersOf, pagesOf] at hrecord
    obtain ⟨data, hdata, hrecord⟩ := List.mem_flatMap.mp hrecord
    obtain ⟨exchange, hexchange, hpage⟩ := List.mem_filterMap.mp hdata
    refine ⟨exchange, hexchange, data, ?_, .inr hrecord⟩
    cases hanswer : exchange.2.usersPage with
    | error error => simp [hanswer, Except.toOption] at hpage
    | ok page => simpa [hanswer, Except.toOption] using hpage
  complete _ := hcomplete
  preflighted := nofun

theorem of_preflighted (hpreflighted : Preflighted scimUsers later listing) :
    ListedFor scimUsers (first ++ later) listing true where
  exact := hpreflighted.exact
  received record hrecord := by
    obtain ⟨userId, outcome, -, hexchange, hpage⟩ := hpreflighted.read record hrecord
    exact ⟨_, List.mem_append_right _ hexchange, record, hpage, .inl rfl⟩
  complete := nofun
  preflighted _ := ⟨first, later, rfl, hpreflighted⟩

end ListedFor

section Listings

variable {State : Type} {state left : State} {transcript : Transcript}

theorem runs_getExistingUsers {outcome : Except PyExc Listing}
    (hruns : Script.Runs getExistingUsers state transcript outcome left) :
    Reading transcript ∧ left = state ∧ ListedBy transcript outcome :=
  Script.of_wp_of_runs wp_getExistingUsers hruns

theorem runs_getExistingUsersByFilter {scimUsers : List Dict} {sample : Listing}
    {outcome : Except PyExc Listing}
    (hruns : Script.Runs (getExistingUsersByFilter scimUsers sample) state transcript outcome
      left) :
    Reading transcript ∧ left = state ∧
      ∀ listing, outcome = .ok listing → Preflighted scimUsers transcript listing :=
  Script.of_wp_of_runs wp_getExistingUsersByFilter hruns

theorem runs_existingUsers {scimUsers : List Dict}
    {outcome : Except PyExc (Listing × Bool)}
    (hruns : Script.Runs (existingUsers scimUsers) state transcript outcome left) :
    Reading transcript ∧ left = state ∧
      ∀ listing filtered, outcome = .ok (listing, filtered) →
        ListedFor scimUsers transcript listing filtered := by
  obtain ⟨value, hlisting, rfl⟩ | ⟨first, error, middle, second, rfl, hlisting, hhandled⟩ :=
    Script.runs_tryCatch_iff.mp hruns
  · obtain ⟨_, _, hnone⟩ | ⟨first, listing, middle, second, rfl, hlisted, hpure⟩ :=
      Script.runs_bind_iff.mp hlisting
    · cases hnone
    · obtain ⟨rfl, hvalue, rfl⟩ := Script.runs_pure_iff.mp hpure
      obtain rfl := Except.ok.inj hvalue
      obtain ⟨hreading, hleft, hby⟩ := runs_getExistingUsers hlisted
      rw [List.append_nil]
      refine ⟨hreading, hleft, ?_⟩
      rintro _ _ heq
      obtain ⟨rfl, rfl⟩ := Prod.mk.inj (Except.ok.inj heq)
      exact .of_complete (hby.complete _ rfl)
  · obtain ⟨failed, hlisted, hfailed⟩ | ⟨_, listing, _, _, rfl, _, hpure⟩ :=
      Script.runs_bind_iff.mp hlisting
    · obtain rfl := Except.error.inj hfailed
      obtain ⟨hreading, rfl, -⟩ := runs_getExistingUsers hlisted
      split at hhandled
      next sample =>
        obtain ⟨raised, hpreflight, rfl⟩ | ⟨later, listing, _, last, rfl, hpreflight, hpure⟩ :=
          Script.runs_bind_iff.mp hhandled
        · obtain ⟨hlater, hleft, -⟩ := runs_getExistingUsersByFilter hpreflight
          exact ⟨hreading.append hlater, hleft, nofun⟩
        · obtain ⟨hlater, rfl, hfound⟩ := runs_getExistingUsersByFilter hpreflight
          obtain ⟨rfl, rfl, rfl⟩ := Script.runs_pure_iff.mp hpure
          rw [List.append_nil]
          refine ⟨hreading.append hlater, rfl, ?_⟩
          rintro _ _ heq
          obtain ⟨rfl, rfl⟩ := Prod.mk.inj (Except.ok.inj heq)
          exact .of_preflighted (hfound _ rfl)
      next =>
        obtain ⟨rfl, rfl, rfl⟩ := Script.runs_throw_iff.mp hhandled
        rw [List.append_nil]
        exact ⟨hreading, rfl, nofun⟩
    · obtain ⟨_, hnone, _⟩ := Script.runs_pure_iff.mp hpure
      cases hnone

end Listings

omit [PyRuntime] in
/-- A reading whose list errors are caught. -/
theorem runs_tryListing_bind {State Value Result : Type} {state left : State}
    {transcript : Transcript} {script : Client State Value}
    {rest : Option Value → Client State Result} {outcome : Except PyExc Result}
    (hruns : Script.Runs (tryCatch (some <$> script) (fun error =>
      match error with
      | .appleUserList _ | .filteredLookupRequired _ => pure none
      | error => throw error) >>= rest) state transcript outcome left) :
    (∃ error, script.Runs state transcript (.error error) left ∧
      (∀ message, error ≠ .appleUserList message) ∧
      (∀ sample, error ≠ .filteredLookupRequired sample) ∧ outcome = .error error) ∨
    (∃ first error middle later, transcript = first ++ later ∧
      script.Runs state first (.error error) middle ∧
      (rest none).Runs middle later outcome left) ∨
    ∃ first value middle later, transcript = first ++ later ∧
      script.Runs state first (.ok value) middle ∧
      (rest (some value)).Runs middle later outcome left := by
  obtain ⟨error, htried, rfl⟩ | ⟨first, value, middle, later, rfl, htried, hrest⟩ :=
    Script.runs_bind_iff.mp hruns
  · obtain ⟨_, -, hnone⟩ | ⟨first, raised, middle, second, rfl, hscript, hhandled⟩ :=
      Script.runs_tryCatch_iff.mp htried
    · cases hnone
    · obtain ⟨inner, hinnerRuns, heq⟩ := Script.runs_map_iff.mp hscript
      cases inner with
      | ok value => cases heq
      | error thrown =>
          obtain rfl := Except.error.inj heq
          split at hhandled
          · obtain ⟨-, hnone, -⟩ := Script.runs_pure_iff.mp hhandled
            cases hnone
          · obtain ⟨-, hnone, -⟩ := Script.runs_pure_iff.mp hhandled
            cases hnone
          · next hmessage hsample =>
            obtain ⟨rfl, hraised, rfl⟩ := Script.runs_throw_iff.mp hhandled
            obtain rfl := Except.error.inj hraised
            rw [List.append_nil]
            exact .inl ⟨_, hinnerRuns, hmessage, hsample, rfl⟩
  · obtain ⟨_, hscript, heq⟩ | ⟨first, raised, _, second, rfl, hscript, hhandled⟩ :=
      Script.runs_tryCatch_iff.mp htried
    · obtain ⟨inner, hinnerRuns, hinner⟩ := Script.runs_map_iff.mp hscript
      obtain rfl := Except.ok.inj heq
      cases inner with
      | error thrown => cases hinner
      | ok found =>
          obtain rfl := Except.ok.inj hinner
          exact .inr (.inr ⟨_, found, middle, later, rfl, hinnerRuns, hrest⟩)
    · obtain ⟨inner, hinnerRuns, hinner⟩ := Script.runs_map_iff.mp hscript
      cases inner with
      | ok found => cases hinner
      | error thrown =>
          obtain rfl := Except.error.inj hinner
          split at hhandled
          · obtain ⟨rfl, heq, rfl⟩ := Script.runs_pure_iff.mp hhandled
            obtain rfl := Except.ok.inj heq
            rw [List.append_nil]
            exact .inr (.inl ⟨_, _, _, later, rfl, hinnerRuns, hrest⟩)
          · obtain ⟨rfl, heq, rfl⟩ := Script.runs_pure_iff.mp hhandled
            obtain rfl := Except.ok.inj heq
            rw [List.append_nil]
            exact .inr (.inl ⟨_, _, _, later, rfl, hinnerRuns, hrest⟩)
          · obtain ⟨-, hnone, -⟩ := Script.runs_throw_iff.mp hhandled
            cases hnone

/-! ## Create conflicts -/

section ListErrors

omit [PyRuntime]

/-- `_AppleUserListError`. -/
def IsListError (error : PyExc) : Prop :=
  ∃ message, error = .appleUserList message

theorem raisesOnly_requireInt (value : Json) (message : String) :
    RaisesOnly IsListError (requireInt value (.appleUserList message)) := by
  cases value <;> first | exact .ok _ | exact .error ⟨message, rfl⟩

theorem raisesOnly_requireObjects (value : Json) (message : String) :
    RaisesOnly IsListError (requireObjects value (.appleUserList message)) := by
  rw [requireObjects.eq_def]
  split
  · split
    · exact .ok _
    · exact .error ⟨message, rfl⟩
  · exact .error ⟨message, rfl⟩

theorem raisesOnly_validateUsersPage (data : Dict) (expectedStart : ℤ)
    (expectedTotal : Option ℤ) :
    RaisesOnly IsListError (validateUsersPage data expectedStart expectedTotal) :=
  .bind (raisesOnly_requireInt _ _) fun _ =>
  .bind (.ensure ⟨_, rfl⟩) fun _ =>
  .bind (.ensure ⟨_, rfl⟩) fun _ =>
  .bind (raisesOnly_requireInt _ _) fun _ =>
  .bind (.ensure ⟨_, rfl⟩) fun _ =>
  .bind (raisesOnly_requireObjects _ _) fun _ =>
  .bind (raisesOnly_requireInt _ _) fun _ =>
  .bind (.ensure ⟨_, rfl⟩) fun _ =>
  .bind (.ensure ⟨_, rfl⟩) fun _ =>
  .bind (.ensure ⟨_, rfl⟩) fun _ => .ok _

end ListErrors

/-- The object of a filter response, none on any failure that is caught. -/
def filterPayload : Outcome → Except PyExc (Option Dict)
  | .networkError => .ok none
  | .refused => .error .clientError
  | .response reply =>
    if reply.status ≠ 200 then .ok none
    else
      match reply.json with
      | .error .valueError => .ok none
      | .error error => .error error
      | .ok (.dict payload) => .ok (some payload)
      | .ok _ => .ok none

omit [PyRuntime] in
theorem usersPage_of_filterPayload {answer : Outcome} {payload : Dict}
    (hpayload : filterPayload answer = .ok (some payload)) : answer.usersPage = .ok payload := by
  rw [filterPayload.eq_def] at hpayload
  split at hpayload
  · cases hpayload
  · cases hpayload
  · split_ifs at hpayload with hstatus
    · cases hpayload
    · split at hpayload
      · cases hpayload
      · cases hpayload
      · next hjson =>
        obtain rfl := Option.some.inj (Except.ok.inj hpayload)
        simp [Outcome.usersPage, hstatus, hjson]
      · cases hpayload

/-- The `userName` as the conflict recovery reads it. -/
def conflictUsername (user : Dict) : Json :=
  user.getD "userName" (.str [])

theorem normalizeIdentifier_conflictUsername (user : Dict) :
    normalizeIdentifier (some (conflictUsername user)) = usernameOf user := by
  rw [conflictUsername, usernameOf, Dict.getD]
  cases user.get? "userName" with
  | none => rfl
  | some username => rfl

/-- How the recovery can raise: nothing of this is caught in a turn. -/
inductive ConflictRaise (settings : Settings) (user : Dict) : Transcript → PyExc → Prop
  | mask {error : PyExc} (hmask : maskEmail settings (conflictUsername user) = .error error) :
      ConflictRaise settings user [] error
  | quote {error : PyExc} (hquote : quoteLiteral (conflictUsername user) = .error error) :
      ConflictRaise settings user [] error
  | answer {answer : Outcome} {error : PyExc} (hanswer : filterPayload answer = .error error) :
      ConflictRaise settings user
        [(.filterUsers .userName (conflictUsername user), answer)] error
  | listing {answer : Outcome} {session : Session} {later : Transcript} {error : PyExc}
      (hlisting : Script.Runs (existingUsers [user]) session later (.error error) session)
      (hescapes : ∀ message, error ≠ .appleUserList message)
      (hescapes' : ∀ sample, error ≠ .filteredLookupRequired sample) :
      ConflictRaise settings user
        ((.filterUsers .userName (conflictUsername user), answer) :: later) error

/-- What the recovery can do before it reconciles an account. -/
inductive ConflictRun (settings : Settings) (user : Dict) (session : Session) :
    Transcript → Except PyExc (Option ℕ) → Session → Prop
  | raised {transcript : Transcript} {error : PyExc}
      (hreading : Reading transcript) (hraise : ConflictRaise settings user transcript error) :
      ConflictRun settings user session transcript (.error error) session
  | failed {transcript : Transcript} (hreading : Reading transcript) :
      ConflictRun settings user session transcript (.ok none) (session.count .error)
  | conflict {transcript : Transcript} (hreading : Reading transcript) :
      ConflictRun settings user session transcript
        ((logUserRef settings user).map fun _ => none) (session.count (.conflict user))
  | found {transcript : Transcript} {record : Dict} (hreading : Reading transcript)
      (hreceived : Received transcript record)
      (hsafe : isSafeUserId (record.get? "id") = true)
      (husername : usernameOf record = usernameOf user) :
      ConflictRun settings user session transcript (.ok (some session.records.length))
        { session with records := session.records ++ [record] }

section Conflicts

variable {settings : Settings} {user : Dict} {session left : Session}
variable {transcript : Transcript}

omit [PyRuntime] in
theorem runs_queryUsernameFilter {username : Json} {outcome : Except PyExc (Option Dict)}
    (hruns : Script.Runs (queryUsernameFilter username) session transcript outcome left) :
    left = session ∧
      ((∃ error, quoteLiteral username = .error error ∧ transcript = [] ∧
          outcome = .error error) ∨
        ∃ answer, transcript = [(.filterUsers .userName username, answer)] ∧
          outcome = filterPayload answer) := by
  obtain ⟨error, hquote, rfl, rfl, rfl⟩ | ⟨_, -, hruns⟩ :=
    Script.runs_ofExcept_bind_iff.mp hruns
  · exact ⟨rfl, .inl ⟨error, hquote, rfl, rfl⟩⟩
  obtain ⟨later, rfl, hnone⟩ | ⟨rfl, rfl, rfl⟩ | ⟨reply, later, rfl, hreply⟩ :=
    runs_trySend_bind hruns
  · obtain ⟨rfl, rfl, rfl⟩ := Script.runs_pure_iff.mp hnone
    exact ⟨rfl, .inr ⟨_, rfl, rfl⟩⟩
  · exact ⟨rfl, .inr ⟨_, rfl, rfl⟩⟩
  · dsimp only at hreply
    split_ifs at hreply with hstatus
    · obtain ⟨rfl, rfl, rfl⟩ := Script.runs_pure_iff.mp hreply
      exact ⟨rfl, .inr ⟨_, rfl, by simp [filterPayload, hstatus]⟩⟩
    · split at hreply
      · next hjson =>
        obtain ⟨rfl, rfl, rfl⟩ := Script.runs_pure_iff.mp hreply
        exact ⟨rfl, .inr ⟨_, rfl, by simp [filterPayload, hstatus, hjson]⟩⟩
      · next hjson =>
        obtain ⟨rfl, rfl, rfl⟩ := Script.runs_throw_iff.mp hreply
        exact ⟨rfl, .inr ⟨_, rfl, by simp [filterPayload, hstatus, hjson]⟩⟩
      · next hjson =>
        obtain ⟨rfl, rfl, rfl⟩ := Script.runs_pure_iff.mp hreply
        exact ⟨rfl, .inr ⟨_, rfl, by simp [filterPayload, hstatus, hjson]⟩⟩
      · next value hnotDict hjson =>
        obtain ⟨rfl, rfl, rfl⟩ := Script.runs_pure_iff.mp hreply
        refine ⟨rfl, .inr ⟨_, rfl, ?_⟩⟩
        cases value with
        | dict payload => exact absurd rfl (hnotDict payload)
        | _ => simp [filterPayload, hstatus, hjson]

omit [PyRuntime] in
theorem runs_keepRecord_iff {record : Dict} {outcome : Except PyExc (Option ℕ)} :
    Script.Runs (some <$> keepRecord record) session transcript outcome left ↔
      transcript = [] ∧ outcome = .ok (some session.records.length) ∧
        left = { session with records := session.records ++ [record] } :=
  and_congr_right fun _ => Prod.mk.injEq .. ▸ Iff.rfl

theorem runs_verifiedFilteredUser {username : Json} {found : Dict}
    {outcome : Except PyExc (Option Dict)}
    (hruns : Script.Runs (verifiedFilteredUser username found user) session transcript outcome
      left) :
    Reading transcript ∧ left = session ∧
      (∀ error, outcome = .error error →
        Script.Runs (existingUsers [user]) session transcript (.error error) session ∧
          (∀ message, error ≠ .appleUserList message) ∧
          ∀ sample, error ≠ .filteredLookupRequired sample) ∧
      ∀ verified, outcome = .ok (some verified) →
        Received transcript verified ∧ isSafeUserId (verified.get? "id") = true ∧
          usernameOf verified = normalizeIdentifier (some username) ∧
          verified.get? "id" = found.get? "id" ∧
          externalIdOf verified = externalIdOf found := by
  obtain ⟨error, hlisting, hmessage, hsample, rfl⟩ |
      ⟨first, error, middle, later, rfl, hlisting, hrest⟩ |
      ⟨first, ⟨listing, filtered⟩, middle, later, rfl, hlisting, hrest⟩ :=
    runs_tryListing_bind hruns
  · obtain ⟨hreading, rfl, -⟩ := runs_existingUsers hlisting
    refine ⟨hreading, rfl, ?_, nofun⟩
    rintro _ ⟨rfl⟩
    exact ⟨hlisting, hmessage, hsample⟩
  · obtain ⟨hreading, rfl, -⟩ := runs_existingUsers hlisting
    obtain ⟨rfl, rfl, rfl⟩ := Script.runs_pure_iff.mp hrest
    rw [List.append_nil]
    exact ⟨hreading, rfl, nofun, nofun⟩
  · obtain ⟨hreading, rfl, hlisted⟩ := runs_existingUsers hlisting
    have hfor := hlisted listing filtered rfl
    dsimp only at hrest
    split at hrest
    · obtain ⟨rfl, rfl, rfl⟩ := Script.runs_pure_iff.mp hrest
      rw [List.append_nil]
      exact ⟨hreading, rfl, nofun, nofun⟩
    · next listed hmatch =>
      split_ifs at hrest with hdiffers
      · obtain ⟨rfl, rfl, rfl⟩ := Script.runs_pure_iff.mp hrest
        rw [List.append_nil]
        exact ⟨hreading, rfl, nofun, nofun⟩
      · obtain ⟨rfl, rfl, rfl⟩ := Script.runs_pure_iff.mp hrest
        rw [List.append_nil]
        refine ⟨hreading, rfl, nofun, ?_⟩
        rintro _ ⟨rfl⟩
        obtain ⟨hmem, husername⟩ := hfor.exact.usernameMatch_eq_some_iff.mp hmatch
        rw [not_or, not_not, not_not] at hdiffers
        exact ⟨hfor.received listed hmem, hfor.exact.unambiguous.safe listed hmem, husername,
          hdiffers.1, hdiffers.2⟩

/-- What follows the response to the filter. -/
theorem conflictRun_of_payload {answer : Outcome} {payload : Dict}
    {outcome : Except PyExc (Option ℕ)} (hanswer : answer.usersPage = .ok payload)
    (hruns : Script.Runs (
      let zeroBased : Bool := payload.get? "startIndex" = some (.int 0)
      let payload := if zeroBased then payload.set "startIndex" (.int 1) else payload
      match validateUsersPage payload 1 none with
      | .error (.appleUserList _) => do
        countError
        pure none
      | .error error => throw error
      | .ok (resources, total) =>
        if 1 < total ∨ total = 0 then do
          recordUsernameConflict settings user
          pure none
        else
          match resources with
          | [] => throw .indexError
          | found :: _ =>
            if ¬(isSafeUserId (found.get? "id") ∧ hasUsername found ∧
                usernameOf found = normalizeIdentifier (some (conflictUsername user))) then do
              countError
              pure none
            else if zeroBased then do
              match ← verifiedFilteredUser (conflictUsername user) found user with
              | none => do
                countError
                pure none
              | some verified => some <$> keepRecord verified
            else
              some <$> keepRecord found) session transcript outcome left) :
    ConflictRun settings user session
      ((.filterUsers .userName (conflictUsername user), answer) :: transcript) outcome left := by
  have hsingle : Reading [(.filterUsers .userName (conflictUsername user), answer)] := .single
  dsimp only at hruns
  split at hruns
  · rw [countError, runs_count_bind_iff, Script.runs_pure_iff] at hruns
    obtain ⟨rfl, rfl, rfl⟩ := hruns
    exact .failed hsingle
  · next error hmessage hpage =>
    obtain ⟨message, rfl⟩ := raisesOnly_validateUsersPage _ _ _ error hpage
    exact absurd rfl (hmessage message)
  next resources total hpage =>
  have haccepted := (acceptedPage_of_validateUsersPage hpage).1
  have hresources : resourcesOf payload = resources := by
    rw [← resourcesOf_eq haccepted.resources_eq]
    split_ifs
    · rw [resourcesOf, resourcesOf, Dict.getD, Dict.getD, Dict.get?_set_of_ne _ _ (by decide)]
    · rfl
  by_cases htotal : 1 < total ∨ total = 0
  case pos =>
    rw [if_pos htotal, recordUsernameConflict, bind_assoc, runs_count_bind_iff,
      runs_log_pure_iff] at hruns
    obtain ⟨rfl, rfl, rfl⟩ := hruns
    exact .conflict hsingle
  rw [if_neg htotal] at hruns
  split at hruns
  · have hpast := haccepted.progress rfl
    have hnonneg := haccepted.nonneg
    omega
  next found others =>
  have hreceived : Received [(.filterUsers .userName (conflictUsername user), answer)] found :=
    ⟨_, List.mem_cons_self, payload, hanswer, .inr (hresources ▸ List.mem_cons_self)⟩
  by_cases hvalid : isSafeUserId (found.get? "id") ∧ hasUsername found ∧
      usernameOf found = normalizeIdentifier (some (conflictUsername user))
  case neg =>
    rw [if_pos hvalid, countError, runs_count_bind_iff, Script.runs_pure_iff] at hruns
    obtain ⟨rfl, rfl, rfl⟩ := hruns
    exact .failed hsingle
  rw [if_neg (not_not.mpr hvalid)] at hruns
  rw [normalizeIdentifier_conflictUsername] at hvalid
  split at hruns
  · -- a zero-based answer is checked against a new listing
    obtain ⟨error, hverify, rfl⟩ | ⟨first, verified, middle, later, rfl, hverify, hrest⟩ :=
      Script.runs_bind_iff.mp hruns
    · obtain ⟨hreading, rfl, hraised, -⟩ := runs_verifiedFilteredUser hverify
      obtain ⟨hlisting, hmessage, hsample⟩ := hraised error rfl
      exact .raised (hsingle.append hreading) (.listing hlisting hmessage hsample)
    · obtain ⟨hreading, rfl, -, hverified⟩ := runs_verifiedFilteredUser hverify
      cases verified with
      | none =>
          rw [countError, runs_count_bind_iff, Script.runs_pure_iff] at hrest
          obtain ⟨rfl, rfl, rfl⟩ := hrest
          rw [List.append_nil]
          exact .failed (hsingle.append hreading)
      | some record =>
          obtain ⟨rfl, rfl, rfl⟩ := runs_keepRecord_iff.mp hrest
          obtain ⟨hagain, hsafe, husername, -⟩ := hverified record rfl
          rw [List.append_nil]
          exact .found (hsingle.append hreading)
            (hagain.mono (List.subset_cons_self _ _)) hsafe
            (husername.trans (normalizeIdentifier_conflictUsername user))
  · obtain ⟨rfl, rfl, rfl⟩ := runs_keepRecord_iff.mp hruns
    exact .found hsingle hreceived hvalid.1 hvalid.2.2

theorem runs_conflictingUser {outcome : Except PyExc (Option ℕ)}
    (hruns : Script.Runs (conflictingUser settings user) session transcript outcome left) :
    ConflictRun settings user session transcript outcome left := by
  obtain ⟨error, hmask, rfl, rfl, rfl⟩ | ⟨_, -, hruns⟩ :=
    Script.runs_ofExcept_bind_iff.mp hruns
  · exact .raised .nil (.mask hmask)
  obtain ⟨error, hquery, rfl⟩ | ⟨first, payload, middle, second, rfl, hquery, hrest⟩ :=
    Script.runs_bind_iff.mp hruns
  · obtain ⟨rfl, ⟨_, hquote, rfl, heq⟩ | ⟨answer, rfl, hanswer⟩⟩ :=
      runs_queryUsernameFilter hquery
    · exact .raised .nil (.quote (Except.error.inj heq ▸ hquote))
    · exact .raised .single (.answer hanswer.symm)
  obtain ⟨rfl, ⟨_, hquote, rfl, heq⟩ | ⟨answer, rfl, hanswer⟩⟩ :=
    runs_queryUsernameFilter hquery
  · cases heq
  cases payload with
  | none =>
      rw [countError, runs_count_bind_iff, Script.runs_pure_iff] at hrest
      obtain ⟨rfl, rfl, rfl⟩ := hrest
      rw [List.append_nil]
      exact .failed .single
  | some payload =>
      exact conflictRun_of_payload (usersPage_of_filterPayload hanswer.symm) hrest

theorem ConflictRun.reading {outcome : Except PyExc (Option ℕ)}
    (hrun : ConflictRun settings user session transcript outcome left) : Reading transcript := by
  cases hrun <;> assumption

end Conflicts

/-! ## Verifying what was created -/

/-- Both filters and a direct read show this account under the id, with the identity of
the user. -/
structure Evidence (user : Dict) (transcript : Transcript) (userId : PyStr)
    (record : Dict) : Prop where
  id : record.get? "id" = some (.str userId)
  externalId : externalIdOf record = externalIdOf user
  username : usernameOf record = usernameOf user
  filtered : ∀ identity, ∃ answer found, (identityRequest user identity, answer) ∈ transcript ∧
    Outcome.Shows answer (some found) ∧ sameIdentity (some found) (some record) = true
  read : ∃ answer, (.readUser userId, answer) ∈ transcript ∧ answer.usersPage = .ok record

/-- The id in the answer to a create, none where the answer is no JSON object. -/
def createdId (response : Response) : Except PyExc (Option Json) :=
  match response.json with
  | .ok (.dict created) => .ok (Dict.get? created "id")
  | .ok _ | .error .valueError => .ok none
  | .error error => .error error

/-- How the verification can raise. -/
inductive VerifyRaise (settings : Settings) (user : Dict) (response : Response)
    (session : Session) : Transcript → PyExc → Prop
  | answer {error : PyExc} (hjson : createdId response = .error error) :
      VerifyRaise settings user response session [] error
  | log {transcript : Transcript} {error : PyExc}
      (hlog : logUserRef settings user = .error error) :
      VerifyRaise settings user response session transcript error
  | lookup {transcript : Transcript} {error : PyExc}
      (hlookup : Script.Runs (getExistingUsersByFilter [user] {}) session transcript
        (.error error) session)
      (hescapes : ∀ message, error ≠ .appleUserList message)
      (hescapes' : ∀ sample, error ≠ .filteredLookupRequired sample) :
      VerifyRaise settings user response session transcript error

section Verifying

variable {settings : Settings} {user : Dict} {response : Response}
variable {session left : Session} {transcript : Transcript}

omit [PyRuntime] in
theorem lookupUsername_eq (hnamed : hasUsername user = true) :
    user.get? "userName" = some (.str (lookupUsername user)) := by
  obtain ⟨username, husername, -⟩ := hasUsername_iff.mp hnamed
  rw [lookupUsername, husername]

theorem normalizeIdentifier_lookupUsername (hnamed : hasUsername user = true) :
    normalizeIdentifier (some (.str (lookupUsername user))) = usernameOf user := by
  rw [usernameOf, lookupUsername_eq hnamed]

/-- A linked user is looked up by the externalId that it is compared by. -/
theorem sourceExternalId_eq_externalIdOf {externalId : PyStr}
    (hexternalId : sourceExternalId user = .ok externalId) (hlinked : externalIdOf user ≠ []) :
    externalId = externalIdOf user := by
  rw [sourceExternalId.eq_def] at hexternalId
  split at hexternalId
  next value hvalue =>
    obtain rfl := Except.ok.inj hexternalId
    rw [externalIdOf, trimmed, hvalue, textOf] at hlinked ⊢
    split_ifs at hlinked ⊢ with htruthy
    · rfl
    · exact absurd rfl hlinked
  next => cases hexternalId

theorem exists_sourceExternalId (hlinked : externalIdOf user ≠ []) :
    sourceExternalId user = .ok (externalIdOf user) := by
  cases hvalue : user.get? "externalId" with
  | none => exact absurd (by rw [externalIdOf, hvalue]; rfl) hlinked
  | some value =>
      have hsource : sourceExternalId user = .ok (strip value.pyStr) := by
        rw [sourceExternalId, hvalue]
      rw [← sourceExternalId_eq_externalIdOf hsource hlinked]
      exact hsource

/-- A record that both indexes of a preflight for the user hold. -/
theorem evidence_of_preflighted {listing : Listing} {userId : PyStr} {found : Dict}
    (hpreflighted : Preflighted [user] transcript listing)
    (hexternalId : listing.externalIdMatch (externalIdOf user) = some found)
    (husername : sameIdentity (some found) (listing.usernameMatch (usernameOf user)) = true)
    (hid : found.get? "id" = some (.str userId)) :
    Evidence user transcript userId found := by
  have hnamed := hpreflighted.identifiable.named user List.mem_cons_self
  have hlinked := hpreflighted.identifiable.linked user List.mem_cons_self
  obtain ⟨first, hfirst⟩ := hpreflighted.asked user List.mem_cons_self .externalId
  obtain ⟨second, hsecond⟩ := hpreflighted.asked user List.mem_cons_self .userName
  obtain ⟨hmem, hfound⟩ :=
    (hpreflighted.exact.externalIdMatch_eq_some_iff hlinked).mp hexternalId
  cases hmatch : listing.usernameMatch (usernameOf user) with
  | none => simp [hmatch, sameIdentity] at husername
  | some other =>
      rw [hmatch] at husername
      have hother := hpreflighted.exact.usernameMatch_eq_some_iff.mp hmatch
      have hagrees : usernameOf found = usernameOf user := by
        simp only [sameIdentity, Bool.and_eq_true, decide_eq_true_eq] at husername
        rw [husername.1.2, hother.2]
      refine ⟨hid, hfound, hagrees, ?_, ?_⟩
      · rintro (_ | _)
        · obtain ⟨shown, hshown, hsame⟩ := hpreflighted.answered _ _ _ hfirst
          rw [Listing.identityMatch, identityValue, hexternalId] at hsame
          cases shown with
          | none => cases hsame
          | some shown => exact ⟨first, shown, hfirst, hshown, hsame⟩
        · obtain ⟨shown, hshown, hsame⟩ := hpreflighted.answered _ _ _ hsecond
          rw [Listing.identityMatch, identityValue, normalizeIdentifier_lookupUsername hnamed,
            hpreflighted.exact.usernameMatch_eq_some_iff.mpr ⟨hmem, hagrees⟩] at hsame
          cases shown with
          | none => cases hsame
          | some shown => exact ⟨second, shown, hsecond, hshown, hsame⟩
      · obtain ⟨otherId, answer, hotherId, hread, hpage⟩ := hpreflighted.read found hmem
        obtain rfl := Json.str.inj (Option.some.inj (hid.symm.trans hotherId))
        exact ⟨answer, hread, hpage⟩

/-- What a verification can come to. -/
structure Verification (settings : Settings) (user : Dict) (response : Response)
    (session : Session) (transcript : Transcript) (outcome : Except PyExc Bool)
    (left : Session) : Prop where
  reading : Reading transcript
  left_eq : left = session
  raised : ∀ error, outcome = .error error →
    VerifyRaise settings user response session transcript error
  verified : outcome = .ok true → ∃ userId record,
    createdId response = .ok (some (.str userId)) ∧ Evidence user transcript userId record

omit [PyRuntime] in
theorem runs_logFalse {outcome : Except PyExc Bool}
    (hruns : Script.Runs (do
      Script.ofExcept (logUserRef settings user)
      pure false) session transcript outcome left) :
    transcript = [] ∧ left = session ∧ outcome ≠ .ok true ∧
      ∀ error, outcome = .error error → logUserRef settings user = .error error := by
  obtain ⟨rfl, rfl, rfl⟩ := runs_log_pure_iff.mp hruns
  refine ⟨rfl, rfl, ?_, ?_⟩
  · cases logUserRef settings user <;> simp [Except.map]
  · cases logUserRef settings user <;> simp [Except.map]

/-- What follows the answer to the create. -/
theorem verification_of_createdId {userId : Option Json} {outcome : Except PyExc Bool}
    (hcreated : createdId response = .ok userId)
    (hruns : Script.Runs (
      if ¬isSafeUserId userId then do
        Script.ofExcept (logUserRef settings user)
        pure false
      else do
        match ← tryCatch (some <$> getExistingUsersByFilter [user] {}) (fun error =>
            match error with
            | .appleUserList _ | .filteredLookupRequired _ => pure none
            | error => throw error) with
        | none => do
          Script.ofExcept (logUserRef settings user)
          pure false
        | some listing => do
          let externalId ← Script.ofExcept (sourceExternalId user)
          let externalMatch := listing.externalIdMatch externalId
          let usernameMatch := listing.usernameMatch (usernameOf user)
          let isVerified : Bool :=
            match externalMatch with
            | none => false
            | some found =>
              sameIdentity (some found) usernameMatch && found.get? "id" = userId
          if isVerified then pure true
          else do
            Script.ofExcept (logUserRef settings user)
            pure false) session transcript outcome left) :
    Verification settings user response session transcript outcome left := by
  by_cases hsafe : isSafeUserId userId = true
  case neg =>
    rw [if_pos hsafe] at hruns
    obtain ⟨rfl, rfl, hfalse, hraised⟩ := runs_logFalse hruns
    exact ⟨.nil, rfl, fun error heq => .log (hraised error heq), fun heq => absurd heq hfalse⟩
  rw [if_neg (not_not.mpr hsafe)] at hruns
  obtain ⟨error, hlookup, hmessage, hsample, rfl⟩ |
      ⟨first, error, middle, later, rfl, hlookup, hrest⟩ |
      ⟨first, listing, middle, later, rfl, hlookup, hrest⟩ := runs_tryListing_bind hruns
  · obtain ⟨hreading, rfl, -⟩ := runs_getExistingUsersByFilter hlookup
    refine ⟨hreading, rfl, ?_, nofun⟩
    rintro _ ⟨rfl⟩
    exact .lookup hlookup hmessage hsample
  · obtain ⟨hreading, rfl, -⟩ := runs_getExistingUsersByFilter hlookup
    obtain ⟨rfl, rfl, hfalse, hraised⟩ := runs_logFalse hrest
    rw [List.append_nil]
    exact ⟨hreading, rfl, fun error heq => .log (hraised error heq), fun heq => absurd heq hfalse⟩
  · obtain ⟨hreading, rfl, hfound⟩ := runs_getExistingUsersByFilter hlookup
    have hpreflighted := hfound listing rfl
    have hlinked := hpreflighted.identifiable.linked user List.mem_cons_self
    dsimp only at hrest
    rw [exists_sourceExternalId hlinked] at hrest
    obtain ⟨_, hnone, -⟩ | ⟨externalId, heq, hrest⟩ := Script.runs_ofExcept_bind_iff.mp hrest
    · cases hnone
    obtain rfl := Except.ok.inj heq
    split_ifs at hrest with hverified
    · obtain ⟨rfl, rfl, rfl⟩ := Script.runs_pure_iff.mp hrest
      rw [List.append_nil]
      refine ⟨hreading, rfl, nofun, fun _ => ?_⟩
      split at hverified
      · cases hverified
      · next found hmatch =>
        rw [Bool.and_eq_true, decide_eq_true_eq] at hverified
        obtain ⟨createdId, rfl⟩ := exists_str_of_isSafeUserId hsafe
        exact ⟨createdId, found, hcreated,
          evidence_of_preflighted hpreflighted hmatch hverified.1 hverified.2⟩
    · obtain ⟨rfl, rfl, hfalse, hraised⟩ := runs_logFalse hrest
      rw [List.append_nil]
      exact ⟨hreading, rfl, fun error heq => .log (hraised error heq),
        fun heq => absurd heq hfalse⟩

theorem runs_verifyCreatedUser {outcome : Except PyExc Bool}
    (hruns : Script.Runs (verifyCreatedUser settings user response) session transcript outcome
      left) : Verification settings user response session transcript outcome left := by
  rw [verifyCreatedUser] at hruns
  dsimp only at hruns
  split at hruns
  · next created hjson =>
    rw [pure_bind] at hruns
    exact verification_of_createdId (by rw [createdId, hjson]) hruns
  · next value hnotDict hjson =>
    rw [pure_bind] at hruns
    have hnone : createdId response = .ok none := by
      cases value with
      | dict created => exact absurd rfl (hnotDict created)
      | _ => rw [createdId, hjson]
    exact verification_of_createdId hnone hruns
  · next hjson =>
    rw [pure_bind] at hruns
    exact verification_of_createdId (by rw [createdId, hjson]) hruns
  · next error hother hjson =>
    obtain ⟨_, hthrown, rfl⟩ | ⟨_, _, _, _, -, hthrown, -⟩ := Script.runs_bind_iff.mp hruns
    · obtain ⟨rfl, heq, rfl⟩ := Script.runs_throw_iff.mp hthrown
      obtain rfl := Except.error.inj heq
      refine ⟨.nil, rfl, ?_, nofun⟩
      rintro _ ⟨rfl⟩
      exact .answer (by simp [createdId, hjson])
    · obtain ⟨-, hnone, -⟩ := Script.runs_throw_iff.mp hthrown
      cases hnone

end Verifying

/-! ## Creating -/

/-- A source user was created. -/
def SyncResult.create (result : SyncResult) : SyncResult :=
  { result with created := result.created + 1 }

/-- Why an account is counted as created. -/
def CountsAsCreated (user : Dict) (verifyIdentity : Bool) (response : Response)
    (transcript : Transcript) : Prop :=
  verifyIdentity = true → ∃ userId record,
    createdId response = .ok (some (.str userId)) ∧ Evidence user transcript userId record

/-- What creating a user can do. -/
inductive CreateRun (settings : Settings) (user : Dict) (verifyIdentity : Bool)
    (session : Session) : Transcript → Except PyExc Unit → Session → Prop
  | unanswered {answer : Outcome} {error : PyExc} (hanswer : answer.result = .error error) :
      CreateRun settings user verifyIdentity session [(.createUser user, answer)]
        (.error error) session
  | created {response : Response} {later : Transcript} (hreading : Reading later)
      (hcounts : CountsAsCreated user verifyIdentity response later) :
      CreateRun settings user verifyIdentity session
        ((.createUser user, .response response) :: later) (logUserRef settings user)
        (session.count .create)
  | unverified {response : Response} {later : Transcript} (hreading : Reading later)
      (hverifies : verifyIdentity = true) :
      CreateRun settings user verifyIdentity session
        ((.createUser user, .response response) :: later) (.ok ()) (session.count .error)
  | raised {response : Response} {later : Transcript} {error : PyExc}
      (hreading : Reading later) (hverifies : verifyIdentity = true)
      (hraise : VerifyRaise settings user response session later error) :
      CreateRun settings user verifyIdentity session
        ((.createUser user, .response response) :: later) (.error error) session
  | rejected {response : Response} :
      CreateRun settings user verifyIdentity session
        [(.createUser user, .response response)] (logUpdateFailure settings user response)
        (session.count .error)
  | unresolved {response : Response} {later : Transcript} {outcome : Except PyExc (Option ℕ)}
      {left : Session} (hrun : ConflictRun settings user session later outcome left)
      (hnone : ∀ position, outcome ≠ .ok (some position)) :
      CreateRun settings user verifyIdentity session
        ((.createUser user, .response response) :: later) (outcome.map fun _ => ()) left
  | resolved {response : Response} {first second : Transcript} {position : ℕ}
      {outcome : Except PyExc Unit} {middle left : Session}
      (hrun : ConflictRun settings user session first (.ok (some position)) middle)
      (hreconciled : Reconciled settings user position true middle second outcome left) :
      CreateRun settings user verifyIdentity session
        ((.createUser user, .response response) :: (first ++ second)) outcome left

section CreatingUsers

variable {settings : Settings} {user : Dict} {verifyIdentity : Bool}
variable {session left : Session} {transcript : Transcript} {outcome : Except PyExc Unit}

/-- A response that says the user was created. -/
theorem createRun_of_created {response : Response}
    (hruns : Script.Runs (
      if verifyIdentity then do
        let verified ← verifyCreatedUser settings user response
        if verified then
          count SyncResult.create
          Script.ofExcept (logUserRef settings user)
        else
          countError
      else do
        count SyncResult.create
        Script.ofExcept (logUserRef settings user)) session transcript outcome left) :
    CreateRun settings user verifyIdentity session
      ((.createUser user, .response response) :: transcript) outcome left := by
  split_ifs at hruns with hverifies
  · obtain ⟨error, hverify, rfl⟩ | ⟨first, verified, middle, second, rfl, hverify, hrest⟩ :=
      Script.runs_bind_iff.mp hruns
    · obtain ⟨hreading, rfl, hraised, -⟩ := runs_verifyCreatedUser hverify
      exact .raised hreading hverifies (hraised error rfl)
    · obtain ⟨hreading, rfl, -, hverified⟩ := runs_verifyCreatedUser hverify
      split_ifs at hrest with hcounts
      · rw [runs_count_bind_iff, Script.runs_ofExcept_iff] at hrest
        obtain ⟨rfl, rfl, rfl⟩ := hrest
        rw [List.append_nil]
        exact .created hreading fun _ => hverified (hcounts ▸ rfl)
      · obtain ⟨rfl, rfl, rfl⟩ := Script.runs_modify_iff.mp hrest
        rw [List.append_nil]
        exact .unverified hreading hverifies
  · rw [runs_count_bind_iff, Script.runs_ofExcept_iff] at hruns
    obtain ⟨rfl, rfl, rfl⟩ := hruns
    exact .created .nil fun htrue => absurd htrue hverifies

theorem createRun_of_conflict {response : Response}
    (hruns : Script.Runs (handle409 settings user) session transcript outcome left) :
    CreateRun settings user verifyIdentity session
      ((.createUser user, .response response) :: transcript) outcome left := by
  obtain ⟨error, hrun, rfl⟩ | ⟨first, found, middle, second, rfl, hrun, hrest⟩ :=
    Script.runs_bind_iff.mp hruns
  · exact .unresolved (runs_conflictingUser hrun) nofun
  · have hconflict := runs_conflictingUser hrun
    cases found with
    | none =>
        obtain ⟨rfl, rfl, rfl⟩ := Script.runs_pure_iff.mp hrest
        rw [List.append_nil]
        exact .unresolved hconflict (by simp)
    | some position => exact .resolved hconflict (runs_reconcileDiffs hrest)

theorem runs_createUser
    (hruns : Script.Runs (createUser settings user verifyIdentity) session transcript outcome
      left) : CreateRun settings user verifyIdentity session transcript outcome left := by
  obtain ⟨rfl, rfl, rfl⟩ | ⟨rfl, rfl, rfl⟩ | ⟨response, later, rfl, hanswered⟩ :=
    runs_send_bind_iff.mp hruns
  · exact .unanswered rfl
  · exact .unanswered rfl
  dsimp only at hanswered
  split_ifs at hanswered with hcreated hverifies hconflict
  · exact createRun_of_created (by rwa [if_pos hverifies])
  · rw [pure_bind] at hanswered
    exact createRun_of_created (by rwa [if_neg hverifies])
  · exact createRun_of_conflict hanswered
  · rw [countError, runs_count_bind_iff, Script.runs_ofExcept_iff] at hanswered
    obtain ⟨rfl, rfl, rfl⟩ := hanswered
    exact .rejected

end CreatingUsers

end SsfTransmitter.Scim
