import SsfTransmitter.Python.Ascii
import SsfTransmitter.Scim.Accounting
import SsfTransmitter.Scim.ListErrors
import SsfTransmitter.Scim.Ownership
import SsfTransmitter.Scim.Updates

/-!
# What ends a run in the middle

The loop over the users catches network failures only.  An account whose name is no object
or whose id cannot be put into a URL, an answer nested too deeply, or a userName that cannot
be logged, ends the run after other users have been written.
-/

namespace SsfTransmitter.Scim

open SsfTransmitter.Core
open SsfTransmitter.Python

section Interruptions

variable [PyRuntime]

/-! ## Parts of a turn -/

/-- A source user that can be compared, logged and looked up. -/
structure Presentable (settings : Settings) (user : Dict) : Prop where
  name : ∃ name, nameOf user = .ok name
  log : logUserRef settings user = .ok ()
  mask : maskEmail settings (conflictUsername user) = .ok ()
  quote : quoteLiteral (conflictUsername user) = .ok ()

omit [PyRuntime] in
theorem maskEmail_of_encodable (settings : Settings) {text : PyStr}
    (hencodable : encodable text = true) : maskEmail settings (.str text) = .ok () := by
  by_cases hlog : settings.logPii = true
  · exact if_pos (.inr hlog)
  · refine (if_neg (not_or.mpr ⟨nofun, hlog⟩)).trans ?_
    exact if_pos hencodable

omit [PyRuntime] in
theorem Presentable.of_encodable (settings : Settings) {user name : Dict}
    (hname : nameOf user = .ok name) (hnamed : hasUsername user = true)
    (hencodable : encodable (lookupUsername user) = true) : Presentable settings user := by
  have husername := lookupUsername_eq hnamed
  have hconflict : conflictUsername user = .str (lookupUsername user) := by
    rw [conflictUsername, Dict.getD, husername, Option.getD_some]
  refine ⟨⟨name, hname⟩, ?_, ?_, ?_⟩
  · rw [logUserRef, husername]
    change maskEmail settings (if _ then _ else _) = _
    split_ifs
    · exact maskEmail_of_encodable settings hencodable
    · exact maskEmail_of_encodable settings rfl
  · rw [hconflict]
    exact maskEmail_of_encodable settings hencodable
  · rw [hconflict]
    exact if_pos hencodable

/-- A record that can be compared and addressed. -/
structure Usable (record : Dict) : Prop where
  name : hasObjectName record = true
  id : ∃ userId, requireId record = .ok userId ∧ encodable userId = true

omit [PyRuntime] in
theorem exists_nameOf_of_hasObjectName {record : Dict} (hname : hasObjectName record = true) :
    ∃ name, nameOf record = .ok name := by
  rw [hasObjectName] at hname
  rw [nameOf]
  revert hname
  cases record.getD "name" (.dict []) with
  | dict fields => exact fun _ => ⟨fields, rfl⟩
  | _ => rintro ⟨⟩

section Parts

variable {settings : Settings} {user : Dict} {position : ℕ} {session left : Session}
variable {transcript : Transcript} {error : PyExc}

omit [PyRuntime] in
theorem not_stop {record : Dict} (huser : Presentable settings user) (hrecord : Usable record) :
    ¬ Stop settings record user error := by
  obtain ⟨userId, hid, hencodable⟩ := hrecord.id
  intro hstop
  cases hstop with
  | log hlog =>
      rw [huser.log] at hlog
      cases hlog
  | recordName hname =>
      obtain ⟨name, hsome⟩ := exists_nameOf_of_hasObjectName hrecord.name
      rw [hsome] at hname
      cases hname
  | userName hname =>
      obtain ⟨name, hsome⟩ := huser.name
      rw [hsome] at hname
      cases hname
  | id hnone =>
      rw [hid] at hnone
      cases hnone
  | url hsome hurl =>
      obtain rfl := Except.ok.inj (hid.symm.trans hsome)
      rw [userUrl, ensure, if_pos hencodable] at hurl
      cases hurl

omit [PyRuntime] in
/-- A difference that is listed once is found. -/
theorem changed_of_mem {diffs : Diffs} (hnodup : (diffs.map Prod.fst).Nodup) {key : DiffKey}
    (hmem : (key, true) ∈ diffs) : diffs.changed key = true := by
  induction diffs with
  | nil => cases hmem
  | cons diff diffs ih =>
      obtain ⟨other, value⟩ := diff
      rw [List.map_cons, List.nodup_cons] at hnodup
      rw [changed_cons]
      obtain heq | hrest := List.mem_cons.mp hmem
      · obtain ⟨rfl, rfl⟩ := Prod.mk.inj heq
        rw [if_pos rfl]
      · have hother : key ≠ other := by
          rintro rfl
          exact hnodup.1 (List.mem_map.mpr ⟨_, hrest, rfl⟩)
        rw [if_neg hother]
        exact ih hnodup.2 hrest

theorem nodup_of_fieldDiffs {record : Dict} {includeExternalId : Bool} {diffs : Diffs}
    (hdiffs : fieldDiffs record user includeExternalId = .ok diffs) :
    (diffs.map Prod.fst).Nodup := by
  obtain ⟨_, -, hdiffs⟩ := bind_eq_ok_iff.mp hdiffs
  obtain ⟨_, -, hdiffs⟩ := bind_eq_ok_iff.mp hdiffs
  cases includeExternalId with
  | false =>
      obtain rfl := Except.ok.inj hdiffs
      simp
  | true =>
      obtain rfl := Except.ok.inj hdiffs
      simp

/-- An update that is due can be built. -/
theorem exists_updateRequest {record name : Dict} {userId : PyStr} {diffs : Diffs}
    (hid : requireId record = .ok userId) (hencodable : encodable userId = true)
    (hname : nameOf user = .ok name) (hnodup : (diffs.map Prod.fst).Nodup)
    (hacts : actsOn settings diffs = true) :
    ∃ request, updateRequest settings record user
      (actionableDiffs diffs settings.appleScimUpdateMode) = .ok request := by
  have hurl : userUrl userId = .ok () := if_pos hencodable
  have hbuilt : ∃ update, buildUpdateRequest user settings.appleScimUpdateMode userId
      (actionableDiffs diffs settings.appleScimUpdateMode) = .ok update := by
    by_cases hmode : settings.appleScimUpdateMode = .replaceAll
    · rw [buildUpdateRequest, if_pos hmode]
      exact ⟨_, rfl⟩
    · obtain ⟨⟨key, value⟩, hmem, hvalue⟩ := List.any_eq_true.mp hacts
      obtain rfl : value = true := hvalue
      obtain ⟨hdiff, hscope⟩ := List.mem_filter.mp hmem
      have hchanged : changedKeys settings.appleScimUpdateMode
          (actionableDiffs diffs settings.appleScimUpdateMode) ≠ [] :=
        List.ne_nil_of_mem (mem_changedKeys.mpr
          ⟨of_decide_eq_true hscope, changed_of_mem hnodup hdiff⟩)
      exact ⟨_, buildUpdateRequest_patch hname hmode userId hchanged⟩
  obtain ⟨update, hupdate⟩ := hbuilt
  exact ⟨_, bind_eq_ok_iff.mpr ⟨userId, hid, bind_eq_ok_iff.mpr ⟨update, hupdate,
    bind_eq_ok_iff.mpr ⟨(), hurl, rfl⟩⟩⟩⟩

/-! ## Answers that can be worked with -/

/-- Answers that the client can decode, those to writes also for the log. -/
structure Legible (settings : Settings) (transcript : Transcript) : Prop where
  plain : AllPlain transcript
  logged : ∀ exchange ∈ transcript, exchange.1.isWrite = true → ∀ response,
    exchange.2 = .response response → settings.appleScimLogErrorBody = true →
      response.readable = true

namespace Legible

variable {first second : Transcript}

omit [PyRuntime] in
theorem of_subset (hlegible : Legible settings second) (hsubset : first ⊆ second) :
    Legible settings first where
  plain exchange hexchange := hlegible.plain exchange (hsubset hexchange)
  logged exchange hexchange := hlegible.logged exchange (hsubset hexchange)

omit [PyRuntime] in
theorem right (hlegible : Legible settings (first ++ second)) : Legible settings second :=
  hlegible.of_subset (List.subset_append_right _ _)

omit [PyRuntime] in
theorem tail {exchange : Exchange Request Outcome}
    (hlegible : Legible settings (exchange :: second)) : Legible settings second :=
  hlegible.of_subset (List.subset_cons_self _ _)

omit [PyRuntime] in
/-- The answer to a write is logged. -/
theorem log {request : Request} {response : Response}
    (hlegible : Legible settings ((request, .response response) :: second))
    (hwrite : request.isWrite = true) (huser : Presentable settings user) :
    logUpdateFailure settings user response = .ok () := by
  have hreadable := hlegible.logged _ List.mem_cons_self hwrite response rfl
  rw [logUpdateFailure, ensure, if_pos hreadable]
  exact huser.log

end Legible

/-! ## What raises no more than a network failure -/

/-- What the loop over the users catches. -/
def Caught (error : PyExc) : Prop :=
  error = .httpError

omit [PyRuntime] in
theorem RaisesOnly.map {Value Result : Type} {allowed : PyExc → Prop}
    {result : Except PyExc Value} (hresult : RaisesOnly allowed result)
    (change : Value → Result) : RaisesOnly allowed (result.map change) := by
  cases result with
  | error error => exact .error (hresult error rfl)
  | ok value => exact .ok _

omit [PyRuntime] in
theorem Presentable.raisesOnly_log {allowed : PyExc → Prop}
    (huser : Presentable settings user) : RaisesOnly allowed (logUserRef settings user) := by
  rw [huser.log]
  exact .ok ()

omit [PyRuntime] in
theorem json_eq_error_of_plain {response : Response} (hplain : Plain (.response response))
    (herror : response.json = .error error) : error = .valueError := by
  have hbody := hplain.2 response rfl
  rw [Response.json.eq_def] at herror
  split at herror
  · cases herror
  · exact (Except.error.inj herror).symm
  · next hdeep => exact absurd hdeep hbody

omit [PyRuntime] in
theorem filterPayload_ne_error {answer : Outcome} (hplain : Plain answer) :
    filterPayload answer ≠ .error error := by
  intro herror
  rw [filterPayload.eq_def] at herror
  split at herror
  · cases herror
  · exact hplain.1 rfl
  · split_ifs at herror
    split at herror
    · cases herror
    · next hother hjson => exact hother (json_eq_error_of_plain hplain hjson)
    · cases herror
    · cases herror

theorem readBack_ne_error {userId : PyStr} {answer : Outcome} (hplain : Plain answer) :
    readBack userId user answer ≠ .error error := by
  intro herror
  rw [readBack.eq_def] at herror
  split at herror
  · cases herror
  · exact hplain.1 rfl
  · split_ifs at herror
    split at herror
    · cases herror
    · next hother hjson => exact hother (json_eq_error_of_plain hplain hjson)
    · cases herror

omit [PyRuntime] in
theorem createdId_ne_error {response : Response} (hplain : Plain (.response response)) :
    createdId response ≠ .error error := by
  intro herror
  rw [createdId.eq_def] at herror
  split at herror
  · cases herror
  · cases herror
  · cases herror
  · next hother hjson => exact hother (json_eq_error_of_plain hplain hjson)

omit [PyRuntime] in
theorem caught_afterUpdate {request : Request} {answer : Outcome}
    (hwrite : request.isWrite = true) (huser : Presentable settings user)
    (hlegible : Legible settings ((request, answer) :: transcript)) :
    RaisesOnly Caught (afterUpdate settings user session answer).1 := by
  cases answer with
  | networkError => exact .error rfl
  | refused => exact absurd rfl hlegible.plain.head.1
  | response response =>
      rw [afterUpdate]
      split_ifs
      · exact huser.raisesOnly_log
      · rw [hlegible.log hwrite huser]
        exact .ok ()

theorem Applied.caught {record : Dict} {repaired : Bool} {diffs : Diffs}
    {outcome : Except PyExc Unit}
    (happlied : Applied settings user record repaired diffs session transcript outcome left)
    (huser : Presentable settings user) (hrecord : Usable record)
    (hnodup : (diffs.map Prod.fst).Nodup) (hlegible : Legible settings transcript) :
    RaisesOnly Caught outcome := by
  cases happlied with
  | stopped hstop =>
      obtain hlog | ⟨hacts, hrequest⟩ := hstop
      · rw [huser.log] at hlog
        cases hlog
      · obtain ⟨userId, hid, hencodable⟩ := hrecord.id
        obtain ⟨name, hname⟩ := huser.name
        obtain ⟨request, hbuilt⟩ := exists_updateRequest hid hencodable hname hnodup hacts
        rw [hbuilt] at hrequest
        cases hrequest
  | settled => exact .ok ()
  | @sent request answer _ hrequest =>
      have hwrite : request.isWrite = true := by
        rw [Request.isWrite, writer?_of_updateRequest hrequest]
        rfl
      exact caught_afterUpdate hwrite huser hlegible

theorem RepairRun.caught {outcome : Except PyExc Bool}
    (hrun : RepairRun settings user position session transcript outcome left)
    (huser : Presentable settings user)
    (hrecord : Usable (session.records.getD position []))
    (hlegible : Legible settings transcript) : RaisesOnly Caught outcome := by
  cases hrun with
  | stopped hstop => exact absurd hstop (not_stop huser hrecord)
  | failed => exact (caught_afterUpdate rfl huser hlegible).map _
  | unreadable _ _ hread => exact absurd hread (readBack_ne_error hlegible.plain.tail.head)
  | unverified => exact huser.raisesOnly_log.map _
  | verified => exact huser.raisesOnly_log.map _

/-- A repaired record stays usable. -/
theorem RepairRun.usable
    (hrun : RepairRun settings user position session transcript (.ok true) left)
    (hrecord : Usable (session.records.getD position [])) :
    Usable (left.records.getD position []) := by
  obtain ⟨-, hnot⟩ | ⟨verified, -, hheld, hrepaired⟩ := hrun.records
  · exact absurd rfl hnot
  · rw [hheld]
    refine ⟨hrepaired.objectName, ?_⟩
    rw [requireId_congr hrepaired.id]
    exact hrecord.id

theorem Reconciled.caught {recoveredByUsername : Bool} {outcome : Except PyExc Unit}
    (hrun : Reconciled settings user position recoveredByUsername session transcript outcome
      left)
    (huser : Presentable settings user)
    (hrecord : Usable (session.records.getD position []))
    (hlegible : Legible settings transcript) : RaisesOnly Caught outcome := by
  cases hrun with
  | conflict => exact huser.raisesOnly_log
  | stopped hstop => exact absurd hstop (not_stop huser hrecord)
  | applied _ hdiffs happlied =>
      exact happlied.caught huser hrecord (nodup_of_fieldDiffs hdiffs) hlegible
  | unrepaired _ _ hrepair => exact (hrepair.caught huser hrecord hlegible).map _
  | repaired _ _ hrepair hdiffs happlied =>
      exact happlied.caught huser (hrepair.usable hrecord) (nodup_of_fieldDiffs hdiffs)
        hlegible.right
  | stoppedRepaired _ _ hrepair hstop =>
      exact absurd hstop (not_stop huser (hrepair.usable hrecord))

end Parts

/-! ## Turns -/

/-- Source users and shown accounts that a run can work with to its end. -/
structure Workable (users : List Dict) (transcript : Transcript) : Prop
    extends Addressable users transcript where
  linked : ∀ user ∈ users, externalIdOf user ≠ []
  named : ∀ user ∈ users, hasUsername user = true
  names : ∀ record, Shown transcript record → Concerns record users →
    hasObjectName record = true

namespace Workable

variable {users : List Dict} {user record : Dict} {first second : Transcript}

theorem of_subset (hworkable : Workable users second) (hsubset : first ⊆ second) :
    Workable users first where
  toAddressable := hworkable.toAddressable.of_subset hsubset
  linked := hworkable.linked
  named := hworkable.named
  names record hshown := hworkable.names record (hshown.mono hsubset)

/-- What holds of the source users holds of each of them. -/
theorem single (hworkable : Workable users second) (huser : user ∈ users) :
    Workable [user] second where
  externalIds := List.forall_mem_singleton.mpr (hworkable.externalIds user huser)
  usernames := List.forall_mem_singleton.mpr (hworkable.usernames user huser)
  ids record hshown hconcerns := hworkable.ids record hshown (hconcerns.of_mem huser)
  linked := List.forall_mem_singleton.mpr (hworkable.linked user huser)
  named := List.forall_mem_singleton.mpr (hworkable.named user huser)
  names record hshown hconcerns := hworkable.names record hshown (hconcerns.of_mem huser)

theorem usable (hworkable : Workable users second) (hshown : Shown second record)
    (hconcerns : Concerns record users) (hsafe : isSafeUserId (record.get? "id") = true) :
    Usable record := by
  obtain ⟨userId, hid⟩ := exists_str_of_isSafeUserId hsafe
  refine ⟨hworkable.names record hshown hconcerns, userId, requireId_eq_ok_iff.mpr hid, ?_⟩
  exact hworkable.ids record hshown hconcerns userId hid

end Workable

section Turning

variable {settings : Settings} {user : Dict} {session left : Session}
variable {before transcript : Transcript}

theorem ConflictRun.caught {result : Except PyExc (Option ℕ)}
    (hrun : ConflictRun settings user session transcript result left)
    (huser : Presentable settings user) (haddressable : Addressable [user] transcript)
    (hplain : AllPlain transcript) : RaisesOnly Caught result := by
  cases hrun with
  | raised _ hraise =>
      cases hraise with
      | mask hmask =>
          rw [huser.mask] at hmask
          cases hmask
      | quote hquote =>
          rw [huser.quote] at hquote
          cases hquote
      | answer hanswer => exact absurd hanswer (filterPayload_ne_error hplain.head)
      | listing hlisting hescapes =>
          obtain ⟨message, rfl⟩ := error_of_existingUsers hlisting hplain.tail
            (haddressable.of_subset (List.subset_cons_self _ _))
          exact absurd rfl (hescapes message)
  | failed => exact .ok _
  | conflict => exact huser.raisesOnly_log.map _
  | found => exact .ok _

theorem CreateRun.caught {verifyIdentity : Bool} {outcome : Except PyExc Unit}
    (hrun : CreateRun settings user verifyIdentity session transcript outcome left)
    (huser : Presentable settings user) (hworkable : Workable [user] transcript)
    (hlegible : Legible settings transcript) : RaisesOnly Caught outcome := by
  have hplain := hlegible.plain
  cases hrun with
  | @unanswered answer error hanswer =>
      cases answer with
      | networkError => exact .error (Except.error.inj hanswer).symm
      | refused => exact absurd rfl hplain.head.1
      | response response => cases hanswer
  | created => exact huser.raisesOnly_log
  | unverified => exact .ok ()
  | raised _ _ hraise =>
      cases hraise with
      | answer hjson => exact absurd hjson (createdId_ne_error hplain.head)
      | log hlog =>
          rw [huser.log] at hlog
          cases hlog
      | lookup hlookup hescapes =>
          obtain ⟨message, rfl⟩ := error_of_getExistingUsersByFilter hlookup hplain.tail
            (hworkable.toAddressable.of_subset (List.subset_cons_self _ _))
          exact absurd rfl (hescapes message)
  | rejected =>
      rw [hlegible.log rfl huser]
      exact .ok ()
  | unresolved hconflict =>
      have haddressable := hworkable.toAddressable.of_subset (List.subset_cons_self _ _)
      exact (hconflict.caught huser haddressable hplain.tail).map _
  | @resolved response first second _ _ _ _ hconflict hreconciled =>
      obtain ⟨record, -, hheld, hreceived, hsafe, husername⟩ := hconflict.found_record
      have hshown := (hconflict.reading.shown hreceived).mono
        (List.subset_cons_of_subset (.createUser user, .response response)
          (List.subset_append_left first second))
      refine hreconciled.caught huser ?_ hlegible.tail.right
      rw [hheld]
      exact hworkable.usable hshown ⟨user, List.mem_cons_self, .inr husername⟩ hsafe

variable {users : List Dict} {listing : Listing} {filtered : Bool}

omit [PyRuntime] in
theorem raisesOnly_caught {outcome : Except PyExc Unit} (houtcome : RaisesOnly Caught outcome) :
    (caught outcome left).1 = .ok () := by
  cases outcome with
  | ok _ => rfl
  | error error =>
      obtain rfl := houtcome error rfl
      rfl

theorem Keeps.usable {position : ℕ} {original : Dict} {records : List Dict}
    (hkeeps : Keeps listing before records)
    (horiginal : listing.users[position]? = some original) (husable : Usable original) :
    Usable (records.getD position []) := by
  obtain hsame | hrelinked := hkeeps.listed position original horiginal
  · rw [hsame]
    exact husable
  · refine ⟨hrelinked.objectName, ?_⟩
    rw [requireId_congr hrelinked.id]
    exact husable.id

/-- A turn does not interrupt the run. -/
theorem Turn.ok {outcome : Except PyExc Unit}
    (hturn : Turn settings listing filtered user session transcript outcome left)
    (hexact : listing.Exact) (hlisted : ∀ record ∈ listing.users, Shown before record)
    (hkeeps : Keeps listing before session.records) (huser : user ∈ users)
    (hpresentable : Presentable settings user)
    (hworkable : Workable users (before ++ transcript))
    (hlegible : Legible settings transcript) : outcome = .ok () := by
  obtain ⟨found, hmatches, hmatched⟩ := exists_matches hexact (hworkable.linked user huser)
  have hfound := hmatched session.records hkeeps.aligned
  cases hturn with
  | unmatched hmatch =>
      rw [hfound] at hmatch
      cases hmatch
  | conflict => exact hpresentable.log
  | absent _ hrun =>
      have hsingle := (hworkable.single huser).of_subset (List.subset_append_right _ _)
      exact raisesOnly_caught (hrun.caught hpresentable hsingle hlegible)
  | @matched position _ _ _ _ hmatch hrun =>
      obtain rfl := Except.ok.inj (hfound.symm.trans hmatch)
      have husable : ∀ {record : Dict}, listing.users[position]? = some record →
          externalIdOf record = externalIdOf user ∨ usernameOf record = usernameOf user →
          Usable (session.records.getD position []) := by
        intro record hrecord hidentity
        have hmem := List.mem_of_getElem? hrecord
        refine hkeeps.usable hrecord (hworkable.usable ?_ ⟨user, huser, hidentity⟩ ?_)
        · exact (hlisted record hmem).mono (List.subset_append_left _ _)
        · exact hexact.unambiguous.safe record hmem
      cases hmatches with
      | linked hrecord hexternalId _ =>
          exact raisesOnly_caught
            (hrun.caught hpresentable (husable hrecord (.inl hexternalId)) hlegible)
      | named hrecord _ husername =>
          exact raisesOnly_caught
            (hrun.caught hpresentable (husable hrecord (.inr husername)) hlegible)

/-- The loop goes through all users, and counts them. -/
theorem Turns.ok {outcome : Except PyExc Unit} {todo : List Dict}
    (hturns : Turns settings listing filtered todo session transcript outcome left)
    (hexact : listing.Exact) (hlisted : ∀ record ∈ listing.users, Shown before record)
    (hkeeps : Keeps listing before session.records) (htodo : todo ⊆ users)
    (hpresentable : ∀ user ∈ users, Presentable settings user)
    (hworkable : Workable users (before ++ transcript))
    (hlegible : Legible settings transcript) : outcome = .ok () := by
  induction hturns generalizing before with
  | done => rfl
  | @aborted user _ _ _ _ _ hturn =>
      have huser := htodo List.mem_cons_self
      exact hturn.ok hexact hlisted hkeeps huser (hpresentable user huser) hworkable hlegible
  | @next user _ _ _ _ first second _ hturn _ ih =>
      rw [← List.append_assoc] at hworkable
      have huser := htodo List.mem_cons_self
      have hkept := (hturn.writesFor hexact
        (fun record hrecord => (hlisted record hrecord).received)
        (hworkable.linked user huser) hkeeps).2
      refine ih (fun record hrecord => (hlisted record hrecord).mono ?_) hkept ?_ hworkable
        hlegible.right
      · exact List.subset_append_left _ _
      · exact fun other hother => htodo (List.mem_cons_of_mem _ hother)

end Turning

/-! ## Runs -/

/-- A run that goes through all users, or raises before anything is written. -/
def Uninterrupted (scimUsers : List Dict) (transcript : Transcript)
    (outcome : Except PyExc SyncResult) : Prop :=
  (∃ result, outcome = .ok result ∧ scimUsers.length ≤ result.total) ∨
    (∃ error, outcome = .error error) ∧
      ∀ exchange ∈ transcript, exchange.1.isWrite = true → exchange.2 = .refused

/-- Answers that the client can decode from the first write on. -/
def LegibleFromWrite (settings : Settings) (transcript : Transcript) : Prop :=
  ∀ before exchange after, transcript = before ++ exchange :: after →
    exchange.1.isWrite = true → Legible settings (exchange :: after)

omit [PyRuntime] in
theorem LegibleFromWrite.right {settings : Settings} {first second : Transcript}
    (hlegible : LegibleFromWrite settings (first ++ second)) (hwrites : WritesFirst second) :
    Legible settings second := by
  cases second with
  | nil => exact ⟨fun _ hnone => absurd hnone List.not_mem_nil,
      fun _ hnone => absurd hnone List.not_mem_nil⟩
  | cons exchange second => exact hlegible first exchange second rfl (hwrites exchange rfl)

/-- Where users, accounts and answers can be worked with, a run that has written goes
through all users. -/
theorem syncUsers_uninterrupted (settings : Settings) (scimUsers : List Dict)
    (hsource : ∀ user ∈ scimUsers, ∃ externalId userName givenName familyName fullName email
      active, user = scimUser externalId userName givenName familyName fullName email active)
    (answers : ℕ → Outcome) :
    let run := Script.converse answers (syncUsers settings scimUsers) {}
    Workable scimUsers run.1 → LegibleFromWrite settings run.1 →
      Uninterrupted scimUsers run.1 run.2.1 := by
  intro run hworkable hlegible
  have hrun : SyncRun settings scimUsers {} run.1 run.2.1 run.2.2 :=
    runs_syncUsers (Script.runs_converse answers (syncUsers settings scimUsers) {})
  have hpresentable : ∀ user ∈ scimUsers, Presentable settings user := by
    intro user huser
    obtain ⟨_, _, _, _, _, _, _, hshape⟩ := hsource user huser
    obtain ⟨name, hname⟩ : ∃ name, nameOf user = .ok name := hshape ▸ nameOf_scimUser ..
    exact .of_encodable settings hname (hworkable.named user huser)
      (hworkable.usernames user huser)
  have hread : ∀ {transcript : Transcript}, Reading transcript →
      ∀ exchange ∈ transcript, exchange.1.isWrite = true → exchange.2 = .refused := by
    intro transcript hreading exchange hexchange hwrite
    rw [hreading.isWrite_eq_false hexchange] at hwrite
    cases hwrite
  generalize run.1 = transcript at hrun hworkable hlegible ⊢
  generalize run.2.1 = outcome at hrun ⊢
  generalize run.2.2 = left at hrun
  cases hrun with
  | unlisted hreading => exact .inr ⟨⟨_, rfl⟩, hread hreading⟩
  | unlinked hreading => exact .inr ⟨⟨_, rfl⟩, hread hreading⟩
  | @ran first second listing _ _ _ hreading hlisted _ hturns =>
      have hshown : ∀ record ∈ listing.users, Shown first record :=
        fun record hrecord => hreading.shown (hlisted.received record hrecord)
      have hended := hturns.ok hlisted.exact hshown .start (List.Subset.refl scimUsers)
        hpresentable hworkable (hlegible.right hturns.writesFirst)
      refine .inl ⟨left.result, by rw [hended]; rfl, ?_⟩
      have htotal := (hturns.adds hended).total
      rw [htotal]
      change scimUsers.length ≤ 0 + (scimUsers.length + _)
      omega

end Interruptions

/-! An account whose name is a dictionary, or a text. -/

section Sample

open SsfTransmitter.Python.Ascii

def hopperSource : Dict :=
  scimUser "8" "grace@example.com" "Grace" "Hopper" "Grace Hopper" "grace@example.com"
    (.bool true)

def hopperAccount : Dict :=
  [("id", .str "apple-2"), ("externalId", .str "8"), ("userName", .str "grace@example.com"),
    ("name", .dict [])]

def hopperAnswers (record : Dict) (position : ℕ) : Outcome :=
  [usersPage [record] 1 1 1, .response ⟨201, .invalid, true⟩].getD position
    (.response ⟨204, .invalid, true⟩)

theorem syncUsers_uninterrupted_sample :
    let run := Script.converse (hopperAnswers hopperAccount)
      (syncUsers ⟨.patchAll, false, false, true⟩ [lovelaceSource, hopperSource]) {}
    run.1.map (fun exchange => exchange.1.isWrite) = [false, true, true] ∧
      Uninterrupted [lovelaceSource, hopperSource] run.1 run.2.1 := by
  intro run
  have hanswers : run.1.map Prod.snd = [usersPage [hopperAccount] 1 1 1,
      .response ⟨201, .invalid, true⟩, .response ⟨204, .invalid, true⟩] := by decide +kernel
  have hshown : ∀ record ∈ shownRecords run.1, hasObjectName record = true ∧
      (record.get? "id" = none ∨ record.get? "id" = some (.str "apple-2")) := by
    decide +kernel
  refine ⟨by decide +kernel, syncUsers_uninterrupted ⟨.patchAll, false, false, true⟩
    [lovelaceSource, hopperSource] ?_ (hopperAnswers hopperAccount) ?_ ?_⟩
  · exact List.forall_mem_cons.mpr ⟨⟨_, _, _, _, _, _, _, rfl⟩,
      List.forall_mem_singleton.mpr ⟨_, _, _, _, _, _, _, rfl⟩⟩
  · refine ⟨⟨by decide +kernel, by decide +kernel, ?_⟩, by decide +kernel, by decide +kernel, ?_⟩
    · intro record hrecord _ userId hid
      obtain hnone | hsome := (hshown record (shown_iff.mp hrecord)).2
      · rw [hnone] at hid
        cases hid
      · rw [hsome] at hid
        obtain rfl := Json.str.inj (Option.some.inj hid)
        decide
    · exact fun record hrecord _ => (hshown record (shown_iff.mp hrecord)).1
  · intro before exchange after heq _
    have hsent : ∀ other ∈ exchange :: after, Plain other.2 ∧
        ∀ response, other.2 = .response response → response.readable = true := by
      intro other hother
      have hmem : other.2 ∈ run.1.map Prod.snd :=
        List.mem_map_of_mem (heq ▸ List.mem_append_right _ hother)
      rw [hanswers] at hmem
      simp only [List.mem_cons, List.not_mem_nil, or_false] at hmem
      obtain hpage | hcreated | hupdated := hmem
      · rw [hpage]
        exact ⟨⟨nofun, by rintro _ ⟨rfl⟩; nofun⟩, by rintro _ ⟨rfl⟩; rfl⟩
      · rw [hcreated]
        exact ⟨⟨nofun, by rintro _ ⟨rfl⟩; nofun⟩, by rintro _ ⟨rfl⟩; rfl⟩
      · rw [hupdated]
        exact ⟨⟨nofun, by rintro _ ⟨rfl⟩; nofun⟩, by rintro _ ⟨rfl⟩; rfl⟩
    exact ⟨fun other hother => (hsent other hother).1,
      fun other hother _ response heq _ => (hsent other hother).2 response heq⟩

/-- The first user has been created when the name of the second account ends the run. -/
theorem syncUsers_interrupted :
    let run := Script.converse (hopperAnswers (hopperAccount.set "name" (.str "Grace Hopper")))
      (syncUsers ⟨.patchAll, false, false, false⟩ [lovelaceSource, hopperSource]) {}
    run.2.1 = .error .attributeError ∧
      ¬ Uninterrupted [lovelaceSource, hopperSource] run.1 run.2.1 := by
  intro run
  have herror : run.2.1 = .error .attributeError := by decide +kernel
  have hcreated : (.createUser lovelaceSource, .response ⟨201, .invalid, true⟩) ∈ run.1 := by
    decide +kernel
  refine ⟨herror, ?_⟩
  rintro (⟨result, hok, -⟩ | ⟨-, hrefused⟩)
  · rw [herror] at hok
    cases hok
  · cases hrefused _ hcreated rfl

end Sample

end SsfTransmitter.Scim
