import SsfTransmitter.Scim.ListErrors
import SsfTransmitter.Scim.Ownership
import SsfTransmitter.Scim.Updates

/-!
# Repaired accounts

Nothing in a run remembers that a repair has failed: the record in the index stays as it
was listed.  A later write to the account is excluded only where no other source user is
led to it.
-/

namespace SsfTransmitter.Scim

open SsfTransmitter.Core
open SsfTransmitter.Python

/-! ## What a request says about the externalId -/

/-- Whether an update carries an externalId. -/
def Request.sendsExternalId : Request → Bool
  | .patchUser _ _ body =>
    match body.get? "Operations" with
    | some (.list operations) =>
      (operations.filterMap operationOf).any fun operation =>
        operation.1 = ScimField.externalId.path
    | _ => false
  | .putUser _ _ body => (body.get? "externalId").isSome
  | _ => false

theorem sendsExternalId_patchBody (source : Dict) (userId : PyStr)
    (operations : List (PyStr × Json)) :
    (Request.patchUser source userId (patchBody (operations.map fun operation =>
      replaceOperation operation.1 operation.2))).sendsExternalId =
      operations.any fun operation => operation.1 = ScimField.externalId.path := by
  have hback : (operations.map fun operation =>
      replaceOperation operation.1 operation.2).filterMap operationOf = operations := by
    rw [List.filterMap_map]
    exact List.filterMap_some
  rw [Request.sendsExternalId, patchBody]
  change (((operations.map fun operation =>
    replaceOperation operation.1 operation.2).filterMap operationOf).any _) = _
  rw [hback]

section Relinking

variable [PyRuntime]

theorem sendsExternalId_repairRequest (user : Dict) (userId : PyStr) :
    (repairRequest user userId).sendsExternalId = true := by
  have hsends := sendsExternalId_patchBody user userId
    [(ScimField.externalId.path, .str (externalIdOf user))]
  rw [List.any_cons, decide_eq_true rfl, Bool.true_or] at hsends
  exact hsends

omit [PyRuntime] in
theorem path_eq_externalId_iff (key : DiffKey) :
    key.path = ScimField.externalId.path ↔ key = .externalId := by
  cases key <;> decide

/-- An update carries no externalId where that does not differ. -/
theorem sendsExternalId_of_updateRequest {settings : Settings} {record user name : Dict}
    {diffs : Diffs} {request : Request} (hname : nameOf user = .ok name)
    (hsame : diffs.changed .externalId = false)
    (hrequest : updateRequest settings record user diffs = .ok request) :
    request.sendsExternalId = false := by
  obtain ⟨appleId, -, hrequest⟩ := bind_eq_ok_iff.mp hrequest
  obtain ⟨update, hupdate, hrequest⟩ := bind_eq_ok_iff.mp hrequest
  obtain ⟨_, -, hrequest⟩ := bind_eq_ok_iff.mp hrequest
  obtain rfl := Except.ok.inj hrequest
  by_cases hmode : settings.appleScimUpdateMode = .replaceAll
  · rw [buildUpdateRequest, if_pos hmode] at hupdate
    obtain rfl := Except.ok.inj hupdate
    have hbody : (Dict.set (user.filter fun field => field.1 != ofString "externalId") "id"
        (.str appleId)).get? (ofString "externalId") = none := by
      rw [Dict.get?_set_of_ne _ _ (by decide), get?_filter_ne, if_pos rfl]
    exact congrArg Option.isSome hbody
  · have hchanged : changedKeys settings.appleScimUpdateMode diffs ≠ [] := by
      intro hnone
      have hfields := (filter_fields_eq_nil_iff _ _).mpr hnone
      simp only [buildUpdateRequest, if_neg hmode, ensure_bind_eq_ok] at hupdate
      exact hupdate.1 hfields
    rw [buildUpdateRequest_patch hname hmode appleId hchanged] at hupdate
    obtain rfl := Except.ok.inj hupdate
    refine (sendsExternalId_patchBody user appleId _).trans ?_
    rw [List.any_map, List.any_eq_false]
    intro key hkey hpath
    have hexternalId : key = .externalId :=
      (path_eq_externalId_iff key).mp (of_decide_eq_true hpath)
    rw [changedKeys, hexternalId, List.mem_filter, hsame] at hkey
    exact absurd hkey.2 Bool.false_ne_true

/-! ## Reconciling an account -/

/-- A repair that is answered well, and the read after it that confirms the link. -/
def Verifies (source : Dict) (userId : PyStr) (answer : Outcome) (after : Transcript) : Prop :=
  ∃ response reply record later, answer = .response response ∧ succeeded response = true ∧
    after = (.readUser userId, reply) :: later ∧
    readBack userId source reply = .ok (some record)

/-- The account of an update that carries no externalId. -/
def UpdatesOnly (transcript : Transcript) (userId : PyStr) : Prop :=
  ∀ exchange ∈ transcript, ∀ account, exchange.1.account? = some account →
    account = userId ∧ exchange.1.sendsExternalId = false

omit [PyRuntime] in
theorem UpdatesOnly.nil {userId : PyStr} : UpdatesOnly [] userId :=
  nofun

omit [PyRuntime] in
theorem UpdatesOnly.cons {transcript : Transcript} {userId : PyStr}
    {exchange : Exchange Request Outcome} (hnone : exchange.1.account? = none)
    (hupdates : UpdatesOnly transcript userId) :
    UpdatesOnly (exchange :: transcript) userId := by
  refine List.forall_mem_cons.mpr ⟨fun account haccount => ?_, hupdates⟩
  rw [hnone] at haccount
  cases haccount

/-- Whether reconciling the account repairs its link first. -/
inductive Linking (settings : Settings) (user : Dict) (position : ℕ) (userId : PyStr)
    (session : Session) : Transcript → Session → Prop
  | kept {transcript : Transcript} {left : Session} (hupdates : UpdatesOnly transcript userId)
      (hrecords : left.records = session.records) :
      Linking settings user position userId session transcript left
  | repaired {answer : Outcome} {later : Transcript} {left : Session}
      (hdue : RepairDue settings user (session.records.getD position []))
      (hupdates : UpdatesOnly later userId)
      (houtcome : left.records = session.records ∧
          (∀ exchange ∈ later, exchange.1.account? = none) ∧
          (∀ after, ¬ Verifies user userId answer (later ++ after)) ∨
        ∃ verified, left.records = session.records.set position verified ∧
          externalIdOf verified = externalIdOf user ∧
          ∀ after, Verifies user userId answer (later ++ after)) :
      Linking settings user position userId session
        ((repairRequest user userId, answer) :: later) left

section Reconciling

variable {settings : Settings} {user : Dict} {position : ℕ} {session left : Session}
variable {transcript : Transcript} {outcome : Except PyExc Unit}

theorem exists_nameOf_of_fieldDiffs {record : Dict} {includeExternalId : Bool} {diffs : Diffs}
    (hdiffs : fieldDiffs record user includeExternalId = .ok diffs) :
    ∃ name, nameOf user = .ok name := by
  obtain ⟨_, -, hdiffs⟩ := bind_eq_ok_iff.mp hdiffs
  obtain ⟨name, hname, -⟩ := bind_eq_ok_iff.mp hdiffs
  exact ⟨name, hname⟩

/-- Without its own key nothing is known of the externalId. -/
theorem changed_externalId_of_fieldDiffs_false {record : Dict} {diffs : Diffs}
    (hdiffs : fieldDiffs record user false = .ok diffs) : diffs.changed .externalId = false := by
  obtain ⟨_, -, hdiffs⟩ := bind_eq_ok_iff.mp hdiffs
  obtain ⟨_, -, hdiffs⟩ := bind_eq_ok_iff.mp hdiffs
  obtain rfl := Except.ok.inj hdiffs
  rfl

/-- Updates of an account whose link is right. -/
theorem Applied.updatesOnly {record name : Dict} {repaired : Bool} {diffs : Diffs}
    (happlied : Applied settings user record repaired diffs session transcript outcome left)
    (hname : nameOf user = .ok name) (hsame : diffs.changed .externalId = false)
    {userId : PyStr} (hid : requireId record = .ok userId) :
    UpdatesOnly transcript userId := by
  cases happlied with
  | stopped => exact .nil
  | settled => exact .nil
  | sent answer _ hrequest =>
      refine List.forall_mem_singleton.mpr fun account haccount => ⟨?_, ?_⟩
      · rw [account?_of_updateRequest hid hrequest] at haccount
        exact (Option.some.inj haccount).symm
      · refine sendsExternalId_of_updateRequest hname ?_ hrequest
        rw [changed_actionableDiffs, hsame, Bool.and_false]

theorem RepairRun.linking {result : Except PyExc Bool} {userId : PyStr}
    (hrun : RepairRun settings user position session transcript result left)
    (hdue : RepairDue settings user (session.records.getD position []))
    (hid : requireId (session.records.getD position []) = .ok userId)
    {later : Transcript} {final : Session} (hfinal : final.records = left.records)
    (hlater : result ≠ .ok true → later = []) (hupdates : UpdatesOnly later userId) :
    Linking settings user position userId session (transcript ++ later) final := by
  have hread : ∀ {answer : Outcome},
      ((.readUser userId, answer) : Exchange Request Outcome).1.account? = none := rfl
  cases hrun with
  | stopped =>
      rw [hlater nofun]
      exact .kept .nil hfinal
  | @failed _ answer hsame hfailed =>
      obtain rfl := Except.ok.inj (hid.symm.trans hsame)
      rw [hlater (by cases (afterUpdate settings user session answer).1 <;> nofun)]
      refine .repaired hdue .nil (.inl ⟨?_, nofun, ?_⟩)
      · exact hfinal.trans (records_afterUpdate _ _ _ _)
      · rintro after ⟨response, reply, record, rest, hanswer, hsucceeded, -⟩
        rw [hfailed response hanswer] at hsucceeded
        cases hsucceeded
  | @unreadable _ response answer error hsame hpatched hback =>
      obtain rfl := Except.ok.inj (hid.symm.trans hsame)
      rw [hlater nofun]
      refine .repaired hdue (.cons hread .nil) (.inl ⟨hfinal, ?_, ?_⟩)
      · exact List.forall_mem_singleton.mpr rfl
      · rintro after ⟨_, reply, record, rest, -, -, heq, hverified⟩
        cases heq
        rw [hback] at hverified
        cases hverified
  | @unverified _ response answer hsame hpatched hback =>
      obtain rfl := Except.ok.inj (hid.symm.trans hsame)
      rw [hlater (by cases logUserRef settings user <;> nofun)]
      refine .repaired hdue (.cons hread .nil) (.inl ⟨hfinal, ?_, ?_⟩)
      · exact List.forall_mem_singleton.mpr rfl
      · rintro after ⟨_, reply, record, rest, -, -, heq, hverified⟩
        cases heq
        rw [hback] at hverified
        cases hverified
  | @verified _ response answer record hsame hpatched hback =>
      obtain rfl := Except.ok.inj (hid.symm.trans hsame)
      refine .repaired hdue (.cons hread hupdates) (.inr ⟨record, hfinal, ?_, ?_⟩)
      · exact (readBack_eq_some hback).2.2.1
      · exact fun after => ⟨response, answer, record, _, rfl, hpatched, rfl, hback⟩

/-- Reconciling repairs the link where it is due, and sends no externalId besides. -/
theorem Reconciled.linking {recoveredByUsername : Bool} {userId : PyStr}
    (hrun : Reconciled settings user position recoveredByUsername session transcript outcome
      left)
    (hid : requireId (session.records.getD position []) = .ok userId)
    (hlinked : recoveredByUsername = false →
      externalIdOf (session.records.getD position []) = externalIdOf user) :
    Linking settings user position userId session transcript left := by
  cases hrun with
  | conflict => exact .kept .nil rfl
  | stopped => exact .kept .nil rfl
  | applied hrecovered hdiffs happlied =>
      obtain ⟨name, hname⟩ := exists_nameOf_of_fieldDiffs hdiffs
      have hsame : externalIdOf (session.records.getD position []) = externalIdOf user := by
        cases recoveredByUsername with
        | false => exact hlinked rfl
        | true => exact (hrecovered rfl).2
      have hunchanged := changed_externalId_of_fieldDiffs hdiffs
      rw [hsame, bne_self_eq_false] at hunchanged
      exact .kept (happlied.updatesOnly hname hunchanged hid) happlied.records_eq
  | unrepaired _ hdue hrepair hnot =>
      rw [← List.append_nil transcript]
      exact hrepair.linking hdue hid rfl (fun _ => rfl) .nil
  | @repaired _ _ _ _ middle _ _ hdue hrepair hdiffs happlied =>
      obtain ⟨name, hname⟩ := exists_nameOf_of_fieldDiffs hdiffs
      refine hrepair.linking hdue hid happlied.records_eq (fun hnot => absurd rfl hnot)
        (happlied.updatesOnly hname (changed_externalId_of_fieldDiffs_false hdiffs) ?_)
      obtain ⟨-, hnot⟩ | ⟨verified, -, hheld, hrepaired⟩ := hrepair.records
      · exact absurd rfl hnot
      · rw [hheld, requireId_congr hrepaired.id, hid]
  | stoppedRepaired _ hdue hrepair _ =>
      rw [← List.append_nil transcript]
      exact hrepair.linking hdue hid rfl (fun _ => rfl) .nil

end Reconciling

/-! ## Turns -/

/-- How the turn for a user was led to an account. -/
inductive Led (listing : Listing) (user : Dict) (transcript : Transcript) (userId : PyStr) :
    Prop
  | linked {record : Dict} (hrecord : record ∈ listing.users)
      (hid : record.get? "id" = some (.str userId))
      (hexternalId : externalIdOf record = externalIdOf user) :
      Led listing user transcript userId
  | named {record : Dict} (hshown : Shown transcript record)
      (hid : record.get? "id" = some (.str userId))
      (husername : usernameOf record = usernameOf user) :
      Led listing user transcript userId

/-- A record without an externalId that has the id and the user's userName. -/
structure Unlinked (user : Dict) (userId : PyStr) (record : Dict) : Prop where
  id : record.get? "id" = some (.str userId)
  unlinked : externalIdOf record = []
  username : usernameOf record = usernameOf user

/-- What becomes of a repair: it is not verified and the account left alone, or it is and the
record relinked. -/
def RepairOutcome (user : Dict) (userId : PyStr) (answer : Outcome) (later : Transcript)
    (relinked : Prop) : Prop :=
  (∀ exchange ∈ later, exchange.1.account? = none) ∧
      (∀ after, ¬ Verifies user userId answer (later ++ after)) ∨
    relinked ∧ ∀ after, Verifies user userId answer (later ++ after)

/-- Whether a turn repairs a link, of a listed account or of one that a conflict showed. -/
inductive TurnLinks (listing : Listing) (user : Dict) (before : Transcript)
    (records : List Dict) : Transcript → List Dict → Prop
  | kept {transcript : Transcript} {left : List Dict}
      (hupdates : ∀ exchange ∈ transcript, ∀ userId, exchange.1.account? = some userId →
        exchange.1.sendsExternalId = false ∧ Led listing user (before ++ transcript) userId) :
      TurnLinks listing user before records transcript left
  | listed {position : ℕ} {record : Dict} {userId : PyStr} {answer : Outcome}
      {later : Transcript} {left : List Dict}
      (hrecord : listing.users[position]? = some record)
      (hheld : records.getD position [] = record) (hunlinked : Unlinked user userId record)
      (hupdates : UpdatesOnly later userId)
      (houtcome : RepairOutcome user userId answer later
        (externalIdOf (left.getD position []) ≠ [])) :
      TurnLinks listing user before records ((repairRequest user userId, answer) :: later) left
  | conflict {record : Dict} {userId : PyStr} {answer : Outcome}
      {fresh later : Transcript} {left : List Dict}
      (hfresh : ∀ exchange ∈ fresh, exchange.1.account? = none)
      (hshown : Shown fresh record) (hunlinked : Unlinked user userId record)
      (hunlisted : ∀ other ∈ listing.users, usernameOf other ≠ usernameOf user)
      (hupdates : UpdatesOnly later userId)
      (houtcome : RepairOutcome user userId answer later True) :
      TurnLinks listing user before records
        (fresh ++ (repairRequest user userId, answer) :: later) left

/-- Listed records that have an externalId keep one. -/
def StaysLinked (listing : Listing) (records left : List Dict) : Prop :=
  ∀ position < listing.users.length, externalIdOf (records.getD position []) ≠ [] →
    externalIdOf (left.getD position []) ≠ []

section Turning

variable {settings : Settings} {listing : Listing} {filtered : Bool} {user : Dict}
variable {session left : Session} {before transcript : Transcript}
variable {outcome : Except PyExc Unit}

theorem Linking.staysLinked {position : ℕ} {userId : PyStr}
    (hlinking : Linking settings user position userId session transcript left) :
    StaysLinked listing session.records left.records := by
  intro other _ hlinked
  cases hlinking with
  | kept _ hrecords => rwa [hrecords]
  | repaired hdue _ houtcome =>
      obtain ⟨hrecords, -⟩ | ⟨verified, hrecords, hexternalId, -⟩ := houtcome
      · rwa [hrecords]
      · rw [hrecords, List.getD_eq_getElem?_getD, List.getElem?_set]
        split_ifs with hsame hposition
        · rw [Option.getD_some, hexternalId]
          exact hdue.unlinked_record.2.1
        · subst hsame
          rw [List.getD_eq_getElem?_getD, List.getElem?_eq_none (not_lt.mp hposition)] at hlinked
          exact hlinked
        · rwa [← List.getD_eq_getElem?_getD]

theorem staysLinked_append (hlength : listing.users.length ≤ session.records.length)
    (record : Dict) : StaysLinked listing session.records (session.records ++ [record]) := by
  intro position hposition hlinked
  rwa [List.getD_eq_getElem?_getD, List.getElem?_append_left (hposition.trans_le hlength),
    ← List.getD_eq_getElem?_getD]

omit [PyRuntime] in
theorem forall_account?_of_create {first : Transcript} {answer : Outcome}
    (hfirst : ∀ exchange ∈ first, exchange.1.account? = none) :
    ∀ exchange ∈ ((.createUser user, answer) :: first : Transcript),
      exchange.1.account? = none :=
  List.forall_mem_cons.mpr ⟨rfl, hfirst⟩

/-- A part that updates no account. -/
theorem TurnLinks.of_account? {records left : List Dict}
    (hnone : ∀ exchange ∈ transcript, exchange.1.account? = none) :
    TurnLinks listing user before records transcript left := by
  refine .kept fun exchange hexchange userId huserId => ?_
  rw [hnone exchange hexchange] at huserId
  cases huserId

/-- A create updates an account only after a conflict has shown it. -/
theorem CreateRun.links {verifyIdentity : Bool}
    (hrun : CreateRun settings user verifyIdentity session transcript outcome left)
    (hunlisted : ∀ other ∈ listing.users, usernameOf other ≠ usernameOf user)
    (hlength : listing.users.length ≤ session.records.length) :
    TurnLinks listing user before session.records transcript left.records ∧
      StaysLinked listing session.records left.records := by
  have hsame : ∀ {records : List Dict}, StaysLinked listing records records :=
    fun {_ _ _} => id
  cases hrun with
  | unanswered => exact ⟨.of_account? (forall_account?_of_create nofun), hsame⟩
  | created hreading =>
      exact ⟨.of_account? (forall_account?_of_create hreading.account?), hsame⟩
  | unverified hreading =>
      exact ⟨.of_account? (forall_account?_of_create hreading.account?), hsame⟩
  | raised hreading =>
      exact ⟨.of_account? (forall_account?_of_create hreading.account?), hsame⟩
  | rejected => exact ⟨.of_account? (forall_account?_of_create nofun), hsame⟩
  | unresolved hconflict hnone =>
      rw [hconflict.records_eq hnone]
      exact ⟨.of_account? (forall_account?_of_create hconflict.reading.account?), hsame⟩
  | @resolved response first second position _ middle _ hconflict hreconciled =>
      obtain ⟨record, hrecords, hheld, hreceived, hsafe, husername⟩ := hconflict.found_record
      obtain ⟨userId, hid⟩ := exists_str_of_isSafeUserId hsafe
      have hshown : Shown ((.createUser user, .response response) :: first) record :=
        (hconflict.reading.shown hreceived).mono (List.subset_cons_self _ _)
      have hfirst : ∀ exchange ∈ (.createUser user, .response response) :: first,
          exchange.1.account? = none := forall_account?_of_create hconflict.reading.account?
      have hlinking := hreconciled.linking (hheld ▸ requireId_eq_ok_iff.mpr hid) nofun
      refine ⟨?_, fun other hother hlinked => hlinking.staysLinked other hother ?_⟩
      · rw [← List.cons_append]
        cases hlinking with
        | kept hupdates _ =>
            refine .kept fun exchange hexchange account haccount => ?_
            obtain hexchange | hexchange := List.mem_append.mp hexchange
            · rw [hfirst exchange hexchange] at haccount
              cases haccount
            · obtain ⟨rfl, hsends⟩ := hupdates exchange hexchange account haccount
              refine ⟨hsends, .named (hshown.mono ?_) hid husername⟩
              exact List.subset_append_of_subset_right _ (List.subset_append_left _ _)
        | repaired hdue hupdates houtcome =>
            rw [hheld] at hdue
            refine .conflict hfirst hshown ⟨hid, hdue.unlinked_record.1, husername⟩ hunlisted
              hupdates ?_
            obtain ⟨-, hnone, hnot⟩ | ⟨_, -, -, hverifies⟩ := houtcome
            · exact .inl ⟨hnone, hnot⟩
            · exact .inr ⟨trivial, hverifies⟩
      · rw [hrecords]
        exact staysLinked_append hlength record other hother hlinked

/-- A turn repairs at most one link, and updates only what it was led to. -/
theorem Turn.links
    (hturn : Turn settings listing filtered user session transcript outcome left)
    (hexact : listing.Exact) (hlisted : ∀ record ∈ listing.users, Shown before record)
    (hlinked : externalIdOf user ≠ []) (hkeeps : Keeps listing before session.records) :
    TurnLinks listing user before session.records transcript left.records ∧
      StaysLinked listing session.records left.records := by
  obtain ⟨found, hmatches, hmatched⟩ := exists_matches hexact hlinked
  have hfound := hmatched session.records hkeeps.aligned
  cases hturn with
  | unmatched => exact ⟨.of_account? nofun, fun _ _ => id⟩
  | conflict => exact ⟨.of_account? nofun, fun _ _ => id⟩
  | absent hmatch hrun =>
      obtain rfl := Except.ok.inj (hfound.symm.trans hmatch)
      cases hmatches with
      | absent _ hunlisted =>
          rw [records_caught]
          exact hrun.links hunlisted hkeeps.length_le
  | @matched position recoveredByUsername _ _ _ hmatch hrun =>
      obtain rfl := Except.ok.inj (hfound.symm.trans hmatch)
      rw [records_caught]
      cases hmatches with
      | @linked _ record hrecord hexternalId _ =>
          obtain ⟨userId, hid, hrequired⟩ := hexact.requireId_of_getElem? hrecord
          have hheld := hkeeps.eq_of_linked hrecord (hexternalId ▸ hlinked)
          have hlinking := hrun.linking (hheld ▸ hrequired) fun _ => hheld ▸ hexternalId
          refine ⟨?_, hlinking.staysLinked⟩
          cases hlinking with
          | kept hupdates _ =>
              refine .kept fun exchange hexchange account haccount => ?_
              obtain ⟨rfl, hsends⟩ := hupdates exchange hexchange account haccount
              exact ⟨hsends, .linked (List.mem_of_getElem? hrecord) hid hexternalId⟩
          | repaired hdue _ _ =>
              rw [hheld] at hdue
              exact absurd (hexternalId ▸ hdue.unlinked_record.1) hlinked
      | @named _ record hrecord _ husername =>
          obtain ⟨userId, hid, hrequired⟩ := hexact.requireId_of_getElem? hrecord
          have hheldId := (requireId_congr (hkeeps.aligned position record hrecord)).trans hrequired
          have hlinking := hrun.linking hheldId nofun
          refine ⟨?_, hlinking.staysLinked⟩
          cases hlinking with
          | kept hupdates _ =>
              refine .kept fun exchange hexchange account haccount => ?_
              obtain ⟨rfl, hsends⟩ := hupdates exchange hexchange account haccount
              refine ⟨hsends, .named ((hlisted record ?_).mono ?_) hid husername⟩
              · exact List.mem_of_getElem? hrecord
              · exact List.subset_append_left _ _
          | repaired hdue hupdates houtcome =>
              have hunlinked := hdue.unlinked_record.1
              have hheld := hkeeps.eq_of_unlinked hrecord hunlinked
              rw [hheld] at hunlinked
              refine .listed hrecord hheld ⟨hid, hunlinked, husername⟩ hupdates ?_
              obtain ⟨-, hnone, hnot⟩ | ⟨verified, hrecords, hsame, hverifies⟩ := houtcome
              · exact .inl ⟨hnone, hnot⟩
              · refine .inr ⟨?_, hverifies⟩
                rw [hrecords, getD_set_of_requireId hheldId, hsame]
                exact hlinked

end Turning

/-! ## Runs -/

/-- An exchange that gives an account an externalId. -/
def Links (exchange : Exchange Request Outcome) (userId : PyStr) : Prop :=
  exchange.1.account? = some userId ∧ exchange.1.sendsExternalId = true

/-- Where a repair was led to its account; a verified one has relinked a listed record. -/
inductive RepairCause (listing : Listing) (source : Dict) (userId : PyStr)
    (records : List Dict) (verifies : Prop) : Prop
  | listed {position : ℕ} {record : Dict} (hrecord : listing.users[position]? = some record)
      (hunlinked : Unlinked source userId record)
      (hlinked : verifies → externalIdOf (records.getD position []) ≠ []) :
      RepairCause listing source userId records verifies
  | conflict (hunlisted : ∀ other ∈ listing.users, usernameOf other ≠ usernameOf source) :
      RepairCause listing source userId records verifies

/-- All that gives an account an externalId is a repair for a user whose turn has come. -/
def Mended (listing : Listing) (turned : List Dict) (transcript : Transcript)
    (records : List Dict) : Prop :=
  ∀ before exchange after, transcript = before ++ exchange :: after →
    ∀ userId, Links exchange userId → ∃ source ∈ turned, ∃ answer,
      exchange = (repairRequest source userId, answer) ∧
      RepairCause listing source userId records
        (∃ rest, Verifies source userId answer (after ++ rest))

/-- Updates after a repair of the account: it was verified, and they leave the link alone. -/
def Settles (transcript : Transcript) : Prop :=
  ∀ before source userId answer after,
    transcript = before ++ (repairRequest source userId, answer) :: after →
    ∀ exchange ∈ after, exchange.1.account? = some userId →
      Verifies source userId answer after ∧ exchange.1.sendsExternalId = false

/-- After a repair Apple goes on to show the account under the user's userName.  If the
repair is not verified, no later source user has that userName; if it is, Apple shows the
account with an externalId. -/
structure Steady (scimUsers : List Dict) (transcript : Transcript) (source : Dict)
    (userId : PyStr) (answer : Outcome) (after : Transcript) : Prop where
  named : ∀ record, Shown transcript record → record.get? "id" = some (.str userId) →
    usernameOf record = usernameOf source
  alone : ¬ Verifies source userId answer after → ∀ earlier later,
    scimUsers = earlier ++ source :: later → ∀ other ∈ later,
      usernameOf other ≠ usernameOf source
  linked : Verifies source userId answer after → ∀ record, Shown after record →
    record.get? "id" = some (.str userId) → externalIdOf record ≠ []

section Runs

variable {settings : Settings} {listing : Listing} {filtered : Bool} {user source : Dict}
variable {before transcript after rest : Transcript} {records left : List Dict}
variable {userId : PyStr} {answer : Outcome}

theorem verifies_append (hmore : after ≠ []) :
    Verifies source userId answer (after ++ rest) ↔ Verifies source userId answer after := by
  obtain ⟨exchange, after, rfl⟩ := List.exists_cons_of_ne_nil hmore
  constructor
  · rintro ⟨response, reply, record, later, hanswer, hsucceeded, heq, hread⟩
    obtain ⟨rfl, -⟩ := List.cons.inj heq
    exact ⟨response, reply, record, after, hanswer, hsucceeded, rfl, hread⟩
  · rintro ⟨response, reply, record, later, hanswer, hsucceeded, heq, hread⟩
    obtain ⟨rfl, rfl⟩ := List.cons.inj heq
    exact ⟨response, reply, record, after ++ rest, hanswer, hsucceeded, rfl, hread⟩

theorem links_repairRequest : Links (repairRequest source userId, answer) userId :=
  ⟨rfl, sendsExternalId_repairRequest source userId⟩

omit [PyRuntime] in
theorem UpdatesOnly.not_links (hupdates : UpdatesOnly transcript userId)
    {exchange : Exchange Request Outcome} (hexchange : exchange ∈ transcript)
    {account : PyStr} : ¬ Links exchange account := by
  rintro ⟨haccount, hsends⟩
  rw [(hupdates exchange hexchange account haccount).2] at hsends
  cases hsends

/-- The user of a later turn has another userName than that of a failed repair. -/
theorem Steady.username_ne {turned todo : List Dict}
    (hsteady : Steady (turned ++ user :: todo) transcript source userId answer after)
    (hnot : ¬ Verifies source userId answer after) (hsource : source ∈ turned) :
    usernameOf user ≠ usernameOf source := by
  obtain ⟨earlier, between, rfl⟩ := List.append_of_mem hsource
  refine hsteady.alone hnot earlier (between ++ user :: todo) (by simp) user ?_
  exact List.mem_append_right _ List.mem_cons_self

/-- A repair comes after a repair of the account only where that was verified. -/
theorem Steady.verifies_of_unlinked {turned todo : List Dict} {record : Dict}
    (hsteady : Steady (turned ++ user :: todo) transcript source userId answer after)
    (hsource : source ∈ turned) (hshown : Shown transcript record)
    (hunlinked : Unlinked user userId record) : Verifies source userId answer after := by
  by_contra hnot
  exact hsteady.username_ne hnot hsource
    (hunlinked.username.symm.trans (hsteady.named record hshown hunlinked.id))

/-- An update of an account that an earlier turn has repaired. -/
theorem TurnLinks.update_of_repaired {turned todo : List Dict}
    {exchange : Exchange Request Outcome}
    (hlinks : TurnLinks listing user before records transcript left)
    (hexact : listing.Exact) (hlisted : ∀ record ∈ listing.users, Shown before record)
    (hlinked : externalIdOf user ≠ [])
    (hsteady : Steady (turned ++ user :: todo) (before ++ transcript ++ rest) source userId
      answer (after ++ transcript ++ rest))
    (hsource : source ∈ turned)
    (hcause : RepairCause listing source userId records
      (∃ rest, Verifies source userId answer (after ++ rest)))
    (hexchange : exchange ∈ transcript) (haccount : exchange.1.account? = some userId) :
    Verifies source userId answer (after ++ transcript) ∧
      exchange.1.sendsExternalId = false := by
  have hbefore : before ⊆ before ++ transcript ++ rest :=
    List.subset_append_of_subset_left _ (List.subset_append_left _ _)
  have hmore : after ++ transcript ≠ [] :=
    List.append_ne_nil_of_right_ne_nil _ (List.ne_nil_of_mem hexchange)
  have hturn : transcript ⊆ after ++ transcript ++ rest :=
    List.subset_append_of_subset_left _ (List.subset_append_right _ _)
  have hrun : transcript ⊆ before ++ transcript ++ rest :=
    List.subset_append_of_subset_left _ (List.subset_append_right _ _)
  cases hlinks with
  | kept hupdates =>
      obtain ⟨hsends, hled⟩ := hupdates exchange hexchange userId haccount
      refine ⟨?_, hsends⟩
      by_contra hnot
      rw [← verifies_append hmore] at hnot
      have hother := hsteady.username_ne hnot hsource
      cases hled with
      | named hshown hid husername =>
          have hnamed := hsteady.named _ (hshown.mono (List.subset_append_left _ rest)) hid
          exact hother (husername.symm.trans hnamed)
      | @linked record hrecord hid hexternalId =>
          have husername := hsteady.named record ((hlisted record hrecord).mono hbefore) hid
          cases hcause with
          | conflict hunlisted => exact hunlisted record hrecord husername
          | @listed _ repaired hrepaired hunlinked _ =>
              have hsame := hexact.unambiguous.eq_of_id (List.mem_of_getElem? hrepaired) hrecord
                (hunlinked.id.trans hid.symm)
              rw [← hexternalId, ← hsame, hunlinked.unlinked] at hlinked
              exact hlinked rfl
  | @listed position record account _ later _ hrecord hheld hunlinked hupdates _ =>
      exfalso
      have hsame : account = userId := by
        obtain rfl | hexchange := List.mem_cons.mp hexchange
        · exact Option.some.inj haccount
        · exact (hupdates exchange hexchange userId haccount).1.symm
      subst hsame
      have hmem := List.mem_of_getElem? hrecord
      have hshown := (hlisted record hmem).mono hbefore
      have hverifies := hsteady.verifies_of_unlinked hsource hshown hunlinked
      cases hcause with
      | conflict hunlisted => exact hunlisted record hmem (hsteady.named record hshown hunlinked.id)
      | @listed other repaired hrepaired hunlinked' hrelinked =>
          have hposition : other = position :=
            hexact.byUsername.inj hrepaired hrecord trivial
              ((hunlinked'.username.trans
                (hsteady.named record hshown hunlinked.id).symm))
          subst hposition
          rw [List.append_assoc] at hverifies
          exact hrelinked ⟨_, hverifies⟩ (hheld ▸ hunlinked.unlinked)
  | @conflict record account repairAnswer fresh later _ hfresh hshown hunlinked _ hupdates _ =>
      exfalso
      have hsame : account = userId := by
        obtain hexchange | hexchange := List.mem_append.mp hexchange
        · rw [hfresh exchange hexchange] at haccount
          cases haccount
        · obtain rfl | hexchange := List.mem_cons.mp hexchange
          · exact Option.some.inj haccount
          · exact (hupdates exchange hexchange userId haccount).1.symm
      subst hsame
      have hfound := hshown.mono (List.subset_append_left fresh
        ((repairRequest user account, repairAnswer) :: later))
      have hverifies := hsteady.verifies_of_unlinked hsource (hfound.mono hrun) hunlinked
      exact hsteady.linked hverifies record (hfound.mono hturn) hunlinked.id hunlinked.unlinked

omit [PyRuntime] in
/-- A split of an appended transcript lies in the first part or in the second. -/
theorem eq_append_cons_of_append {first second earlier later : Transcript}
    {exchange : Exchange Request Outcome}
    (heq : first ++ second = earlier ++ exchange :: later) :
    (∃ middle, first = earlier ++ exchange :: middle ∧ later = middle ++ second) ∨
      ∃ middle, earlier = first ++ middle ∧ second = middle ++ exchange :: later := by
  obtain ⟨middle, rfl, hsecond⟩ | ⟨middle, rfl, hsecond⟩ := List.append_eq_append_iff.mp heq
  · exact .inr ⟨middle, rfl, hsecond⟩
  · cases middle with
    | nil => exact .inr ⟨[], by simp, hsecond.symm⟩
    | cons head middle =>
        obtain ⟨rfl, rfl⟩ := List.cons.inj hsecond
        exact .inl ⟨middle, rfl, rfl⟩

/-- The one exchange of a turn that gives an account an externalId. -/
theorem TurnLinks.links_cases {earlier later : Transcript}
    {exchange : Exchange Request Outcome}
    (hlinks : TurnLinks listing user before records transcript left)
    (heq : transcript = earlier ++ exchange :: later) (hexchange : Links exchange userId) :
    ∃ answer, exchange = (repairRequest user userId, answer) ∧ UpdatesOnly later userId ∧
      ((∃ position record, listing.users[position]? = some record ∧
          Unlinked user userId record ∧ RepairOutcome user userId answer later
            (externalIdOf (left.getD position []) ≠ [])) ∨
        (∀ other ∈ listing.users, usernameOf other ≠ usernameOf user) ∧
          RepairOutcome user userId answer later True) := by
  obtain ⟨haccount, hsends⟩ := hexchange
  cases hlinks with
  | kept hupdates =>
      have hmem : exchange ∈ transcript := heq ▸ List.mem_append_right _ List.mem_cons_self
      rw [(hupdates exchange hmem userId haccount).1] at hsends
      cases hsends
  | @listed position record account repairAnswer rest _ hrecord _ hunlinked hupdates houtcome =>
      cases earlier with
      | nil =>
          obtain ⟨rfl, rfl⟩ := List.cons.inj heq
          obtain rfl := Option.some.inj haccount
          exact ⟨_, rfl, hupdates, .inl ⟨position, record, hrecord, hunlinked, houtcome⟩⟩
      | cons head earlier =>
          obtain ⟨rfl, rfl⟩ := List.cons.inj heq
          exact absurd ⟨haccount, hsends⟩
            (hupdates.not_links (List.mem_append_right _ List.mem_cons_self))
  | @conflict record account repairAnswer fresh rest _ hfresh _ _ hunlisted hupdates houtcome =>
      obtain ⟨middle, rfl, -⟩ | ⟨middle, rfl, hrest⟩ := eq_append_cons_of_append heq
      · rw [hfresh exchange (List.mem_append_right _ List.mem_cons_self)] at haccount
        cases haccount
      · cases middle with
        | nil =>
            obtain ⟨rfl, rfl⟩ := List.cons.inj hrest
            obtain rfl := Option.some.inj haccount
            exact ⟨_, rfl, hupdates, .inr ⟨hunlisted, houtcome⟩⟩
        | cons head middle =>
            obtain ⟨rfl, rfl⟩ := List.cons.inj hrest
            exact absurd ⟨haccount, hsends⟩
              (hupdates.not_links (List.mem_append_right _ List.mem_cons_self))

/-- Within its own turn a repair settles what follows. -/
theorem TurnLinks.settles (hlinks : TurnLinks listing user before records transcript left) :
    Settles transcript := by
  intro earlier source userId answer later heq exchange hexchange haccount
  obtain ⟨_, hsame, hupdates, hcause⟩ := hlinks.links_cases heq links_repairRequest
  obtain ⟨hrequest, rfl⟩ := Prod.mk.inj hsame
  obtain ⟨rfl, -, -⟩ := Request.patchUser.inj hrequest
  have hsettled : ∀ {relinked : Prop}, RepairOutcome source userId answer later relinked →
      Verifies source userId answer later := by
    rintro relinked (⟨hnone, -⟩ | ⟨-, hverifies⟩)
    · rw [hnone exchange hexchange] at haccount
      cases haccount
    · have hnow := hverifies []
      rwa [List.append_nil] at hnow
  refine ⟨?_, (hupdates exchange hexchange userId haccount).2⟩
  obtain ⟨_, _, -, -, houtcome⟩ | ⟨-, houtcome⟩ := hcause
  · exact hsettled houtcome
  · exact hsettled houtcome

/-- Earlier repairs keep their cause, and a turn adds at most its own. -/
theorem Mended.turn {turned : List Dict} (hmended : Mended listing turned before records)
    (hlinks : TurnLinks listing user before records transcript left)
    (hstays : StaysLinked listing records left) :
    Mended listing (turned ++ [user]) (before ++ transcript) left := by
  intro earlier exchange later heq userId hexchange
  obtain ⟨middle, rfl, rfl⟩ | ⟨middle, rfl, rfl⟩ := eq_append_cons_of_append heq
  · obtain ⟨source, hsource, answer, rfl, hcause⟩ :=
      hmended earlier exchange middle rfl userId hexchange
    refine ⟨source, List.mem_append_left _ hsource, answer, rfl, ?_⟩
    cases hcause with
    | conflict hunlisted => exact .conflict hunlisted
    | @listed position record hrecord hunlinked hrelinked =>
        refine .listed hrecord hunlinked ?_
        rintro ⟨rest, hverifies⟩
        rw [List.append_assoc] at hverifies
        exact hstays position (List.getElem?_eq_some_iff.mp hrecord).1
          (hrelinked ⟨_, hverifies⟩)
  · obtain ⟨answer, rfl, -, ⟨position, record, hrecord, hunlinked, houtcome⟩ |
        ⟨hunlisted, -⟩⟩ := hlinks.links_cases rfl hexchange
    · refine ⟨user, List.mem_append_right _ List.mem_cons_self, answer, rfl,
        .listed hrecord hunlinked ?_⟩
      rintro ⟨rest, hverifies⟩
      obtain ⟨-, hnot⟩ | ⟨hrelinked, -⟩ := houtcome
      · exact absurd hverifies (hnot rest)
      · exact hrelinked
    · exact ⟨user, List.mem_append_right _ List.mem_cons_self, answer, rfl,
        .conflict hunlisted⟩

/-- What Apple shows steadily settles the next turn as well. -/
theorem Settles.turn {turned : List Dict} (todo : List Dict) (rest : Transcript)
    (hsettles : Settles before) (hmended : Mended listing turned before records)
    (hlinks : TurnLinks listing user before records transcript left) (hexact : listing.Exact)
    (hlisted : ∀ record ∈ listing.users, Shown before record)
    (hlinked : externalIdOf user ≠ [])
    (hsteady : ∀ earlier source userId answer later,
      before ++ transcript ++ rest =
        earlier ++ (repairRequest source userId, answer) :: later →
      Steady (turned ++ user :: todo) (before ++ transcript ++ rest) source userId answer
        later) :
    Settles (before ++ transcript) := by
  intro earlier source userId answer later heq exchange hexchange haccount
  obtain ⟨middle, rfl, rfl⟩ | ⟨middle, rfl, rfl⟩ := eq_append_cons_of_append heq
  · obtain ⟨_, hsource, _, hsame, hcause⟩ :=
      hmended earlier _ middle rfl userId links_repairRequest
    obtain ⟨hrequest, rfl⟩ := Prod.mk.inj hsame
    obtain ⟨rfl, -, -⟩ := Request.patchUser.inj hrequest
    obtain hexchange | hexchange := List.mem_append.mp hexchange
    · obtain ⟨hverifies, hsends⟩ :=
        hsettles earlier source userId answer middle rfl exchange hexchange haccount
      exact ⟨(verifies_append (List.ne_nil_of_mem hexchange)).mpr hverifies, hsends⟩
    · exact hlinks.update_of_repaired hexact hlisted hlinked
        (hsteady earlier source userId answer _ (by simp)) hsource hcause hexchange haccount
  · exact hlinks.settles middle source userId answer later rfl exchange hexchange haccount

/-- The turns settle one after another. -/
theorem Turns.settles {turned users : List Dict} {session final : Session}
    {outcome : Except PyExc Unit}
    (hturns : Turns settings listing filtered users session transcript outcome final)
    (hexact : listing.Exact) (hlisted : ∀ record ∈ listing.users, Shown before record)
    (hlinked : ∀ user ∈ users, externalIdOf user ≠ [])
    (hkeeps : Keeps listing before session.records)
    (hmended : Mended listing turned before session.records) (hsettles : Settles before)
    (hsteady : ∀ earlier source userId answer later,
      before ++ transcript = earlier ++ (repairRequest source userId, answer) :: later →
      Steady (turned ++ users) (before ++ transcript) source userId answer later) :
    Settles (before ++ transcript) ∧
      ∃ turned records, Mended listing turned (before ++ transcript) records := by
  induction hturns generalizing before turned with
  | done =>
      rw [List.append_nil]
      exact ⟨hsettles, turned, _, hmended⟩
  | @aborted user users _ _ transcript _ hturn =>
      obtain ⟨hlinks, hstays⟩ := hturn.links hexact hlisted
        (hlinked user List.mem_cons_self) hkeeps
      refine ⟨?_, _, _, hmended.turn hlinks hstays⟩
      refine Settles.turn users [] hsettles hmended hlinks hexact hlisted
        (hlinked user List.mem_cons_self) ?_
      rwa [List.append_nil]
  | @next user users _ _ _ first second _ hturn hturns ih =>
      have huser := hlinked user List.mem_cons_self
      obtain ⟨hlinks, hstays⟩ := hturn.links hexact hlisted huser hkeeps
      have hmiddle : Settles (before ++ first) := by
        refine Settles.turn users second hsettles hmended hlinks hexact hlisted huser ?_
        rwa [List.append_assoc]
      rw [← List.append_assoc]
      refine ih (fun record hrecord => (hlisted record hrecord).mono ?_)
        (fun other hother => hlinked other (List.mem_cons_of_mem _ hother)) ?_
        (hmended.turn hlinks hstays) hmiddle ?_
      · exact List.subset_append_left _ _
      · exact (hturn.writesFor hexact (fun record hrecord => (hlisted record hrecord).received)
          huser hkeeps).2
      · rwa [List.append_assoc, List.append_assoc, List.singleton_append]

/-- After a repair that is not verified nothing is written to the account. -/
def Quarantines (transcript : Transcript) : Prop :=
  ∀ before source userId answer after,
    transcript = before ++ (repairRequest source userId, answer) :: after →
    ¬ Verifies source userId answer after →
    ∀ exchange ∈ after, exchange.1.account? ≠ some userId

/-- No account is given the externalIds of two source users. -/
def LinksOnce (transcript : Transcript) : Prop :=
  ∀ first ∈ transcript, ∀ second ∈ transcript, ∀ userId, Links first userId →
    Links second userId → first.1.writer? = second.1.writer?

theorem Settles.quarantines (hsettles : Settles transcript) : Quarantines transcript := by
  intro before source userId answer after heq hnot exchange hexchange haccount
  exact hnot (hsettles before source userId answer after heq exchange hexchange haccount).1

theorem Settles.linksOnce {turned : List Dict} (hsettles : Settles transcript)
    (hmended : Mended listing turned transcript records) : LinksOnce transcript := by
  have hlater : ∀ before exchange after, transcript = before ++ exchange :: after →
      ∀ userId, Links exchange userId → ∀ other ∈ after, ¬ Links other userId := by
    rintro before exchange after heq userId hexchange other hother ⟨haccount, hsends⟩
    obtain ⟨source, -, answer, rfl, -⟩ := hmended before exchange after heq userId hexchange
    rw [(hsettles before source userId answer after heq other hother haccount).2] at hsends
    cases hsends
  intro first hfirst second hsecond userId hlinks hlinks'
  obtain ⟨before, after, rfl⟩ := List.append_of_mem hfirst
  obtain hsecond | hsecond := List.mem_append.mp hsecond
  · obtain ⟨earlier, between, rfl⟩ := List.append_of_mem hsecond
    exact absurd hlinks (hlater earlier second (between ++ first :: after) (by simp) userId
      hlinks' first (List.mem_append_right _ List.mem_cons_self))
  · obtain rfl | hsecond := List.mem_cons.mp hsecond
    · rfl
    · exact absurd hlinks' (hlater before first after rfl userId hlinks second hsecond)

/-- Where Apple shows repaired accounts steadily and no later source user shares the
userName of a failed repair, failed repairs quarantine their accounts and no account is
linked twice. -/
theorem repairs_settle (settings : Settings) (scimUsers : List Dict)
    (hlinked : ∀ user ∈ scimUsers, externalIdOf user ≠ []) (answers : ℕ → Outcome) :
    let run := Script.converse answers (syncUsers settings scimUsers) {}
    (∀ before source userId answer after,
      run.1 = before ++ (repairRequest source userId, answer) :: after →
      Steady scimUsers run.1 source userId answer after) →
    Quarantines run.1 ∧ LinksOnce run.1 := by
  intro run hsteady
  have hrun : SyncRun settings scimUsers {} run.1 run.2.1 run.2.2 :=
    runs_syncUsers (Script.runs_converse answers (syncUsers settings scimUsers) {})
  have hread : ∀ {transcript : Transcript}, Reading transcript →
      Settles transcript ∧ ∀ listing, Mended listing [] transcript listing.users := by
    intro transcript hreading
    constructor
    · intro before source userId answer after heq
      have hnone := hreading.account? (repairRequest source userId, answer)
        (heq ▸ List.mem_append_right _ List.mem_cons_self)
      cases hnone
    · intro listing before exchange after heq userId hlinks
      have hnone := hreading.account? exchange
        (heq ▸ List.mem_append_right _ List.mem_cons_self)
      rw [hlinks.1] at hnone
      cases hnone
  generalize run.1 = transcript at hrun hsteady ⊢
  generalize run.2.1 = outcome at hrun
  generalize run.2.2 = left at hrun
  cases hrun with
  | unlisted hreading =>
      obtain ⟨hsettles, hmended⟩ := hread hreading
      exact ⟨hsettles.quarantines, hsettles.linksOnce (hmended {})⟩
  | unlinked hreading =>
      obtain ⟨hsettles, hmended⟩ := hread hreading
      exact ⟨hsettles.quarantines, hsettles.linksOnce (hmended {})⟩
  | @ran first second listing _ _ _ hreading hlisted _ hturns =>
      obtain ⟨hsettles, hmended⟩ := hread hreading
      obtain ⟨hsettled, _, _, hall⟩ := hturns.settles hlisted.exact
        (fun record hrecord => hreading.shown (hlisted.received record hrecord)) hlinked .start
        (hmended listing) hsettles hsteady
      exact ⟨hsettled.quarantines, hsettled.linksOnce hall⟩

end Runs

end Relinking

/-! An unlinked account, whose userName one source user has, or two. -/

section Sample

open SsfTransmitter.Python.Ascii

theorem repairs_settle_sample :
    let run := Script.converse linkingAnswers
      (syncUsers ⟨.emailsOnly, true, true, false⟩ [linkingUser]) {}
    run.1.map Prod.fst = [.listUsers none, repairRequest linkingUser "1", .readUser "1"] ∧
      Quarantines run.1 ∧ LinksOnce run.1 := by
  have hrun : (Script.converse linkingAnswers
      (syncUsers ⟨.emailsOnly, true, true, false⟩ [linkingUser]) {}).1 =
      [(.listUsers none, linkingAnswers 0), (repairRequest linkingUser "1", linkingAnswers 1),
        (.readUser "1", linkingAnswers 2)] := by decide +kernel
  refine ⟨by decide +kernel, repairs_settle ⟨.emailsOnly, true, true, false⟩ [linkingUser]
    (by decide) linkingAnswers ?_⟩
  rw [hrun]
  intro before source userId answer after heq
  obtain ⟨rfl, rfl, rfl, rfl⟩ : source = linkingUser ∧ userId = ofString "1" ∧
      answer = linkingAnswers 1 ∧ after = [(.readUser "1", linkingAnswers 2)] := by
    match before with
    | [] => cases (List.cons.inj heq).1
    | [_] =>
        obtain ⟨hsame, rfl⟩ := List.cons.inj (List.cons.inj heq).2
        obtain ⟨hrequest, rfl⟩ := Prod.mk.inj hsame
        obtain ⟨rfl, rfl, -⟩ := Request.patchUser.inj hrequest
        exact ⟨rfl, rfl, rfl, rfl⟩
    | [_, _] => cases (List.cons.inj (List.cons.inj (List.cons.inj heq).2).2).1
    | _ :: _ :: _ :: _ => simp at heq
  have hverifies : Verifies linkingUser "1" (linkingAnswers 1)
      [(.readUser "1", linkingAnswers 2)] :=
    ⟨⟨204, .invalid, true⟩, linkingAnswers 2, unlinkedAccount.set "externalId" (.str "a"), [], rfl,
      rfl, rfl, by decide +kernel⟩
  refine ⟨fun record hshown => ?_, fun hnot => absurd hverifies hnot, fun _ record hshown => ?_⟩
  · rw [shown_iff] at hshown
    revert record
    decide +kernel
  · rw [shown_iff] at hshown
    revert record
    decide +kernel

def namesakeUser : Dict :=
  [("externalId", .str "b"), ("userName", .str "ADA")]

def failingAnswers (position : ℕ) : Outcome :=
  [usersPage [unlinkedAccount] 1 1 1].getD position (.response ⟨500, .invalid, true⟩)

/-- The second repair goes to the account whose first repair has failed. -/
theorem repairs_unsettled :
    let run := Script.converse failingAnswers
      (syncUsers ⟨.emailsOnly, true, true, false⟩ [linkingUser, namesakeUser]) {}
    ¬ Quarantines run.1 ∧ ¬ LinksOnce run.1 := by
  have hrun : (Script.converse failingAnswers
      (syncUsers ⟨.emailsOnly, true, true, false⟩ [linkingUser, namesakeUser]) {}).1 =
      [(.listUsers none, usersPage [unlinkedAccount] 1 1 1),
        (repairRequest linkingUser "1", .response ⟨500, .invalid, true⟩),
        (repairRequest namesakeUser "1", .response ⟨500, .invalid, true⟩)] := by decide +kernel
  dsimp only
  rw [hrun]
  constructor
  · intro hquarantines
    refine hquarantines [(.listUsers none, usersPage [unlinkedAccount] 1 1 1)] linkingUser "1"
      (.response ⟨500, .invalid, true⟩)
      [(repairRequest namesakeUser "1", .response ⟨500, .invalid, true⟩)] rfl ?_ _ List.mem_cons_self rfl
    rintro ⟨response, _, _, _, heq, hsucceeded, -⟩
    obtain rfl := Outcome.response.inj heq
    cases hsucceeded
  · intro hlinksOnce
    have hsame := hlinksOnce (repairRequest linkingUser "1", .response ⟨500, .invalid, true⟩)
      (by simp) (repairRequest namesakeUser "1", .response ⟨500, .invalid, true⟩) (by simp) "1"
      links_repairRequest links_repairRequest
    exact absurd hsame (by decide +kernel)

end Sample

end SsfTransmitter.Scim
