import SsfTransmitter.Core.Traces
import SsfTransmitter.Scim.Preflight
import SsfTransmitter.Scim.Sync

/-!
# What a turn of the sync loop can do

For each part of a turn, the exchanges, outcomes and sessions that it can come to.
All that is proved about runs of the sync goes through these.
-/

namespace SsfTransmitter.Scim

open SsfTransmitter.Core
open SsfTransmitter.Python

/-! ## Counters -/

namespace SyncResult

/-- A conflict about a source user. -/
def conflict (user : Dict) (result : SyncResult) : SyncResult :=
  { result with
    conflicts := result.conflicts + 1
    conflictUsernames :=
      match user.get? "userName" with
      | some (.str username) =>
        if username = [] then result.conflictUsernames
        else result.conflictUsernames ++ [username]
      | _ => result.conflictUsernames }

def error (result : SyncResult) : SyncResult :=
  { result with errors := result.errors + 1 }

/-- A write that was answered with a failure. -/
def failure (response : Response) (result : SyncResult) : SyncResult :=
  { result with
    errors := result.errors + 1
    update400InvalidRequest := result.update400InvalidRequest +
      if classifyUpdate400 response then 1 else 0 }

def update (result : SyncResult) : SyncResult :=
  { result with updated := result.updated + 1 }

def same (result : SyncResult) : SyncResult :=
  { result with unchanged := result.unchanged + 1 }

def outOfScope (result : SyncResult) : SyncResult :=
  { result with outOfScopeDiffs := result.outOfScopeDiffs + 1 }

end SyncResult

namespace Session

/-- The session with a changed result. -/
def count (change : SyncResult → SyncResult) (session : Session) : Session :=
  { session with result := change session.result }

@[simp]
theorem count_records (change : SyncResult → SyncResult) (session : Session) :
    (session.count change).records = session.records := rfl

@[simp]
theorem count_result (change : SyncResult → SyncResult) (session : Session) :
    (session.count change).result = change session.result := rfl

end Session

section Parts

variable {session left : Session} {transcript : Transcript} {Value : Type}
variable {settings : Settings} {user : Dict}

theorem runs_count_bind_iff {change : SyncResult → SyncResult}
    {rest : Unit → Client Session Value} {outcome : Except PyExc Value} :
    Script.Runs (count change >>= rest) session transcript outcome left ↔
      Script.Runs (rest ()) (session.count change) transcript outcome left :=
  Iff.rfl

theorem runs_recordAt_bind_iff {position : ℕ} {rest : Dict → Client Session Value}
    {outcome : Except PyExc Value} :
    Script.Runs (recordAt position >>= rest) session transcript outcome left ↔
      Script.Runs (rest (session.records.getD position [])) session transcript outcome left :=
  Iff.rfl

/-- A request gets a response, or ends what it is part of. -/
theorem runs_send_bind_iff {State : Type} {state after : State} {request : Request}
    {rest : Response → Client State Value} {outcome : Except PyExc Value} :
    Script.Runs (send request >>= rest) state transcript outcome after ↔
      (transcript = [(request, .networkError)] ∧ outcome = .error .httpError ∧
        after = state) ∨
      (transcript = [(request, .refused)] ∧ outcome = .error .clientError ∧ after = state) ∨
      ∃ response later, transcript = (request, .response response) :: later ∧
        Script.Runs (rest response) state later outcome after := by
  rw [send, bind_assoc, Script.runs_ask_bind_iff]
  constructor
  · rintro ⟨answer, later, rfl, hrest⟩
    cases answer with
    | networkError =>
        obtain ⟨_, ⟨rfl⟩, rfl, rfl, rfl⟩ | ⟨_, hnone, _⟩ :=
          Script.runs_ofExcept_bind_iff.mp hrest
        · exact .inl ⟨rfl, rfl, rfl⟩
        · cases hnone
    | refused =>
        obtain ⟨_, ⟨rfl⟩, rfl, rfl, rfl⟩ | ⟨_, hnone, _⟩ :=
          Script.runs_ofExcept_bind_iff.mp hrest
        · exact .inr (.inl ⟨rfl, rfl, rfl⟩)
        · cases hnone
    | response response => exact .inr (.inr ⟨response, later, rfl, hrest⟩)
  · rintro (⟨rfl, rfl, rfl⟩ | ⟨rfl, rfl, rfl⟩ | ⟨response, later, rfl, hrest⟩)
    · exact ⟨_, [], rfl, Script.runs_ofExcept_bind_iff.mpr (.inl ⟨_, rfl, rfl, rfl, rfl⟩)⟩
    · exact ⟨_, [], rfl, Script.runs_ofExcept_bind_iff.mpr (.inl ⟨_, rfl, rfl, rfl, rfl⟩)⟩
    · exact ⟨_, later, rfl, hrest⟩

/-- A request whose network failure is caught. -/
theorem trySend_eq {State : Type} (request : Request) :
    (tryCatch (some <$> send request) (fun error =>
      match error with
      | .httpError => pure none
      | error => throw error) : Client State (Option Response)) =
      (Script.ask request >>= fun answer =>
        match answer with
        | .networkError => pure none
        | .refused => throw .clientError
        | .response response => pure (some response)) := by
  funext state
  refine congrArg (Dialogue.ask request) (funext fun answer => ?_)
  cases answer <;> rfl

theorem runs_trySend_bind {State : Type} {state after : State} {request : Request}
    {rest : Option Response → Client State Value} {outcome : Except PyExc Value}
    (hruns : Script.Runs (tryCatch (some <$> send request) (fun error =>
      match error with
      | .httpError => pure none
      | error => throw error) >>= rest) state transcript outcome after) :
    (∃ later, transcript = (request, .networkError) :: later ∧
      Script.Runs (rest none) state later outcome after) ∨
    (transcript = [(request, .refused)] ∧ outcome = .error .clientError ∧ after = state) ∨
    ∃ response later, transcript = (request, .response response) :: later ∧
      Script.Runs (rest (some response)) state later outcome after := by
  rw [trySend_eq, bind_assoc, Script.runs_ask_bind_iff] at hruns
  obtain ⟨answer, later, rfl, hrest⟩ := hruns
  cases answer with
  | networkError => exact .inl ⟨later, rfl, hrest⟩
  | refused =>
      obtain ⟨rfl, rfl, rfl⟩ := Script.runs_throw_iff.mp hrest
      exact .inr (.inl ⟨rfl, rfl, rfl⟩)
  | response response => exact .inr (.inr ⟨response, later, rfl, hrest⟩)

theorem runs_recordUsernameConflict_iff {outcome : Except PyExc Unit} :
    Script.Runs (recordUsernameConflict settings user) session transcript outcome left ↔
      transcript = [] ∧ outcome = logUserRef settings user ∧
        left = session.count (.conflict user) :=
  Script.runs_ofExcept_iff

theorem runs_countUpdateFailure_iff {response : Response} {outcome : Except PyExc Unit} :
    Script.Runs (countUpdateFailure settings user response) session transcript outcome
        left ↔ transcript = [] ∧ outcome = logUpdateFailure settings user response ∧
        left = session.count (.failure response) := by
  rw [countUpdateFailure]
  cases hclass : classifyUpdate400 response with
  | false =>
      have hfailure : session.count (.failure response) = session.count .error := by
        simp [Session.count, SyncResult.failure, SyncResult.error, hclass]
      rw [hfailure]
      exact Script.runs_ofExcept_iff
  | true =>
      have hfailure : session.count (.failure response) = (session.count .error).count
          fun result =>
            { result with update400InvalidRequest := result.update400InvalidRequest + 1 } := by
        simp [Session.count, SyncResult.failure, SyncResult.error, hclass]
      rw [hfailure]
      exact Script.runs_ofExcept_iff

/-- A log line before the value that a part returns. -/
theorem runs_log_pure_iff {result : Except PyExc Unit} {value : Value}
    {outcome : Except PyExc Value} :
    Script.Runs (do
      Script.ofExcept result
      pure value) session transcript outcome left ↔
      transcript = [] ∧ outcome = result.map (fun _ => value) ∧ left = session := by
  rw [Script.runs_ofExcept_bind_iff]
  cases result <;> simp [Except.map]

theorem runs_countUpdateFailure_pure_iff {response : Response} {value : Value}
    {outcome : Except PyExc Value} :
    Script.Runs (do
      countUpdateFailure settings user response
      pure value) session transcript outcome left ↔
      transcript = [] ∧
        outcome = (logUpdateFailure settings user response).map (fun _ => value) ∧
        left = session.count (.failure response) := by
  rw [Script.runs_bind_iff]
  simp only [runs_countUpdateFailure_iff, Script.runs_pure_iff]
  constructor
  · rintro (⟨error, ⟨rfl, hlog, rfl⟩, rfl⟩ | ⟨_, _, _, _, rfl, ⟨rfl, hlog, rfl⟩, rfl, rfl, rfl⟩)
    · exact ⟨rfl, by rw [← hlog]; rfl, rfl⟩
    · exact ⟨rfl, by rw [← hlog]; rfl, rfl⟩
  · rintro ⟨rfl, rfl, rfl⟩
    cases hlog : logUpdateFailure settings user response with
    | error error => exact .inl ⟨error, ⟨rfl, rfl, rfl⟩, rfl⟩
    | ok value => exact .inr ⟨[], value, _, [], rfl, ⟨rfl, rfl, rfl⟩, rfl, rfl, rfl⟩

end Parts

/-! ## What the loop does not catch -/

/-- The loop catches `httpx.HTTPError` only. -/
def Uncaught (error : PyExc) : Prop :=
  error ≠ .httpError

theorem uncaught_maskEmail (settings : Settings) (email : Json) :
    RaisesOnly Uncaught (maskEmail settings email) := by
  rw [maskEmail.eq_def]
  split_ifs
  · exact .ok ()
  · split
    · exact .ensure (by rintro ⟨⟩)
    · exact .error (by rintro ⟨⟩)

theorem uncaught_logUserRef (settings : Settings) (user : Dict) :
    RaisesOnly Uncaught (logUserRef settings user) := by
  rw [logUserRef, scimLogUsername.eq_def]
  split
  · exact uncaught_maskEmail _ _
  · exact uncaught_maskEmail _ _

theorem uncaught_logUpdateFailure (settings : Settings) (user : Dict) (response : Response) :
    RaisesOnly Uncaught (logUpdateFailure settings user response) := by
  rw [logUpdateFailure]
  exact (RaisesOnly.ensure (by rintro ⟨⟩)).bind fun _ => uncaught_logUserRef settings user

theorem uncaught_nameOf (user : Dict) : RaisesOnly Uncaught (nameOf user) := by
  rw [nameOf.eq_def]
  split
  · exact .ok _
  · exact .error nofun

theorem uncaught_requireId (user : Dict) : RaisesOnly Uncaught (requireId user) := by
  rw [requireId.eq_def]
  split
  · exact .ok _
  · exact .error nofun
  · exact .error nofun

theorem uncaught_json (response : Response) : RaisesOnly Uncaught response.json := by
  rw [Response.json.eq_def]
  split
  · exact .ok _
  · exact .error nofun
  · exact .error nofun

/-! ## Updates -/

/-- The causes for which a turn raises without an answer from Apple. -/
inductive Stop (settings : Settings) (record user : Dict) : PyExc → Prop
  | log {error : PyExc} : logUserRef settings user = .error error → Stop settings record user error
  | recordName {error : PyExc} : nameOf record = .error error → Stop settings record user error
  | userName {error : PyExc} : nameOf user = .error error → Stop settings record user error
  | id {error : PyExc} : requireId record = .error error → Stop settings record user error
  | url {error : PyExc} {userId : PyStr} : requireId record = .ok userId →
    userUrl userId = .error error → Stop settings record user error

variable [PyRuntime]

/-- The request of an update, with the account it goes to. -/
def updateRequest (settings : Settings) (record user : Dict) (diffs : Diffs) :
    Except PyExc Request := do
  let appleId ← requireId record
  let update ← buildUpdateRequest user settings.appleScimUpdateMode appleId diffs
  userUrl appleId
  pure (match update.method with
    | .put => .putUser user appleId update.body
    | .patch => .patchUser user appleId update.body)

def succeeded (response : Response) : Bool :=
  response.status = 200 || response.status = 204

/-- What the answer to an update leads to. -/
def afterUpdate (settings : Settings) (user : Dict) (session : Session) :
    Outcome → Except PyExc Unit × Session
  | .networkError => (.error .httpError, session)
  | .refused => (.error .clientError, session)
  | .response response =>
    if succeeded response then (logUserRef settings user, session.count .update)
    else (logUpdateFailure settings user response, session.count (.failure response))

omit [PyRuntime] in
/-- An answer changes no record. -/
theorem records_afterUpdate (settings : Settings) (user : Dict) (session : Session)
    (answer : Outcome) :
    (afterUpdate settings user session answer).2.records = session.records := by
  cases answer with
  | networkError => rfl
  | refused => rfl
  | response response =>
      rw [afterUpdate]
      split_ifs <;> rfl

section Updating

variable {settings : Settings} {user : Dict} {session left : Session}
variable {transcript : Transcript} {outcome : Except PyExc Unit}

/-- An update is one request, unless it cannot be built. -/
theorem runs_patchUser {position : ℕ} {diffs : Diffs}
    (hruns : Script.Runs (patchUser settings position user diffs) session transcript outcome
      left) :
    (∃ error, updateRequest settings (session.records.getD position []) user diffs =
        .error error ∧ transcript = [] ∧ outcome = .error error ∧ left = session) ∨
      ∃ request answer,
        updateRequest settings (session.records.getD position []) user diffs = .ok request ∧
        transcript = [(request, answer)] ∧
        (outcome, left) = afterUpdate settings user session answer := by
  rw [patchUser, runs_recordAt_bind_iff] at hruns
  generalize session.records.getD position [] = record at hruns ⊢
  obtain ⟨error, hid, rfl, rfl, rfl⟩ | ⟨appleId, hid, hruns⟩ :=
    Script.runs_ofExcept_bind_iff.mp hruns
  · exact .inl ⟨error, by rw [updateRequest, hid]; rfl, rfl, rfl, rfl⟩
  obtain ⟨error, hbuild, rfl, rfl, rfl⟩ | ⟨update, hbuild, hruns⟩ :=
    Script.runs_ofExcept_bind_iff.mp hruns
  · exact .inl
      ⟨error, by simp [updateRequest, hid, hbuild, bind, Except.bind], rfl, rfl, rfl⟩
  obtain ⟨error, hurl, rfl, rfl, rfl⟩ | ⟨_, hurl, hruns⟩ :=
    Script.runs_ofExcept_bind_iff.mp hruns
  · exact .inl
      ⟨error, by simp [updateRequest, hid, hbuild, hurl, bind, Except.bind], rfl, rfl, rfl⟩
  have hrequest : updateRequest settings record user diffs = .ok (match update.method with
      | .put => .putUser user appleId update.body
      | .patch => .patchUser user appleId update.body) := by
    simp only [updateRequest, hid, hbuild, hurl, bind, Except.bind]
    rfl
  obtain ⟨rfl, rfl, rfl⟩ | ⟨rfl, rfl, rfl⟩ | ⟨response, later, rfl, hanswered⟩ :=
    runs_send_bind_iff.mp hruns
  · exact .inr ⟨_, _, hrequest, rfl, rfl⟩
  · exact .inr ⟨_, _, hrequest, rfl, rfl⟩
  · split_ifs at hanswered with hstatus
    · rw [runs_count_bind_iff, Script.runs_ofExcept_iff] at hanswered
      obtain ⟨rfl, rfl, rfl⟩ := hanswered
      refine .inr ⟨_, _, hrequest, rfl, ?_⟩
      simp [afterUpdate, succeeded, hstatus]
      rfl
    · obtain ⟨rfl, rfl, rfl⟩ := runs_countUpdateFailure_iff.mp hanswered
      refine .inr ⟨_, _, hrequest, rfl, ?_⟩
      simp [afterUpdate, succeeded, hstatus]

theorem account?_of_updateRequest {record : Dict} {diffs : Diffs} {request : Request}
    {userId : PyStr} (hid : requireId record = .ok userId)
    (hrequest : updateRequest settings record user diffs = .ok request) :
    request.account? = some userId := by
  obtain ⟨_, hfound, hrequest⟩ := bind_eq_ok_iff.mp hrequest
  obtain rfl := Except.ok.inj (hid.symm.trans hfound)
  obtain ⟨update, -, hrequest⟩ := bind_eq_ok_iff.mp hrequest
  obtain ⟨_, -, hrequest⟩ := bind_eq_ok_iff.mp hrequest
  obtain rfl := Except.ok.inj hrequest
  cases update.method <;> rfl

/-- An update is sent on behalf of the user. -/
theorem writer?_of_updateRequest {record : Dict} {diffs : Diffs} {request : Request}
    (hrequest : updateRequest settings record user diffs = .ok request) :
    request.writer? = some user := by
  obtain ⟨_, -, hrequest⟩ := bind_eq_ok_iff.mp hrequest
  obtain ⟨update, -, hrequest⟩ := bind_eq_ok_iff.mp hrequest
  obtain ⟨_, -, hrequest⟩ := bind_eq_ok_iff.mp hrequest
  obtain rfl := Except.ok.inj hrequest
  cases update.method <;> rfl

end Updating

/-! ## Repairs -/

/-- What the read after a repair gives, or raises. -/
def readBack (appleId : PyStr) (newUser : Dict) : Outcome → Except PyExc (Option Dict)
  | .networkError => .ok none
  | .refused => .error .clientError
  | .response reply =>
    if reply.status ≠ 200 then .ok none
    else
      match reply.json with
      | .error .valueError => .ok none
      | .error error => .error error
      | .ok verified => .ok (verifiedRepair appleId newUser verified)

/-- The request that repairs the linkage of an account. -/
def repairRequest (user : Dict) (userId : PyStr) : Request :=
  .patchUser user userId (repairBody (externalIdOf user))

omit [PyRuntime] in
/-- A record with an id is one of the records. -/
theorem getD_set_of_requireId {records : List Dict} {position : ℕ} {userId : PyStr}
    (hid : requireId (records.getD position []) = .ok userId) (verified : Dict) :
    (records.set position verified).getD position [] = verified := by
  have hposition : position < records.length := by
    by_contra hout
    rw [List.getD_eq_getElem?_getD, List.getElem?_eq_none (not_lt.mp hout)] at hid
    cases hid
  rw [List.getD_eq_getElem?_getD, List.getElem?_set_self hposition, Option.getD_some]

/-- What a repair can do. -/
inductive RepairRun (settings : Settings) (user : Dict) (position : ℕ) (session : Session) :
    Transcript → Except PyExc Bool → Session → Prop
  | stopped {error : PyExc}
      (hstop : Stop settings (session.records.getD position []) user error) :
      RepairRun settings user position session [] (.error error) session
  | failed {userId : PyStr} {answer : Outcome}
      (hid : requireId (session.records.getD position []) = .ok userId)
      (hfailed : ∀ response, answer = .response response → succeeded response = false) :
      RepairRun settings user position session [(repairRequest user userId, answer)]
        ((afterUpdate settings user session answer).1.map fun _ => false)
        (afterUpdate settings user session answer).2
  | unreadable {userId : PyStr} {response : Response} {answer : Outcome} {error : PyExc}
      (hid : requireId (session.records.getD position []) = .ok userId)
      (hpatched : succeeded response = true)
      (hread : readBack userId user answer = .error error) :
      RepairRun settings user position session
        [(repairRequest user userId, .response response), (.readUser userId, answer)]
        (.error error) session
  | unverified {userId : PyStr} {response : Response} {answer : Outcome}
      (hid : requireId (session.records.getD position []) = .ok userId)
      (hpatched : succeeded response = true)
      (hread : readBack userId user answer = .ok none) :
      RepairRun settings user position session
        [(repairRequest user userId, .response response), (.readUser userId, answer)]
        ((logUserRef settings user).map fun _ => false) (session.count .error)
  | verified {userId : PyStr} {response : Response} {answer : Outcome} {record : Dict}
      (hid : requireId (session.records.getD position []) = .ok userId)
      (hpatched : succeeded response = true)
      (hread : readBack userId user answer = .ok (some record)) :
      RepairRun settings user position session
        [(repairRequest user userId, .response response), (.readUser userId, answer)]
        ((logUserRef settings user).map fun _ => true)
        { records := session.records.set position record, result := session.result.update }

section Repairing

variable {settings : Settings} {user : Dict} {session left : Session}
variable {transcript : Transcript} {position : ℕ}

theorem runs_readRepaired {appleId : PyStr} {outcome : Except PyExc (Option Dict)}
    (hruns : Script.Runs (readRepaired appleId user) session transcript outcome left) :
    ∃ answer, transcript = [(.readUser appleId, answer)] ∧
      outcome = readBack appleId user answer ∧ left = session := by
  obtain ⟨later, rfl, hnone⟩ | ⟨rfl, rfl, rfl⟩ | ⟨reply, later, rfl, hreply⟩ :=
    runs_trySend_bind hruns
  · obtain ⟨rfl, rfl, rfl⟩ := Script.runs_pure_iff.mp hnone
    exact ⟨_, rfl, rfl, rfl⟩
  · exact ⟨_, rfl, rfl, rfl⟩
  · dsimp only at hreply
    split_ifs at hreply with hstatus
    · obtain ⟨rfl, rfl, rfl⟩ := Script.runs_pure_iff.mp hreply
      exact ⟨_, rfl, by simp [readBack, hstatus], rfl⟩
    · split at hreply
      · next hjson =>
        obtain ⟨rfl, rfl, rfl⟩ := Script.runs_pure_iff.mp hreply
        exact ⟨_, rfl, by simp [readBack, hstatus, hjson], rfl⟩
      · next error hother hjson =>
        obtain ⟨rfl, rfl, rfl⟩ := Script.runs_throw_iff.mp hreply
        exact ⟨_, rfl, by simp [readBack, hstatus, hjson], rfl⟩
      · next verified hjson =>
        obtain ⟨rfl, rfl, rfl⟩ := Script.runs_pure_iff.mp hreply
        exact ⟨_, rfl, by simp [readBack, hstatus, hjson], rfl⟩

theorem runs_patchExternalId {outcome : Except PyExc Bool}
    (hruns : Script.Runs (patchExternalId settings position user) session transcript outcome
      left) : RepairRun settings user position session transcript outcome left := by
  rw [patchExternalId, runs_recordAt_bind_iff] at hruns
  obtain ⟨error, hid, rfl, rfl, rfl⟩ | ⟨userId, hid, hruns⟩ :=
    Script.runs_ofExcept_bind_iff.mp hruns
  · exact .stopped (.id hid)
  obtain ⟨error, hurl, rfl, rfl, rfl⟩ | ⟨_, hurl, hruns⟩ :=
    Script.runs_ofExcept_bind_iff.mp hruns
  · exact .stopped (.url hid hurl)
  obtain ⟨rfl, rfl, rfl⟩ | ⟨rfl, rfl, rfl⟩ | ⟨response, later, rfl, hanswered⟩ :=
    runs_send_bind_iff.mp hruns
  · exact .failed hid nofun
  · exact .failed hid nofun
  · split_ifs at hanswered with hstatus
    · have hpatched : succeeded response = true := by simpa [succeeded] using hstatus
      rw [Script.runs_bind_iff] at hanswered
      obtain ⟨error, hread, rfl⟩ | ⟨first, found, middle, second, rfl, hread, hfound⟩ :=
        hanswered
      · obtain ⟨answer, rfl, hback, rfl⟩ := runs_readRepaired hread
        exact .unreadable hid hpatched hback.symm
      · obtain ⟨answer, rfl, hback, rfl⟩ := runs_readRepaired hread
        cases found with
        | none =>
            rw [countError, runs_count_bind_iff, runs_log_pure_iff] at hfound
            obtain ⟨rfl, rfl, rfl⟩ := hfound
            exact .unverified hid hpatched hback.symm
        | some record =>
            rw [Script.runs_modify_bind_iff, runs_count_bind_iff, runs_log_pure_iff] at hfound
            obtain ⟨rfl, rfl, rfl⟩ := hfound
            exact .verified hid hpatched hback.symm
    · obtain ⟨rfl, rfl, rfl⟩ := runs_countUpdateFailure_pure_iff.mp hanswered
      have hfailed : succeeded response = false := by
        simpa [succeeded, not_or] using hstatus
      have hrun : RepairRun settings user position session _ _ _ :=
        .failed hid (fun other heq => Outcome.response.inj heq ▸ hfailed)
      simpa [afterUpdate, hfailed, repairRequest] using hrun

end Repairing

/-! ## Reconciling -/

/-- Whether the mode leaves a difference out. -/
def leavesOut (settings : Settings) (diffs : Diffs) : Bool :=
  let actionable := actionableDiffs diffs settings.appleScimUpdateMode
  diffs.any fun diff => diff.2 && !(actionable.map Prod.fst).contains diff.1

/-- Whether the mode acts on a difference. -/
def actsOn (settings : Settings) (diffs : Diffs) : Bool :=
  (actionableDiffs diffs settings.appleScimUpdateMode).any Prod.snd

/-- The session after differences that the mode leaves out are counted. -/
def leftOut (settings : Settings) (diffs : Diffs) (session : Session) : Session :=
  session.count fun result => if leavesOut settings diffs then result.outOfScope else result

/-- What applying differences can do to an account with this record. -/
inductive Applied (settings : Settings) (user record : Dict) (repaired : Bool)
    (diffs : Diffs) (session : Session) :
    Transcript → Except PyExc Unit → Session → Prop
  | stopped {error : PyExc} {left : Session}
      (hstop : logUserRef settings user = .error error ∨
        actsOn settings diffs = true ∧ updateRequest settings record user
          (actionableDiffs diffs settings.appleScimUpdateMode) = .error error)
      (hleft : left = leftOut settings diffs session ∨
        left = (leftOut settings diffs session).count .same) :
      Applied settings user record repaired diffs session [] (.error error) left
  | settled (hsame : actsOn settings diffs = false) :
      Applied settings user record repaired diffs session [] (.ok ())
        ((leftOut settings diffs session).count fun result =>
          if repaired then result else result.same)
  | sent {request : Request} (answer : Outcome) (hdiffers : actsOn settings diffs = true)
      (hrequest : updateRequest settings record user
        (actionableDiffs diffs settings.appleScimUpdateMode) = .ok request) :
      Applied settings user record repaired diffs session [(request, answer)]
        (afterUpdate settings user (leftOut settings diffs session) answer).1
        (afterUpdate settings user (leftOut settings diffs session) answer).2

/-- The repair of the linkage is due. -/
structure RepairDue (settings : Settings) (user record : Dict) : Prop where
  allowed : canRecoverByUsername settings record (user.get? "externalId") = true
  unlinked : externalIdOf record ≠ externalIdOf user

/-- What reconciling the account at a position can do. -/
inductive Reconciled (settings : Settings) (user : Dict) (position : ℕ)
    (recoveredByUsername : Bool) (session : Session) :
    Transcript → Except PyExc Unit → Session → Prop
  | conflict (hrecovered : recoveredByUsername = true)
      (hrefused : canRecoverByUsername settings (session.records.getD position [])
        (user.get? "externalId") = false) :
      Reconciled settings user position recoveredByUsername session []
        (logUserRef settings user) (session.count (.conflict user))
  | stopped {error : PyExc}
      (hstop : Stop settings (session.records.getD position []) user error) :
      Reconciled settings user position recoveredByUsername session [] (.error error) session
  | applied {diffs : Diffs} {transcript : Transcript} {outcome : Except PyExc Unit}
      {left : Session}
      (hlinked : recoveredByUsername = true →
        canRecoverByUsername settings (session.records.getD position [])
            (user.get? "externalId") = true ∧
          externalIdOf (session.records.getD position []) = externalIdOf user)
      (hdiffs : fieldDiffs (session.records.getD position []) user true = .ok diffs)
      (happlied : Applied settings user (session.records.getD position []) false diffs session
        transcript outcome left) :
      Reconciled settings user position recoveredByUsername session transcript outcome left
  | unrepaired {transcript : Transcript} {outcome : Except PyExc Bool} {left : Session}
      (hrecovered : recoveredByUsername = true)
      (hdue : RepairDue settings user (session.records.getD position []))
      (hrun : RepairRun settings user position session transcript outcome left)
      (hnot : outcome ≠ .ok true) :
      Reconciled settings user position recoveredByUsername session transcript
        (outcome.map fun _ => ()) left
  | repaired {first second : Transcript} {diffs : Diffs} {outcome : Except PyExc Unit}
      {middle left : Session}
      (hrecovered : recoveredByUsername = true)
      (hdue : RepairDue settings user (session.records.getD position []))
      (hrun : RepairRun settings user position session first (.ok true) middle)
      (hdiffs : fieldDiffs (middle.records.getD position []) user false = .ok diffs)
      (happlied : Applied settings user (middle.records.getD position []) true diffs middle
        second outcome left) :
      Reconciled settings user position recoveredByUsername session (first ++ second)
        outcome left
  | stoppedRepaired {transcript : Transcript} {error : PyExc} {middle : Session}
      (hrecovered : recoveredByUsername = true)
      (hdue : RepairDue settings user (session.records.getD position []))
      (hrun : RepairRun settings user position session transcript (.ok true) middle)
      (hstop : Stop settings (middle.records.getD position []) user error) :
      Reconciled settings user position recoveredByUsername session transcript
        (.error error) middle

section Reconciling

variable {settings : Settings} {user : Dict} {position : ℕ} {session left : Session}
variable {transcript : Transcript} {outcome : Except PyExc Unit}

theorem nameOf_eq_error_of_fieldDiffs {record : Dict} {includeExternalId : Bool}
    {error : PyExc} (hdiffs : fieldDiffs record user includeExternalId = .error error) :
    nameOf record = .error error ∨ nameOf user = .error error := by
  rw [fieldDiffs] at hdiffs
  cases hrecord : nameOf record with
  | error _ =>
      exact .inl (by simpa [hrecord, bind, Except.bind] using hdiffs)
  | ok _ =>
      cases huser : nameOf user with
      | error _ =>
          exact .inr (by simpa [hrecord, huser, bind, Except.bind] using hdiffs)
      | ok _ =>
          cases includeExternalId <;> simp [hrecord, huser, bind, Except.bind, pure,
            Except.pure] at hdiffs

theorem changed_externalId_of_fieldDiffs {record : Dict} {diffs : Diffs}
    (hdiffs : fieldDiffs record user true = .ok diffs) :
    diffs.changed .externalId = (externalIdOf record != externalIdOf user) := by
  obtain ⟨_, -, hdiffs⟩ := bind_eq_ok_iff.mp hdiffs
  obtain ⟨_, -, hdiffs⟩ := bind_eq_ok_iff.mp hdiffs
  cases hdiffs
  rfl

omit [PyRuntime] in
/-- Differences that the mode leaves out are counted and logged. -/
theorem runs_leftOut {diffs : Diffs} {rest : Unit → Client Session Unit}
    (hruns : Script.Runs (if leavesOut settings diffs = true then do
        count fun result => { result with outOfScopeDiffs := result.outOfScopeDiffs + 1 }
        let logged ← Script.ofExcept (logUserRef settings user)
        rest logged
      else rest ()) session transcript outcome left) :
    (∃ error, logUserRef settings user = .error error ∧ transcript = [] ∧
      outcome = .error error ∧ left = leftOut settings diffs session) ∨
      Script.Runs (rest ()) (leftOut settings diffs session) transcript outcome left := by
  split_ifs at hruns with hout
  · have hleftOut : leftOut settings diffs session = session.count .outOfScope := by
      simp [leftOut, hout]
    rw [runs_count_bind_iff] at hruns
    rw [hleftOut]
    obtain ⟨error, hlog, rfl, rfl, rfl⟩ | ⟨_, -, hrest⟩ :=
      Script.runs_ofExcept_bind_iff.mp hruns
    · exact .inl ⟨error, hlog, rfl, rfl, rfl⟩
    · exact .inr hrest
  · right
    have hsame : leftOut settings diffs session = session := by
      simp [leftOut, hout, Session.count]
    rwa [hsame]

theorem applied_of_runs_patchUser {repaired : Bool} {diffs : Diffs}
    (hacts : actsOn settings diffs = true)
    (hruns : Script.Runs (patchUser settings position user
      (actionableDiffs diffs settings.appleScimUpdateMode)) (leftOut settings diffs session)
      transcript outcome left) :
    Applied settings user (session.records.getD position []) repaired diffs session transcript
      outcome left := by
  obtain ⟨error, hrequest, rfl, rfl, rfl⟩ | ⟨request, answer, hrequest, rfl, hafter⟩ :=
    runs_patchUser hruns
  · exact .stopped (.inr ⟨hacts, hrequest⟩) (.inl rfl)
  · obtain ⟨rfl, rfl⟩ := Prod.mk.inj hafter
    exact .sent answer hacts hrequest

/-- Nothing was sent. -/
theorem applied_of_settled {repaired : Bool} {diffs : Diffs} {record : Dict}
    (hacts : ¬ actsOn settings diffs = true)
    (hleft : left = (leftOut settings diffs session).count fun result =>
      if repaired then result else result.same) :
    Applied settings user record repaired diffs session [] (.ok ()) left :=
  hleft ▸ .settled (Bool.not_eq_true _ ▸ hacts)

theorem runs_applyDiffs {patchLabel : Option PyStr} {repaired : Bool} {diffs : Diffs}
    (hruns : Script.Runs (applyDiffs settings position user patchLabel repaired diffs) session
      transcript outcome left) :
    Applied settings user (session.records.getD position []) repaired diffs session transcript
      outcome left := by
  rw [applyDiffs] at hruns
  obtain ⟨error, hlog, rfl, rfl, hleft⟩ | hruns := runs_leftOut hruns
  · exact .stopped (.inl hlog) (.inl hleft)
  dsimp only at hruns
  split_ifs at hruns with hacts hloud hunchanged hloud
  · obtain ⟨error, hlog, rfl, rfl, hleft⟩ | ⟨_, -, hupdate⟩ :=
      Script.runs_ofExcept_bind_iff.mp hruns
    · exact .stopped (.inl hlog) (.inl hleft)
    · exact applied_of_runs_patchUser hacts hupdate
  · exact applied_of_runs_patchUser hacts hruns
  · rw [runs_count_bind_iff, Script.runs_ofExcept_iff] at hruns
    obtain ⟨rfl, rfl, rfl⟩ := hruns
    cases hlog : logUserRef settings user with
    | error error => exact .stopped (.inl hlog) (.inr rfl)
    | ok _ => exact applied_of_settled hacts (by simp_all [SyncResult.same])
  · rw [runs_count_bind_iff, Script.runs_pure_iff] at hruns
    obtain ⟨rfl, rfl, rfl⟩ := hruns
    exact applied_of_settled hacts (by simp_all [SyncResult.same])
  · obtain ⟨rfl, rfl, rfl⟩ := Script.runs_pure_iff.mp hruns
    exact applied_of_settled hacts (by simp_all [Session.count])

theorem runs_usernameRecoveryAllowed {record : Dict} {allowed : Except PyExc Bool}
    (hruns : Script.Runs (usernameRecoveryAllowed settings record user) session transcript
      allowed left) :
    transcript = [] ∧
      (canRecoverByUsername settings record (user.get? "externalId") = true ∧
          left = session ∧ (allowed = .ok true ∨
            ∃ error, logUserRef settings user = .error error ∧ allowed = .error error) ∨
        canRecoverByUsername settings record (user.get? "externalId") = false ∧
          left = session.count (.conflict user) ∧
          allowed = (logUserRef settings user).map fun _ => false) := by
  rw [usernameRecoveryAllowed] at hruns
  split_ifs at hruns with hcan hblank
  · obtain ⟨error, hlog, rfl, rfl, rfl⟩ | ⟨_, -, hpure⟩ :=
      Script.runs_ofExcept_bind_iff.mp hruns
    · exact ⟨rfl, .inl ⟨hcan, rfl, .inr ⟨error, hlog, rfl⟩⟩⟩
    · obtain ⟨rfl, rfl, rfl⟩ := Script.runs_pure_iff.mp hpure
      exact ⟨rfl, .inl ⟨hcan, rfl, .inl rfl⟩⟩
  · obtain ⟨rfl, rfl, rfl⟩ := Script.runs_pure_iff.mp hruns
    exact ⟨rfl, .inl ⟨hcan, rfl, .inl rfl⟩⟩
  · rw [recordUsernameConflict, bind_assoc, runs_count_bind_iff, runs_log_pure_iff] at hruns
    obtain ⟨rfl, rfl, rfl⟩ := hruns
    exact ⟨rfl, .inr ⟨Bool.not_eq_true _ ▸ hcan, rfl, rfl⟩⟩

/-- The account may be reconciled: compare, repair where it is due, and update. -/
theorem reconciled_of_allowed {recoveredByUsername : Bool} {patchLabel : Option PyStr}
    (hallowed : recoveredByUsername = true →
      canRecoverByUsername settings (session.records.getD position [])
        (user.get? "externalId") = true)
    (hruns : Script.Runs (do
      let diffs ← Script.ofExcept (fieldDiffs (session.records.getD position []) user true)
      if recoveredByUsername && diffs.changed .externalId then
        if ← patchExternalId settings position user then
          let appleUser ← recordAt position
          let diffs ← Script.ofExcept (fieldDiffs appleUser user false)
          applyDiffs settings position user patchLabel true diffs
      else
        applyDiffs settings position user patchLabel false diffs) session transcript outcome
      left) :
    Reconciled settings user position recoveredByUsername session transcript outcome left := by
  obtain ⟨error, hdiffs, rfl, rfl, rfl⟩ | ⟨diffs, hdiffs, hruns⟩ :=
    Script.runs_ofExcept_bind_iff.mp hruns
  · exact .stopped ((nameOf_eq_error_of_fieldDiffs hdiffs).elim .recordName .userName)
  have hchanged := changed_externalId_of_fieldDiffs hdiffs
  split_ifs at hruns with hrepair
  · rw [Bool.and_eq_true, hchanged, bne_iff_ne] at hrepair
    have hdue : RepairDue settings user (session.records.getD position []) :=
      ⟨hallowed hrepair.1, hrepair.2⟩
    rw [Script.runs_bind_iff] at hruns
    obtain ⟨error, hrun, rfl⟩ | ⟨first, verified, middle, second, rfl, hrun, hrest⟩ := hruns
    · exact .unrepaired hrepair.1 hdue (runs_patchExternalId hrun) nofun
    · have hrun := runs_patchExternalId hrun
      split_ifs at hrest with hverified
      · subst hverified
        rw [runs_recordAt_bind_iff] at hrest
        obtain ⟨error, hdiffs, rfl, rfl, rfl⟩ | ⟨diffs, hdiffs, happlied⟩ :=
          Script.runs_ofExcept_bind_iff.mp hrest
        · rw [List.append_nil]
          exact .stoppedRepaired hrepair.1 hdue hrun
            ((nameOf_eq_error_of_fieldDiffs hdiffs).elim .recordName .userName)
        · exact .repaired hrepair.1 hdue hrun hdiffs (runs_applyDiffs happlied)
      · obtain ⟨rfl, rfl, rfl⟩ := Script.runs_pure_iff.mp hrest
        rw [List.append_nil]
        exact .unrepaired hrepair.1 hdue hrun (by simpa using hverified)
  · refine .applied (fun hrecovered => ⟨hallowed hrecovered, ?_⟩) hdiffs (runs_applyDiffs hruns)
    simpa [hrecovered, hchanged] using hrepair

theorem runs_reconcileDiffs {recoveredByUsername : Bool} {patchLabel : Option PyStr}
    (hruns : Script.Runs (reconcileDiffs settings position user recoveredByUsername patchLabel)
      session transcript outcome left) :
    Reconciled settings user position recoveredByUsername session transcript outcome left := by
  rw [reconcileDiffs, runs_recordAt_bind_iff] at hruns
  dsimp only at hruns
  split_ifs at hruns with hrecovered
  · rw [Script.runs_bind_iff] at hruns
    obtain ⟨error, hallowed, rfl⟩ | ⟨first, allowed, middle, second, rfl, hallowed, hrest⟩ :=
      hruns
    · obtain ⟨rfl, ⟨-, rfl, hfailed⟩ | ⟨hrefused, rfl, hfailed⟩⟩ :=
        runs_usernameRecoveryAllowed hallowed
      · obtain hnone | ⟨_, hlog, heq⟩ := hfailed
        · cases hnone
        · exact .stopped (.log (Except.error.inj heq ▸ hlog))
      · cases hlog : logUserRef settings user with
        | error raised =>
            rw [hlog] at hfailed
            obtain rfl := Except.error.inj hfailed
            exact hlog ▸ .conflict hrecovered hrefused
        | ok _ =>
            rw [hlog] at hfailed
            cases hfailed
    · obtain ⟨rfl, ⟨hcan, rfl, hfailed⟩ | ⟨hrefused, rfl, hfailed⟩⟩ :=
        runs_usernameRecoveryAllowed hallowed
      · obtain heq | ⟨_, -, heq⟩ := hfailed
        · obtain rfl := Except.ok.inj heq
          exact reconciled_of_allowed (fun _ => hcan) hrest
        · cases heq
      · cases hlog : logUserRef settings user with
        | error raised =>
            rw [hlog] at hfailed
            cases hfailed
        | ok logged =>
            rw [hlog] at hfailed
            obtain rfl := Except.ok.inj hfailed
            obtain ⟨rfl, rfl, rfl⟩ := Script.runs_pure_iff.mp hrest
            exact hlog ▸ .conflict hrecovered hrefused
  · rw [pure_bind] at hruns
    exact reconciled_of_allowed (fun htrue => absurd htrue hrecovered) hruns

end Reconciling

section Uncaught

theorem uncaught_fieldOperations (user : Dict) (diffs : Diffs) (field : ScimField) :
    RaisesOnly Uncaught (fieldOperations user diffs field) := by
  cases field with
  | name => exact .mapM (fun _ => .bind (uncaught_nameOf user) fun _ => .ok _) _
  | _ => exact .ok _

theorem uncaught_updateRequest (settings : Settings) (record user : Dict) (diffs : Diffs) :
    RaisesOnly Uncaught (updateRequest settings record user diffs) := by
  refine .bind (uncaught_requireId record) fun appleId => .bind ?_ fun update =>
    .bind (.ensure (by rintro ⟨⟩)) fun _ => .ok _
  rw [buildUpdateRequest]
  split_ifs
  · exact .ok _
  · exact .bind (.ensure (by rintro ⟨⟩)) fun _ =>
      .bind (.mapM (uncaught_fieldOperations user diffs) _) fun _ => .ok _

omit [PyRuntime] in
theorem uncaught_of_stop {settings : Settings} {record user : Dict} {error : PyExc}
    (hstop : Stop settings record user error) : Uncaught error := by
  cases hstop with
  | log hlog => exact uncaught_logUserRef _ _ _ hlog
  | recordName hname => exact uncaught_nameOf _ _ hname
  | userName hname => exact uncaught_nameOf _ _ hname
  | id hid => exact uncaught_requireId _ _ hid
  | url _ hurl => exact RaisesOnly.ensure nofun _ hurl

theorem uncaught_readBack (appleId : PyStr) (user : Dict) (answer : Outcome) :
    RaisesOnly Uncaught (readBack appleId user answer) := by
  rw [readBack.eq_def]
  split
  · exact .ok _
  · exact .error nofun
  · next reply =>
    split_ifs
    · exact .ok _
    · split
      · exact .ok _
      · next error _ hjson => exact .error (uncaught_json reply error hjson)
      · exact .ok _

end Uncaught

end SsfTransmitter.Scim
