import SsfTransmitter.Scim.Loop
import SsfTransmitter.Scim.Matching
import SsfTransmitter.Scim.Server

/-!
# What a turn is to do

Against the server of a directory a turn does what can be said before it starts: it
posts a user or updates the account it matched, and counts that.  Where a turn raises
there is no plan.
-/

namespace SsfTransmitter.Scim

open SsfTransmitter.Core
open SsfTransmitter.Python

/-! ## Counts -/

namespace SyncResult

/-- The counts of two parts of a run. -/
def add (first second : SyncResult) : SyncResult where
  created := first.created + second.created
  updated := first.updated + second.updated
  unchanged := first.unchanged + second.unchanged
  conflicts := first.conflicts + second.conflicts
  errors := first.errors + second.errors
  update400InvalidRequest := first.update400InvalidRequest + second.update400InvalidRequest
  outOfScopeDiffs := first.outOfScopeDiffs + second.outOfScopeDiffs
  conflictUsernames := first.conflictUsernames ++ second.conflictUsernames

instance : Add SyncResult := ⟨add⟩
instance : Zero SyncResult := ⟨{}⟩

theorem add_def (first second : SyncResult) : first + second = first.add second := rfl

theorem zero_def : (0 : SyncResult) = {} := rfl

instance : AddMonoid SyncResult where
  add_assoc first second third := by
    simp [add_def, add, Nat.add_assoc, List.append_assoc]
  zero_add result := by simp [add_def, zero_def, add]
  add_zero result := by simp [add_def, zero_def, add]
  nsmul := nsmulRec

variable (result : SyncResult)

theorem create_eq_add : result.create = result + create 0 := by
  simp [add_def, zero_def, add, create]

theorem update_eq_add : result.update = result + update 0 := by
  simp [add_def, zero_def, add, update]

theorem same_eq_add : result.same = result + same 0 := by
  simp [add_def, zero_def, add, same]

theorem outOfScope_eq_add : result.outOfScope = result + outOfScope 0 := by
  simp [add_def, zero_def, add, outOfScope]

theorem conflict_eq_add (user : Dict) : result.conflict user = result + conflict user 0 := by
  simp only [add_def, zero_def, add, conflict, Nat.add_zero, Nat.zero_add, mk.injEq, true_and]
  split
  · split_ifs <;> simp
  · simp

end SyncResult

/-! ## Plans -/

/-- Users to post, updates to send, and what this is counted as. -/
structure Plan where
  creates : List Dict := []
  updates : List Request := []
  counts : SyncResult := 0

/-- What the updates of a plan make of an account. -/
def Plan.revise (plan : Plan) (account : Dict) : Dict :=
  plan.updates.foldl (fun account request => request.rewrite account) account

section Planning

variable [PyRuntime]

/-- An update as it is intended: it is built, sent and logged. -/
def intendedUpdate (settings : Settings) (sendable : Request → Bool) (record user : Dict)
    (diffs : Diffs) : Except PyExc Request := do
  let request ← updateRequest settings record user diffs
  ensure (sendable request) .clientError
  logUserRef settings user
  pure request

/-- What is counted where the mode leaves a difference out. -/
def skippedCounts (settings : Settings) (diffs : Diffs) : SyncResult :=
  if leavesOut settings diffs then SyncResult.outOfScope 0 else 0

def unchangedCounts (repaired : Bool) : SyncResult :=
  if repaired then 0 else SyncResult.same 0

/-- Updating an account whose differences are known. -/
def planUpdate (settings : Settings) (sendable : Request → Bool) (record user : Dict)
    (repaired : Bool) (diffs : Diffs) : Except PyExc Plan :=
  if actsOn settings diffs then do
    let request ← intendedUpdate settings sendable record user
      (actionableDiffs diffs settings.appleScimUpdateMode)
    pure { updates := [request], counts := skippedCounts settings diffs + SyncResult.update 0 }
  else do
    logUserRef settings user
    pure { counts := skippedCounts settings diffs + unchangedCounts repaired }

/-- A repair as it is intended: it is sent, read back and logged. -/
def intendedRepair (settings : Settings) (sendable : Request → Bool) (record user : Dict) :
    Except PyExc PyStr := do
  let userId ← requireId record
  userUrl userId
  ensure (sendable (repairRequest user userId) ∧ sendable (.readUser userId)) .clientError
  logUserRef settings user
  pure userId

/-- Repairing the linkage of an account, and then updating it. -/
def planRepair (settings : Settings) (sendable : Request → Bool) (record user : Dict) :
    Except PyExc Plan := do
  let userId ← intendedRepair settings sendable record user
  let repair := repairRequest user userId
  let diffs ← fieldDiffs (repair.rewrite record) user false
  let later ← planUpdate settings sendable (repair.rewrite record) user true diffs
  pure { updates := repair :: later.updates, counts := SyncResult.update 0 + later.counts }

def planConflict (settings : Settings) (user : Dict) : Except PyExc Plan := do
  logUserRef settings user
  pure { counts := SyncResult.conflict user 0 }

/-- Planning for an account that may be reconciled. -/
def planAllowed (settings : Settings) (sendable : Request → Bool) (record user : Dict)
    (recoveredByUsername : Bool) : Except PyExc Plan := do
  let diffs ← fieldDiffs record user true
  if recoveredByUsername && diffs.changed .externalId then
    planRepair settings sendable record user
  else
    planUpdate settings sendable record user false diffs

/-- Reconciling the account that a user matched. -/
def planReconcile (settings : Settings) (sendable : Request → Bool) (record user : Dict)
    (recoveredByUsername : Bool) : Except PyExc Plan :=
  if recoveredByUsername && !canRecoverByUsername settings record (user.get? "externalId") then
    planConflict settings user
  else
    planAllowed settings sendable record user recoveredByUsername

/-- The turn for a user. -/
def planTurn (settings : Settings) (sendable : Request → Bool) (listing : Listing)
    (user : Dict) : Except PyExc Plan := do
  match ← matchAppleUser listing listing.users user with
  | .conflict => planConflict settings user
  | .absent => do
    logUserRef settings user
    ensure (sendable (.createUser user)) .clientError
    pure { creates := [user], counts := SyncResult.create 0 }
  | .matched position recoveredByUsername =>
    planReconcile settings sendable (listing.users.getD position []) user recoveredByUsername

end Planning

/-! ## Accounts keep their ids -/

/-- An update of an account, which leaves its id as it is. -/
structure Aimed (request : Request) (userId : PyStr) : Prop where
  off : ∀ account : Dict, account.get? "id" ≠ some (.str userId) →
    request.rewrite account = account
  id : ∀ account : Dict, (request.rewrite account).get? "id" = account.get? "id"

theorem aimed_patchUser {user : Dict} {userId : PyStr} {operations : List (PyStr × Json)}
    (hpaths : ∀ operation ∈ operations,
      ofString "id" ≠ operation.1.takeWhile (· != ofChar '.')) :
    Aimed (.patchUser user userId (patchBody (operations.map fun operation =>
      replaceOperation operation.1 operation.2))) userId where
  off _ hother := if_neg hother
  id account := by
    rw [Request.rewrite]
    split_ifs with hid
    · rw [patched_patchBody]
      clear hid
      induction operations generalizing account with
      | nil => rfl
      | cons operation operations ih =>
          rw [List.foldl_cons, ih (fun other hother => hpaths other (.tail _ hother)),
            get?_storeAt_of_ne (hpaths operation List.mem_cons_self)]
    · rfl

theorem get?_id_replaced {body account : Dict} :
    (replaced body account).get? "id" = body.get? "id" := by
  rw [replaced]
  split
  · exact Dict.get?_set_of_ne _ _ (by decide)
  · rfl

theorem aimed_putUser {user body : Dict} {userId : PyStr} :
    Aimed (.putUser user userId (body.set "id" (.str userId))) userId where
  off _ hother := if_neg hother
  id account := by
    rw [Request.rewrite]
    split_ifs with hid
    · rw [get?_id_replaced, Dict.get?_set_self, hid]
    · rfl

theorem exists_of_mem_of_mapM {Item Result : Type} {body : Item → Except PyExc Result}
    {items : List Item} {results : List Result} (hresults : items.mapM body = .ok results)
    {result : Result} (hmem : result ∈ results) : ∃ item ∈ items, body item = .ok result := by
  induction items generalizing results with
  | nil =>
      obtain rfl := Except.ok.inj hresults
      cases hmem
  | cons item items ih =>
      rw [List.mapM_cons] at hresults
      obtain ⟨first, hfirst, hresults⟩ := bind_eq_ok_iff.mp hresults
      obtain ⟨rest, hrest, hresults⟩ := bind_eq_ok_iff.mp hresults
      obtain rfl := Except.ok.inj hresults
      obtain rfl | hmem := List.mem_cons.mp hmem
      · exact ⟨item, List.mem_cons_self, hfirst⟩
      · obtain ⟨other, hother, hbody⟩ := ih hrest hmem
        exact ⟨other, .tail _ hother, hbody⟩

section Aiming

variable [PyRuntime]
variable {settings : Settings} {record user : Dict}

/-- The paths of a field start with its name. -/
theorem takeWhile_path_of_fieldOperations {diffs : Diffs} {field : ScimField}
    {operations : List (PyStr × Json)}
    (hoperations : fieldOperations user diffs field = .ok operations)
    {operation : PyStr × Json} (hmem : operation ∈ operations) :
    operation.1.takeWhile (· != ofChar '.') = field.path := by
  cases field with
  | name =>
      obtain ⟨key, -, hkey⟩ := exists_of_mem_of_mapM hoperations hmem
      obtain ⟨name, -, hpair⟩ := bind_eq_ok_iff.mp hkey
      obtain rfl := Except.ok.inj hpair
      dsimp only
      cases key <;> decide
  | _ =>
      obtain rfl := Except.ok.inj hoperations
      obtain rfl := List.mem_singleton.mp hmem
      dsimp only
      decide

theorem aimed_repairRequest (userId : PyStr) : Aimed (repairRequest user userId) userId := by
  have hpaths : ∀ operation ∈ [(ofString "externalId", Json.str (externalIdOf user))],
      ofString "id" ≠ operation.1.takeWhile (· != ofChar '.') := by
    rintro operation hoperation
    obtain rfl := List.mem_singleton.mp hoperation
    dsimp only
    decide
  exact aimed_patchUser hpaths

theorem aimed_updateRequest {diffs : Diffs} {request : Request} {userId : PyStr}
    (hid : requireId record = .ok userId)
    (hrequest : updateRequest settings record user diffs = .ok request) :
    Aimed request userId := by
  obtain ⟨_, hfound, hrequest⟩ := bind_eq_ok_iff.mp hrequest
  obtain rfl := Except.ok.inj (hid.symm.trans hfound)
  obtain ⟨update, hupdate, hrequest⟩ := bind_eq_ok_iff.mp hrequest
  obtain ⟨_, -, hrequest⟩ := bind_eq_ok_iff.mp hrequest
  obtain rfl := Except.ok.inj hrequest
  rw [buildUpdateRequest] at hupdate
  split_ifs at hupdate with hmode
  · obtain rfl := Except.ok.inj hupdate
    exact aimed_putUser
  · obtain ⟨-, hupdate⟩ := ensure_bind_eq_ok.mp hupdate
    obtain ⟨operations, hoperations, hupdate⟩ := bind_eq_ok_iff.mp hupdate
    obtain rfl := Except.ok.inj hupdate
    refine aimed_patchUser fun operation hoperation => ?_
    obtain ⟨group, hgroup, hmem⟩ := List.mem_flatten.mp hoperation
    obtain ⟨field, -, hfield⟩ := exists_of_mem_of_mapM hoperations hgroup
    rw [takeWhile_path_of_fieldOperations hfield hmem]
    cases field <;> decide

end Aiming

/-! ## Turns go as planned -/

/-- An outcome as intended.  Where nothing is intended, it raises what the loop does not
catch. -/
def Enacts {Value : Type} (intended : Except PyExc Value) (outcome : Except PyExc Unit)
    (wanted : Value → Prop) : Prop :=
  match intended with
  | .ok value => outcome = .ok () ∧ wanted value
  | .error _ => ∃ error, outcome = .error error ∧ Uncaught error

theorem Enacts.raised {Value : Type} {intended : Except PyExc Value} {error raised : PyExc}
    {wanted : Value → Prop} (hintended : intended = .error error) (hraised : Uncaught raised) :
    Enacts intended (.error raised) wanted := by
  subst hintended
  exact ⟨raised, rfl, hraised⟩

theorem Enacts.raised_of_ne {Value : Type} {intended : Except PyExc Value} {raised : PyExc}
    {wanted : Value → Prop} (hintended : ∀ value, intended ≠ .ok value)
    (hraised : Uncaught raised) : Enacts intended (.error raised) wanted := by
  cases intended with
  | error error => exact ⟨raised, rfl, hraised⟩
  | ok value => exact absurd rfl (hintended value)

theorem Enacts.bind_pure {Value Image : Type} {intended : Except PyExc Value}
    {outcome : Except PyExc Unit} {image : Value → Image} {wanted : Value → Prop}
    {later : Image → Prop} (henacts : Enacts intended outcome wanted)
    (hlater : ∀ value, wanted value → later (image value)) :
    Enacts (intended >>= fun value => pure (image value)) outcome later := by
  cases intended with
  | error error => exact henacts
  | ok value => exact ⟨henacts.1, hlater value henacts.2⟩

theorem Enacts.done {Value : Type} {intended : Except PyExc Value} {value : Value}
    {wanted : Value → Prop} (hintended : intended = .ok value) (hwanted : wanted value) :
    Enacts intended (.ok ()) wanted := by
  subst hintended
  exact ⟨rfl, hwanted⟩

section Sending

variable {sendable : Request → Bool} {directory : List Dict} {session : Session} {Value : Type}

theorem wp_count_bind_iff {environment : Environment (List Dict) Request Outcome}
    {change : SyncResult → SyncResult} {rest : Unit → Client Session Value}
    {wanted : Except PyExc Value → List Dict → Session → Prop} :
    Script.wp environment (count change >>= rest) wanted directory session ↔
      Script.wp environment (rest ()) wanted directory (session.count change) :=
  Iff.rfl

theorem wp_recordAt_bind_iff {environment : Environment (List Dict) Request Outcome}
    {position : ℕ} {rest : Dict → Client Session Value}
    {wanted : Except PyExc Value → List Dict → Session → Prop} :
    Script.wp environment (recordAt position >>= rest) wanted directory session ↔
      Script.wp environment (rest (session.records.getD position [])) wanted directory
        session :=
  Iff.rfl

/-- An update that is sent reaches the account. -/
theorem wp_send_update_bind {request : Request} {userId : PyStr}
    {rest : Response → Client Session Value}
    {wanted : Except PyExc Value → List Dict → Session → Prop}
    (haccount : request.account? = some userId) (hholds : Holds directory userId)
    (hdeclined : sendable request = false → wanted (.error .clientError) directory session)
    (hserved : sendable request = true → ∀ response,
      (response.status = 200 ∨ response.status = 204) →
      Script.wp (faithful sendable) (rest response) wanted (directory.map request.rewrite)
        session) :
    Script.wp (faithful sendable) (send request >>= rest) wanted directory session := by
  rw [send, bind_assoc, Script.wp_bind]
  refine wp_ask_faithful hdeclined fun hsent answer after hserves => ?_
  cases request with
  | patchUser source target body =>
      obtain rfl := Option.some.inj haccount
      obtain ⟨response, rfl, hstatus, rfl⟩ := hserves
      exact hserved hsent response (hstatus hholds)
  | putUser source target body =>
      obtain rfl := Option.some.inj haccount
      obtain ⟨response, rfl, hstatus, rfl⟩ := hserves
      exact hserved hsent response (hstatus hholds)
  | _ => cases haccount

/-- A read whose network failure would be caught. -/
theorem wp_trySend_bind {request : Request} {rest : Option Response → Client Session Value}
    {wanted : Except PyExc Value → List Dict → Session → Prop}
    (hdeclined : sendable request = false → wanted (.error .clientError) directory session)
    (hserved : sendable request = true → ∀ answer after, Serves directory request answer after →
      ∃ response, answer = .response response ∧
        Script.wp (faithful sendable) (rest (some response)) wanted after session) :
    Script.wp (faithful sendable) (tryCatch (some <$> send request) (fun error =>
      match error with
      | .httpError => pure none
      | error => throw error) >>= rest) wanted directory session := by
  refine (iff_of_eq (congrArg (fun script => Script.wp (faithful sendable) (script >>= rest)
    wanted directory session) (trySend_eq request))).mpr ?_
  rw [bind_assoc, Script.wp_bind]
  refine wp_ask_faithful hdeclined fun hsent answer after hserves => ?_
  obtain ⟨response, rfl, hrest⟩ := hserved hsent answer after hserves
  exact hrest

end Sending

section Enacting

variable [PyRuntime]
variable {settings : Settings} {sendable : Request → Bool} {directory : List Dict}
variable {session : Session} {user : Dict} {position : ℕ}

theorem wp_sendUpdate {record : Dict} {diffs : Diffs} {request : Request} {userId : PyStr}
    (hid : requireId record = .ok userId) (hholds : Holds directory userId)
    (hrequest : updateRequest settings record user diffs = .ok request) :
    Script.wp (faithful sendable) (do
      let response ← send request
      if response.status = 200 ∨ response.status = 204 then
        count fun result => { result with updated := result.updated + 1 }
        Script.ofExcept (logUserRef settings user)
      else
        countUpdateFailure settings user response)
      (fun outcome after left => Enacts (intendedUpdate settings sendable record user diffs)
        outcome fun request =>
          after = directory.map request.rewrite ∧ left = session.count .update)
      directory session := by
  have hintended : intendedUpdate settings sendable record user diffs = (do
      ensure (sendable request) .clientError
      logUserRef settings user
      pure request) := by
    rw [intendedUpdate, hrequest]
    rfl
  refine wp_send_update_bind (account?_of_updateRequest hid hrequest) hholds
    (fun hdeclined => ?_) fun hsent response hstatus => ?_
  · exact .raised (by rw [hintended, ensure, if_neg (by simp [hdeclined])]; rfl) nofun
  · rw [if_pos hstatus, wp_count_bind_iff, Script.wp_ofExcept]
    rw [hintended, ensure, if_pos hsent]
    cases hlog : logUserRef settings user with
    | error error => exact .raised rfl (uncaught_logUserRef _ _ _ hlog)
    | ok _ => exact .done rfl ⟨rfl, rfl⟩

/-- An update that can be built is sent. -/
theorem wp_patchUser {record : Dict} {diffs : Diffs}
    (hrecord : session.records.getD position [] = record)
    (hholds : ∀ userId, requireId record = .ok userId → Holds directory userId) :
    Script.wp (faithful sendable) (patchUser settings position user diffs)
      (fun outcome after left => Enacts (intendedUpdate settings sendable record user diffs)
        outcome fun request =>
          after = directory.map request.rewrite ∧ left = session.count .update)
      directory session := by
  have hunbuilt : ∀ error, updateRequest settings record user diffs = .error error →
      Enacts (intendedUpdate settings sendable record user diffs) (.error error) fun request =>
        directory = directory.map request.rewrite ∧ session = session.count .update := by
    intro error hnone
    exact .raised (by rw [intendedUpdate, hnone]; rfl) (uncaught_updateRequest _ _ _ _ _ hnone)
  rw [patchUser, wp_recordAt_bind_iff, hrecord]
  refine Script.wp_ofExcept_bind.mpr ⟨fun error hid => ?_, fun userId hid => ?_⟩
  · exact hunbuilt error (by rw [updateRequest, hid]; rfl)
  refine Script.wp_ofExcept_bind.mpr ⟨fun error hbuild => ?_, fun update hbuild => ?_⟩
  · exact hunbuilt error (by simp [updateRequest, hid, hbuild, bind, Except.bind])
  refine Script.wp_ofExcept_bind.mpr ⟨fun error hurl => ?_, fun _ hurl => ?_⟩
  · exact hunbuilt error (by simp [updateRequest, hid, hbuild, hurl, bind, Except.bind])
  exact wp_sendUpdate hid (hholds userId hid) (bind_eq_ok_iff.mpr ⟨userId, hid,
    bind_eq_ok_iff.mpr ⟨update, hbuild, bind_eq_ok_iff.mpr ⟨(), hurl, rfl⟩⟩⟩)

theorem log_of_intendedUpdate {record : Dict} {diffs : Diffs} {request : Request}
    (hintended : intendedUpdate settings sendable record user diffs = .ok request) :
    logUserRef settings user = .ok () := by
  obtain ⟨_, -, hintended⟩ := bind_eq_ok_iff.mp hintended
  obtain ⟨_, -, hintended⟩ := bind_eq_ok_iff.mp hintended
  obtain ⟨_, hlog, -⟩ := bind_eq_ok_iff.mp hintended
  exact hlog

theorem log_of_planUpdate {record : Dict} {repaired : Bool} {diffs : Diffs} {plan : Plan}
    (hplan : planUpdate settings sendable record user repaired diffs = .ok plan) :
    logUserRef settings user = .ok () := by
  rw [planUpdate] at hplan
  split_ifs at hplan
  · obtain ⟨_, hintended, -⟩ := bind_eq_ok_iff.mp hplan
    exact log_of_intendedUpdate hintended
  · obtain ⟨_, hlog, -⟩ := bind_eq_ok_iff.mp hplan
    exact hlog

omit [PyRuntime] in
/-- The session with what differs out of scope counted. -/
theorem leftOut_eq (diffs : Diffs) :
    leftOut settings diffs session = session.count (· + skippedCounts settings diffs) := by
  rw [leftOut, skippedCounts]
  split_ifs
  · exact congrArg (session.count ·) (funext SyncResult.outOfScope_eq_add)
  · exact congrArg (session.count ·) (funext fun result => (add_zero result).symm)

omit [PyRuntime] in
theorem wp_leftOut {environment : Environment (List Dict) Request Outcome} {diffs : Diffs}
    {rest : Unit → Client Session Unit}
    {wanted : Except PyExc Unit → List Dict → Session → Prop}
    (hlog : ∀ error, logUserRef settings user = .error error →
      wanted (.error error) directory (leftOut settings diffs session))
    (hrest : Script.wp environment (rest ()) wanted directory (leftOut settings diffs session)) :
    Script.wp environment (if leavesOut settings diffs = true then do
        count fun result => { result with outOfScopeDiffs := result.outOfScopeDiffs + 1 }
        let logged ← Script.ofExcept (logUserRef settings user)
        rest logged
      else rest ()) wanted directory session := by
  split_ifs with hout
  · have hleftOut : leftOut settings diffs session = session.count .outOfScope := by
      simp [leftOut, hout]
    rw [hleftOut] at hlog hrest
    rw [wp_count_bind_iff]
    exact Script.wp_ofExcept_bind.mpr ⟨hlog, fun _ _ => hrest⟩
  · have hsame : leftOut settings diffs session = session := by
      simp [leftOut, hout, Session.count]
    rwa [hsame] at hrest

/-- What is left of `applyDiffs` once the differences out of scope are counted. -/
theorem wp_applyActionable {record : Dict} {repaired : Bool} {diffs : Diffs}
    (hrecord : session.records.getD position [] = record)
    (hholds : ∀ userId, requireId record = .ok userId → Holds directory userId)
    (hlogged : repaired = true → logUserRef settings user = .ok ()) :
    Script.wp (faithful sendable) (do
      if actsOn settings diffs = true then
        Script.ofExcept (logUserRef settings user)
        patchUser settings position user
          (actionableDiffs diffs settings.appleScimUpdateMode)
      else if (!repaired) = true then
        count fun result => { result with unchanged := result.unchanged + 1 }
        Script.ofExcept (logUserRef settings user))
      (fun outcome after left =>
        Enacts (planUpdate settings sendable record user repaired diffs) outcome fun plan =>
          after = directory.map plan.revise ∧ left = session.count (· + plan.counts))
      directory (leftOut settings diffs session) := by
  rw [leftOut_eq, planUpdate]
  split_ifs with hacts hrepaired
  · refine Script.wp_ofExcept_bind.mpr ⟨fun error hlog => ?_, fun _ hlog => ?_⟩
    · refine .raised_of_ne (fun plan hplan => ?_) (uncaught_logUserRef _ _ _ hlog)
      obtain ⟨_, hintended, -⟩ := bind_eq_ok_iff.mp hplan
      cases hlog.symm.trans (log_of_intendedUpdate hintended)
    · refine Script.wp_mono (wp_patchUser hrecord hholds) fun outcome after left hupdated => ?_
      refine hupdated.bind_pure ?_
      rintro request ⟨rfl, rfl⟩
      refine ⟨rfl, congrArg (Session.mk session.records) ?_⟩
      simp only [Session.count]
      rw [SyncResult.update_eq_add, add_assoc]
  · rw [wp_count_bind_iff, Script.wp_ofExcept]
    cases hlog : logUserRef settings user with
    | error error => exact .raised rfl (uncaught_logUserRef _ _ _ hlog)
    | ok _ =>
        refine .done rfl ⟨(List.map_id _).symm, congrArg (Session.mk session.records) ?_⟩
        dsimp only
        rw [unchangedCounts, if_neg (by simpa using hrepaired), ← add_assoc]
        exact SyncResult.same_eq_add _
  · rw [hlogged (by simpa using hrepaired)]
    refine .done rfl ⟨(List.map_id _).symm, congrArg (Session.mk session.records) ?_⟩
    rw [unchangedCounts, if_pos (by simpa using hrepaired), add_zero]

theorem wp_applyDiffs {record : Dict} {repaired : Bool} {diffs : Diffs}
    (hrecord : session.records.getD position [] = record)
    (hholds : ∀ userId, requireId record = .ok userId → Holds directory userId)
    (hlogged : repaired = true → logUserRef settings user = .ok ()) :
    Script.wp (faithful sendable) (applyDiffs settings position user none repaired diffs)
      (fun outcome after left =>
        Enacts (planUpdate settings sendable record user repaired diffs) outcome fun plan =>
          after = directory.map plan.revise ∧ left = session.count (· + plan.counts))
      directory session := by
  rw [applyDiffs]
  refine wp_leftOut (fun error hlog => ?_) ?_
  · refine .raised_of_ne (fun plan hplan => ?_) (uncaught_logUserRef _ _ _ hlog)
    cases hlog.symm.trans (log_of_planUpdate hplan)
  · simp only [if_true]
    exact wp_applyActionable hrecord hholds hlogged

/-- The account as the server holds it is read. -/
theorem wp_readRepaired {userId : PyStr} {account : Dict} (hheld : account ∈ directory)
    (hid : account.get? "id" = some (.str userId))
    (hverified : verifiedRepair userId user (.dict account) = some account)
    {wanted : Except PyExc (Option Dict) → List Dict → Session → Prop}
    (hdeclined : sendable (.readUser userId) = false →
      wanted (.error .clientError) directory session)
    (hread : sendable (.readUser userId) = true →
      wanted (.ok (some account)) directory session) :
    Script.wp (faithful sendable) (readRepaired userId user) wanted directory session := by
  refine wp_trySend_bind hdeclined fun hsent answer after hserved => ?_
  obtain ⟨rfl, hanswer⟩ := hserved
  obtain ⟨readable, rfl⟩ := hanswer account hheld hid
  refine ⟨_, rfl, ?_⟩
  change wanted (.ok (verifiedRepair userId user (.dict account))) _ session
  rw [hverified]
  exact hread hsent

theorem rewrite_repairRequest {record : Dict} {userId : PyStr}
    (hid : record.get? "id" = some (.str userId)) :
    (repairRequest user userId).rewrite record =
      record.set "externalId" (.str (externalIdOf user)) := by
  rw [repairRequest, Request.rewrite, if_pos hid]
  exact patched_patchBody [(ofString "externalId", .str (externalIdOf user))] record

/-- What a repair makes of an account is verified. -/
theorem verifiedRepair_repairRequest {record : Dict} {userId : PyStr}
    (hid : record.get? "id" = some (.str userId)) (hname : hasObjectName record = true)
    (husername : usernameOf record = usernameOf user) :
    verifiedRepair userId user (.dict ((repairRequest user userId).rewrite record)) =
      some ((repairRequest user userId).rewrite record) := by
  rw [rewrite_repairRequest hid]
  have hother : ∀ key : PyStr, key ≠ ofString "externalId" →
      Dict.get? (record.set "externalId" (.str (externalIdOf user))) key = record.get? key :=
    fun key hne => Dict.get?_set_of_ne _ _ hne
  refine if_pos ⟨?_, ?_, ?_, ?_⟩
  · rw [hother _ (by decide), hid]
  · rw [externalIdOf, Dict.get?_set_self, trimmed_str, externalIdOf, trimmed, strip_strip]
  · rw [← husername, usernameOf, hother _ (by decide), usernameOf]
  · rw [hasObjectName, Dict.getD, hother _ (by decide)]
    exact hname

/-- A repair that is sent links the account, and the record is the account again. -/
theorem wp_patchExternalId_bind {record : Dict} {rest : Bool → Client Session Unit}
    {wanted : Except PyExc Unit → List Dict → Session → Prop}
    (hrecord : session.records.getD position [] = record) (hheld : record ∈ directory)
    (hname : hasObjectName record = true) (husername : usernameOf record = usernameOf user)
    (hraised : (∀ userId, intendedRepair settings sendable record user ≠ .ok userId) →
      ∀ error after left, Uncaught error → wanted (.error error) after left)
    (hrest : ∀ userId, intendedRepair settings sendable record user = .ok userId →
      Script.wp (faithful sendable) (rest true) wanted
        (directory.map (repairRequest user userId).rewrite)
        ⟨session.records.set position ((repairRequest user userId).rewrite record),
          session.result.update⟩) :
    Script.wp (faithful sendable) (patchExternalId settings position user >>= rest) wanted
      directory session := by
  rw [Script.wp_bind, patchExternalId, wp_recordAt_bind_iff, hrecord]
  refine Script.wp_ofExcept_bind.mpr ⟨fun error hid => ?_, fun userId hid => ?_⟩
  · refine hraised (fun _ hintended => ?_) _ _ _ (uncaught_requireId _ _ hid)
    rw [intendedRepair, hid] at hintended
    cases hintended
  have hget := requireId_eq_ok_iff.mp hid
  have hintended : intendedRepair settings sendable record user = (do
      userUrl userId
      ensure (sendable (repairRequest user userId) ∧ sendable (.readUser userId)) .clientError
      logUserRef settings user
      pure userId) := by
    rw [intendedRepair, hid]
    rfl
  rw [hintended] at hraised hrest
  refine Script.wp_ofExcept_bind.mpr ⟨fun error hurl => ?_, fun _ hurl => ?_⟩
  · rw [hurl] at hraised
    exact hraised (by rintro _ ⟨⟩) _ _ _ (RaisesOnly.ensure (by rintro ⟨⟩) _ hurl)
  rw [hurl] at hraised hrest
  have hdeclines : ¬ (sendable (repairRequest user userId) ∧ sendable (.readUser userId)) →
      ∀ after left, wanted (.error .clientError) after left := by
    intro hnot after left
    rw [ensure, if_neg hnot] at hraised
    exact hraised (by rintro _ ⟨⟩) _ _ _ (by rintro ⟨⟩)
  refine wp_send_update_bind (rfl : (repairRequest user userId).account? = some userId)
    ⟨record, hheld, hget⟩ (fun hdeclined => ?_) fun hsent response hstatus => ?_
  · exact hdeclines (fun hboth => by simp [repairRequest, hdeclined] at hboth) _ _
  · rw [if_pos hstatus, Script.wp_bind]
    refine wp_readRepaired (List.mem_map_of_mem hheld)
      (((aimed_repairRequest userId).id record).trans hget)
      (verifiedRepair_repairRequest hget hname husername) (fun hdeclined => ?_) fun hread => ?_
    · exact hdeclines (fun hboth => by simp [hdeclined] at hboth) _ _
    · rw [ensure, if_pos ⟨hsent, hread⟩] at hraised hrest
      dsimp only
      rw [Script.wp_bind, Script.wp_modify]
      dsimp only
      rw [wp_count_bind_iff]
      refine Script.wp_ofExcept_bind.mpr ⟨fun error hlog => ?_, fun _ hlog => ?_⟩
      · rw [hlog] at hraised
        exact hraised (by rintro _ ⟨⟩) _ _ _ (uncaught_logUserRef _ _ _ hlog)
      · rw [hlog] at hrest
        exact hrest userId rfl

theorem log_of_intendedRepair {record : Dict} {userId : PyStr}
    (hintended : intendedRepair settings sendable record user = .ok userId) :
    logUserRef settings user = .ok () := by
  obtain ⟨_, -, hintended⟩ := bind_eq_ok_iff.mp hintended
  obtain ⟨_, -, hintended⟩ := bind_eq_ok_iff.mp hintended
  obtain ⟨_, -, hintended⟩ := bind_eq_ok_iff.mp hintended
  obtain ⟨_, hlog, -⟩ := bind_eq_ok_iff.mp hintended
  exact hlog

theorem uncaught_fieldDiffs (record : Dict) (includeExternalId : Bool) :
    RaisesOnly Uncaught (fieldDiffs record user includeExternalId) := by
  intro error herror
  obtain hname | hname := nameOf_eq_error_of_fieldDiffs herror
  · exact uncaught_nameOf _ _ hname
  · exact uncaught_nameOf _ _ hname

theorem hasObjectName_of_fieldDiffs {record : Dict} {includeExternalId : Bool} {diffs : Diffs}
    (hdiffs : fieldDiffs record user includeExternalId = .ok diffs) :
    hasObjectName record = true := by
  obtain ⟨name, hname, -⟩ := bind_eq_ok_iff.mp hdiffs
  rw [nameOf] at hname
  rw [hasObjectName]
  revert hname
  cases record.getD "name" (.dict []) with
  | dict fields => exact fun _ => rfl
  | _ => exact nofun

omit [PyRuntime] in
theorem holds_of_mem {record : Dict} (hheld : record ∈ directory) (userId : PyStr)
    (hid : requireId record = .ok userId) : Holds directory userId :=
  ⟨record, hheld, requireId_eq_ok_iff.mp hid⟩

/-- What a turn may do with the record at a position: leave it, or refresh one that had no
externalId. -/
def Refreshed (session : Session) (position : ℕ) (user : Dict) (left : Session) : Prop :=
  let record := session.records.getD position []
  left.records = session.records ∨
    externalIdOf record = [] ∧ usernameOf record = usernameOf user ∧ ∃ refreshed : Dict,
      refreshed.get? "id" = record.get? "id" ∧
        left.records = session.records.set position refreshed

/-- The repair that is due, and the update after it. -/
theorem wp_repair {record : Dict} {diffs : Diffs}
    (hrecord : session.records.getD position [] = record) (hheld : record ∈ directory)
    (hdiffs : fieldDiffs record user true = .ok diffs)
    (husername : usernameOf record = usernameOf user) (hblank : externalIdOf record = []) :
    Script.wp (faithful sendable) (do
      if ← patchExternalId settings position user then
        let appleUser ← recordAt position
        let diffs ← Script.ofExcept (fieldDiffs appleUser user false)
        applyDiffs settings position user none true diffs)
      (fun outcome after left =>
        Enacts (planRepair settings sendable record user) outcome fun plan =>
          after = directory.map plan.revise ∧ left.result = session.result + plan.counts ∧
            Refreshed session position user left)
      directory session := by
  refine wp_patchExternalId_bind hrecord hheld (hasObjectName_of_fieldDiffs hdiffs) husername
    (fun hnot error after left hraised => .raised_of_ne (fun plan hplan => ?_) hraised)
    fun userId hintended => ?_
  · obtain ⟨userId, hintended, -⟩ := bind_eq_ok_iff.mp hplan
    exact hnot userId hintended
  obtain ⟨_, hid, -⟩ := bind_eq_ok_iff.mp hintended
  have hget := requireId_eq_ok_iff.mp hid
  have hpresent : position < session.records.length := by
    by_contra hpast
    rw [List.getD_eq_getElem?_getD, List.getElem?_eq_none (not_lt.mp hpast)] at hrecord
    subst hrecord
    cases hget
  have hset : (session.records.set position ((repairRequest user userId).rewrite record)).getD
      position [] = (repairRequest user userId).rewrite record := by
    rw [List.getD_eq_getElem?_getD, List.getElem?_set_self hpresent, Option.getD_some]
  have hrefreshed : Refreshed session position user
      ⟨session.records.set position ((repairRequest user userId).rewrite record),
        session.result.update⟩ := by
    refine .inr ?_
    rw [hrecord]
    exact ⟨hblank, husername, _, (aimed_repairRequest userId).id record, rfl⟩
  have hplan : planRepair settings sendable record user = (do
      let diffs ← fieldDiffs ((repairRequest user userId).rewrite record) user false
      let later ← planUpdate settings sendable ((repairRequest user userId).rewrite record) user
        true diffs
      pure { updates := repairRequest user userId :: later.updates,
             counts := SyncResult.update 0 + later.counts }) := by
    rw [planRepair, hintended]
    rfl
  rw [if_pos rfl, wp_recordAt_bind_iff, hset, hplan]
  refine Script.wp_ofExcept_bind.mpr ⟨fun error hnone => ?_, fun later hlater => ?_⟩
  · rw [hnone]
    exact .raised rfl (uncaught_fieldDiffs _ _ _ hnone)
  rw [hlater]
  refine Script.wp_mono (wp_applyDiffs hset (holds_of_mem (List.mem_map_of_mem hheld))
    fun _ => log_of_intendedRepair hintended) fun outcome after left henacts => ?_
  refine henacts.bind_pure ?_
  rintro plan ⟨rfl, rfl⟩
  refine ⟨?_, ?_, hrefreshed⟩
  · rw [List.map_map]
    rfl
  · rw [Session.count_result, SyncResult.update_eq_add, add_assoc]

/-- A record that is the source user's, or that the opt-in may make so. -/
def Owns (record user : Dict) : Prop :=
  externalIdOf record = externalIdOf user ∨
    externalIdOf record = [] ∧ usernameOf record = usernameOf user

/-- How the loop may have matched a record. -/
def MatchedBy (recoveredByUsername : Bool) (record user : Dict) : Prop :=
  if recoveredByUsername then usernameOf record = usernameOf user
  else externalIdOf record = externalIdOf user

theorem owns_of_canRecoverByUsername {record : Dict}
    (husername : usernameOf record = usernameOf user)
    (hcan : canRecoverByUsername settings record (user.get? "externalId") = true) :
    Owns record user := by
  rw [canRecoverByUsername] at hcan
  split_ifs at hcan with hunlinked hlinked
  · exact .inl (of_decide_eq_true hcan)
  · exact .inr ⟨by simpa using hlinked, husername⟩

theorem wp_allowed {record : Dict} {recoveredByUsername : Bool}
    (hrecord : session.records.getD position [] = record) (hheld : record ∈ directory)
    (hmatched : MatchedBy recoveredByUsername record user) (howns : Owns record user) :
    Script.wp (faithful sendable) (do
      let diffs ← Script.ofExcept (fieldDiffs record user true)
      if recoveredByUsername && diffs.changed .externalId then
        if ← patchExternalId settings position user then
          let appleUser ← recordAt position
          let diffs ← Script.ofExcept (fieldDiffs appleUser user false)
          applyDiffs settings position user none true diffs
      else
        applyDiffs settings position user none false diffs)
      (fun outcome after left =>
        Enacts (planAllowed settings sendable record user recoveredByUsername) outcome
          fun plan => after = directory.map plan.revise ∧
            left.result = session.result + plan.counts ∧ Refreshed session position user left)
      directory session := by
  rw [planAllowed]
  refine Script.wp_ofExcept_bind.mpr ⟨fun error hnone => ?_, fun diffs hdiffs => ?_⟩
  · rw [hnone]
    exact .raised rfl (uncaught_fieldDiffs _ _ _ hnone)
  rw [hdiffs]
  change Script.wp _ _ (fun outcome after left => Enacts
    (if (recoveredByUsername && diffs.changed .externalId) = true then
      planRepair settings sendable record user
    else planUpdate settings sendable record user false diffs) outcome _) _ _
  split_ifs with hrepair
  · rw [Bool.and_eq_true, changed_externalId_of_fieldDiffs hdiffs, bne_iff_ne] at hrepair
    rw [MatchedBy, if_pos hrepair.1] at hmatched
    exact wp_repair hrecord hheld hdiffs hmatched (howns.resolve_left hrepair.2).1
  · refine Script.wp_mono (wp_applyDiffs hrecord (holds_of_mem hheld) nofun)
      fun outcome after left henacts => ?_
    cases hplan : planUpdate settings sendable record user false diffs with
    | error error =>
        rw [hplan] at henacts
        exact henacts
    | ok plan =>
        rw [hplan] at henacts
        obtain ⟨hdone, hafter, rfl⟩ := henacts
        exact ⟨hdone, hafter, rfl, .inl rfl⟩

theorem log_of_planAllowed {record : Dict} {recoveredByUsername : Bool} {plan : Plan}
    (hplan : planAllowed settings sendable record user recoveredByUsername = .ok plan) :
    logUserRef settings user = .ok () := by
  obtain ⟨diffs, -, hplan⟩ := bind_eq_ok_iff.mp hplan
  split_ifs at hplan
  · obtain ⟨_, hintended, -⟩ := bind_eq_ok_iff.mp hplan
    exact log_of_intendedRepair hintended
  · exact log_of_planUpdate hplan

/-- The account that a user matched is reconciled as planned. -/
theorem wp_reconcileDiffs {record : Dict} {recoveredByUsername : Bool}
    (hrecord : session.records.getD position [] = record)
    (hheld : Owns record user → record ∈ directory)
    (hmatched : MatchedBy recoveredByUsername record user) :
    Script.wp (faithful sendable)
      (reconcileDiffs settings position user recoveredByUsername none)
      (fun outcome after left =>
        Enacts (planReconcile settings sendable record user recoveredByUsername) outcome
          fun plan => after = directory.map plan.revise ∧
            left.result = session.result + plan.counts ∧ Refreshed session position user left)
      directory session := by
  rw [reconcileDiffs, wp_recordAt_bind_iff, hrecord, planReconcile]
  cases recoveredByUsername with
  | false =>
      have howns : Owns record user := .inl hmatched
      exact wp_allowed hrecord (hheld howns) hmatched howns
  | true =>
      rw [if_pos rfl, usernameRecoveryAllowed, Script.wp_bind, Bool.true_and]
      cases hcan : canRecoverByUsername settings record (user.get? "externalId") with
      | false =>
          simp only [Bool.not_false, if_true]
          rw [if_neg (by simp), recordUsernameConflict, bind_assoc, wp_count_bind_iff]
          refine Script.wp_ofExcept_bind.mpr ⟨fun error hlog => ?_, fun _ hlog => ?_⟩
          · exact .raised (by rw [planConflict, hlog]; rfl) (uncaught_logUserRef _ _ _ hlog)
          · refine .done (by rw [planConflict, hlog]; rfl) ⟨(List.map_id _).symm, ?_, .inl rfl⟩
            exact SyncResult.conflict_eq_add _ _
      | true =>
          have howns := owns_of_canRecoverByUsername hmatched hcan
          simp only [Bool.not_true, Bool.false_eq_true, if_true, if_false]
          split_ifs with hblank
          · refine Script.wp_ofExcept_bind.mpr ⟨fun error hlog => ?_, fun _ _ => ?_⟩
            · refine .raised_of_ne (fun plan hplan => ?_) (uncaught_logUserRef _ _ _ hlog)
              cases hlog.symm.trans (log_of_planAllowed hplan)
            · exact wp_allowed hrecord (hheld howns) hmatched howns
          · exact wp_allowed hrecord (hheld howns) hmatched howns

end Enacting

end SsfTransmitter.Scim
