import SsfTransmitter.Scim.Enactment
import SsfTransmitter.Scim.Interruptions

/-!
# The order of the source users

The plans of two source users update different accounts, so their turns can be exchanged.
Where what the users lead to can be sent and logged, every run returns.  A run that raises
ends after the turns before the one that raised: there the order counts.
-/

namespace SsfTransmitter.Scim

open SsfTransmitter.Core
open SsfTransmitter.Python

/-! ## Results -/

namespace SyncResult

/-- Counters that differ in the order of the conflicts only. -/
structure Alike (first second : SyncResult) : Prop where
  created : first.created = second.created
  updated : first.updated = second.updated
  unchanged : first.unchanged = second.unchanged
  conflicts : first.conflicts = second.conflicts
  errors : first.errors = second.errors
  update400InvalidRequest : first.update400InvalidRequest = second.update400InvalidRequest
  outOfScopeDiffs : first.outOfScopeDiffs = second.outOfScopeDiffs
  conflictUsernames : first.conflictUsernames.Perm second.conflictUsernames

variable {first second third : SyncResult}

theorem Alike.refl (result : SyncResult) : Alike result result :=
  ⟨rfl, rfl, rfl, rfl, rfl, rfl, rfl, .refl _⟩

theorem Alike.trans (hfirst : Alike first second) (hsecond : Alike second third) :
    Alike first third where
  created := hfirst.created.trans hsecond.created
  updated := hfirst.updated.trans hsecond.updated
  unchanged := hfirst.unchanged.trans hsecond.unchanged
  conflicts := hfirst.conflicts.trans hsecond.conflicts
  errors := hfirst.errors.trans hsecond.errors
  update400InvalidRequest :=
    hfirst.update400InvalidRequest.trans hsecond.update400InvalidRequest
  outOfScopeDiffs := hfirst.outOfScopeDiffs.trans hsecond.outOfScopeDiffs
  conflictUsernames := hfirst.conflictUsernames.trans hsecond.conflictUsernames

theorem Alike.add_left (halike : Alike first second) (result : SyncResult) :
    Alike (result + first) (result + second) where
  created := congrArg (result.created + ·) halike.created
  updated := congrArg (result.updated + ·) halike.updated
  unchanged := congrArg (result.unchanged + ·) halike.unchanged
  conflicts := congrArg (result.conflicts + ·) halike.conflicts
  errors := congrArg (result.errors + ·) halike.errors
  update400InvalidRequest :=
    congrArg (result.update400InvalidRequest + ·) halike.update400InvalidRequest
  outOfScopeDiffs := congrArg (result.outOfScopeDiffs + ·) halike.outOfScopeDiffs
  conflictUsernames := halike.conflictUsernames.append_left result.conflictUsernames

theorem alike_add_comm (first second : SyncResult) :
    Alike (first + second) (second + first) where
  created := Nat.add_comm _ _
  updated := Nat.add_comm _ _
  unchanged := Nat.add_comm _ _
  conflicts := Nat.add_comm _ _
  errors := Nat.add_comm _ _
  update400InvalidRequest := Nat.add_comm _ _
  outOfScopeDiffs := Nat.add_comm _ _
  conflictUsernames := List.perm_append_comm

theorem Alike.add_right (halike : Alike first second) (result : SyncResult) :
    Alike (first + result) (second + result) :=
  ((alike_add_comm first result).trans (halike.add_left result)).trans
    (alike_add_comm result second)

/-- The order of the turns changes the order of the conflicts only. -/
theorem alike_sum_of_perm {counts others : List SyncResult} (hperm : counts.Perm others) :
    Alike counts.sum others.sum := by
  induction hperm with
  | nil => exact .refl 0
  | cons result _ ih =>
      rw [List.sum_cons, List.sum_cons]
      exact ih.add_left result
  | swap first second counts =>
      rw [List.sum_cons, List.sum_cons, List.sum_cons, List.sum_cons, ← add_assoc, ← add_assoc]
      exact (alike_add_comm second first).add_right counts.sum
  | trans _ _ hfirst hsecond => exact hfirst.trans hsecond

end SyncResult

/-! ## Directories -/

/-- An account without its id. -/
def withoutId (account : Dict) : Dict :=
  account.filter fun field => field.1 != ofString "id"

theorem withoutId_set (source : Dict) (userId : Json) :
    withoutId (source.set "id" userId) = withoutId source := by
  rw [withoutId, Dict.set]
  split_ifs with hpresent
  · clear hpresent
    induction source with
    | nil => rfl
    | cons field source ih =>
        rw [List.map_cons, List.filter_cons, ih, withoutId, withoutId, List.filter_cons]
        by_cases hid : field.1 = ofString "id"
        · simp [hid]
        · simp [hid]
  · rw [List.filter_append, withoutId, List.filter_cons_of_neg (by simp), List.filter_nil,
      List.append_nil]

/-- Directories with the same accounts, up to the ids and the order of those that are new. -/
def SameAccounts (directory first second : List Dict) : Prop :=
  ∃ kept created others, first = kept ++ created ∧ second = kept ++ others ∧
    (kept.map fun account => account.get? "id") =
        (directory.map fun account => account.get? "id") ∧
      (created.map withoutId).Perm (others.map withoutId)

theorem map_withoutId_of_posted {sources created : List Dict}
    (hposted : List.Forall₂ Posted sources created) :
    created.map withoutId = sources.map withoutId := by
  induction hposted with
  | nil => rfl
  | cons hfirst _ ih =>
      obtain ⟨userId, rfl⟩ := hfirst
      rw [List.map_cons, List.map_cons, ih, withoutId_set]

/-! ## Turns in another order -/

section Orders

variable [PyRuntime]
variable {settings : Settings} {sendable : Request → Bool} {directory : List Dict}
variable {first second : List Dict}

/-- A run of the sync against the server, up to its outcome and the directory it leaves. -/
def SyncsTo (settings : Settings) (sendable : Request → Bool) (users directory : List Dict)
    (outcome : Except PyExc SyncResult) (after : List Dict) : Prop :=
  ∃ transcript left, Script.Runs (syncUsers settings users) {} transcript outcome left ∧
    Dialogue.Follows (faithful sendable) directory transcript after

theorem Identifiable.perm (husers : Identifiable [] [] first) (hperm : first.Perm second) :
    Identifiable [] [] second where
  linked user huser := husers.linked user (hperm.mem_iff.mpr huser)
  named user huser := husers.named user (hperm.mem_iff.mpr huser)
  externalIds := (hperm.map _).nodup husers.externalIds
  usernames := (hperm.map _).nodup husers.usernames
  newExternalIds := fun _ _ => List.not_mem_nil
  newUsernames := fun _ _ => List.not_mem_nil

/-- The plans of two source users revise different accounts. -/
theorem revise_comm {plans : Dict → Plan} {users : List Dict} {user other : Dict}
    (hdirectory : Unambiguous directory) (husers : Identifiable [] [] users)
    (huser : user ∈ users) (hother : other ∈ users)
    (hfor : ∀ user ∈ users, (plans user).For directory user) (account : Dict) :
    (plans other).revise ((plans user).revise account) =
      (plans user).revise ((plans other).revise account) := by
  obtain hnone | ⟨record, hrecord, userId, hid, howns, haims⟩ := hfor user huser
  · rw [Plan.revise_of_updates hnone, Plan.revise_of_updates hnone]
  obtain hnone | ⟨record', hrecord', otherId, hotherId, hotherOwns, hotherAims⟩ :=
    hfor other hother
  · rw [Plan.revise_of_updates hnone, Plan.revise_of_updates hnone]
  by_cases hsame : userId = otherId
  · subst hsame
    obtain rfl := hdirectory.eq_of_id hrecord hrecord' (hid.trans hotherId.symm)
    rw [eq_of_owns husers huser hother howns hotherOwns]
  by_cases haccount : account.get? "id" = some (.str userId)
  · have hoff : account.get? "id" ≠ some (.str otherId) := by
      rw [haccount]
      exact fun heq => hsame (Json.str.inj (Option.some.inj heq))
    rw [hotherAims.revise_off hoff]
    exact hotherAims.revise_off (by rwa [haims.get?_id_revise])
  · rw [haims.revise_off haccount]
    exact (haims.revise_off (by rwa [hotherAims.get?_id_revise])).symm

theorem reviseAll_perm {plans : Dict → Plan} (hdirectory : Unambiguous directory)
    (husers : Identifiable [] [] first) (hperm : first.Perm second)
    (hfor : ∀ user ∈ first, (plans user).For directory user) :
    reviseAll plans first = reviseAll plans second := by
  funext account
  apply hperm.foldl_eq'
  intro user huser other hother account
  exact revise_comm hdirectory husers huser hother hfor account

/-! ## Runs that return -/

/-- The requests that a source user can lead to over a directory. -/
inductive Prompts (settings : Settings) (directory : List Dict) (user : Dict) : Request → Prop
  | create : Prompts settings directory user (.createUser user)
  | read {account : Dict} {userId : PyStr} (haccount : account ∈ directory)
      (hid : requireId account = .ok userId) :
      Prompts settings directory user (.readUser userId)
  | repair {account : Dict} {userId : PyStr} (haccount : account ∈ directory)
      (hid : requireId account = .ok userId) :
      Prompts settings directory user (repairRequest user userId)
  | update {account : Dict} {diffs : Diffs} {request : Request} (haccount : account ∈ directory)
      (hrequest : updateRequest settings account user diffs = .ok request) :
      Prompts settings directory user request

/-- A source user that can be compared and logged, and whose requests can be sent. -/
structure Tractable (settings : Settings) (sendable : Request → Bool) (directory : List Dict)
    (user : Dict) : Prop where
  name : ∃ name, nameOf user = .ok name
  username : encodable (lookupUsername user) = true
  sent : ∀ request, Prompts settings directory user request → sendable request = true

section Returning

variable {user record : Dict}

omit [PyRuntime] in
/-- The externalId is neither the name nor the id. -/
theorem Usable.set_externalId (hrecord : Usable record) (externalId : Json) :
    Usable (record.set "externalId" externalId) where
  name := by
    rw [hasObjectName, Dict.getD, Dict.get?_set_of_ne _ _ (by decide)]
    exact hrecord.name
  id := by
    rw [requireId, Dict.get?_set_of_ne _ _ (by decide)]
    exact hrecord.id

theorem exists_fieldDiffs (huser : Tractable settings sendable directory user)
    (hrecord : Usable record) (includeExternalId : Bool) :
    ∃ diffs, fieldDiffs record user includeExternalId = .ok diffs := by
  obtain ⟨name, hname⟩ := exists_nameOf_of_hasObjectName hrecord.name
  obtain ⟨name', hname'⟩ := huser.name
  rw [fieldDiffs, hname, hname']
  cases includeExternalId with
  | false => exact ⟨_, rfl⟩
  | true => exact ⟨_, rfl⟩

theorem exists_planUpdate (huser : Tractable settings sendable directory user)
    (hlog : logUserRef settings user = .ok ()) (hrecord : Usable record)
    (hsent : ∀ diffs request, updateRequest settings record user diffs = .ok request →
      sendable request = true)
    {diffs : Diffs} (hnodup : (diffs.map Prod.fst).Nodup) (repaired : Bool) :
    ∃ plan, planUpdate settings sendable record user repaired diffs = .ok plan := by
  rw [planUpdate]
  split_ifs with hacts
  · obtain ⟨userId, hid, hencodable⟩ := hrecord.id
    obtain ⟨name, hname⟩ := huser.name
    obtain ⟨request, hrequest⟩ := exists_updateRequest hid hencodable hname hnodup hacts
    rw [intendedUpdate, hrequest]
    refine ⟨_, bind_eq_ok_iff.mpr ⟨request, bind_eq_ok_iff.mpr ⟨request, rfl, ?_⟩, rfl⟩⟩
    exact ensure_bind_eq_ok.mpr ⟨hsent _ _ hrequest, bind_eq_ok_iff.mpr ⟨(), hlog, rfl⟩⟩
  · rw [hlog]
    exact ⟨_, rfl⟩

theorem exists_planRepair (huser : Tractable settings sendable directory user)
    (hlog : logUserRef settings user = .ok ()) (hrecord : Usable record)
    (hmem : record ∈ directory) :
    ∃ plan, planRepair settings sendable record user = .ok plan := by
  obtain ⟨userId, hid, hencodable⟩ := hrecord.id
  have hintended : intendedRepair settings sendable record user = .ok userId := by
    refine bind_eq_ok_iff.mpr ⟨userId, hid, bind_eq_ok_iff.mpr ⟨(), if_pos hencodable, ?_⟩⟩
    exact ensure_bind_eq_ok.mpr ⟨⟨huser.sent _ (.repair hmem hid), huser.sent _ (.read hmem hid)⟩,
      bind_eq_ok_iff.mpr ⟨(), hlog, rfl⟩⟩
  have hrewrite : (repairRequest user userId).rewrite record = _ :=
    rewrite_repairRequest (requireId_eq_ok_iff.mp hid)
  have hrepaired : Usable ((repairRequest user userId).rewrite record) :=
    hrewrite ▸ hrecord.set_externalId _
  have hsent : ∀ diffs request,
      updateRequest settings ((repairRequest user userId).rewrite record) user diffs =
        .ok request → sendable request = true := by
    intro diffs request hrequest
    have hsame : requireId ((repairRequest user userId).rewrite record) = requireId record :=
      requireId_congr ((aimed_repairRequest userId).id record)
    rw [updateRequest, hsame] at hrequest
    exact huser.sent request (.update hmem hrequest)
  obtain ⟨diffs, hdiffs⟩ := exists_fieldDiffs huser hrepaired false
  obtain ⟨later, hlater⟩ :=
    exists_planUpdate huser hlog hrepaired hsent (nodup_of_fieldDiffs hdiffs) true
  exact ⟨_, bind_eq_ok_iff.mpr ⟨userId, hintended, bind_eq_ok_iff.mpr ⟨diffs, hdiffs,
    bind_eq_ok_iff.mpr ⟨later, hlater, rfl⟩⟩⟩⟩

theorem exists_planReconcile (huser : Tractable settings sendable directory user)
    (hlog : logUserRef settings user = .ok ()) (hrecord : Usable record)
    (hmem : record ∈ directory) (recoveredByUsername : Bool) :
    ∃ plan, planReconcile settings sendable record user recoveredByUsername = .ok plan := by
  rw [planReconcile]
  split_ifs with hrefused
  · rw [planConflict, hlog]
    exact ⟨_, rfl⟩
  · obtain ⟨diffs, hdiffs⟩ := exists_fieldDiffs huser hrecord true
    have hallowed : planAllowed settings sendable record user recoveredByUsername =
        if recoveredByUsername && diffs.changed .externalId then
          planRepair settings sendable record user
        else planUpdate settings sendable record user false diffs := by
      rw [planAllowed, hdiffs]
      rfl
    rw [hallowed]
    split_ifs with hrepair
    · exact exists_planRepair huser hlog hrecord hmem
    · exact exists_planUpdate huser hlog hrecord
        (fun _ _ hrequest => huser.sent _ (.update hmem hrequest)) (nodup_of_fieldDiffs hdiffs)
        false

/-- There is a plan for a user whose requests can be sent. -/
theorem planned_of_tractable {listing : Listing} (hexact : listing.Exact)
    (huser : Tractable settings sendable listing.users user) (hlinked : externalIdOf user ≠ [])
    (hnamed : hasUsername user = true) (haccounts : ∀ account ∈ listing.users, Usable account) :
    Planned settings sendable listing user := by
  obtain ⟨name, hname⟩ := huser.name
  have hlog := (Presentable.of_encodable settings hname hnamed huser.username).log
  obtain ⟨found, hmatches, hmatched⟩ := exists_matches hexact hlinked
  have hplan : planTurn settings sendable listing user =
      planMatched settings sendable listing user found :=
    planTurn_eq (hmatched listing.users aligned_self)
  obtain ⟨plan, hfound⟩ : ∃ plan, planMatched settings sendable listing user found = .ok plan := by
    have hreconcile : ∀ position record recoveredByUsername,
        listing.users[position]? = some record →
        ∃ plan, planReconcile settings sendable (listing.users.getD position []) user
          recoveredByUsername = .ok plan := by
      intro position record recoveredByUsername hrecord
      have hmem := List.mem_of_getElem? hrecord
      rw [getD_of_getElem? hrecord]
      exact exists_planReconcile huser hlog (haccounts record hmem) hmem recoveredByUsername
    cases hmatches with
    | conflict =>
        rw [planMatched, planConflict, hlog]
        exact ⟨_, rfl⟩
    | absent =>
        rw [planMatched, hlog, huser.sent _ .create]
        exact ⟨_, rfl⟩
    | linked hrecord => exact hreconcile _ _ false hrecord
    | named hrecord => exact hreconcile _ _ true hrecord
  exact (planned_of_planTurn (hplan.trans hfound)).2

end Returning

/-- Where the users' requests can be sent, the run over every order returns.  Where the run
over one order returns, the run over any other order returns as well, with the same accounts
and the same counters. -/
theorem syncUsers_order_independent (settings : Settings) (sendable : Request → Bool)
    (hlist : ∀ start, sendable (.listUsers start) = true) (hdirectory : Unambiguous directory)
    (husers : Identifiable [] [] first) (hperm : first.Perm second)
    {outcome outcome' : Except PyExc SyncResult} {after after' : List Dict}
    (hfirst : SyncsTo settings sendable first directory outcome after)
    (hsecond : SyncsTo settings sendable second directory outcome' after') :
    ((∀ account ∈ directory, Usable account) →
        (∀ user ∈ first, Tractable settings sendable directory user) →
        ∃ result, outcome = .ok result) ∧
      ∀ result, outcome = .ok result → ∃ result', outcome' = .ok result' ∧
        result.Alike result' ∧ SameAccounts directory after after' := by
  obtain ⟨transcript, left, hruns, hfollows⟩ := hfirst
  obtain ⟨listing, hindexed, hcompletes⟩ :=
    Script.of_wp_of_follows (wp_syncUsers hlist hdirectory husers) hruns hfollows
  obtain ⟨transcript', left', hruns', hfollows'⟩ := hsecond
  obtain ⟨listing', hindexed', hcompletes'⟩ := Script.of_wp_of_follows
    (wp_syncUsers hlist hdirectory (husers.perm hperm)) hruns' hfollows'
  obtain rfl := Except.ok.inj (hindexed.symm.trans hindexed')
  obtain ⟨hexact, hlisted⟩ := Listing.Exact.empty.foldlM_index hindexed
  obtain rfl : listing.users = directory := hlisted
  refine ⟨fun haccounts htractable => ?_, ?_⟩
  · cases outcome with
    | error error =>
        exact absurd (fun user huser => planned_of_tractable hexact (htractable user huser)
          (husers.linked user huser) (husers.named user huser) haccounts) hcompletes
    | ok result => exact ⟨result, rfl⟩
  rintro result rfl
  obtain ⟨hplanned, rfl, ⟨created, rfl, hposted⟩, -⟩ := hcompletes
  cases outcome' with
  | error error =>
      exact absurd (fun user huser => hplanned user (hperm.mem_iff.mpr huser)) hcompletes'
  | ok result' =>
      obtain ⟨-, rfl, ⟨created', rfl, hposted'⟩, -⟩ := hcompletes'
      have hfor : ∀ user ∈ first,
          (planOf settings sendable listing user).For listing.users user := fun user huser =>
        for_of_planTurn hexact (husers.linked user huser) (hplanned user huser)
      refine ⟨_, rfl, SyncResult.alike_sum_of_perm (hperm.map _), _, created, created', rfl, ?_,
        ?_, ?_⟩
      · rw [reviseAll_perm hexact.unambiguous husers hperm hfor]
      · rw [List.map_map]
        exact List.map_congr_left fun account _ => get?_id_reviseAll hfor account
      · rw [map_withoutId_of_posted hposted, map_withoutId_of_posted hposted']
        exact (hperm.flatMap_right _).map _

end Orders

/-! An account to update and a user to create, and a user that cannot be sent. -/

section Sample

open SsfTransmitter.Python.Ascii

/-- The body of a create has to be encoded. -/
def encodes : Request → Bool
  | .createUser source => (Json.dict source).encodable
  | _ => true

def turingSource : Dict :=
  scimUser "8" "alan@example.com" "Alan" "Turing" "Alan Turing" "alan@example.com" (.bool true)

/-- A source user with half of a surrogate pair in the userName. -/
def surrogateSource : Dict :=
  scimUser "9" (0xD800 :: "@example.com") "" "" "" "" (.bool true)

theorem moves_of_serves {sendable : Request → Bool} {directory after : List Dict}
    {request : Request} {answer : Outcome} (hsent : sendable request = true)
    (hserves : Serves directory request answer after) :
    (faithful sendable).moves directory request answer after :=
  Eq.mpr (if_pos hsent) hserves

theorem moves_of_declined {sendable : Request → Bool} {directory : List Dict}
    {request : Request} (hdeclined : sendable request = false) :
    (faithful sendable).moves directory request .refused directory :=
  Eq.mpr (if_neg (Bool.not_eq_true _ ▸ hdeclined)) ⟨rfl, rfl⟩

/-- A server may list all accounts at once. -/
theorem serves_listUsers (directory : List Dict) :
    Serves directory (.listUsers none)
      (usersPage directory directory.length 1 directory.length) directory := by
  refine ⟨rfl, directory.length + 1, Nat.succ_pos _, _, rfl, ?_, rfl, rfl, ?_⟩
  · simp [Dict.getD, Dict.get?_cons]
  · simp [Dict.get?_cons]

def turingAnswers (position : ℕ) : Outcome :=
  [usersPage [namelessAccount] 1 1 1, .response ⟨204, .invalid, true⟩,
    .response ⟨201, .invalid, true⟩].getD position .networkError

def turingFirstAnswers (position : ℕ) : Outcome :=
  [usersPage [namelessAccount] 1 1 1, .response ⟨201, .invalid, true⟩,
    .response ⟨204, .invalid, true⟩].getD position .networkError

/-- The update of the account in the sample. -/
def emailUpdate : Request :=
  .patchUser lovelaceSource "apple-1"
    (patchBody [replaceOperation "emails" (lovelaceSource.getD "emails" .null)])

theorem syncsTo_turing :
    SyncsTo ⟨.emailsOnly, false, false, false⟩ encodes [lovelaceSource, turingSource]
      [namelessAccount] (.ok { created := 1, updated := 1, outOfScopeDiffs := 1 })
      [emailUpdate.rewrite namelessAccount, turingSource.set "id" (.str "apple-2")] := by
  have hrun : Script.converse turingAnswers
      (syncUsers ⟨.emailsOnly, false, false, false⟩ [lovelaceSource, turingSource]) {} =
      ([(.listUsers none, turingAnswers 0), (emailUpdate, turingAnswers 1),
        (.createUser turingSource, turingAnswers 2)],
        .ok { created := 1, updated := 1, outOfScopeDiffs := 1 },
        ⟨[namelessAccount], { created := 1, updated := 1, outOfScopeDiffs := 1 }⟩) := by
    decide +kernel
  have hruns := Script.runs_converse turingAnswers
    (syncUsers ⟨.emailsOnly, false, false, false⟩ [lovelaceSource, turingSource]) {}
  rw [hrun] at hruns
  refine ⟨_, _, hruns, [namelessAccount], moves_of_serves rfl (serves_listUsers _),
    [emailUpdate.rewrite namelessAccount], moves_of_serves rfl ?_, _, moves_of_serves ?_ ?_, rfl⟩
  · exact ⟨⟨204, .invalid, true⟩, rfl, fun _ => .inr rfl, rfl⟩
  · decide +kernel
  · refine ⟨⟨201, .invalid, true⟩, "apple-2", rfl, .inr rfl, by decide +kernel, ?_, rfl⟩
    rintro ⟨account, haccount, hid⟩
    obtain rfl := List.mem_singleton.mp haccount
    revert hid
    decide +kernel

theorem syncsTo_turingFirst :
    SyncsTo ⟨.emailsOnly, false, false, false⟩ encodes [turingSource, lovelaceSource]
      [namelessAccount] (.ok { created := 1, updated := 1, outOfScopeDiffs := 1 })
      ([namelessAccount, turingSource.set "id" (.str "apple-3")].map emailUpdate.rewrite) := by
  have hrun : Script.converse turingFirstAnswers
      (syncUsers ⟨.emailsOnly, false, false, false⟩ [turingSource, lovelaceSource]) {} =
      ([(.listUsers none, turingFirstAnswers 0), (.createUser turingSource, turingFirstAnswers 1),
        (emailUpdate, turingFirstAnswers 2)],
        .ok { created := 1, updated := 1, outOfScopeDiffs := 1 },
        ⟨[namelessAccount], { created := 1, updated := 1, outOfScopeDiffs := 1 }⟩) := by
    decide +kernel
  have hruns := Script.runs_converse turingFirstAnswers
    (syncUsers ⟨.emailsOnly, false, false, false⟩ [turingSource, lovelaceSource]) {}
  rw [hrun] at hruns
  refine ⟨_, _, hruns, [namelessAccount], moves_of_serves rfl (serves_listUsers _),
    [namelessAccount, turingSource.set "id" (.str "apple-3")], moves_of_serves ?_ ?_, _,
    moves_of_serves rfl ?_, rfl⟩
  · decide +kernel
  · refine ⟨⟨201, .invalid, true⟩, "apple-3", rfl, .inr rfl, by decide +kernel, ?_, rfl⟩
    rintro ⟨account, haccount, hid⟩
    obtain rfl := List.mem_singleton.mp haccount
    revert hid
    decide +kernel
  · exact ⟨⟨204, .invalid, true⟩, rfl, fun _ => .inr rfl, rfl⟩

theorem identifiable_turing : Identifiable [] [] [lovelaceSource, turingSource] :=
  ⟨by decide +kernel, by decide +kernel, by decide +kernel, by decide +kernel,
    fun _ _ => List.not_mem_nil, fun _ _ => List.not_mem_nil⟩

theorem unambiguous_nameless : Unambiguous [namelessAccount] :=
  ⟨by decide +kernel, by decide +kernel, by decide +kernel, by decide +kernel,
    by decide +kernel⟩

theorem usable_nameless : Usable namelessAccount :=
  ⟨by decide, "apple-1", rfl, by decide⟩

theorem tractable_turing :
    ∀ user ∈ [lovelaceSource, turingSource],
      Tractable ⟨.emailsOnly, false, false, false⟩ encodes [namelessAccount] user := by
  have hsent : ∀ user, encodes (.createUser user) = true → ∀ request,
      Prompts ⟨.emailsOnly, false, false, false⟩ [namelessAccount] user request →
        encodes request = true := by
    intro user hcreate request hprompts
    cases hprompts with
    | create => exact hcreate
    | read => rfl
    | repair => rfl
    | update haccount hrequest =>
        obtain rfl := List.mem_singleton.mp haccount
        have haccount : request.account? = some "apple-1" :=
          account?_of_updateRequest rfl hrequest
        cases request with
        | createUser source => cases haccount
        | _ => rfl
  have hlovelace : encodes (.createUser lovelaceSource) = true := by decide +kernel
  have hturing : encodes (.createUser turingSource) = true := by decide +kernel
  exact List.forall_mem_cons.mpr
    ⟨⟨nameOf_scimUser .., by decide +kernel, hsent _ hlovelace⟩, List.forall_mem_singleton.mpr
      ⟨nameOf_scimUser .., by decide +kernel, hsent _ hturing⟩⟩

theorem syncUsers_order_independent_sample :
    ∃ result result' after after',
      SyncsTo ⟨.emailsOnly, false, false, false⟩ encodes [lovelaceSource, turingSource]
          [namelessAccount] (.ok result) after ∧
        SyncsTo ⟨.emailsOnly, false, false, false⟩ encodes [turingSource, lovelaceSource]
          [namelessAccount] (.ok result') after' ∧
        result.Alike result' ∧ SameAccounts [namelessAccount] after after' := by
  obtain ⟨hreturns, halike⟩ :=
    syncUsers_order_independent ⟨.emailsOnly, false, false, false⟩ encodes (fun _ => rfl)
      unambiguous_nameless identifiable_turing (.swap _ _ _) syncsTo_turing syncsTo_turingFirst
  obtain ⟨result, hresult⟩ :=
    hreturns (List.forall_mem_singleton.mpr usable_nameless) tractable_turing
  obtain ⟨result', hresult', hsame⟩ := halike result hresult
  exact ⟨result, result', _, _, hresult ▸ syncsTo_turing, hresult' ▸ syncsTo_turingFirst, hsame⟩

def surrogateAnswers (position : ℕ) : Outcome :=
  [usersPage [] 0 1 0, .response ⟨201, .invalid, true⟩].getD position .refused

def surrogateFirstAnswers (position : ℕ) : Outcome :=
  [usersPage [] 0 1 0].getD position .refused

/-- A user that cannot be sent ends the run: those before it have been created. -/
theorem syncUsers_order_counts :
    ∃ outcome after outcome' after',
      Identifiable [] [] [lovelaceSource, surrogateSource] ∧ Unambiguous [] ∧
        SyncsTo ⟨.emailsOnly, false, false, false⟩ encodes [lovelaceSource, surrogateSource] []
          outcome after ∧
        SyncsTo ⟨.emailsOnly, false, false, false⟩ encodes [surrogateSource, lovelaceSource] []
          outcome' after' ∧
        ¬ SameAccounts [] after after' := by
  have hrun : Script.converse surrogateAnswers
      (syncUsers ⟨.emailsOnly, false, false, false⟩ [lovelaceSource, surrogateSource]) {} =
      ([(.listUsers none, usersPage [] 0 1 0), (.createUser lovelaceSource, surrogateAnswers 1),
        (.createUser surrogateSource, .refused)],
        .error .clientError, ⟨[], { created := 1 }⟩) := by decide +kernel
  have hrun' : Script.converse surrogateFirstAnswers
      (syncUsers ⟨.emailsOnly, false, false, false⟩ [surrogateSource, lovelaceSource]) {} =
      ([(.listUsers none, usersPage [] 0 1 0), (.createUser surrogateSource, .refused)],
        .error .clientError, ⟨[], {}⟩) := by decide +kernel
  have hruns := Script.runs_converse surrogateAnswers
    (syncUsers ⟨.emailsOnly, false, false, false⟩ [lovelaceSource, surrogateSource]) {}
  have hruns' := Script.runs_converse surrogateFirstAnswers
    (syncUsers ⟨.emailsOnly, false, false, false⟩ [surrogateSource, lovelaceSource]) {}
  rw [hrun] at hruns
  rw [hrun'] at hruns'
  have hdeclined : encodes (.createUser surrogateSource) = false := by decide +kernel
  refine ⟨_, [lovelaceSource.set "id" (.str "apple-1")], _, [], ?_, .nil, ⟨_, _, hruns, [],
    moves_of_serves rfl (serves_listUsers []), _, moves_of_serves ?_ ?_, _,
    moves_of_declined hdeclined, rfl⟩, ⟨_, _, hruns', [],
    moves_of_serves rfl (serves_listUsers []), _, moves_of_declined hdeclined, rfl⟩, ?_⟩
  · exact ⟨by decide +kernel, by decide +kernel, by decide +kernel, by decide +kernel,
      fun _ _ => List.not_mem_nil, fun _ _ => List.not_mem_nil⟩
  · decide +kernel
  · exact ⟨⟨201, .invalid, true⟩, "apple-1", rfl, .inr rfl, by decide +kernel,
      fun ⟨_, hnone, _⟩ => (List.not_mem_nil hnone).elim, rfl⟩
  · rintro ⟨kept, created, others, hfirst, hsecond, -, hperm⟩
    obtain ⟨rfl, rfl⟩ := List.append_eq_nil_iff.mp hsecond.symm
    obtain rfl : _ = created := hfirst
    exact absurd hperm.length_eq (by simp)

end Sample

end SsfTransmitter.Scim
