import SsfTransmitter.Scim.Plans

/-!
# A run against a server

Every turn goes as it was planned over the listing, whatever the turns before it have
written: a plan updates no account but one that its user owns.
-/

namespace SsfTransmitter.Scim

open SsfTransmitter.Core
open SsfTransmitter.Python

/-! ## What a plan updates -/

/-- Only the account with this id is updated. -/
def Plan.Aims (plan : Plan) (userId : PyStr) : Prop :=
  ∀ request ∈ plan.updates, Aimed request userId

section Aims

variable {plan : Plan} {userId : PyStr}

theorem Plan.Aims.revise_off (haims : plan.Aims userId) {account : Dict}
    (hother : account.get? "id" ≠ some (.str userId)) : plan.revise account = account := by
  rw [Plan.Aims] at haims
  rw [Plan.revise]
  generalize plan.updates = updates at haims ⊢
  induction updates with
  | nil => rfl
  | cons request updates ih =>
      rw [List.forall_mem_cons] at haims
      rw [List.foldl_cons, haims.1.off account hother]
      exact ih haims.2

theorem Plan.Aims.get?_id_revise (haims : plan.Aims userId) (account : Dict) :
    (plan.revise account).get? "id" = account.get? "id" := by
  rw [Plan.Aims] at haims
  rw [Plan.revise]
  generalize plan.updates = updates at haims ⊢
  induction updates generalizing account with
  | nil => rfl
  | cons request updates ih =>
      rw [List.forall_mem_cons] at haims
      rw [List.foldl_cons, ih _ haims.2, haims.1.id]

theorem Plan.revise_of_updates (hupdates : plan.updates = []) (account : Dict) :
    plan.revise account = account := by
  rw [Plan.revise, hupdates]
  rfl

end Aims

section Targets

variable [PyRuntime]
variable {settings : Settings} {sendable : Request → Bool} {directory : List Dict}
variable {record user : Dict} {plan : Plan}

/-- A plan that updates nothing, or an account of the directory that the user owns. -/
def Plan.For (plan : Plan) (directory : List Dict) (user : Dict) : Prop :=
  plan.updates = [] ∨ ∃ record ∈ directory, ∃ userId,
    record.get? "id" = some (.str userId) ∧ Owns record user ∧ plan.Aims userId

theorem aims_of_planUpdate {repaired : Bool} {diffs : Diffs} {userId : PyStr}
    (hid : requireId record = .ok userId)
    (hplan : planUpdate settings sendable record user repaired diffs = .ok plan) :
    plan.Aims userId := by
  rw [planUpdate] at hplan
  split_ifs at hplan
  · obtain ⟨request, hintended, hplan⟩ := bind_eq_ok_iff.mp hplan
    obtain rfl := Except.ok.inj hplan
    obtain ⟨_, hrequest, hintended⟩ := bind_eq_ok_iff.mp hintended
    obtain ⟨_, -, hintended⟩ := bind_eq_ok_iff.mp hintended
    obtain ⟨_, -, hintended⟩ := bind_eq_ok_iff.mp hintended
    obtain rfl := Except.ok.inj hintended
    exact List.forall_mem_singleton.mpr (aimed_updateRequest hid hrequest)
  · obtain ⟨_, -, hplan⟩ := bind_eq_ok_iff.mp hplan
    obtain rfl := Except.ok.inj hplan
    exact List.forall_mem_nil _

theorem aims_of_planRepair {userId : PyStr} (hid : requireId record = .ok userId)
    (hplan : planRepair settings sendable record user = .ok plan) : plan.Aims userId := by
  obtain ⟨_, hintended, hplan⟩ := bind_eq_ok_iff.mp hplan
  obtain ⟨_, hfound, hintended⟩ := bind_eq_ok_iff.mp hintended
  obtain rfl := Except.ok.inj (hid.symm.trans hfound)
  obtain ⟨_, -, hintended⟩ := bind_eq_ok_iff.mp hintended
  obtain ⟨_, -, hintended⟩ := bind_eq_ok_iff.mp hintended
  obtain ⟨_, -, hintended⟩ := bind_eq_ok_iff.mp hintended
  obtain rfl := Except.ok.inj hintended
  obtain ⟨diffs, -, hplan⟩ := bind_eq_ok_iff.mp hplan
  obtain ⟨later, hlater, hplan⟩ := bind_eq_ok_iff.mp hplan
  obtain rfl := Except.ok.inj hplan
  have hsame : ((repairRequest user userId).rewrite record).get? "id" = record.get? "id" :=
    (aimed_repairRequest userId).id record
  refine List.forall_mem_cons.mpr ⟨aimed_repairRequest userId, ?_⟩
  exact aims_of_planUpdate ((requireId_congr hsame).trans hid) hlater

/-- Reconciling updates the account that was matched, and only where the user owns it. -/
theorem for_of_planReconcile {recoveredByUsername : Bool} {userId : PyStr}
    (hrecord : record ∈ directory) (hid : record.get? "id" = some (.str userId))
    (hmatched : MatchedBy recoveredByUsername record user)
    (hplan : planReconcile settings sendable record user recoveredByUsername = .ok plan) :
    plan.For directory user := by
  rw [planReconcile] at hplan
  split_ifs at hplan with hrefused
  · obtain ⟨_, -, hplan⟩ := bind_eq_ok_iff.mp hplan
    obtain rfl := Except.ok.inj hplan
    exact .inl rfl
  have howns : Owns record user := by
    cases recoveredByUsername with
    | false => exact .inl hmatched
    | true => exact owns_of_canRecoverByUsername hmatched (by simpa using hrefused)
  refine .inr ⟨record, hrecord, userId, hid, howns, ?_⟩
  have hrequired := requireId_eq_ok_iff.mpr hid
  obtain ⟨diffs, -, hplan⟩ := bind_eq_ok_iff.mp hplan
  split_ifs at hplan
  · exact aims_of_planRepair hrequired hplan
  · exact aims_of_planUpdate hrequired hplan

end Targets

/-! ## The state of a run -/

section Runs

variable [PyRuntime]
variable {settings : Settings} {sendable : Request → Bool} {listing : Listing}
variable {directory world after : List Dict} {turned : List Dict} {user : Dict} {plan : Plan}
variable {session left : Session}

/-- The plan for a user, nothing where there is none. -/
def planOf (settings : Settings) (sendable : Request → Bool) (listing : Listing)
    (user : Dict) : Plan :=
  match planTurn settings sendable listing user with
  | .ok plan => plan
  | .error _ => {}

/-- There is a plan for the user. -/
def Planned (settings : Settings) (sendable : Request → Bool) (listing : Listing)
    (user : Dict) : Prop :=
  planTurn settings sendable listing user = .ok (planOf settings sendable listing user)

theorem planned_of_planTurn (hplan : planTurn settings sendable listing user = .ok plan) :
    planOf settings sendable listing user = plan ∧ Planned settings sendable listing user := by
  rw [Planned, planOf, hplan]
  exact ⟨rfl, rfl⟩

/-- What the turns for the users make of an account. -/
def reviseAll (plans : Dict → Plan) (users : List Dict) (account : Dict) : Dict :=
  users.foldl (fun account user => (plans user).revise account) account

/-- A user as the server stores it under a new id. -/
def Posted (source account : Dict) : Prop :=
  ∃ userId : PyStr, account = source.set "id" (.str userId)

/-- Accounts that ids tell apart. -/
structure Distinct (accounts : List Dict) : Prop where
  safe : ∀ account ∈ accounts, isSafeUserId (account.get? "id") = true
  ids : (accounts.map fun account => account.get? "id").Nodup

/-- What the turns so far have come to. -/
structure Enacted (settings : Settings) (sendable : Request → Bool) (listing : Listing)
    (directory turned world : List Dict) (result : SyncResult) : Prop where
  planned : ∀ user ∈ turned, Planned settings sendable listing user
  result : result = (turned.map fun user => (planOf settings sendable listing user).counts).sum
  accounts : ∃ created,
    world = directory.map (reviseAll (planOf settings sendable listing) turned) ++ created ∧
      List.Forall₂ Posted
        (turned.flatMap fun user => (planOf settings sendable listing user).creates) created
  distinct : Distinct world

/-- The records that the loop holds: those of the directory, but for the ones that a turn has
refreshed. -/
def Refreshes (directory turned records : List Dict) : Prop :=
  ∀ position original, directory[position]? = some original →
    records.getD position [] = original ∨
      (records.getD position []).get? "id" = original.get? "id" ∧
        externalIdOf original = [] ∧ ∃ other ∈ turned, usernameOf original = usernameOf other

omit [PyRuntime] in
theorem Distinct.eq_of_id {accounts : List Dict} {first second : Dict}
    (hdistinct : Distinct accounts) (hfirst : first ∈ accounts) (hsecond : second ∈ accounts)
    (hsame : first.get? "id" = second.get? "id") : first = second :=
  List.inj_on_of_nodup_map hdistinct.ids hfirst hsecond hsame

omit [PyRuntime] in
theorem reviseAll_snoc (plans : Dict → Plan) (users : List Dict) (user account : Dict) :
    reviseAll plans (users ++ [user]) account =
      (plans user).revise (reviseAll plans users account) := by
  rw [reviseAll, List.foldl_append]
  rfl

/-- Accounts keep their ids. -/
theorem Plan.For.get?_id_revise (hfor : plan.For directory user) (account : Dict) :
    (plan.revise account).get? "id" = account.get? "id" := by
  obtain hnone | ⟨record, -, userId, -, -, haims⟩ := hfor
  · rw [Plan.revise_of_updates hnone]
  · exact haims.get?_id_revise account

theorem get?_id_reviseAll {plans : Dict → Plan} {users : List Dict}
    (hfor : ∀ user ∈ users, (plans user).For directory user) (account : Dict) :
    (reviseAll plans users account).get? "id" = account.get? "id" := by
  induction users using List.reverseRecOn with
  | nil => rfl
  | append_singleton users user ih =>
      rw [List.forall_mem_append] at hfor
      rw [reviseAll_snoc, (hfor.2 user List.mem_cons_self).get?_id_revise, ih hfor.1]

/-- An account that another user owns is not revised. -/
theorem Plan.For.revise_of_owns {record other : Dict} (hfor : plan.For directory other)
    (hdirectory : Unambiguous directory) (hrecord : record ∈ directory)
    (howns : ¬ Owns record other) : plan.revise record = record := by
  obtain hnone | ⟨target, htarget, userId, hid, htargetOwns, haims⟩ := hfor
  · exact Plan.revise_of_updates hnone record
  · refine haims.revise_off fun hsame => howns ?_
    rwa [hdirectory.eq_of_id hrecord htarget (hsame.trans hid.symm)]

theorem reviseAll_of_owns {plans : Dict → Plan} {users : List Dict} {record : Dict}
    (hfor : ∀ user ∈ users, (plans user).For directory user)
    (hdirectory : Unambiguous directory) (hrecord : record ∈ directory)
    (howns : ∀ user ∈ users, ¬ Owns record user) :
    reviseAll plans users record = record := by
  induction users using List.reverseRecOn with
  | nil => rfl
  | append_singleton users user ih =>
      rw [List.forall_mem_append] at hfor howns
      rw [reviseAll_snoc, ih hfor.1 howns.1]
      exact (hfor.2 user List.mem_cons_self).revise_of_owns hdirectory hrecord
        (howns.2 user List.mem_cons_self)

/-- No account is owned by two source users. -/
theorem eq_of_owns {users : List Dict} {record first second : Dict}
    (husers : Identifiable [] [] users) (hfirst : first ∈ users) (hsecond : second ∈ users)
    (hfirstOwns : Owns record first) (hsecondOwns : Owns record second) : first = second := by
  obtain hlinked | ⟨hblank, husername⟩ := hfirstOwns
  · obtain hother | ⟨hblank, -⟩ := hsecondOwns
    · exact List.inj_on_of_nodup_map husers.externalIds hfirst hsecond
        (hlinked.symm.trans hother)
    · exact absurd (hlinked.symm.trans hblank) (husers.linked first hfirst)
  · obtain hother | ⟨-, hother⟩ := hsecondOwns
    · exact absurd (hother.symm.trans hblank) (husers.linked second hsecond)
    · exact List.inj_on_of_nodup_map husers.usernames hfirst hsecond
        (husername.symm.trans hother)

/-- What a user owns is not owned by those whose turn came before. -/
theorem not_owns_of_owns {users rest : List Dict} {record : Dict}
    (husers : Identifiable [] [] (users ++ user :: rest)) (howns : Owns record user) :
    ∀ other ∈ users, ¬ Owns record other := by
  intro other hother hotherOwns
  have hsame := eq_of_owns husers (List.mem_append_left _ hother)
    (List.mem_append_right _ List.mem_cons_self) hotherOwns howns
  have hnodup := List.Nodup.of_map _ husers.externalIds
  exact (List.nodup_append.mp hnodup).2.2 other hother user List.mem_cons_self hsame

/-! ## What one turn adds -/

omit [PyRuntime] in
theorem getD_of_getElem? {records : List Dict} {position : ℕ} {record : Dict}
    (hrecord : records[position]? = some record) : records.getD position [] = record := by
  rw [List.getD_eq_getElem?_getD, hrecord, Option.getD_some]

omit [PyRuntime] in
theorem aligned_self : Aligned listing.users listing.users :=
  fun _ _ huser => congrArg (Dict.get? · "id") (getD_of_getElem? huser)

/-- The plan for what a user matches. -/
def planMatched (settings : Settings) (sendable : Request → Bool) (listing : Listing)
    (user : Dict) : Match → Except PyExc Plan
  | .conflict => planConflict settings user
  | .absent => do
    logUserRef settings user
    ensure (sendable (.createUser user)) .clientError
    pure { creates := [user], counts := SyncResult.create 0 }
  | .matched position recoveredByUsername =>
    planReconcile settings sendable (listing.users.getD position []) user recoveredByUsername

theorem planTurn_eq {found : Match}
    (hmatch : matchAppleUser listing listing.users user = .ok found) :
    planTurn settings sendable listing user =
      planMatched settings sendable listing user found := by
  rw [planTurn, hmatch]
  rfl

theorem for_of_planTurn (hexact : listing.Exact) (hlinked : externalIdOf user ≠ [])
    (hplan : planTurn settings sendable listing user = .ok plan) :
    plan.For listing.users user := by
  obtain ⟨found, hmatches, hmatched⟩ := exists_matches hexact hlinked
  rw [planTurn_eq (hmatched listing.users aligned_self)] at hplan
  have hreconciled : ∀ {position : ℕ} {record : Dict} (recoveredByUsername : Bool),
      listing.users[position]? = some record → MatchedBy recoveredByUsername record user →
      planReconcile settings sendable (listing.users.getD position []) user
        recoveredByUsername = .ok plan → plan.For listing.users user := by
    intro position record recoveredByUsername hrecord hmatched hplan
    obtain ⟨userId, hid, -⟩ := hexact.requireId_of_getElem? hrecord
    rw [getD_of_getElem? hrecord] at hplan
    exact for_of_planReconcile (List.mem_of_getElem? hrecord) hid hmatched hplan
  cases hmatches with
  | conflict =>
      obtain ⟨_, -, hplan⟩ := bind_eq_ok_iff.mp hplan
      obtain rfl := Except.ok.inj hplan
      exact .inl rfl
  | absent =>
      obtain ⟨_, -, hplan⟩ := bind_eq_ok_iff.mp hplan
      obtain ⟨_, -, hplan⟩ := bind_eq_ok_iff.mp hplan
      obtain rfl := Except.ok.inj hplan
      exact .inl rfl
  | linked hrecord hexternalId _ => exact hreconciled false hrecord hexternalId hplan
  | named hrecord _ husername => exact hreconciled true hrecord husername hplan

theorem Distinct.map_revise (hdistinct : Distinct world) (hfor : plan.For directory user) :
    Distinct (world.map plan.revise) where
  safe := by
    refine List.forall_mem_map.mpr fun account haccount => ?_
    rw [hfor.get?_id_revise]
    exact hdistinct.safe account haccount
  ids := by
    have hsame : (fun account => account.get? "id") ∘ plan.revise =
        fun account : Dict => account.get? "id" :=
      funext fun account => hfor.get?_id_revise account
    rw [List.map_map, hsame]
    exact hdistinct.ids

omit [PyRuntime] in
theorem Distinct.snoc (hdistinct : Distinct world) {userId : PyStr}
    (hsafe : isSafeUserId (some (.str userId)) = true) (hnew : ¬ Holds world userId)
    (source : Dict) : Distinct (world ++ [source.set "id" (.str userId)]) where
  safe := by
    refine List.forall_mem_append.mpr ⟨hdistinct.safe, List.forall_mem_singleton.mpr ?_⟩
    rwa [Dict.get?_set_self]
  ids := by
    rw [List.map_append, List.map_singleton, Dict.get?_set_self, List.nodup_append]
    refine ⟨hdistinct.ids, List.nodup_singleton _, ?_⟩
    rintro _ hid _ hother rfl
    obtain ⟨account, haccount, hsame⟩ := List.mem_map.mp hid
    exact hnew ⟨account, haccount, hsame.trans (List.mem_singleton.mp hother)⟩

/-- What was posted is not revised: its id is new. -/
theorem Plan.For.revise_of_created (hfor : plan.For directory user) {kept created : List Dict}
    (hkept : ∀ record ∈ directory, ∃ account ∈ kept, account.get? "id" = record.get? "id")
    (hdistinct : Distinct (kept ++ created)) : created.map plan.revise = created := by
  refine (List.map_congr_left fun account haccount => ?_).trans (List.map_id created)
  obtain hnone | ⟨record, hrecord, userId, hid, -, haims⟩ := hfor
  · exact Plan.revise_of_updates hnone account
  · refine haims.revise_off fun hsame => ?_
    obtain ⟨other, hother, hotherId⟩ := hkept record hrecord
    have hids := hdistinct.ids
    rw [List.map_append, List.nodup_append] at hids
    refine hids.2.2 _ (List.mem_map_of_mem hother) _ (List.mem_map_of_mem haccount) ?_
    rw [hotherId, hid, hsame]

/-- A turn that goes as planned. -/
theorem Enacted.step {result : SyncResult} {added : List Dict}
    (henacted : Enacted settings sendable listing directory turned world result)
    (hfor : ∀ other ∈ turned ++ [user],
      (planOf settings sendable listing other).For directory other)
    (hplanned : Planned settings sendable listing user)
    (hadded : List.Forall₂ Posted (planOf settings sendable listing user).creates added)
    (hdistinct : Distinct (world.map (planOf settings sendable listing user).revise ++ added)) :
    Enacted settings sendable listing directory (turned ++ [user])
      (world.map (planOf settings sendable listing user).revise ++ added)
      (result + (planOf settings sendable listing user).counts) where
  planned := List.forall_mem_append.mpr
    ⟨henacted.planned, List.forall_mem_singleton.mpr hplanned⟩
  result := by
    rw [List.map_append, List.sum_append, henacted.result, List.map_singleton,
      List.sum_singleton]
  accounts := by
    rw [List.forall_mem_append] at hfor
    obtain ⟨created, hworld, hposted⟩ := henacted.accounts
    have hunrevised : created.map (planOf settings sendable listing user).revise = created := by
      refine (hfor.2 user List.mem_cons_self).revise_of_created (fun record hrecord => ?_)
        (hworld ▸ henacted.distinct)
      exact ⟨_, List.mem_map_of_mem hrecord, get?_id_reviseAll hfor.1 record⟩
    refine ⟨created ++ added, ?_, ?_⟩
    · rw [hworld, List.map_append, hunrevised, List.map_map, List.append_assoc]
      congr 1
      exact List.map_congr_left fun account _ => (reviseAll_snoc _ turned user account).symm
    · rw [List.flatMap_append, List.flatMap_singleton]
      exact List.rel_append hposted hadded
  distinct := hdistinct

theorem Refreshes.mono {records : List Dict} (hrefreshes : Refreshes directory turned records)
    (user : Dict) : Refreshes directory (turned ++ [user]) records := by
  intro position original horiginal
  refine (hrefreshes position original horiginal).imp_right ?_
  rintro ⟨hsame, hblank, source, hsource, husername⟩
  exact ⟨hsame, hblank, source, List.mem_append_left _ hsource, husername⟩

theorem Refreshes.step {position : ℕ} {record : Dict} {userId : PyStr}
    (hrefreshes : Refreshes directory turned session.records)
    (hrecord : directory[position]? = some record) (hid : requireId record = .ok userId)
    (hheld : session.records.getD position [] = record)
    (hrefreshed : Refreshed session position user left) :
    Refreshes directory (turned ++ [user]) left.records := by
  have hkeeps := hrefreshes.mono user
  obtain hsame | ⟨hblank, husername, refreshed, hagrees, hset⟩ := hrefreshed
  · rwa [hsame]
  · intro other original horiginal
    rw [hset]
    rw [hheld] at hblank husername hagrees
    by_cases hother : position = other
    · subst hother
      obtain rfl := Option.some.inj (hrecord.symm.trans horiginal)
      rw [getD_set_of_requireId (hheld.symm ▸ hid)]
      exact .inr ⟨hagrees, hblank, user, List.mem_append_right _ List.mem_cons_self, husername⟩
    · rw [List.getD_eq_getElem?_getD, List.getElem?_set_ne hother,
        ← List.getD_eq_getElem?_getD]
      exact hkeeps other original horiginal

/-! ## Turns -/

/-- A run between two turns. -/
structure Underway (settings : Settings) (sendable : Request → Bool) (listing : Listing)
    (turned world : List Dict) (session : Session) : Prop where
  enacted : Enacted settings sendable listing listing.users turned world session.result
  refreshes : Refreshes listing.users turned session.records

theorem Refreshes.aligned {records : List Dict}
    (hrefreshes : Refreshes directory turned records) : Aligned records directory := by
  intro position original horiginal
  obtain hsame | ⟨hsame, -⟩ := hrefreshes position original horiginal
  · rw [hsame]
  · exact hsame

theorem Underway.step {rest added : List Dict} (hexact : listing.Exact)
    (husers : Identifiable [] [] (turned ++ user :: rest))
    (hunderway : Underway settings sendable listing turned world session)
    (hplan : planTurn settings sendable listing user = .ok plan)
    (hadded : List.Forall₂ Posted plan.creates added)
    (hdistinct : Distinct (world.map plan.revise ++ added))
    (hresult : left.result = session.result + plan.counts)
    (hrefreshes : Refreshes listing.users (turned ++ [user]) left.records) :
    Underway settings sendable listing (turned ++ [user]) (world.map plan.revise ++ added)
      left := by
  obtain ⟨rfl, hplanned⟩ := planned_of_planTurn hplan
  refine ⟨?_, hrefreshes⟩
  rw [hresult]
  refine hunderway.enacted.step (fun other hother => ?_) hplanned hadded hdistinct
  have hlinked : externalIdOf other ≠ [] := by
    refine husers.linked other ?_
    obtain hturned | huser := List.mem_append.mp hother
    · exact List.mem_append_left _ hturned
    · exact List.mem_append_right _ (List.mem_singleton.mp huser ▸ List.mem_cons_self)
  have hall : ∀ source ∈ turned ++ [user], Planned settings sendable listing source :=
    List.forall_mem_append.mpr
      ⟨hunderway.enacted.planned, List.forall_mem_singleton.mpr hplanned⟩
  exact for_of_planTurn hexact hlinked (hall other hother)

/-- A turn that posts nobody. -/
theorem Underway.step_update {rest : List Dict} (hexact : listing.Exact)
    (husers : Identifiable [] [] (turned ++ user :: rest))
    (hunderway : Underway settings sendable listing turned world session)
    (hplan : planTurn settings sendable listing user = .ok plan) (hcreates : plan.creates = [])
    (hresult : left.result = session.result + plan.counts)
    (hrefreshes : Refreshes listing.users (turned ++ [user]) left.records) :
    Underway settings sendable listing (turned ++ [user]) (world.map plan.revise) left := by
  have hlinked := husers.linked user (List.mem_append_right _ List.mem_cons_self)
  have hadded : List.Forall₂ Posted plan.creates [] := by rw [hcreates]; exact .nil
  have hdistinct : Distinct (world.map plan.revise ++ []) := by
    rw [List.append_nil]
    exact hunderway.enacted.distinct.map_revise (for_of_planTurn hexact hlinked hplan)
  have hstep := hunderway.step hexact husers hplan hadded hdistinct hresult hrefreshes
  rwa [List.append_nil] at hstep

omit [PyRuntime] in
theorem Enacts.imp {Value : Type} {intended : Except PyExc Value} {outcome : Except PyExc Unit}
    {wanted later : Value → Prop} (henacts : Enacts intended outcome wanted)
    (hlater : ∀ value, intended = .ok value → wanted value → later value) :
    Enacts intended outcome later := by
  cases intended with
  | error error => exact henacts
  | ok value => exact ⟨henacts.1, hlater value rfl henacts.2⟩

omit [PyRuntime] in
/-- The loop does not catch what a turn raises against the server. -/
theorem wp_caught {environment : Environment (List Dict) Request Outcome}
    {script : Client Session Unit} {intended : Except PyExc Plan}
    {wanted : Plan → List Dict → Session → Prop}
    (hscript : Script.wp environment script (fun outcome after left =>
      Enacts intended outcome fun plan => wanted plan after left) world session) :
    Script.wp environment (tryCatch script fun error =>
      match error with
      | .httpError => countError
      | error => throw error) (fun outcome after left =>
      Enacts intended outcome fun plan => wanted plan after left) world session := by
  rw [Script.wp_tryCatch]
  refine Script.wp_mono hscript ?_
  rintro (error | _) after left henacts
  · cases intended with
    | ok plan => cases henacts.1
    | error _ =>
        obtain ⟨raised, heq, huncaught⟩ := henacts
        obtain rfl := Except.error.inj heq
        cases error with
        | httpError => exact absurd rfl huncaught
        | _ => exact ⟨_, rfl, huncaught⟩
  · exact henacts

theorem creates_of_planUpdate {record : Dict} {repaired : Bool} {diffs : Diffs}
    (hplan : planUpdate settings sendable record user repaired diffs = .ok plan) :
    plan.creates = [] := by
  rw [planUpdate] at hplan
  split_ifs at hplan
  · obtain ⟨_, -, hplan⟩ := bind_eq_ok_iff.mp hplan
    obtain rfl := Except.ok.inj hplan
    rfl
  · obtain ⟨_, -, hplan⟩ := bind_eq_ok_iff.mp hplan
    obtain rfl := Except.ok.inj hplan
    rfl

theorem creates_of_planReconcile {record : Dict} {recoveredByUsername : Bool}
    (hplan : planReconcile settings sendable record user recoveredByUsername = .ok plan) :
    plan.creates = [] := by
  rw [planReconcile] at hplan
  split_ifs at hplan
  · obtain ⟨_, -, hplan⟩ := bind_eq_ok_iff.mp hplan
    obtain rfl := Except.ok.inj hplan
    rfl
  · obtain ⟨diffs, -, hplan⟩ := bind_eq_ok_iff.mp hplan
    split_ifs at hplan
    · obtain ⟨_, -, hplan⟩ := bind_eq_ok_iff.mp hplan
      obtain ⟨_, -, hplan⟩ := bind_eq_ok_iff.mp hplan
      obtain ⟨_, -, hplan⟩ := bind_eq_ok_iff.mp hplan
      obtain rfl := Except.ok.inj hplan
      rfl
    · exact creates_of_planUpdate hplan

/-- The user is posted under a new id. -/
theorem wp_createUser (listing : Listing) :
    Script.wp (faithful sendable) (createUser settings user false)
      (fun outcome after left =>
        Enacts (planMatched settings sendable listing user .absent) outcome fun plan =>
          ∃ userId : PyStr, isSafeUserId (some (.str userId)) = true ∧ ¬ Holds world userId ∧
            after = world.map plan.revise ++ [user.set "id" (.str userId)] ∧
            left.result = session.result + plan.counts ∧ left.records = session.records)
      world session := by
  rw [createUser, send, bind_assoc, Script.wp_bind]
  refine wp_ask_faithful (fun hdeclined => ?_) fun hsent answer after hserved => ?_
  · have hplan : ∀ plan, planMatched settings sendable listing user .absent ≠ .ok plan := by
      intro plan hplan
      obtain ⟨_, -, hplan⟩ := bind_eq_ok_iff.mp hplan
      rw [hdeclined] at hplan
      cases hplan
    exact .raised_of_ne hplan (by rintro ⟨⟩)
  · obtain ⟨response, userId, rfl, hstatus, hsafe, hnew, rfl⟩ := hserved
    dsimp only
    rw [Script.wp_ofExcept_bind]
    refine ⟨by rintro _ ⟨⟩, ?_⟩
    rintro _ ⟨rfl⟩
    rw [if_pos hstatus, if_neg Bool.false_ne_true, pure_bind, if_pos rfl, wp_count_bind_iff,
      Script.wp_ofExcept, planMatched, hsent]
    cases hlog : logUserRef settings user with
    | error error => exact .raised rfl (uncaught_logUserRef _ _ _ hlog)
    | ok _ =>
        refine .done rfl ⟨userId, hsafe, hnew, ?_, SyncResult.create_eq_add _, rfl⟩
        exact congrArg (· ++ _) (List.map_id world).symm

/-- Reconciling goes as planned: no turn so far has touched the account, if the user owns
it. -/
theorem wp_matched {rest : List Dict} {position : ℕ} {record : Dict}
    {recoveredByUsername : Bool} (hexact : listing.Exact)
    (husers : Identifiable [] [] (turned ++ user :: rest))
    (hunderway : Underway settings sendable listing turned world session)
    (hrecord : listing.users[position]? = some record)
    (hmatched : MatchedBy recoveredByUsername record user)
    (hplan : planTurn settings sendable listing user =
      planReconcile settings sendable record user recoveredByUsername) :
    Script.wp (faithful sendable)
      (reconcileDiffs settings position user recoveredByUsername none)
      (fun outcome after left => Enacts (planTurn settings sendable listing user) outcome
        fun _ => Underway settings sendable listing (turned ++ [user]) after left)
      world session := by
  have hmem := List.mem_of_getElem? hrecord
  have hfor : ∀ other ∈ turned,
      (planOf settings sendable listing other).For listing.users other := fun other hother =>
    for_of_planTurn hexact (husers.linked other (List.mem_append_left _ hother))
      (hunderway.enacted.planned other hother)
  have hheld : session.records.getD position [] = record := by
    obtain hsame | ⟨-, hblank, other, hother, husername⟩ :=
      hunderway.refreshes position record hrecord
    · exact hsame
    · have hotherOwns : Owns record other := .inr ⟨hblank, husername⟩
      refine absurd hotherOwns (not_owns_of_owns husers ?_ other hother)
      cases recoveredByUsername with
      | false => exact .inl hmatched
      | true => exact .inr ⟨hblank, hmatched⟩
  have hkept : Owns record user → record ∈ world := by
    intro howns
    obtain ⟨created, hworld, -⟩ := hunderway.enacted.accounts
    have hsame := reviseAll_of_owns hfor hexact.unambiguous hmem (not_owns_of_owns husers howns)
    rw [hworld]
    exact List.mem_append_left _ (List.mem_map.mpr ⟨record, hmem, hsame⟩)
  obtain ⟨userId, -, hid⟩ := hexact.requireId_of_getElem? hrecord
  refine Script.wp_mono (wp_reconcileDiffs hheld hkept hmatched) ?_
  rw [← hplan]
  rintro outcome after left henacts
  refine henacts.imp ?_
  rintro plan hplanned ⟨rfl, hresult, hrefreshed⟩
  exact hunderway.step_update hexact husers hplanned
    (creates_of_planReconcile (hplan.symm.trans hplanned)) hresult
    (hunderway.refreshes.step hrecord hid hheld hrefreshed)

/-- A turn goes as planned over the listing. -/
theorem wp_syncUser {rest : List Dict} (hexact : listing.Exact)
    (husers : Identifiable [] [] (turned ++ user :: rest))
    (hunderway : Underway settings sendable listing turned world session) :
    Script.wp (faithful sendable) (syncUser settings listing false user)
      (fun outcome after left => Enacts (planTurn settings sendable listing user) outcome
        fun _ => Underway settings sendable listing (turned ++ [user]) after left)
      world session := by
  have hlinked := husers.linked user (List.mem_append_right _ List.mem_cons_self)
  obtain ⟨found, hmatches, hmatched⟩ := exists_matches hexact hlinked
  have hmatch := hmatched session.records hunderway.refreshes.aligned
  have hplan : planTurn settings sendable listing user =
      planMatched settings sendable listing user found :=
    planTurn_eq (hmatched listing.users aligned_self)
  rw [syncUser, Script.wp_bind, Script.wp_get]
  refine Script.wp_ofExcept_bind.mpr ⟨fun error herror => ?_, fun other hother => ?_⟩
  · cases hmatch.symm.trans herror
  obtain rfl := Except.ok.inj (hmatch.symm.trans hother)
  cases hmatches with
  | conflict =>
      rw [recordUsernameConflict, wp_count_bind_iff, Script.wp_ofExcept, hplan, planMatched,
        planConflict]
      cases hlog : logUserRef settings user with
      | error error => exact .raised rfl (uncaught_logUserRef _ _ _ hlog)
      | ok _ =>
          have hconflict : planTurn settings sendable listing user =
              .ok { counts := SyncResult.conflict user 0 } := by
            rw [hplan, planMatched, planConflict, hlog]
            rfl
          have hsame : world.map (Plan.revise { counts := SyncResult.conflict user 0 }) = world :=
            List.map_id world
          have hstep : Underway settings sendable listing (turned ++ [user]) (world.map _)
              (session.count (.conflict user)) :=
            hunderway.step_update hexact husers hconflict rfl
              (SyncResult.conflict_eq_add _ user) (hunderway.refreshes.mono user)
          rw [hsame] at hstep
          exact .done rfl hstep
  | absent =>
      refine wp_caught (Script.wp_mono (wp_createUser listing) ?_)
      rw [← hplan]
      intro outcome after left henacts
      refine henacts.imp ?_
      rintro plan hplanned ⟨userId, hsafe, hnew, rfl, hresult, hrecords⟩
      have hcreates : plan.creates = [user] ∧ plan.updates = [] := by
        rw [hplan] at hplanned
        obtain ⟨_, -, hplanned⟩ := bind_eq_ok_iff.mp hplanned
        obtain ⟨_, -, hplanned⟩ := bind_eq_ok_iff.mp hplanned
        obtain rfl := Except.ok.inj hplanned
        exact ⟨rfl, rfl⟩
      have hsame : world.map plan.revise = world :=
        (List.map_congr_left fun account _ =>
          Plan.revise_of_updates hcreates.2 account).trans (List.map_id world)
      refine hunderway.step hexact husers hplanned ?_ ?_ hresult ?_
      · rw [hcreates.1]
        exact .cons ⟨userId, rfl⟩ .nil
      · rw [hsame]
        exact hunderway.enacted.distinct.snoc hsafe hnew user
      · rw [hrecords]
        exact hunderway.refreshes.mono user
  | @linked position record hrecord hexternalId _ =>
      refine wp_caught (wp_matched hexact husers hunderway hrecord hexternalId ?_)
      rw [hplan, planMatched, getD_of_getElem? hrecord]
  | @named position record hrecord _ husername =>
      refine wp_caught (wp_matched hexact husers hunderway hrecord husername ?_)
      rw [hplan, planMatched, getD_of_getElem? hrecord]

/-! ## Runs -/

/-- What a run of the sync comes to: all plans, or the failure of one. -/
def Completes (settings : Settings) (sendable : Request → Bool) (listing : Listing)
    (users : List Dict) (outcome : Except PyExc SyncResult) (after : List Dict) : Prop :=
  match outcome with
  | .ok result => Enacted settings sendable listing listing.users users after result
  | .error _ => ¬ ∀ user ∈ users, Planned settings sendable listing user

theorem Underway.start (hexact : listing.Exact) :
    Underway settings sendable listing [] listing.users ⟨listing.users, {}⟩ where
  enacted :=
    { planned := nofun
      result := rfl
      accounts := ⟨[], ((List.append_nil _).trans (List.map_id _)).symm, .nil⟩
      distinct := ⟨hexact.unambiguous.safe, hexact.unambiguous.ids⟩ }
  refreshes _ _ horiginal := .inl (getD_of_getElem? horiginal)

theorem logSyncStart_of_linked {users : List Dict}
    (hlinked : ∀ user ∈ users, externalIdOf user ≠ []) : logSyncStart users = .ok () := by
  refine if_pos fun user huser hnone => hlinked user huser ?_
  rw [externalIdOf, hnone]
  rfl

/-- The loop goes through the plans of its users. -/
theorem wp_syncListed {users : List Dict} (hexact : listing.Exact)
    (husers : Identifiable [] [] users) :
    Script.wp (faithful sendable) (syncListed settings users listing false)
      (fun outcome after _ => Completes settings sendable listing users outcome after)
      listing.users {} := by
  rw [syncListed, Script.wp_bind, Script.wp_modify]
  dsimp only
  rw [logSyncStart_of_linked husers.linked]
  refine Script.wp_ofExcept_bind.mpr ⟨nofun, fun _ _ => ?_⟩
  rw [Script.wp_bind]
  refine Script.wp_mono (Script.wp_forM (Underway settings sendable listing)
    (fun _ _ _ => ¬ ∀ user ∈ users, Planned settings sendable listing user) ?_
    (.start hexact)) ?_
  · rintro before user rest rfl world session hunderway
    refine Script.wp_mono (wp_syncUser hexact husers hunderway) ?_
    intro outcome after left henacts
    cases hplan : planTurn settings sendable listing user with
    | ok plan =>
        rw [hplan] at henacts
        obtain ⟨rfl, hnext⟩ := henacts
        exact hnext
    | error error =>
        rw [hplan] at henacts
        obtain ⟨raised, rfl, -⟩ := henacts
        intro hall
        have hplanned := hall user (List.mem_append_right _ List.mem_cons_self)
        rw [Planned, hplan] at hplanned
        cases hplanned
  · rintro (error | _) after left hended
    · exact hended
    · rw [Script.wp_bind, Script.wp_get]
      exact hended.enacted

/-- A run goes through the plans over what the directory held. -/
theorem wp_syncUsers {users : List Dict}
    (hlist : ∀ start, sendable (.listUsers start) = true) (hdirectory : Unambiguous directory)
    (husers : Identifiable [] [] users) :
    Script.wp (faithful sendable) (syncUsers settings users)
      (fun outcome after _ => ∃ listing, indexUserList directory = .ok listing ∧
        Completes settings sendable listing users outcome after)
      directory {} := by
  rw [syncUsers, Script.wp_bind]
  refine Script.wp_mono (wp_existingUsers_faithful hlist hdirectory) ?_
  rintro _ _ _ ⟨rfl, rfl, listing, rfl, hindexed⟩
  obtain ⟨hexact, hlisted⟩ := Listing.Exact.empty.foldlM_index hindexed
  obtain rfl : listing.users = _ := hlisted
  refine Script.wp_mono (wp_syncListed hexact husers) fun outcome after left hcompletes => ?_
  exact ⟨listing, hindexed, hcompletes⟩

end Runs

end SsfTransmitter.Scim
