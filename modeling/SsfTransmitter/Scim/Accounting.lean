import SsfTransmitter.Python.Ascii
import SsfTransmitter.Scim.Loop
import SsfTransmitter.Scim.Server

/-!
# Accounting of a sync run

Every turn is counted once, and once more where a verified repair left differences that
the mode acts on.
-/

namespace SsfTransmitter.Scim

open SsfTransmitter.Core
open SsfTransmitter.Python

/-! ## Counters -/

namespace SyncResult

/-- All turns that were counted. -/
def total (result : SyncResult) : ℕ :=
  result.created + result.updated + result.unchanged + result.conflicts + result.errors

/-- Counters after some more were counted, some of them out of scope. -/
structure Adds (before after : SyncResult) (counted skipped : ℕ) : Prop where
  total : after.total = before.total + counted
  outOfScope : after.outOfScopeDiffs ≤ before.outOfScopeDiffs + skipped
  invalid : before.update400InvalidRequest ≤ before.errors →
    after.update400InvalidRequest ≤ after.errors
  usernames : before.conflictUsernames.length ≤ before.conflicts →
    after.conflictUsernames.length ≤ after.conflicts

namespace Adds

variable {before middle after : SyncResult} {counted skipped counted' skipped' : ℕ}

theorem refl (result : SyncResult) : result.Adds result 0 0 :=
  ⟨rfl, le_rfl, id, id⟩

theorem trans (hfirst : before.Adds middle counted skipped)
    (hsecond : middle.Adds after counted' skipped') :
    before.Adds after (counted + counted') (skipped + skipped') where
  total := by rw [hsecond.total, hfirst.total, Nat.add_assoc]
  outOfScope := by
    calc after.outOfScopeDiffs ≤ middle.outOfScopeDiffs + skipped' := hsecond.outOfScope
      _ ≤ before.outOfScopeDiffs + skipped + skipped' :=
        Nat.add_le_add_right hfirst.outOfScope skipped'
      _ = before.outOfScopeDiffs + (skipped + skipped') := Nat.add_assoc _ _ _
  invalid hinvalid := hsecond.invalid (hfirst.invalid hinvalid)
  usernames husernames := hsecond.usernames (hfirst.usernames husernames)

theorem weaken (hadds : before.Adds after counted skipped) (hle : skipped ≤ skipped') :
    before.Adds after counted skipped' where
  total := hadds.total
  outOfScope := hadds.outOfScope.trans (Nat.add_le_add_left hle _)
  invalid := hadds.invalid
  usernames := hadds.usernames

end Adds

variable (result : SyncResult)

theorem adds_create : result.Adds result.create 1 0 where
  total := by simp only [total, create]; omega
  outOfScope := le_rfl
  invalid := id
  usernames := id

theorem adds_update : result.Adds result.update 1 0 where
  total := by simp only [total, update]; omega
  outOfScope := le_rfl
  invalid := id
  usernames := id

theorem adds_same : result.Adds result.same 1 0 where
  total := by simp only [total, same]; omega
  outOfScope := le_rfl
  invalid := id
  usernames := id

theorem adds_outOfScope : result.Adds result.outOfScope 0 1 where
  total := rfl
  outOfScope := le_rfl
  invalid := id
  usernames := id

theorem adds_error : result.Adds result.error 1 0 where
  total := rfl
  outOfScope := le_rfl
  invalid hinvalid := hinvalid.trans (Nat.le_succ _)
  usernames := id

theorem adds_failure (response : Response) : result.Adds (result.failure response) 1 0 where
  total := rfl
  outOfScope := le_rfl
  invalid hinvalid := by
    rw [failure]
    split_ifs
    · exact Nat.succ_le_succ hinvalid
    · exact hinvalid.trans (Nat.le_succ _)
  usernames := id

theorem adds_conflict (user : Dict) : result.Adds (result.conflict user) 1 0 where
  total := by simp only [total, conflict]; omega
  outOfScope := le_rfl
  invalid := id
  usernames husernames := by
    have hkept := husernames.trans (Nat.le_succ _)
    rw [conflict]
    split
    · split_ifs
      · exact hkept
      · simpa using husernames
    · exact hkept

end SyncResult

/-! ## Repairs that leave differences -/

section Remaining

variable [PyRuntime]

/-- A repair with the read that verifies it, after which the mode acts on a difference. -/
def isRemaining (settings : Settings) :
    Exchange Request Outcome → Exchange Request Outcome → Bool
  | (.patchUser user userId body, .response response), (.readUser other, answer) =>
    body = repairBody (externalIdOf user) && other = userId && succeeded response &&
      match readBack userId user answer with
      | .ok (some record) =>
        match fieldDiffs record user false with
        | .ok diffs => actsOn settings diffs
        | .error _ => false
      | _ => false
  | _, _ => false

/-- The verified repairs of a run after which the mode acted on a difference. -/
def remainingRepairs (settings : Settings) : Transcript → ℕ
  | first :: second :: rest =>
    (if isRemaining settings first second then 1 else 0) +
      remainingRepairs settings (second :: rest)
  | _ => 0

variable {settings : Settings}

theorem isRemaining_eq_false_of_account? {first second : Exchange Request Outcome}
    (hfirst : first.1.account? = none) : isRemaining settings first second = false := by
  rw [isRemaining.eq_def]
  split
  · simp [Request.account?] at hfirst
  · rfl

theorem isRemaining_eq_false_of_ne_read {first second : Exchange Request Outcome}
    (hsecond : ∀ userId, second.1 ≠ .readUser userId) :
    isRemaining settings first second = false := by
  rw [isRemaining.eq_def]
  split
  · exact absurd rfl (hsecond _)
  · rfl

/-- Exchanges without updates do not count. -/
theorem remainingRepairs_append_of_account? {first : Transcript}
    (hfirst : ∀ exchange ∈ first, exchange.1.account? = none) (second : Transcript) :
    remainingRepairs settings (first ++ second) = remainingRepairs settings second := by
  induction first with
  | nil => rfl
  | cons exchange first ih =>
      obtain ⟨hexchange, hrest⟩ := List.forall_mem_cons.mp hfirst
      rw [List.cons_append, ← ih hrest]
      cases first ++ second with
      | nil => rfl
      | cons next rest =>
          rw [remainingRepairs, isRemaining_eq_false_of_account? hexchange, if_neg nofun,
            Nat.zero_add]

/-- Nothing of it begins with a direct read. -/
def NoReadFirst (transcript : Transcript) : Prop :=
  ∀ exchange ∈ transcript.head?, ∀ userId, exchange.1 ≠ .readUser userId

theorem remainingRepairs_append (first : Transcript) {second : Transcript}
    (hsecond : NoReadFirst second) :
    remainingRepairs settings (first ++ second) =
      remainingRepairs settings first + remainingRepairs settings second := by
  induction first with
  | nil => exact (Nat.zero_add _).symm
  | cons exchange first ih =>
      cases first with
      | nil =>
          cases second with
          | nil => rfl
          | cons next rest =>
              have hnot : isRemaining settings exchange next = false :=
                isRemaining_eq_false_of_ne_read (hsecond next rfl)
              simp only [List.cons_append, List.nil_append, remainingRepairs, hnot]
              simp
      | cons next rest =>
          simp only [List.cons_append, remainingRepairs] at ih ⊢
          rw [ih, Nat.add_assoc]

end Remaining

/-! ## Turns -/

section Turns

variable [PyRuntime]
variable {settings : Settings} {user : Dict} {position : ℕ} {session left : Session}
variable {transcript : Transcript} {outcome : Except PyExc Unit}

/-- A part of a turn that counts its user, or leaves that to the loop. -/
structure Counted (settings : Settings) (session : Session) (transcript : Transcript)
    (outcome : Except PyExc Unit) (left : Session) : Prop where
  ended : outcome = .ok () →
    session.result.Adds left.result (1 + remainingRepairs settings transcript) 1
  failed : outcome = .error .httpError →
    session.result.Adds left.result (remainingRepairs settings transcript) 1

namespace Counted

/-- A part that raises what the loop does not catch. -/
theorem of_error {error : PyExc} (huncaught : Uncaught error) :
    Counted settings session transcript (.error error) left :=
  ⟨nofun, fun heq => absurd (Except.error.inj heq) huncaught⟩

/-- A part that ends by a log line. -/
theorem of_log (houtcome : RaisesOnly Uncaught outcome)
    (hadds : session.result.Adds left.result (1 + remainingRepairs settings transcript) 1) :
    Counted settings session transcript outcome left := by
  cases outcome with
  | ok value => exact ⟨fun _ => hadds, nofun⟩
  | error error => exact of_error (houtcome error rfl)

theorem of_logUserRef
    (hadds : session.result.Adds left.result (1 + remainingRepairs settings transcript) 1) :
    Counted settings session transcript (logUserRef settings user) left :=
  of_log (uncaught_logUserRef settings user) hadds

/-- The loop makes up for what was left to it. -/
theorem adds_caught (hcounted : Counted settings session transcript outcome left)
    (hended : (caught outcome left).1 = .ok ()) :
    session.result.Adds (caught outcome left).2.result
      (1 + remainingRepairs settings transcript) 1 := by
  rcases outcome with error | _
  · by_cases hcaught : error = .httpError
    · subst hcaught
      rw [Nat.add_comm 1]
      exact (hcounted.failed rfl).trans (SyncResult.adds_error _)
    · rw [caught_of_ne hcaught] at hended
      cases hended
  · exact hcounted.ended rfl

end Counted

omit [PyRuntime] in
theorem adds_leftOut (diffs : Diffs) :
    session.result.Adds (leftOut settings diffs session).result 0 1 := by
  rw [leftOut, Session.count_result]
  split_ifs
  · exact SyncResult.adds_outOfScope _
  · exact (SyncResult.Adds.refl _).weaken (Nat.zero_le 1)

/-- An update that is sent is counted, unless the network fails. -/
theorem counted_afterUpdate {first : Session} {request : Request} (answer : Outcome)
    (hadds : first.result.Adds session.result 0 1) :
    Counted settings first [(request, answer)] (afterUpdate settings user session answer).1
      (afterUpdate settings user session answer).2 := by
  cases answer with
  | networkError => exact ⟨nofun, fun _ => hadds⟩
  | refused => exact .of_error nofun
  | response response =>
      rw [afterUpdate]
      split_ifs
      · exact .of_logUserRef (hadds.trans (SyncResult.adds_update _))
      · exact .of_log (uncaught_logUpdateFailure settings user response)
          (hadds.trans (SyncResult.adds_failure _ response))

theorem Applied.counted {record : Dict} {diffs : Diffs}
    (happlied : Applied settings user record false diffs session transcript outcome left) :
    Counted settings session transcript outcome left := by
  cases happlied with
  | stopped hstop _ =>
      refine .of_error ?_
      obtain hlog | ⟨-, hrequest⟩ := hstop
      · exact uncaught_logUserRef _ _ _ hlog
      · exact uncaught_updateRequest _ _ _ _ _ hrequest
  | settled _ =>
      exact ⟨fun _ => (adds_leftOut diffs).trans (SyncResult.adds_same _), nofun⟩
  | sent answer _ _ => exact counted_afterUpdate answer (adds_leftOut diffs)

omit [PyRuntime] in
theorem map_unit_map {Value : Type} (result : Except PyExc Unit) (value : Value) :
    (result.map fun _ => value).map (fun _ => ()) = result := by
  cases result <;> rfl

omit [PyRuntime] in
theorem map_false_ne (result : Except PyExc Unit) :
    (result.map fun _ => false) ≠ .ok true := by
  cases result <;> nofun

/-- Whether differences remain after a repair is read off the answer to the read. -/
theorem remainingRepairs_repair {userId : PyStr} {response : Response} {answer : Outcome}
    (hpatched : succeeded response = true) :
    remainingRepairs settings [(repairRequest user userId, .response response),
        (.readUser userId, answer)] =
      match readBack userId user answer with
      | .ok (some record) =>
        match fieldDiffs record user false with
        | .ok diffs => if actsOn settings diffs then 1 else 0
        | .error _ => 0
      | _ => 0 := by
  simp only [remainingRepairs, repairRequest, isRemaining, hpatched, decide_true,
    Bool.true_and, Nat.add_zero]
  rcases readBack userId user answer with error | _ | record
  · rfl
  · rfl
  · have hcases : (∃ diffs, fieldDiffs record user false = .ok diffs) ∨
        ∃ error, fieldDiffs record user false = .error error := by
      cases fieldDiffs record user false <;> simp
    obtain ⟨diffs, hdiffs⟩ | ⟨error, hdiffs⟩ := hcases <;> simp [hdiffs]

theorem RepairRun.counted {result : Except PyExc Bool}
    (hrun : RepairRun settings user position session transcript result left)
    (hnot : result ≠ .ok true) :
    Counted settings session transcript (result.map fun _ => ()) left := by
  cases hrun with
  | stopped hstop => exact .of_error (uncaught_of_stop hstop)
  | failed hid hfailed =>
      rw [map_unit_map]
      exact counted_afterUpdate _ ((SyncResult.Adds.refl _).weaken (Nat.zero_le 1))
  | unreadable hid hpatched hread => exact .of_error (uncaught_readBack _ _ _ _ hread)
  | unverified hid hpatched hread =>
      rw [map_unit_map]
      refine .of_logUserRef ?_
      rw [remainingRepairs_repair hpatched, hread]
      exact (SyncResult.adds_error _).weaken (Nat.zero_le 1)
  | verified =>
      cases hlog : logUserRef settings user with
      | ok _ => exact absurd (by rw [hlog]; rfl) hnot
      | error error => exact .of_error (uncaught_logUserRef settings user error hlog)

/-- A verified repair is counted, and what remains is counted by what follows. -/
theorem RepairRun.adds
    (hrun : RepairRun settings user position session transcript (.ok true) left) :
    ∃ userId response answer record,
      transcript = [(repairRequest user userId, .response response),
        (.readUser userId, answer)] ∧
      succeeded response = true ∧ readBack userId user answer = .ok (some record) ∧
      left.records.getD position [] = record ∧
      session.result.Adds left.result 1 0 := by
  generalize hresult : (.ok true : Except PyExc Bool) = result at hrun
  cases hrun with
  | stopped => cases hresult
  | failed => exact absurd hresult.symm (map_false_ne _)
  | unreadable => cases hresult
  | unverified => exact absurd hresult.symm (map_false_ne _)
  | verified hid hpatched hread =>
      exact ⟨_, _, _, _, rfl, hpatched, hread, getD_set_of_requireId hid _,
        SyncResult.adds_update _⟩

/-- After a verified repair only an update is counted. -/
theorem Applied.counted_repaired {record : Dict} {diffs : Diffs}
    (happlied : Applied settings user record true diffs session transcript outcome left) :
    (outcome = .ok () →
      session.result.Adds left.result (if actsOn settings diffs then 1 else 0) 1) ∧
    (outcome = .error .httpError →
      session.result.Adds left.result 0 1 ∧ actsOn settings diffs = true) := by
  cases happlied with
  | stopped hstop _ =>
      refine ⟨nofun, fun heq => ?_⟩
      obtain rfl := Except.error.inj heq
      obtain hlog | ⟨-, hrequest⟩ := hstop
      · exact absurd rfl (uncaught_logUserRef _ _ _ hlog)
      · exact absurd rfl (uncaught_updateRequest _ _ _ _ _ hrequest)
  | settled hsame =>
      rw [hsame]
      exact ⟨fun _ => adds_leftOut diffs, nofun⟩
  | @sent request answer hdiffers _ =>
      have hcounted : Counted settings session [(request, answer)]
          (afterUpdate settings user (leftOut settings diffs session) answer).1
          (afterUpdate settings user (leftOut settings diffs session) answer).2 :=
        counted_afterUpdate answer (adds_leftOut diffs)
      rw [if_pos hdiffers]
      exact ⟨hcounted.ended, fun heq => ⟨hcounted.failed heq, hdiffers⟩⟩

theorem isWrite_of_updateRequest {record : Dict} {diffs : Diffs} {request : Request}
    (hrequest : updateRequest settings record user diffs = .ok request) :
    request.isWrite = true := by
  rw [Request.isWrite, writer?_of_updateRequest hrequest]
  rfl

/-- What is sent at all begins with a write. -/
def WritesFirst (transcript : Transcript) : Prop :=
  ∀ exchange ∈ transcript.head?, exchange.1.isWrite = true

section WritesFirst

omit [PyRuntime]

theorem WritesFirst.nil : WritesFirst [] :=
  nofun

theorem WritesFirst.cons {request : Request} {answer : Outcome} {later : Transcript}
    (hwrite : request.isWrite = true) : WritesFirst ((request, answer) :: later) := by
  rintro _ ⟨rfl⟩
  exact hwrite

theorem WritesFirst.append {first second : Transcript} (hfirst : WritesFirst first)
    (hsecond : WritesFirst second) : WritesFirst (first ++ second) := by
  cases first with
  | nil => exact hsecond
  | cons exchange first => exact fun other hother => hfirst other hother

theorem WritesFirst.noReadFirst (hwrites : WritesFirst transcript) : NoReadFirst transcript := by
  rintro ⟨request, answer⟩ hexchange userId rfl
  cases hwrites _ hexchange

end WritesFirst

theorem Applied.writesFirst {record : Dict} {repaired : Bool} {diffs : Diffs}
    (happlied : Applied settings user record repaired diffs session transcript outcome left) :
    WritesFirst transcript := by
  cases happlied with
  | stopped => exact .nil
  | settled => exact .nil
  | sent _ _ hrequest => exact .cons (isWrite_of_updateRequest hrequest)

theorem Applied.remainingRepairs_eq {record : Dict} {repaired : Bool} {diffs : Diffs}
    (happlied : Applied settings user record repaired diffs session transcript outcome left) :
    remainingRepairs settings transcript = 0 := by
  cases happlied <;> rfl

theorem Reconciled.counted {recoveredByUsername : Bool}
    (hrun : Reconciled settings user position recoveredByUsername session transcript outcome
      left) : Counted settings session transcript outcome left := by
  cases hrun with
  | conflict hrecovered hrefused =>
      exact .of_logUserRef ((SyncResult.adds_conflict _ user).weaken (Nat.zero_le 1))
  | stopped hstop => exact .of_error (uncaught_of_stop hstop)
  | applied _ _ happlied => exact happlied.counted
  | unrepaired _ _ hrepair hnot => exact hrepair.counted hnot
  | repaired _ _ hrepair hdiffs happlied =>
      obtain ⟨userId, response, answer, record, rfl, hpatched, hread, hrecord, hadds⟩ :=
        hrepair.adds
      rw [hrecord] at hdiffs
      obtain ⟨hended, hfailed⟩ := happlied.counted_repaired
      have hremaining : remainingRepairs settings
          ([(repairRequest user userId, .response response), (.readUser userId, answer)] ++ _) = _ :=
        remainingRepairs_append _ happlied.writesFirst.noReadFirst
      rw [remainingRepairs_repair hpatched, hread, happlied.remainingRepairs_eq,
        Nat.add_zero] at hremaining
      dsimp only at hremaining
      rw [hdiffs] at hremaining
      refine ⟨fun heq => ?_, fun heq => ?_⟩
      · rw [hremaining]
        exact hadds.trans (hended heq)
      · obtain ⟨hlater, hdiffers⟩ := hfailed heq
        rw [hremaining]
        dsimp only
        rw [if_pos hdiffers]
        exact hadds.trans hlater
  | stoppedRepaired _ _ hrepair hstop => exact .of_error (uncaught_of_stop hstop)

theorem RepairRun.writesFirst {result : Except PyExc Bool}
    (hrun : RepairRun settings user position session transcript result left) :
    WritesFirst transcript := by
  cases hrun with
  | stopped => exact .nil
  | failed => exact .cons rfl
  | unreadable => exact .cons rfl
  | unverified => exact .cons rfl
  | verified => exact .cons rfl

theorem Reconciled.writesFirst {recoveredByUsername : Bool}
    (hrun : Reconciled settings user position recoveredByUsername session transcript outcome
      left) : WritesFirst transcript := by
  cases hrun with
  | conflict => exact .nil
  | stopped => exact .nil
  | applied _ _ happlied => exact happlied.writesFirst
  | unrepaired _ _ hrepair _ => exact hrepair.writesFirst
  | repaired _ _ hrepair _ happlied => exact hrepair.writesFirst.append happlied.writesFirst
  | stoppedRepaired _ _ hrepair _ => exact hrepair.writesFirst

/-- What comes before an account is identified does not count as a repair. -/
theorem remainingRepairs_created (answer : Outcome) (later : Transcript) :
    remainingRepairs settings ((.createUser user, answer) :: later) =
      remainingRepairs settings later := by
  have hcreate : ∀ exchange ∈ [((.createUser user, answer) : Exchange Request Outcome)],
      exchange.1.account? = none :=
    fun _ hexchange => List.mem_singleton.mp hexchange ▸ rfl
  exact remainingRepairs_append_of_account? hcreate later

theorem Reading.remainingRepairs_append (hreading : Reading transcript) (later : Transcript) :
    remainingRepairs settings (transcript ++ later) = remainingRepairs settings later :=
  remainingRepairs_append_of_account? hreading.account? later

theorem Reading.remainingRepairs_eq (hreading : Reading transcript) :
    remainingRepairs settings transcript = 0 := by
  calc remainingRepairs settings transcript
      = remainingRepairs settings (transcript ++ []) := by rw [List.append_nil]
    _ = 0 := hreading.remainingRepairs_append []

/-- Before it reconciles an account, a conflict is counted or left to the loop. -/
theorem ConflictRun.counted {result : Except PyExc (Option ℕ)}
    (hrun : ConflictRun settings user session transcript result left)
    (hnone : ∀ found, result ≠ .ok (some found)) :
    Counted settings session transcript (result.map fun _ => ()) left := by
  cases hrun with
  | raised hreading hraise =>
      refine ⟨nofun, fun _ => ?_⟩
      rw [hreading.remainingRepairs_eq]
      exact (SyncResult.Adds.refl _).weaken (Nat.zero_le 1)
  | failed hreading =>
      refine ⟨fun _ => ?_, nofun⟩
      rw [hreading.remainingRepairs_eq]
      exact (SyncResult.adds_error _).weaken (Nat.zero_le 1)
  | conflict hreading =>
      rw [map_unit_map]
      refine .of_logUserRef ?_
      rw [hreading.remainingRepairs_eq]
      exact (SyncResult.adds_conflict _ user).weaken (Nat.zero_le 1)
  | found => exact absurd rfl (hnone _)

theorem ConflictRun.result_eq {found : ℕ}
    (hrun : ConflictRun settings user session transcript (.ok (some found)) left) :
    left.result = session.result := by
  generalize hresult : (.ok (some found) : Except PyExc (Option ℕ)) = result at hrun
  cases hrun with
  | raised => cases hresult
  | failed => cases hresult
  | conflict =>
      cases hlog : logUserRef settings user <;> simp [hlog, Except.map] at hresult
  | found => rfl

theorem CreateRun.counted {verifyIdentity : Bool}
    (hrun : CreateRun settings user verifyIdentity session transcript outcome left) :
    Counted settings session transcript outcome left := by
  cases hrun with
  | @unanswered answer error hanswer =>
      refine ⟨nofun, fun heq => ?_⟩
      exact (SyncResult.Adds.refl _).weaken (Nat.zero_le 1)
  | created hreading _ =>
      refine .of_logUserRef ?_
      rw [remainingRepairs_created, hreading.remainingRepairs_eq]
      exact (SyncResult.adds_create _).weaken (Nat.zero_le 1)
  | unverified hreading _ =>
      refine ⟨fun _ => ?_, nofun⟩
      rw [remainingRepairs_created, hreading.remainingRepairs_eq]
      exact (SyncResult.adds_error _).weaken (Nat.zero_le 1)
  | raised hreading _ _ =>
      refine ⟨nofun, fun _ => ?_⟩
      rw [remainingRepairs_created, hreading.remainingRepairs_eq]
      exact (SyncResult.Adds.refl _).weaken (Nat.zero_le 1)
  | @rejected response =>
      exact .of_log (uncaught_logUpdateFailure settings user response)
        ((SyncResult.adds_error _).weaken (Nat.zero_le 1))
  | unresolved hconflict hnone =>
      obtain ⟨hended, hfailed⟩ := hconflict.counted hnone
      refine ⟨fun heq => ?_, fun heq => ?_⟩
      · rw [remainingRepairs_created]
        exact hended heq
      · rw [remainingRepairs_created]
        exact hfailed heq
  | @resolved response first second _ _ _ _ hconflict hreconciled =>
      obtain ⟨hended, hfailed⟩ := hreconciled.counted
      have hsame : remainingRepairs settings
          ((.createUser user, .response response) :: (first ++ second)) =
          remainingRepairs settings second := by
        rw [remainingRepairs_created, hconflict.reading.remainingRepairs_append]
      rw [hconflict.result_eq] at hended hfailed
      exact ⟨fun heq => hsame ▸ hended heq, fun heq => hsame ▸ hfailed heq⟩

theorem CreateRun.writesFirst {verifyIdentity : Bool}
    (hrun : CreateRun settings user verifyIdentity session transcript outcome left) :
    WritesFirst transcript := by
  cases hrun <;> exact .cons rfl

theorem Turn.writesFirst {listing : Listing} {filtered : Bool}
    (hturn : Turn settings listing filtered user session transcript outcome left) :
    WritesFirst transcript := by
  cases hturn with
  | unmatched => exact .nil
  | conflict => exact .nil
  | matched _ hrun => exact hrun.writesFirst
  | absent _ hrun => exact hrun.writesFirst

/-- Every turn that the loop gets past counts its user once. -/
theorem Turn.adds {listing : Listing} {filtered : Bool}
    (hturn : Turn settings listing filtered user session transcript outcome left)
    (hended : outcome = .ok ()) :
    session.result.Adds left.result (1 + remainingRepairs settings transcript) 1 := by
  cases hturn with
  | unmatched => cases hended
  | conflict => exact (SyncResult.adds_conflict _ user).weaken (Nat.zero_le 1)
  | matched _ hrun => exact hrun.counted.adds_caught hended
  | absent _ hrun => exact hrun.counted.adds_caught hended

/-! ## Runs -/

theorem Turns.writesFirst {listing : Listing} {filtered : Bool} {users : List Dict}
    (hturns : Turns settings listing filtered users session transcript outcome left) :
    WritesFirst transcript := by
  induction hturns with
  | done => exact .nil
  | aborted hturn => exact hturn.writesFirst
  | next hturn _ ih => exact hturn.writesFirst.append ih

theorem Turns.adds {listing : Listing} {filtered : Bool} {users : List Dict}
    (hturns : Turns settings listing filtered users session transcript outcome left)
    (hended : outcome = .ok ()) :
    session.result.Adds left.result
      (users.length + remainingRepairs settings transcript) users.length := by
  induction hturns with
  | done => exact .refl _
  | aborted => cases hended
  | @next user users _ _ _ first second _ hturn hturns ih =>
      have hadds := (hturn.adds rfl).trans (ih hended)
      rw [remainingRepairs_append first hturns.writesFirst.noReadFirst, List.length_cons]
      have hcounted : users.length + 1 +
          (remainingRepairs settings first + remainingRepairs settings second) =
          1 + remainingRepairs settings first +
            (users.length + remainingRepairs settings second) := by omega
      rw [hcounted, Nat.add_comm users.length 1]
      exact hadds

end Turns

section Runs

variable [PyRuntime]

/-- Where a run returns, every source user was counted once, and once more where its repair
was verified and the mode still acted on a difference. -/
theorem syncUsers_accounts (settings : Settings) (scimUsers : List Dict)
    (answers : ℕ → Outcome) :
    let run := Script.converse answers (syncUsers settings scimUsers) {}
    ∀ result, run.2.1 = .ok result →
      result.created + result.updated + result.unchanged + result.conflicts + result.errors =
          scimUsers.length + remainingRepairs settings run.1 ∧
        result.update400InvalidRequest ≤ result.errors ∧
        result.outOfScopeDiffs ≤ scimUsers.length ∧
        result.conflictUsernames.length ≤ result.conflicts := by
  intro run result hresult
  have hrun : SyncRun settings scimUsers {} run.1 run.2.1 run.2.2 :=
    runs_syncUsers (Script.runs_converse answers (syncUsers settings scimUsers) {})
  rw [hresult] at hrun
  generalize run.1 = transcript at hrun ⊢
  generalize run.2.2 = left at hrun
  generalize hended : (.ok result : Except PyExc SyncResult) = outcome at hrun
  cases hrun with
  | unlisted => cases hended
  | unlinked => cases hended
  | @ran _ _ listing _ inner _ hreading _ _ hturns =>
      cases inner with
      | error error => cases hended
      | ok _ =>
          obtain rfl := Except.ok.inj hended
          have hadds := hturns.adds rfl
          rw [hreading.remainingRepairs_append]
          have htotal := hadds.total
          have hscope := hadds.outOfScope
          refine ⟨htotal.trans (Nat.zero_add _), hadds.invalid le_rfl, ?_,
            hadds.usernames le_rfl⟩
          exact hscope.trans (Nat.zero_add _).le

end Runs

/-! A repair after which the account is still inactive at Apple, in filtered mode. -/

section Sample

open SsfTransmitter.Python.Ascii

def inactiveUser : Dict :=
  [("id", .str "1"), ("userName", .str "ada"), ("active", .bool false)]

def repairAnswers (position : ℕ) : Outcome :=
  [usersPage [inactiveUser] 1 2 200, usersPage [] 0 1 0, usersPage [inactiveUser] 1 1 1,
    .response ⟨200, .json (.dict inactiveUser), true⟩,
    .response ⟨204, .invalid, true⟩,
    .response ⟨200, .json (.dict (inactiveUser.set "externalId" (.str "a"))), true⟩,
    .response ⟨200, .invalid, true⟩].getD position .networkError

def recoverySettings : Settings :=
  ⟨.patchAll, true, true, false⟩

def sourceUser : Dict :=
  [("externalId", .str "a"), ("userName", .str "ada")]

theorem syncUsers_accounts_repaired :
    let run := Script.converse repairAnswers (syncUsers recoverySettings [sourceUser]) {}
    ∃ result, run.2.1 = .ok result ∧ remainingRepairs recoverySettings run.1 = 1 ∧
      result.created + result.updated + result.unchanged + result.conflicts +
          result.errors = 1 + remainingRepairs recoverySettings run.1 :=
  ⟨{ updated := 2 }, by decide +kernel, by decide +kernel,
    (syncUsers_accounts recoverySettings [sourceUser] repairAnswers _ (by decide +kernel)).1⟩

end Sample

end SsfTransmitter.Scim
