import SsfTransmitter.Scim.Loop

/-!
# Creates in filtered mode

Only creating a user counts as created, and in filtered mode only with evidence.
-/

namespace SsfTransmitter.Scim

open SsfTransmitter.Core
open SsfTransmitter.Python

variable [PyRuntime]

section Counters

variable {settings : Settings} {user : Dict} {position : ℕ} {session left : Session}
variable {transcript : Transcript}

omit [PyRuntime] in
theorem created_afterUpdate (answer : Outcome) :
    (afterUpdate settings user session answer).2.result.created = session.result.created := by
  cases answer with
  | networkError => rfl
  | refused => rfl
  | response response =>
      rw [afterUpdate]
      split_ifs <;> rfl

omit [PyRuntime] in
theorem created_leftOut (diffs : Diffs) :
    (leftOut settings diffs session).result.created = session.result.created := by
  rw [leftOut, Session.count_result]
  split_ifs <;> rfl

theorem RepairRun.created_eq {outcome : Except PyExc Bool}
    (hrun : RepairRun settings user position session transcript outcome left) :
    left.result.created = session.result.created := by
  cases hrun with
  | stopped => rfl
  | failed => exact created_afterUpdate _
  | unreadable => rfl
  | unverified => rfl
  | verified => rfl

theorem Applied.created_eq {record : Dict} {repaired : Bool} {diffs : Diffs}
    {outcome : Except PyExc Unit}
    (happlied : Applied settings user record repaired diffs session transcript outcome left) :
    left.result.created = session.result.created := by
  cases happlied with
  | stopped hstop hleft =>
      obtain rfl | rfl := hleft
      · exact created_leftOut diffs
      · exact created_leftOut diffs
  | settled hsame =>
      rw [Session.count_result]
      split_ifs
      · exact created_leftOut diffs
      · exact created_leftOut diffs
  | sent answer hdiffers hrequest =>
      exact (created_afterUpdate answer).trans (created_leftOut diffs)

theorem Reconciled.created_eq {recoveredByUsername : Bool} {outcome : Except PyExc Unit}
    (hrun : Reconciled settings user position recoveredByUsername session transcript outcome
      left) : left.result.created = session.result.created := by
  cases hrun with
  | conflict => rfl
  | stopped => rfl
  | applied _ _ happlied => exact happlied.created_eq
  | unrepaired _ _ hrepair => exact hrepair.created_eq
  | repaired _ _ hrepair _ happlied => exact happlied.created_eq.trans hrepair.created_eq
  | stoppedRepaired _ _ hrepair => exact hrepair.created_eq

theorem ConflictRun.created_eq {outcome : Except PyExc (Option ℕ)}
    (hrun : ConflictRun settings user session transcript outcome left) :
    left.result.created = session.result.created := by
  cases hrun <;> rfl

omit [PyRuntime] in
theorem created_caught (outcome : Except PyExc Unit) :
    (caught outcome left).2.result.created = left.result.created := by
  rw [caught.eq_def]
  split <;> rfl

/-- A created user was posted first. -/
theorem CreateRun.created_eq {verifyIdentity : Bool} {outcome : Except PyExc Unit}
    (hrun : CreateRun settings user verifyIdentity session transcript outcome left) :
    left.result.created = session.result.created ∨
      left.result.created = session.result.created + 1 ∧ ∃ response later,
        transcript = (.createUser user, .response response) :: later ∧
          CountsAsCreated user verifyIdentity response later := by
  cases hrun with
  | unanswered => exact .inl rfl
  | created hreading hcounts => exact .inr ⟨rfl, _, _, rfl, hcounts⟩
  | unverified => exact .inl rfl
  | raised => exact .inl rfl
  | rejected => exact .inl rfl
  | unresolved hconflict => exact .inl hconflict.created_eq
  | resolved hconflict hreconciled =>
      exact .inl (hreconciled.created_eq.trans hconflict.created_eq)

theorem Turn.created_eq {listing : Listing} {filtered : Bool} {outcome : Except PyExc Unit}
    (hturn : Turn settings listing filtered user session transcript outcome left) :
    left.result.created = session.result.created ∨
      left.result.created = session.result.created + 1 ∧ ∃ response later,
        transcript = (.createUser user, .response response) :: later ∧
          CountsAsCreated user filtered response later := by
  cases hturn with
  | unmatched => exact .inl rfl
  | conflict => exact .inl rfl
  | matched _ hrun => exact .inl ((created_caught _).trans hrun.created_eq)
  | absent _ hrun =>
      rw [created_caught]
      exact hrun.created_eq

end Counters

/-- A preflight only reads, and the indexes it returns agree with every answer; a turn in
filtered mode counts a user as created only on evidence. -/
theorem filtered_sound (settings : Settings) (scimUsers : List Dict) (sample : Listing)
    (answers : ℕ → Outcome) (session : Session) :
    (∀ exchange ∈
        (Script.converse answers (getExistingUsersByFilter scimUsers sample) session).1,
      exchange.1.isWrite = false) ∧
    (∀ listing,
      (Script.converse answers (getExistingUsersByFilter scimUsers sample) session).2.1 =
        .ok listing →
      Preflighted scimUsers
        (Script.converse answers (getExistingUsersByFilter scimUsers sample) session).1
        listing) ∧
    ∀ listing user,
      let turn := Script.converse answers (syncUser settings listing true user) session
      turn.2.2.result.created = session.result.created ∨
        turn.2.2.result.created = session.result.created + 1 ∧
        ∃ response later userId record,
          turn.1 = (.createUser user, .response response) :: later ∧
          createdId response = .ok (some (.str userId)) ∧
          Evidence user later userId record := by
  obtain ⟨hreading, -, hfound⟩ := runs_getExistingUsersByFilter (Script.runs_converse answers
    (getExistingUsersByFilter scimUsers sample) session)
  refine ⟨fun exchange hexchange => hreading.isWrite_eq_false hexchange, hfound, ?_⟩
  intro listing user
  have hturn := runs_syncUser (Script.runs_converse answers
    (syncUser settings listing true user) session)
  refine hturn.created_eq.imp_right ?_
  rintro ⟨hcreated, response, later, heq, hcounts⟩
  obtain ⟨userId, record, hid, hevidence⟩ := hcounts rfl
  exact ⟨hcreated, response, later, userId, record, heq, hid, hevidence⟩

end SsfTransmitter.Scim
