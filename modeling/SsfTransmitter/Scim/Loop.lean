import SsfTransmitter.Scim.Creating

/-!
# What a sync run can do

A run reads a listing and then takes a turn for every source user.
-/

namespace SsfTransmitter.Scim

open SsfTransmitter.Core
open SsfTransmitter.Python

variable [PyRuntime]

/-! ## One turn -/

/-- What the loop makes of the end of a turn. -/
def caught (outcome : Except PyExc Unit) (left : Session) : Except PyExc Unit × Session :=
  match outcome with
  | .error .httpError => (.ok (), left.count .error)
  | outcome => (outcome, left)

/-- What a turn can do. -/
inductive Turn (settings : Settings) (listing : Listing) (filtered : Bool) (user : Dict)
    (session : Session) : Transcript → Except PyExc Unit → Session → Prop
  | unmatched {error : PyExc}
      (hmatch : matchAppleUser listing session.records user = .error error) :
      Turn settings listing filtered user session [] (.error error) session
  | conflict (hmatch : matchAppleUser listing session.records user = .ok .conflict) :
      Turn settings listing filtered user session [] (logUserRef settings user)
        (session.count (.conflict user))
  | matched {position : ℕ} {recoveredByUsername : Bool} {transcript : Transcript}
      {outcome : Except PyExc Unit} {left : Session}
      (hmatch : matchAppleUser listing session.records user =
        .ok (.matched position recoveredByUsername))
      (hrun : Reconciled settings user position recoveredByUsername session transcript outcome
        left) :
      Turn settings listing filtered user session transcript (caught outcome left).1
        (caught outcome left).2
  | absent {transcript : Transcript} {outcome : Except PyExc Unit} {left : Session}
      (hmatch : matchAppleUser listing session.records user = .ok .absent)
      (hrun : CreateRun settings user filtered session transcript outcome left) :
      Turn settings listing filtered user session transcript (caught outcome left).1
        (caught outcome left).2

section Turns

variable {settings : Settings} {listing : Listing} {filtered : Bool} {user : Dict}
variable {session left : Session} {transcript : Transcript} {outcome : Except PyExc Unit}

omit [PyRuntime] in
theorem caught_of_ne {error : PyExc} (hother : error ≠ .httpError) :
    caught (.error error) left = (.error error, left) := by
  cases error <;> first | rfl | exact absurd rfl hother

omit [PyRuntime] in
theorem runs_caught {script : Client Session Unit}
    (hruns : Script.Runs (tryCatch script fun error =>
      match error with
      | .httpError => countError
      | error => throw error) session transcript outcome left) :
    ∃ inner middle, script.Runs session transcript inner middle ∧
      outcome = (caught inner middle).1 ∧ left = (caught inner middle).2 := by
  obtain ⟨value, hscript, rfl⟩ | ⟨first, error, middle, second, rfl, hscript, hhandled⟩ :=
    Script.runs_tryCatch_iff.mp hruns
  · exact ⟨_, _, hscript, rfl, rfl⟩
  · split at hhandled
    · obtain ⟨rfl, rfl, rfl⟩ := Script.runs_modify_iff.mp hhandled
      rw [List.append_nil]
      exact ⟨_, _, hscript, rfl, rfl⟩
    · next hother =>
      obtain ⟨rfl, rfl, rfl⟩ := Script.runs_throw_iff.mp hhandled
      rw [List.append_nil]
      refine ⟨_, _, hscript, ?_, ?_⟩ <;> rw [caught_of_ne hother]

theorem runs_syncUser
    (hruns : Script.Runs (syncUser settings listing filtered user) session transcript outcome
      left) : Turn settings listing filtered user session transcript outcome left := by
  rw [syncUser, Script.runs_get_bind_iff] at hruns
  obtain ⟨error, hmatch, rfl, rfl, rfl⟩ | ⟨found, hmatch, hruns⟩ :=
    Script.runs_ofExcept_bind_iff.mp hruns
  · exact .unmatched hmatch
  cases found with
  | conflict =>
      obtain ⟨rfl, rfl, rfl⟩ := runs_recordUsernameConflict_iff.mp hruns
      exact .conflict hmatch
  | absent =>
      obtain ⟨inner, middle, hcreate, rfl, rfl⟩ := runs_caught hruns
      exact .absent hmatch (runs_createUser hcreate)
  | matched position recoveredByUsername =>
      obtain ⟨inner, middle, hreconcile, rfl, rfl⟩ := runs_caught hruns
      exact .matched hmatch (runs_reconcileDiffs hreconcile)

end Turns

/-! ## The loop -/

/-- What turns for the users, one after another, can do. -/
inductive Turns (settings : Settings) (listing : Listing) (filtered : Bool) :
    List Dict → Session → Transcript → Except PyExc Unit → Session → Prop
  | done {session : Session} : Turns settings listing filtered [] session [] (.ok ()) session
  | aborted {user : Dict} {users : List Dict} {session left : Session}
      {transcript : Transcript} {error : PyExc}
      (hturn : Turn settings listing filtered user session transcript (.error error) left) :
      Turns settings listing filtered (user :: users) session transcript (.error error) left
  | next {user : Dict} {users : List Dict} {session middle left : Session}
      {first second : Transcript} {outcome : Except PyExc Unit}
      (hturn : Turn settings listing filtered user session first (.ok ()) middle)
      (hturns : Turns settings listing filtered users middle second outcome left) :
      Turns settings listing filtered (user :: users) session (first ++ second) outcome left

/-- What a run of the sync can do. -/
inductive SyncRun (settings : Settings) (scimUsers : List Dict) (session : Session) :
    Transcript → Except PyExc SyncResult → Session → Prop
  | unlisted {transcript : Transcript} {error : PyExc} (hreading : Reading transcript) :
      SyncRun settings scimUsers session transcript (.error error) session
  | unlinked {transcript : Transcript} {listing : Listing} {filtered : Bool} {error : PyExc}
      (hreading : Reading transcript)
      (hlisted : ListedFor scimUsers transcript listing filtered)
      (hlog : logSyncStart scimUsers = .error error) :
      SyncRun settings scimUsers session transcript (.error error)
        { session with records := listing.users }
  | ran {first second : Transcript} {listing : Listing} {filtered : Bool}
      {outcome : Except PyExc Unit} {left : Session}
      (hreading : Reading first) (hlisted : ListedFor scimUsers first listing filtered)
      (hlog : logSyncStart scimUsers = .ok ())
      (hturns : Turns settings listing filtered scimUsers
        { session with records := listing.users } second outcome left) :
      SyncRun settings scimUsers session (first ++ second)
        (outcome.map fun _ => left.result) left

section Runs

variable {settings : Settings} {listing : Listing} {filtered : Bool}
variable {session left : Session} {transcript : Transcript}

theorem runs_forM_syncUser {users : List Dict} {outcome : Except PyExc Unit}
    (hruns : Script.Runs (forM users (syncUser settings listing filtered)) session transcript
      outcome left) : Turns settings listing filtered users session transcript outcome left := by
  induction users generalizing session transcript with
  | nil =>
      rw [List.forM_nil] at hruns
      obtain ⟨rfl, rfl, rfl⟩ := Script.runs_pure_iff.mp hruns
      exact .done
  | cons user users ih =>
      rw [List.forM_cons] at hruns
      obtain ⟨error, hturn, rfl⟩ | ⟨first, _, middle, second, rfl, hturn, hturns⟩ :=
        Script.runs_bind_iff.mp hruns
      · exact .aborted (runs_syncUser hturn)
      · exact .next (runs_syncUser hturn) (ih hturns)

/-- After the listing, the loop runs where every user has an externalId. -/
theorem runs_syncListed {scimUsers : List Dict} {outcome : Except PyExc SyncResult}
    (hruns : Script.Runs (syncListed settings scimUsers listing filtered) session transcript
      outcome left) :
    (∃ error, logSyncStart scimUsers = .error error ∧ transcript = [] ∧
        outcome = .error error ∧ left = { session with records := listing.users }) ∨
      ∃ inner, logSyncStart scimUsers = .ok () ∧
        Turns settings listing filtered scimUsers { session with records := listing.users }
          transcript inner left ∧ outcome = inner.map fun _ => left.result := by
  obtain ⟨error, hlog, rfl, rfl, rfl⟩ | ⟨_, hlog, hrest⟩ :=
    Script.runs_ofExcept_bind_iff.mp (Script.runs_modify_bind_iff.mp hruns)
  · exact .inl ⟨error, hlog, rfl, rfl, rfl⟩
  · obtain ⟨error, hloop, rfl⟩ | ⟨turns, _, middle, ending, rfl, hloop, hresult⟩ :=
      Script.runs_bind_iff.mp hrest
    · exact .inr ⟨_, hlog, runs_forM_syncUser hloop, rfl⟩
    · rw [Script.runs_get_bind_iff] at hresult
      obtain ⟨rfl, rfl, rfl⟩ := Script.runs_pure_iff.mp hresult
      rw [List.append_nil]
      exact .inr ⟨_, hlog, runs_forM_syncUser hloop, rfl⟩

theorem runs_syncUsers {scimUsers : List Dict} {outcome : Except PyExc SyncResult}
    (hruns : Script.Runs (syncUsers settings scimUsers) session transcript outcome left) :
    SyncRun settings scimUsers session transcript outcome left := by
  obtain ⟨error, hlisting, rfl⟩ | ⟨first, ⟨listing, filtered⟩, _, second, rfl, hlisting, hrest⟩ :=
    Script.runs_bind_iff.mp hruns
  · obtain ⟨hreading, rfl, -⟩ := runs_existingUsers hlisting
    exact .unlisted hreading
  · obtain ⟨hreading, rfl, hfound⟩ := runs_existingUsers hlisting
    have hlisted := hfound listing filtered rfl
    obtain ⟨error, hlog, rfl, rfl, rfl⟩ | ⟨_, hlog, hturns, rfl⟩ := runs_syncListed hrest
    · rw [List.append_nil]
      exact .unlinked hreading hlisted hlog
    · exact .ran hreading hlisted hlog hturns

end Runs

end SsfTransmitter.Scim
