import SsfTransmitter.Core.TransitionSystem
import Mathlib.Data.List.Basic
import Mathlib.Data.List.Nodup
import Mathlib.Logic.Function.Basic

/-!
# Transactions that interleave

Calls that share one store.  A call may take a lock first; its statements then
run on a working copy under the store's write lock, one statement at a time,
and are committed together or not at all.  Every interleaving is shown to have
the effect of running the committed calls alone, in the order of their commits.
-/

namespace SsfTransmitter.Core

/-- The body of a transaction: statements that read and change the data, and an
end that keeps or drops what they did. -/
inductive Statements (Data Result : Type) where
  | execute (effect : Data → Data) (next : Data → Statements Data Result)
  | commit (result : Result)
  | abandon (result : Result)

namespace Statements

variable {Data Result : Type}

/-- The body on its own: its result, and the data that it commits, if any. -/
def run : Statements Data Result → Data → Result × Option Data
  | .execute effect next, data => (next data).run (effect data)
  | .commit result, data => (result, some data)
  | .abandon result, _ => (result, none)

/-- A single statement, committed. -/
def single (effect : Data → Data) (result : Data → Result) : Statements Data Result :=
  .execute effect fun data => .commit (result data)

@[simp]
theorem run_single (effect : Data → Data) (result : Data → Result) (data : Data) :
    (single effect result).run data = (result data, some (effect data)) :=
  rfl

end Statements

namespace Transactional

/-- A call: its transaction, and whether it takes the lock around it. -/
structure Call (Data Result : Type) where
  locked : Bool
  body : Statements Data Result

/-- Where a call rests.  A result is missing when an error of the store ended
the call. -/
inductive Phase (Data Result : Type) where
  | waiting
  | entered
  | running (working : Data) (rest : Statements Data Result)
  | closing (result : Option Result)
  | returned (result : Option Result)

/-- A committed call, with the data before and after it. -/
structure Commit (Data : Type) where
  call : ℕ
  before : Data
  after : Data

structure Shared (Data Result : Type) where
  data : Data
  lock : Option ℕ
  writer : Option ℕ
  phases : ℕ → Phase Data Result
  /-- the calls that took the lock, in order -/
  acquired : List ℕ
  /-- the commits, in order -/
  commits : List (Commit Data)

inductive Action where
  | acquire (call : ℕ)
  | begin (call : ℕ)
  | execute (call : ℕ)
  | finish (call : ℕ)
  | fail (call : ℕ)
  | release (call : ℕ)

variable {Data Result : Type}

namespace Shared

def init (data : Data) : Shared Data Result where
  data := data
  lock := none
  writer := none
  phases := fun _ => .waiting
  acquired := []
  commits := []

def setPhase (call : ℕ) (phase : Phase Data Result) (shared : Shared Data Result) :
    Shared Data Result :=
  { shared with phases := Function.update shared.phases call phase }

/-- The transaction of the call is over; it still has to leave the lock. -/
def close (call : ℕ) (result : Option Result) (shared : Shared Data Result) :
    Shared Data Result :=
  { shared.setPhase call (.closing result) with
    writer := if shared.writer = some call then none else shared.writer }

end Shared

/-- `BEGIN IMMEDIATE` waits for the write lock of the store; a call that takes
the lock begins inside it. -/
def mayBegin (calls : ℕ → Call Data Result) (shared : Shared Data Result)
    (call : ℕ) : Bool :=
  match shared.phases call with
  | .waiting => !(calls call).locked && shared.writer.isNone
  | .entered => shared.writer.isNone
  | _ => false

def step (calls : ℕ → Call Data Result) (shared : Shared Data Result) :
    Action → Option (Shared Data Result)
  | .acquire call =>
    match shared.phases call, shared.lock, (calls call).locked with
    | .waiting, none, true =>
      some { shared.setPhase call .entered with
        lock := some call
        acquired := shared.acquired ++ [call] }
    | _, _, _ => none
  | .begin call =>
    if mayBegin calls shared call then
      some { shared.setPhase call (.running shared.data (calls call).body) with
        writer := some call }
    else none
  | .execute call =>
    match shared.phases call with
    | .running working (.execute effect next) =>
      some (shared.setPhase call (.running (effect working) (next working)))
    | _ => none
  | .finish call =>
    match shared.phases call with
    | .running working (.commit result) =>
      some { shared.close call (some result) with
        data := working
        commits := shared.commits ++ [⟨call, shared.data, working⟩] }
    | .running _ (.abandon result) => some (shared.close call (some result))
    | _ => none
  | .fail call =>
    match shared.phases call with
    | .waiting | .entered | .running _ _ => some (shared.close call none)
    | _ => none
  | .release call =>
    match shared.phases call with
    | .closing result =>
      some { shared.setPhase call (.returned result) with
        lock := if shared.lock = some call then none else shared.lock }
    | _ => none

/-- Any number of calls on a store that starts with `data`. -/
def system (calls : ℕ → Call Data Result) (data : Data) :
    TransitionSystem (Shared Data Result) Action where
  initial := fun shared => shared = Shared.init data
  step := step calls

/-! ## What a step can do -/

inductive Step (calls : ℕ → Call Data Result) (shared : Shared Data Result) :
    Action → Shared Data Result → Prop where
  | acquire {call : ℕ} (hphase : shared.phases call = .waiting)
      (hlock : shared.lock = none) (hlocked : (calls call).locked = true) :
      Step calls shared (.acquire call)
        { shared.setPhase call .entered with
          lock := some call
          acquired := shared.acquired ++ [call] }
  | begin {call : ℕ} (hwriter : shared.writer = none)
      (hphase : shared.phases call = .waiting ∧ (calls call).locked = false ∨
        shared.phases call = .entered) :
      Step calls shared (.begin call)
        { shared.setPhase call (.running shared.data (calls call).body) with
          writer := some call }
  | execute {call : ℕ} {working : Data} {effect : Data → Data}
      {next : Data → Statements Data Result}
      (hphase : shared.phases call = .running working (.execute effect next)) :
      Step calls shared (.execute call)
        (shared.setPhase call (.running (effect working) (next working)))
  | commit {call : ℕ} {working : Data} {result : Result}
      (hphase : shared.phases call = .running working (.commit result)) :
      Step calls shared (.finish call)
        { shared.close call (some result) with
          data := working
          commits := shared.commits ++ [⟨call, shared.data, working⟩] }
  | abandon {call : ℕ} {working : Data} {result : Result}
      (hphase : shared.phases call = .running working (.abandon result)) :
      Step calls shared (.finish call) (shared.close call (some result))
  | fail {call : ℕ}
      (hphase : ∀ result, shared.phases call ≠ .closing result ∧
        shared.phases call ≠ .returned result) :
      Step calls shared (.fail call) (shared.close call none)
  | release {call : ℕ} {result : Option Result}
      (hphase : shared.phases call = .closing result) :
      Step calls shared (.release call)
        { shared.setPhase call (.returned result) with
          lock := if shared.lock = some call then none else shared.lock }

theorem Step.of_step {calls : ℕ → Call Data Result} {shared next : Shared Data Result}
    {action : Action} (hstep : step calls shared action = some next) :
    Step calls shared action next := by
  cases action with
  | acquire call =>
      simp only [step] at hstep
      split at hstep
      next hphase hlock hlocked =>
        obtain rfl := Option.some.inj hstep
        exact .acquire hphase hlock hlocked
      next => cases hstep
  | begin call =>
      simp only [step] at hstep
      split_ifs at hstep with hbegin
      obtain rfl := Option.some.inj hstep
      rw [mayBegin] at hbegin
      split at hbegin
      next hphase =>
        simp only [Bool.and_eq_true, Bool.not_eq_true', Option.isNone_iff_eq_none]
          at hbegin
        exact .begin hbegin.2 (.inl ⟨hphase, hbegin.1⟩)
      next hphase =>
        exact .begin (Option.isNone_iff_eq_none.mp hbegin) (.inr hphase)
      next => cases hbegin
  | execute call =>
      simp only [step] at hstep
      split at hstep
      next hphase =>
        obtain rfl := Option.some.inj hstep
        exact .execute hphase
      next => cases hstep
  | finish call =>
      simp only [step] at hstep
      split at hstep
      next hphase =>
        obtain rfl := Option.some.inj hstep
        exact .commit hphase
      next hphase =>
        obtain rfl := Option.some.inj hstep
        exact .abandon hphase
      next => cases hstep
  | fail call =>
      simp only [step] at hstep
      split at hstep
      next hphase =>
        obtain rfl := Option.some.inj hstep
        exact .fail (by simp [hphase])
      next hphase =>
        obtain rfl := Option.some.inj hstep
        exact .fail (by simp [hphase])
      next hphase =>
        obtain rfl := Option.some.inj hstep
        exact .fail (by simp [hphase])
      next => cases hstep
  | release call =>
      simp only [step] at hstep
      split at hstep
      next hphase =>
        obtain rfl := Option.some.inj hstep
        exact .release hphase
      next => cases hstep

/-! ## Committed versions -/

/-- Each commit starts from the data that the one before it left. -/
def Chain (start : Data) : List (Commit Data) → Data → Prop
  | [], last => last = start
  | commit :: rest, last => commit.before = start ∧ Chain commit.after rest last

theorem Chain.snoc {start last : Data} {commits : List (Commit Data)}
    {commit : Commit Data} (hchain : Chain start commits last)
    (hbefore : commit.before = last) : Chain start (commits ++ [commit]) commit.after := by
  induction commits generalizing start with
  | nil => exact ⟨hbefore.trans hchain, rfl⟩
  | cons first rest ih => exact ⟨hchain.1, ih hchain.2⟩

/-- The data that were committed at some time. -/
def versions (start : Data) (commits : List (Commit Data)) : List Data :=
  start :: commits.map Commit.after

theorem Chain.mem_versions {start last : Data} {commits : List (Commit Data)}
    (hchain : Chain start commits last) : last ∈ versions start commits := by
  induction commits generalizing start with
  | nil => exact hchain ▸ List.mem_singleton_self _
  | cons first rest ih => exact List.mem_cons_of_mem _ (ih hchain.2)

/-- What every commit keeps holds of every version. -/
theorem Chain.preserves {start last : Data} {commits : List (Commit Data)}
    {property : Data → Prop} (hchain : Chain start commits last) (hstart : property start)
    (hstep : ∀ commit ∈ commits, property commit.before → property commit.after) :
    (∀ commit ∈ commits, property commit.before) ∧
      ∀ version ∈ versions start commits, property version := by
  induction commits generalizing start with
  | nil => exact ⟨by simp, by simpa [versions] using hstart⟩
  | cons first rest ih =>
      have hbefore : property first.before := hchain.1 ▸ hstart
      have hafter := hstep first List.mem_cons_self hbefore
      obtain ⟨hbefores, hversions⟩ := ih hchain.2 hafter
        fun commit hcommit => hstep commit (List.mem_cons_of_mem _ hcommit)
      refine ⟨fun commit hcommit => ?_, fun version hversion => ?_⟩
      · rcases List.mem_cons.mp hcommit with rfl | hrest
        · exact hbefore
        · exact hbefores commit hrest
      · rcases List.mem_cons.mp hversion with rfl | hrest
        · exact hstart
        · exact hversions version hrest

/-! ## Every interleaving is serial -/

namespace Shared

/-- The call is inside its lock, or its transaction is open. -/
def Active (shared : Shared Data Result) (call : ℕ) : Prop :=
  shared.phases call = .entered ∨
    ∃ working rest, shared.phases call = .running working rest

/-- The call ended with the result. -/
def Ended (shared : Shared Data Result) (call : ℕ) (result : Option Result) : Prop :=
  shared.phases call = .closing result ∨ shared.phases call = .returned result

theorem Ended.unique {shared : Shared Data Result} {call : ℕ}
    {first second : Option Result} (hfirst : shared.Ended call first)
    (hsecond : shared.Ended call second) : first = second := by
  rcases hfirst with hfirst | hfirst <;> rcases hsecond with hsecond | hsecond <;>
    rw [hfirst] at hsecond <;> cases hsecond <;> rfl

/-- The calls that committed, in order. -/
def committers (shared : Shared Data Result) : List ℕ :=
  shared.commits.map Commit.call

@[simp, grind =]
theorem phases_setPhase (shared : Shared Data Result) (call other : ℕ)
    (phase : Phase Data Result) : (shared.setPhase call phase).phases other =
      if other = call then phase else shared.phases other := by
  simp [setPhase, Function.update_apply]

@[simp, grind =]
theorem writer_setPhase (shared : Shared Data Result) (call : ℕ)
    (phase : Phase Data Result) : (shared.setPhase call phase).writer = shared.writer :=
  rfl

@[simp, grind =]
theorem lock_setPhase (shared : Shared Data Result) (call : ℕ)
    (phase : Phase Data Result) : (shared.setPhase call phase).lock = shared.lock :=
  rfl

@[simp, grind =]
theorem phases_close (shared : Shared Data Result) (call other : ℕ)
    (result : Option Result) : (shared.close call result).phases other =
      if other = call then .closing result else shared.phases other := by
  simp [close, setPhase, Function.update_apply]

@[simp, grind =]
theorem writer_close (shared : Shared Data Result) (call : ℕ)
    (result : Option Result) : (shared.close call result).writer =
      if shared.writer = some call then none else shared.writer :=
  rfl

@[simp, grind =]
theorem lock_close (shared : Shared Data Result) (call : ℕ) (result : Option Result) :
    (shared.close call result).lock = shared.lock :=
  rfl

@[simp]
theorem acquired_close (shared : Shared Data Result) (call : ℕ)
    (result : Option Result) : (shared.close call result).acquired = shared.acquired :=
  rfl

end Shared

/-- Who holds the lock and the write lock. -/
structure Discipline (calls : ℕ → Call Data Result) (shared : Shared Data Result) :
    Prop where
  writer : ∀ call working rest, shared.phases call = .running working rest →
    shared.writer = some call
  lock : ∀ call, (calls call).locked = true → shared.Active call →
    shared.lock = some call
  entered : ∀ call, shared.phases call = .entered → (calls call).locked = true

/-- The commits are the calls run alone, one after another. -/
structure Serial (calls : ℕ → Call Data Result) (start : Data)
    (shared : Shared Data Result) : Prop where
  progress : ∀ call working rest, shared.phases call = .running working rest →
    (calls call).body.run shared.data = rest.run working
  chain : Chain start shared.commits shared.data
  committed : ∀ commit ∈ shared.commits, ∃ result,
    (calls commit.call).body.run commit.before = (result, some commit.after) ∧
      shared.Ended commit.call (some result)
  once : shared.committers.Nodup
  ended : ∀ call result, shared.Ended call (some result) →
    call ∈ shared.committers ∨
      ∃ version ∈ versions start shared.commits,
        (calls call).body.run version = (result, none)

/-- The calls that take the lock commit in the order in which they took it. -/
structure Ordered (calls : ℕ → Call Data Result) (shared : Shared Data Result) :
    Prop where
  acquired : ∀ call ∈ shared.acquired, shared.phases call ≠ .waiting
  nodup : shared.acquired.Nodup
  commits : (shared.committers.filter fun call => (calls call).locked).Sublist
    shared.acquired
  holder : ∀ call, (calls call).locked = true → shared.Active call →
    ∃ front, shared.acquired = front ++ [call] ∧
      (shared.committers.filter fun other => (calls other).locked).Sublist front

section Preservation

variable {calls : ℕ → Call Data Result} {start : Data}
  {shared following : Shared Data Result} {action : Action}

theorem Discipline.next (hshared : Discipline calls shared)
    (hstep : Step calls shared action following) : Discipline calls following := by
  obtain ⟨hwriter, hlock, hentered⟩ := hshared
  cases hstep with
  | acquire hphase hfree hlocked => constructor <;> grind [Shared.Active]
  | begin hfree hphase => constructor <;> grind [Shared.Active]
  | execute hphase => constructor <;> grind [Shared.Active]
  | commit hphase => constructor <;> grind [Shared.Active]
  | abandon hphase => constructor <;> grind [Shared.Active]
  | fail hphase => constructor <;> grind [Shared.Active]
  | release hphase => constructor <;> grind [Shared.Active]

/-- A step that commits nothing and ends no call with a result. -/
theorem Serial.of_quiet (hshared : Serial calls start shared)
    (hdata : following.data = shared.data) (hcommits : following.commits = shared.commits)
    (hended : ∀ call result,
      following.Ended call (some result) ↔ shared.Ended call (some result))
    (hprogress : ∀ call working rest, following.phases call = .running working rest →
      (calls call).body.run shared.data = rest.run working) :
    Serial calls start following where
  progress := hdata ▸ hprogress
  chain := by rw [hdata, hcommits]; exact hshared.chain
  committed commit hcommit := by
    obtain ⟨result, hrun, hend⟩ := hshared.committed commit (hcommits ▸ hcommit)
    exact ⟨result, hrun, (hended _ _).mpr hend⟩
  once := by rw [Shared.committers, hcommits]; exact hshared.once
  ended call result hend := by
    rw [Shared.committers, hcommits]
    exact hshared.ended call result ((hended _ _).mp hend)

/-- The call that commits has not committed before. -/
theorem Serial.not_mem_committers (hshared : Serial calls start shared) {call : ℕ}
    (hended : ∀ result, ¬shared.Ended call (some result)) :
    call ∉ shared.committers := by
  intro hmem
  obtain ⟨commit, hcommit, rfl⟩ := List.mem_map.mp hmem
  obtain ⟨result, -, hend⟩ := hshared.committed commit hcommit
  exact hended result hend

theorem Serial.next (hdiscipline : Discipline calls shared)
    (hshared : Serial calls start shared)
    (hstep : Step calls shared action following) : Serial calls start following := by
  cases hstep with
  | acquire hphase hfree hlocked =>
      refine hshared.of_quiet rfl rfl ?_ ?_
      · grind [Shared.Ended]
      · have hprogress := hshared.progress
        grind
  | begin hfree hphase =>
      refine hshared.of_quiet rfl rfl ?_ ?_
      · grind [Shared.Ended]
      · have hprogress := hshared.progress
        grind
  | execute hphase =>
      refine hshared.of_quiet rfl rfl ?_ ?_
      · grind [Shared.Ended]
      · have hprogress := hshared.progress
        grind [Statements.run]
  | @commit call working result hphase =>
      have halone : ∀ other working' rest,
          shared.phases other = .running working' rest → other = call := by
        intro other working' rest hother
        have hfirst := hdiscipline.writer other working' rest hother
        have hsecond := hdiscipline.writer call working _ hphase
        exact Option.some.inj (hfirst.symm.trans hsecond)
      have hopen : ∀ outcome, ¬shared.Ended call (some outcome) := by
        intro outcome hend
        simp [Shared.Ended, hphase] at hend
      have hrun : (calls call).body.run shared.data = (result, some working) :=
        hshared.progress call working _ hphase
      constructor
      case progress =>
        intro other working' rest hother
        simp only [Shared.phases_close] at hother
        split_ifs at hother with hcall
        exact absurd (halone other working' rest hother) hcall
      case chain => exact hshared.chain.snoc rfl
      case committed =>
        intro commit hcommit
        rcases List.mem_append.mp hcommit with hold | hnew
        · obtain ⟨outcome, hold, hend⟩ := hshared.committed commit hold
          have hne : commit.call ≠ call := by
            rintro rfl
            exact hopen outcome hend
          exact ⟨outcome, hold, by simpa [Shared.Ended, hne] using hend⟩
        · obtain rfl := List.mem_singleton.mp hnew
          exact ⟨result, hrun, by simp [Shared.Ended]⟩
      case once =>
        simp only [Shared.committers, List.map_append, List.map_cons, List.map_nil]
        refine List.nodup_append.mpr ⟨hshared.once, List.nodup_singleton _, ?_⟩
        intro other hother new hnew heq
        obtain rfl := List.mem_singleton.mp hnew
        exact hshared.not_mem_committers hopen (heq ▸ hother)
      case ended =>
        intro other outcome hend
        by_cases hcall : other = call
        · exact Or.inl (by simp [Shared.committers, hcall])
        · have hold : shared.Ended other (some outcome) := by
            simpa [Shared.Ended, hcall] using hend
          rcases hshared.ended other outcome hold with hmem | ⟨version, hmem, hversion⟩
          · refine Or.inl ?_
            rw [Shared.committers, List.map_append]
            exact List.mem_append_left _ hmem
          · refine Or.inr ⟨version, ?_, hversion⟩
            rw [versions, List.map_append, ← List.cons_append]
            exact List.mem_append_left _ hmem
  | @abandon call working result hphase =>
      have hrun : (calls call).body.run shared.data = (result, none) :=
        hshared.progress call working _ hphase
      constructor
      case progress =>
        have hprogress := hshared.progress
        intro other working' rest hother
        simp only [Shared.phases_close] at hother
        split_ifs at hother with hcall
        exact hprogress other working' rest hother
      case chain => exact hshared.chain
      case committed =>
        intro commit hcommit
        obtain ⟨outcome, hold, hend⟩ := hshared.committed commit hcommit
        have hne : commit.call ≠ call := by
          rintro rfl
          simp [Shared.Ended, hphase] at hend
        exact ⟨outcome, hold, by simpa [Shared.Ended, hne] using hend⟩
      case once => exact hshared.once
      case ended =>
        intro other outcome hend
        by_cases hcall : other = call
        · obtain rfl : result = outcome := by simpa [Shared.Ended, hcall] using hend
          exact Or.inr ⟨shared.data, hshared.chain.mem_versions, hcall ▸ hrun⟩
        · exact hshared.ended other outcome (by simpa [Shared.Ended, hcall] using hend)
  | fail hphase =>
      refine hshared.of_quiet rfl rfl ?_ ?_
      · grind [Shared.Ended]
      · have hprogress := hshared.progress
        grind
  | release hphase =>
      refine hshared.of_quiet rfl rfl ?_ ?_
      · grind [Shared.Ended]
      · have hprogress := hshared.progress
        grind

/-- A call commits once. -/
theorem Serial.commit_unique (hshared : Serial calls start shared)
    {first second : Commit Data} (hfirst : first ∈ shared.commits)
    (hsecond : second ∈ shared.commits) (hcall : first.call = second.call) :
    first = second :=
  List.inj_on_of_nodup_map hshared.once hfirst hsecond hcall

/-- A step without a commit and outside the lock. -/
theorem Ordered.of_quiet (hshared : Ordered calls shared)
    (hacquired : following.acquired = shared.acquired)
    (hcommits : following.commits = shared.commits)
    (hwaiting : ∀ call, following.phases call = .waiting → shared.phases call = .waiting)
    (hactive : ∀ call, (calls call).locked = true → following.Active call →
      shared.Active call) :
    Ordered calls following where
  acquired call hcall hphase :=
    hshared.acquired call (hacquired ▸ hcall) (hwaiting call hphase)
  nodup := hacquired ▸ hshared.nodup
  commits := by rw [hacquired, Shared.committers, hcommits]; exact hshared.commits
  holder call hlocked hcall := by
    rw [hacquired, Shared.committers, hcommits]
    exact hshared.holder call hlocked (hactive call hlocked hcall)

theorem Ordered.next (hdiscipline : Discipline calls shared)
    (hshared : Ordered calls shared)
    (hstep : Step calls shared action following) : Ordered calls following := by
  cases hstep with
  | @acquire call hphase hfree hlocked =>
      have hfresh : call ∉ shared.acquired := fun hmem =>
        hshared.acquired call hmem hphase
      constructor
      case acquired =>
        intro other hother
        simp only [Shared.phases_setPhase]
        split_ifs with hcall
        · simp
        · refine hshared.acquired other ?_
          simpa [hcall] using hother
      case nodup =>
        refine List.nodup_append.mpr ⟨hshared.nodup, List.nodup_singleton _, ?_⟩
        intro other hother new hnew heq
        obtain rfl := List.mem_singleton.mp hnew
        exact hfresh (heq ▸ hother)
      case commits => exact hshared.commits.trans (List.sublist_append_left _ _)
      case holder =>
        intro other hother hactive
        by_cases hcall : other = call
        · exact ⟨shared.acquired, by rw [hcall], hshared.commits⟩
        · have hbefore : shared.Active other := by
            simpa [Shared.Active, hcall] using hactive
          rw [hdiscipline.lock other hother hbefore] at hfree
          cases hfree
  | begin hfree hphase =>
      refine hshared.of_quiet rfl rfl ?_ ?_ <;> grind [Shared.Active]
  | execute hphase =>
      refine hshared.of_quiet rfl rfl ?_ ?_ <;> grind [Shared.Active]
  | @commit call working result hphase =>
      have hactive : shared.Active call := .inr ⟨_, _, hphase⟩
      constructor
      case acquired =>
        intro other hother
        have hold := hshared.acquired other hother
        simp only [Shared.phases_close]
        split_ifs
        · simp
        · exact hold
      case nodup => exact hshared.nodup
      case commits =>
        simp only [Shared.committers, List.map_append, List.filter_append]
        by_cases hlocked : (calls call).locked = true
        · obtain ⟨front, hfront, hsublist⟩ := hshared.holder call hlocked hactive
          have hlast : ([call].filter fun other => (calls other).locked) = [call] := by
            simp [hlocked]
          change (_ ++ [call].filter fun other => (calls other).locked).Sublist
            shared.acquired
          rw [hlast, hfront]
          exact hsublist.append (List.Sublist.refl _)
        · simpa [Shared.committers, hlocked] using hshared.commits
      case holder =>
        intro other hother hcurrent
        have hne : other ≠ call := by
          rintro rfl
          simp [Shared.Active] at hcurrent
        have hbefore : shared.Active other := by
          simpa [Shared.Active, hne] using hcurrent
        have hunlocked : (calls call).locked = false := by
          by_contra hlocked
          rw [Bool.not_eq_false] at hlocked
          have hfirst := hdiscipline.lock other hother hbefore
          exact hne (Option.some.inj
            (hfirst.symm.trans (hdiscipline.lock call hlocked hactive)))
        simpa [Shared.committers, hunlocked] using hshared.holder other hother hbefore
  | abandon hphase =>
      refine hshared.of_quiet rfl rfl ?_ ?_ <;> grind [Shared.Active]
  | fail hphase =>
      refine hshared.of_quiet rfl rfl ?_ ?_ <;> grind [Shared.Active]
  | release hphase =>
      refine hshared.of_quiet rfl rfl ?_ ?_ <;> grind [Shared.Active]

/-- What holds in every state that the calls reach. -/
structure Invariant (calls : ℕ → Call Data Result) (start : Data)
    (shared : Shared Data Result) : Prop where
  discipline : Discipline calls shared
  serial : Serial calls start shared
  ordered : Ordered calls shared

theorem invariant_of_reachable (hshared : (system calls start).Reachable shared) :
    Invariant calls start shared := by
  refine hshared.invariant ?_ fun source action target _ hsource _ hstep => ?_
  · rintro _ rfl
    refine ⟨?_, ?_, ?_⟩ <;> constructor <;>
      simp [Shared.init, Shared.Active, Shared.Ended, Shared.committers, Chain]
  · have htaken := Step.of_step hstep
    exact ⟨hsource.discipline.next htaken, hsource.serial.next hsource.discipline htaken,
      hsource.ordered.next hsource.discipline htaken⟩

/-- The data are those of the committed calls run alone, one after another. -/
theorem Serial.data_eq (hshared : Serial calls start shared) :
    shared.data = shared.committers.foldl
      (fun data call => (((calls call).body.run data).2).getD data) start := by
  suffices hfold : ∀ commits (start : Data), Chain start commits shared.data →
      (∀ commit ∈ commits, ∃ result,
        (calls commit.call).body.run commit.before = (result, some commit.after)) →
      shared.data = (commits.map Commit.call).foldl
        (fun data call => (((calls call).body.run data).2).getD data) start from
    hfold shared.commits start hshared.chain fun commit hcommit =>
      (hshared.committed commit hcommit).imp fun _ hcommitted => hcommitted.1
  intro commits
  induction commits with
  | nil => exact fun _ hchain _ => hchain
  | cons commit rest ih =>
      intro start hchain hcommitted
      obtain ⟨result, hrun⟩ := hcommitted commit List.mem_cons_self
      rw [hchain.1] at hrun
      rw [List.map_cons, List.foldl_cons, hrun]
      exact ih commit.after hchain.2 fun other hother =>
        hcommitted other (List.mem_cons_of_mem _ hother)

end Preservation

end Transactional
end SsfTransmitter.Core
