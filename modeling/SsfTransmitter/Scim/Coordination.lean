import SsfTransmitter.Core.TransitionSystem
import Mathlib.Logic.Function.Basic
import Mathlib.Tactic.Common

/-!
# One Apple operation at a time

`_Coordinator.operation` as the calls of it interleave.  A call rests only where
it awaits: in `_idle.wait()`, and in the body of its `async with`.  From one rest
to the next it runs alone, so each such stretch is one step.
-/

namespace SsfTransmitter.Scim

open SsfTransmitter.Core

/-- How the body of an operation ends; a cancellation is one of the exceptions. -/
inductive BodyExit where
  | returned
  | raised
  deriving DecidableEq

/-- Where a call of `operation` rests.  A waiter is `woken` when its future has a
result, and `cancelled` when its task is to be resumed with `CancelledError`. -/
inductive Entry where
  | outside
  | waiting (woken cancelled : Bool)
  | inside
  | refused
  | withdrawn
  | left (exit : BodyExit)
  -- the loop goes round without ever suspending
  | spinning
  deriving DecidableEq

/-- A call that is not under way may be made (again). -/
def Entry.ready : Entry → Bool
  | .outside | .refused | .withdrawn | .left _ => true
  | .waiting _ _ | .inside | .spinning => false

/-- `fut.set_result(True)` for the future of a waiter. -/
def Entry.wake : Entry → Entry
  | .waiting _ cancelled => .waiting true cancelled
  | entry => entry

/-- `_Coordinator`: the flag `_busy`, the event `_idle`, and the calls. -/
structure Coordinator where
  busy : Bool
  idle : Bool
  calls : ℕ → Entry

namespace Coordinator

/-- `__init__` -/
def init : Coordinator where
  busy := false
  idle := true
  calls := fun _ => .outside

def place (call : ℕ) (entry : Entry) (coordinator : Coordinator) : Coordinator :=
  { coordinator with calls := Function.update coordinator.calls call entry }

/-- `self._idle.set()` wakes the waiters, unless the event is set already. -/
def setIdle (coordinator : Coordinator) : Coordinator :=
  if coordinator.idle then coordinator
  else
    { coordinator with
      idle := true
      calls := fun call => (coordinator.calls call).wake }

/-- `operation` from the test of its loop to the next rest.  While the event is
set, `wait()` returns at once and the loop tests the same flag again. -/
def proceed (call : ℕ) (wait : Bool) (coordinator : Coordinator) : Coordinator :=
  if coordinator.busy then
    if !wait then coordinator.place call .refused
    else if coordinator.idle then coordinator.place call .spinning
    else coordinator.place call (.waiting false false)
  else { coordinator.place call .inside with busy := true, idle := false }

/-- The `finally` of `operation`. -/
def finish (call : ℕ) (exit : BodyExit) (coordinator : Coordinator) : Coordinator :=
  ({ coordinator.place call (.left exit) with busy := false }).setIdle

end Coordinator

/-- A task enters, is resumed, is cancelled, or leaves the body. -/
inductive CoordinatorAction where
  | enter (call : ℕ) (wait : Bool)
  | resume (call : ℕ)
  | cancel (call : ℕ)
  | leave (call : ℕ) (exit : BodyExit)

namespace Coordinator

def step (coordinator : Coordinator) : CoordinatorAction → Option Coordinator
  | .enter call wait =>
    if (coordinator.calls call).ready then some (coordinator.proceed call wait) else none
  | .resume call =>
    match coordinator.calls call with
    -- `CancelledError` is raised in `wait()`, outside the `try`
    | .waiting _ true => some (coordinator.place call .withdrawn)
    | .waiting true false => some (coordinator.proceed call true)
    | _ => none
  | .cancel call =>
    match coordinator.calls call with
    | .waiting woken _ => some (coordinator.place call (.waiting woken true))
    -- in the body the exception is one of its exits
    | .inside => some coordinator
    | _ => none
  | .leave call exit =>
    match coordinator.calls call with
    | .inside => some (coordinator.finish call exit)
    | _ => none

/-- Any number of calls of one coordinator. -/
def coordination : TransitionSystem Coordinator CoordinatorAction where
  initial := fun coordinator => coordinator = init
  step := step

/-- The other calls and the connection are as they were. -/
structure Untouched (call : ℕ) (coordinator next : Coordinator) : Prop where
  busy : next.busy = coordinator.busy
  idle : next.idle = coordinator.idle
  others : ∀ other, other ≠ call → next.calls other = coordinator.calls other

/-- What holds at every rest of every call. -/
structure Coherent (coordinator : Coordinator) : Prop where
  holder : coordinator.busy = true ↔ ∃ call, coordinator.calls call = .inside
  single : ∀ first second, coordinator.calls first = .inside →
    coordinator.calls second = .inside → first = second
  idle : coordinator.idle = !coordinator.busy
  awake : coordinator.idle = true → ∀ call woken cancelled,
    coordinator.calls call = .waiting woken cancelled → woken = true ∨ cancelled = true
  suspends : ∀ call, coordinator.calls call ≠ .spinning

variable {coordinator following : Coordinator} {call : ℕ}

@[simp]
theorem busy_place (entry : Entry) : (coordinator.place call entry).busy = coordinator.busy :=
  rfl

@[simp]
theorem idle_place (entry : Entry) : (coordinator.place call entry).idle = coordinator.idle :=
  rfl

@[simp]
theorem calls_place (entry : Entry) (other : ℕ) :
    (coordinator.place call entry).calls other =
      if other = call then entry else coordinator.calls other := by
  simp [place, Function.update_apply]

theorem untouched_place (entry : Entry) :
    Untouched call coordinator (coordinator.place call entry) where
  busy := rfl
  idle := rfl
  others other hother := by simp [hother]

@[simp]
theorem wake_eq_inside {entry : Entry} : entry.wake = .inside ↔ entry = .inside := by
  cases entry <;> simp [Entry.wake]

@[simp]
theorem wake_ne_spinning {entry : Entry} : entry.wake = .spinning ↔ entry = .spinning := by
  cases entry <;> simp [Entry.wake]

theorem woken_of_wake {entry : Entry} {woken cancelled : Bool}
    (hwake : entry.wake = .waiting woken cancelled) : woken = true := by
  cases entry <;> simp_all [Entry.wake]

/-! ## What a step keeps -/

/-- A call that moves between rests outside the body. -/
theorem Coherent.place (hcoherent : coordinator.Coherent) {entry : Entry}
    (hbefore : coordinator.calls call ≠ .inside) (hentry : entry ≠ .inside)
    (hspinning : entry ≠ .spinning)
    (hawake : ∀ woken cancelled, entry = .waiting woken cancelled →
      coordinator.idle = true → woken = true ∨ cancelled = true) :
    (coordinator.place call entry).Coherent where
  holder := by
    rw [busy_place, hcoherent.holder]
    refine exists_congr fun other => ?_
    by_cases hother : other = call
    · subst hother
      simp [hbefore, hentry]
    · simp [hother]
  single first second hfirst hsecond := by
    simp only [calls_place] at hfirst hsecond
    split_ifs at hfirst hsecond
    all_goals first
      | exact absurd hfirst hentry
      | exact absurd hsecond hentry
      | exact hcoherent.single first second hfirst hsecond
  idle := hcoherent.idle
  awake hidle other woken cancelled hother := by
    simp only [calls_place] at hother
    split_ifs at hother
    · exact hawake woken cancelled hother hidle
    · exact hcoherent.awake hidle other woken cancelled hother
  suspends other := by
    simp only [calls_place]
    split_ifs
    · exact hspinning
    · exact hcoherent.suspends other

/-- While the connection is free, no call is in the body. -/
theorem Coherent.ne_inside (hcoherent : coordinator.Coherent)
    (hfree : coordinator.busy = false) (other : ℕ) : coordinator.calls other ≠ .inside := by
  intro hother
  have hbusy := hcoherent.holder.mpr ⟨other, hother⟩
  rw [hfree] at hbusy
  cases hbusy

theorem Coherent.proceed (hcoherent : coordinator.Coherent) (wait : Bool)
    (hbefore : coordinator.calls call ≠ .inside) :
    (coordinator.proceed call wait).Coherent := by
  rw [Coordinator.proceed]
  split_ifs with hbusy hwait hidle
  · exact hcoherent.place hbefore (by simp) (by simp) (by simp)
  · rw [hcoherent.idle, hbusy] at hidle
    cases hidle
  · exact hcoherent.place hbefore (by simp) (by simp) fun _ _ _ hset => absurd hset hidle
  · rw [Bool.not_eq_true] at hbusy
    have houtside := hcoherent.ne_inside hbusy
    constructor
    case holder => exact iff_of_true rfl ⟨call, by simp⟩
    case single =>
      intro first second hfirst hsecond
      simp only [calls_place] at hfirst hsecond
      split_ifs at hfirst hsecond with hone htwo
      · rw [hone, htwo]
      · exact absurd hsecond (houtside second)
      · exact absurd hfirst (houtside first)
      · exact absurd hfirst (houtside first)
    case idle => rfl
    case awake => exact nofun
    case suspends =>
      intro other
      simp only [calls_place]
      split_ifs
      · simp
      · exact hcoherent.suspends other

theorem Coherent.finish (hcoherent : coordinator.Coherent) (exit : BodyExit)
    (hinside : coordinator.calls call = .inside) :
    (coordinator.finish call exit).Coherent := by
  have hbusy : coordinator.idle = false := by
    rw [hcoherent.idle, hcoherent.holder.mpr ⟨call, hinside⟩]
    rfl
  have hcalls : ∀ other, (coordinator.finish call exit).calls other =
      if other = call then .left exit else (coordinator.calls other).wake := by
    intro other
    simp only [Coordinator.finish, setIdle, idle_place, hbusy, Bool.false_eq_true, if_false,
      calls_place]
    split_ifs <;> rfl
  have hfree : ∀ other, (coordinator.finish call exit).calls other ≠ .inside := by
    intro other hother
    rw [hcalls] at hother
    split_ifs at hother with hsame
    exact hsame (hcoherent.single other call (wake_eq_inside.mp hother) hinside)
  have hidle : (coordinator.finish call exit).idle = true := by
    simp [Coordinator.finish, setIdle, hbusy]
  have hbusy' : (coordinator.finish call exit).busy = false := by
    simp [Coordinator.finish, setIdle, hbusy]
  constructor
  case holder => simpa [hbusy'] using hfree
  case single => exact fun first _ hfirst _ => absurd hfirst (hfree first)
  case idle => rw [hidle, hbusy']; rfl
  case awake =>
    intro _ other woken cancelled hother
    rw [hcalls] at hother
    split_ifs at hother
    exact Or.inl (woken_of_wake hother)
  case suspends =>
    intro other
    rw [hcalls]
    split_ifs
    · simp
    · simpa using hcoherent.suspends other

theorem Coherent.next (hcoherent : coordinator.Coherent) {action : CoordinatorAction}
    (hstep : coordinator.step action = some following) : following.Coherent := by
  cases action with
  | enter call wait =>
      simp only [step] at hstep
      split_ifs at hstep with hready
      obtain rfl := Option.some.inj hstep
      refine hcoherent.proceed wait fun hinside => ?_
      rw [hinside] at hready
      cases hready
  | resume call =>
      simp only [step] at hstep
      split at hstep
      · next hwaiting =>
        obtain rfl := Option.some.inj hstep
        exact hcoherent.place (by simp [hwaiting]) (by simp) (by simp) (by simp)
      · next hwaiting =>
        obtain rfl := Option.some.inj hstep
        exact hcoherent.proceed true (by simp [hwaiting])
      · cases hstep
  | cancel call =>
      simp only [step] at hstep
      split at hstep
      · next hwaiting =>
        obtain rfl := Option.some.inj hstep
        exact hcoherent.place (by simp [hwaiting]) (by simp) (by simp) (by simp)
      · obtain rfl := Option.some.inj hstep
        exact hcoherent
      · cases hstep
  | leave call exit =>
      simp only [step] at hstep
      split at hstep
      · next hinside =>
        obtain rfl := Option.some.inj hstep
        exact hcoherent.finish exit hinside
      · cases hstep

theorem coherent_of_reachable (hreachable : coordination.Reachable coordinator) :
    coordinator.Coherent := by
  refine hreachable.invariant ?_ fun source action target _ hsource _ hstep => ?_
  · rintro _ rfl
    constructor <;> simp [init]
  · exact hsource.next hstep

/-! ## The operation is exclusive -/

/-- One operation at a time: in every reachable state at most one call is in the
body, the event is set exactly while the connection is free, no call spins, and
every waiter can go on once it is free.  A call that does not wait is refused
exactly while an operation is in progress, and a refused call and a cancelled
waiter change nothing but themselves. -/
theorem operation_exclusive_of_reachable (hreachable : coordination.Reachable coordinator) :
    (∀ first second, coordinator.calls first = .inside →
      coordinator.calls second = .inside → first = second) ∧
    (coordinator.idle = true ↔ coordinator.busy = false) ∧
    (∀ call, coordinator.calls call ≠ .spinning) ∧
    (coordinator.busy = false → ∀ call woken cancelled,
      coordinator.calls call = .waiting woken cancelled →
      coordinator.step (.resume call) = some
        (if cancelled then coordinator.place call .withdrawn
        else { coordinator.place call .inside with busy := true, idle := false })) ∧
    (∀ call following, coordinator.step (.enter call false) = some following →
      (following.calls call = .refused ↔ ∃ holder, coordinator.calls holder = .inside) ∧
      (following.calls call = .refused → Untouched call coordinator following)) ∧
    ∀ call woken cancelled following, coordinator.calls call = .waiting woken cancelled →
      (coordinator.step (.cancel call) = some following →
        following.calls call = .waiting woken true ∧ Untouched call coordinator following) ∧
      (cancelled = true → coordinator.step (.resume call) = some following →
        following.calls call = .withdrawn ∧ Untouched call coordinator following) := by
  have hcoherent := coherent_of_reachable hreachable
  refine ⟨hcoherent.single, ?_, hcoherent.suspends, ?_, ?_, ?_⟩
  · rw [hcoherent.idle, Bool.not_eq_true']
  · intro hfree call woken cancelled hwaiting
    have hidle : coordinator.idle = true := by
      rw [hcoherent.idle, hfree]
      rfl
    cases cancelled with
    | true => simp [step, hwaiting]
    | false =>
        obtain rfl : woken = true := by
          simpa using hcoherent.awake hidle call woken false hwaiting
        simp [step, hwaiting, proceed, hfree]
  · intro call following hstep
    simp only [step] at hstep
    split_ifs at hstep with hready
    obtain rfl := Option.some.inj hstep
    rw [← hcoherent.holder, proceed]
    by_cases hbusy : coordinator.busy = true
    · simpa [hbusy] using untouched_place .refused
    · simp [hbusy]
  · intro call woken cancelled following hwaiting
    refine ⟨fun hstep => ?_, fun hcancelled hstep => ?_⟩
    · simp only [step, hwaiting, Option.some.injEq] at hstep
      subst hstep
      exact ⟨by simp, untouched_place _⟩
    · subst hcancelled
      simp only [step, hwaiting, Option.some.injEq] at hstep
      subst hstep
      exact ⟨by simp, untouched_place _⟩

/-- Two waiters, one of them cancelled, and a call that does not wait. -/
def sampleOperations : List CoordinatorAction :=
  [.enter 0 true, .enter 1 true, .enter 2 true, .enter 3 false, .cancel 1, .resume 1,
    .leave 0 .raised]

theorem operation_exclusive_sample : ∃ coordinator : Coordinator,
    coordination.run init sampleOperations = some coordinator ∧
      coordinator.step (.resume 2) =
        some { coordinator.place 2 .inside with busy := true, idle := false } := by
  have hsample : ((coordination.run init sampleOperations).map fun coordinator =>
      (coordinator.busy, coordinator.calls 2)) = some (false, .waiting true false) := by
    decide
  obtain ⟨coordinator, hrun, hstate⟩ := Option.map_eq_some_iff.mp hsample
  obtain ⟨hfree, hwaiting⟩ := Prod.mk.inj hstate
  have hreachable : coordination.Reachable coordinator :=
    ⟨_, rfl, TransitionSystem.path_of_run (fun _ _ => trivial) hrun⟩
  exact ⟨coordinator, hrun,
    (operation_exclusive_of_reachable hreachable).2.2.2.1 hfree 2 true false hwaiting⟩

end Coordinator

end SsfTransmitter.Scim
