import Mathlib.Logic.Relation

/-!
# Transition systems

Runs of a partial step function, the states they reach, and the induction that
turns a fact about one step into a fact about every run.
-/

namespace SsfTransmitter.Core

/-- Initial states and a step function; a step is `none` where the action is
not possible. -/
structure TransitionSystem (State Action : Type*) where
  initial : State → Prop
  step : State → Action → Option State

/-- One step of a run. -/
structure Transition (State Action : Type*) where
  source : State
  action : Action
  target : State

namespace TransitionSystem

variable {State Action : Type*} (system : TransitionSystem State Action)

/-- Some sequence of admitted actions leads from one state to another. -/
inductive Path (admitted : Action → Prop) (start : State) : State → Prop where
  | refl : Path admitted start start
  | step {middle target : State} {action : Action} :
      Path admitted start middle → admitted action →
      system.step middle action = some target → Path admitted start target

/-- The states that runs of admitted actions reach. -/
def ReachableBy (admitted : Action → Prop) (state : State) : Prop :=
  ∃ start, system.initial start ∧ system.Path admitted start state

/-- The states that runs reach. -/
def Reachable (state : State) : Prop :=
  system.ReachableBy (fun _ => True) state

/-- The states that runs reach whose steps are all allowed where they are taken. -/
inductive ReachableWhere (allowed : State → Action → Prop) : State → Prop where
  | start {state : State} : system.initial state → ReachableWhere allowed state
  | step {source target : State} {action : Action} :
      ReachableWhere allowed source → allowed source action →
      system.step source action = some target → ReachableWhere allowed target

/-- Steps that are all allowed where they are taken lead from one state to another. -/
inductive PathWhere (allowed : State → Action → Prop) (start : State) : State → Prop where
  | refl : PathWhere allowed start start
  | step {middle target : State} {action : Action} :
      PathWhere allowed start middle → allowed middle action →
      system.step middle action = some target → PathWhere allowed start target

/-- The state after a sequence of actions. -/
def run (state : State) : List Action → Option State
  | [] => some state
  | action :: rest => (system.step state action).bind fun next => run next rest

/-- The steps of a sequence of actions, up to the first that is not possible. -/
def transitions (state : State) : List Action → List (Transition State Action)
  | [] => []
  | action :: rest =>
    match system.step state action with
    | none => []
    | some next => ⟨state, action, next⟩ :: transitions next rest

variable {system} {admitted : Action → Prop}

theorem Path.trans {start middle target : State}
    (hfirst : system.Path admitted start middle)
    (hsecond : system.Path admitted middle target) :
    system.Path admitted start target := by
  induction hsecond with
  | refl => exact hfirst
  | step _ hadmitted hstep ih => exact ih.step hadmitted hstep

/-- A run whose steps all keep a property keeps it. -/
theorem Path.preserves {property : State → Prop} {start target : State}
    (hpath : system.Path admitted start target)
    (hstep : ∀ source action next, property source → admitted action →
      system.step source action = some next → property next)
    (hstart : property start) : property target := by
  induction hpath with
  | refl => exact hstart
  | step _ hadmitted hnext ih => exact hstep _ _ _ ih hadmitted hnext

theorem ReachableBy.of_initial {state : State} (hinitial : system.initial state) :
    system.ReachableBy admitted state :=
  ⟨state, hinitial, .refl⟩

theorem ReachableBy.path {start target : State}
    (hstart : system.ReachableBy admitted start)
    (hpath : system.Path admitted start target) :
    system.ReachableBy admitted target := by
  obtain ⟨origin, hinitial, horigin⟩ := hstart
  exact ⟨origin, hinitial, horigin.trans hpath⟩

theorem ReachableBy.next {source target : State} {action : Action}
    (hsource : system.ReachableBy admitted source) (hadmitted : admitted action)
    (hstep : system.step source action = some target) :
    system.ReachableBy admitted target :=
  hsource.path (Path.refl.step hadmitted hstep)

theorem ReachableBy.reachable {state : State}
    (hstate : system.ReachableBy admitted state) : system.Reachable state := by
  obtain ⟨start, hinitial, hpath⟩ := hstate
  refine hpath.preserves (fun source action next hsource _ hstep => ?_)
    (ReachableBy.of_initial hinitial)
  exact ReachableBy.next hsource trivial hstep

/-- The invariant rule.  A step may be assumed to start in a reachable state,
so that invariants established earlier can be used. -/
theorem ReachableBy.invariant {invariant : State → Prop} {state : State}
    (hstate : system.ReachableBy admitted state)
    (hinitial : ∀ start, system.initial start → invariant start)
    (hstep : ∀ source action target, system.ReachableBy admitted source →
      invariant source → admitted action →
      system.step source action = some target → invariant target) :
    invariant state := by
  obtain ⟨start, hstart, hpath⟩ := hstate
  induction hpath with
  | refl => exact hinitial start hstart
  | step hbefore hadmitted hnext ih =>
      exact hstep _ _ _ ⟨start, hstart, hbefore⟩ ih hadmitted hnext

/-- The step rule for runs whose steps depend on where they are taken. -/
theorem PathWhere.preserves {allowed : State → Action → Prop} {property : State → Prop}
    {start target : State} (hpath : system.PathWhere allowed start target)
    (hstep : ∀ source action next, property source → allowed source action →
      system.step source action = some next → property next)
    (hstart : property start) : property target := by
  induction hpath with
  | refl => exact hstart
  | step _ hallowed hnext ih => exact hstep _ _ _ ih hallowed hnext

theorem PathWhere.trans {allowed : State → Action → Prop} {start middle target : State}
    (hfirst : system.PathWhere allowed start middle)
    (hsecond : system.PathWhere allowed middle target) :
    system.PathWhere allowed start target := by
  induction hsecond with
  | refl => exact hfirst
  | step _ hallowed hstep ih => exact ih.step hallowed hstep

theorem PathWhere.path {allowed : State → Action → Prop} {start target : State}
    (hpath : system.PathWhere allowed start target)
    (hadmitted : ∀ state action, allowed state action → admitted action) :
    system.Path admitted start target := by
  induction hpath with
  | refl => exact .refl
  | step _ hallowed hnext ih => exact ih.step (hadmitted _ _ hallowed) hnext

theorem ReachableWhere.reachable {allowed : State → Action → Prop} {state : State}
    (hstate : system.ReachableWhere allowed state) : system.Reachable state := by
  induction hstate with
  | start hinitial => exact ReachableBy.of_initial hinitial
  | step _ _ hstep ih => exact ih.next trivial hstep

theorem ReachableWhere.of_run {allowed : State → Action → Prop} {start target : State}
    {actions : List Action} (hstart : system.ReachableWhere allowed start)
    (hallowed : ∀ action ∈ actions, ∀ state, allowed state action)
    (hrun : system.run start actions = some target) :
    system.ReachableWhere allowed target := by
  induction actions generalizing start with
  | nil =>
      obtain rfl := Option.some.inj hrun
      exact hstart
  | cons action rest ih =>
      obtain ⟨next, hnext, hrest⟩ := Option.bind_eq_some_iff.mp hrun
      have hfirst := hallowed action List.mem_cons_self start
      exact ih (hstart.step hfirst hnext)
        (fun other hother => hallowed other (List.mem_cons_of_mem _ hother)) hrest

theorem run_append (start : State) (before after : List Action) :
    system.run start (before ++ after) =
      (system.run start before).bind fun middle => system.run middle after := by
  induction before generalizing start with
  | nil => rfl
  | cons action rest ih =>
      rw [List.cons_append, run, run, Option.bind_assoc]
      exact congrArg _ (funext ih)

theorem path_of_run {start target : State} {actions : List Action}
    (hadmitted : ∀ action ∈ actions, admitted action)
    (hrun : system.run start actions = some target) :
    system.Path admitted start target := by
  induction actions generalizing start with
  | nil =>
      obtain rfl := Option.some.inj hrun
      exact .refl
  | cons action rest ih =>
      obtain ⟨next, hnext, hrest⟩ := Option.bind_eq_some_iff.mp hrun
      have hfirst := hadmitted action List.mem_cons_self
      exact (Path.refl.step hfirst hnext).trans
        (ih (fun other hother => hadmitted other (List.mem_cons_of_mem _ hother)) hrest)

theorem PathWhere.of_run {allowed : State → Action → Prop} {start middle target : State}
    {actions : List Action} (hstart : system.PathWhere allowed start middle)
    (hallowed : ∀ action ∈ actions, ∀ state, allowed state action)
    (hrun : system.run middle actions = some target) :
    system.PathWhere allowed start target := by
  induction actions generalizing middle with
  | nil =>
      obtain rfl := Option.some.inj hrun
      exact hstart
  | cons action rest ih =>
      obtain ⟨next, hnext, hrest⟩ := Option.bind_eq_some_iff.mp hrun
      have hfirst := hallowed action List.mem_cons_self middle
      exact ih (hstart.step hfirst hnext)
        (fun other hother => hallowed other (List.mem_cons_of_mem _ hother)) hrest

/-- Every transition of a run is a step from a state that the run reaches. -/
theorem path_of_mem_transitions {start : State} {actions : List Action}
    {transition : Transition State Action}
    (hmem : transition ∈ system.transitions start actions) :
    system.Path (fun _ => True) start transition.source ∧
      system.step transition.source transition.action =
        some transition.target := by
  induction actions generalizing start with
  | nil => simp [transitions] at hmem
  | cons action rest ih =>
      rw [transitions] at hmem
      rcases hnext : system.step start action with _ | next
      · simp [hnext] at hmem
      · rw [hnext] at hmem
        rcases List.mem_cons.mp hmem with rfl | hrest
        · exact ⟨.refl, hnext⟩
        · obtain ⟨hpath, hstep⟩ := ih hrest
          exact ⟨(Path.refl.step trivial hnext).trans hpath, hstep⟩

/-- The step after a run is a transition of the longer run. -/
theorem mem_transitions_of_run {start source target : State} {actions : List Action}
    {action : Action} (hrun : system.run start actions = some source)
    (hstep : system.step source action = some target) :
    ⟨source, action, target⟩ ∈ system.transitions start (actions ++ [action]) := by
  induction actions generalizing start with
  | nil =>
      obtain rfl := Option.some.inj hrun
      simp [transitions, hstep]
  | cons first rest ih =>
      obtain ⟨next, hnext, hrest⟩ := Option.bind_eq_some_iff.mp hrun
      rw [List.cons_append, transitions, hnext]
      exact List.mem_cons_of_mem _ (ih hrest)

end TransitionSystem

end SsfTransmitter.Core
