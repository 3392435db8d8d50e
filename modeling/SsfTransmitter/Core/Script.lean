import SsfTransmitter.Core.Dialogue

/-!
# Scripts

A script is a dialogue with a state and failures; what a failing script did to
its state stays, as in an imperative program with exceptions.
-/

namespace SsfTransmitter.Core

abbrev Script (Request Answer Error State : Type) :=
  ExceptT Error (StateT State (Dialogue Request Answer))

namespace Script

variable {Request Answer Error State Value Result Item World : Type}

/-- Ask the peer. -/
def ask (request : Request) : Script Request Answer Error State Answer :=
  fun state => .ask request fun answer => .done (.ok answer, state)

/-- Run a script against a peer. -/
def play (peer : World → Request → Answer × World)
    (script : Script Request Answer Error State Value) (world : World) (state : State) :
    World × Except Error Value × State :=
  Dialogue.play peer (script state) world

theorem bind_apply (script : Script Request Answer Error State Value)
    (rest : Value → Script Request Answer Error State Result) (state : State) :
    (script >>= rest) state = (script state).bind fun outcome =>
      match outcome with
      | (.ok value, left) => rest value left
      | (.error error, left) => .done (.error error, left) := by
  refine congrArg (Dialogue.bind (script state)) (funext fun outcome => ?_)
  rcases outcome with ⟨_ | _, _⟩ <;> rfl

theorem tryCatch_apply (script : Script Request Answer Error State Value)
    (handle : Error → Script Request Answer Error State Value) (state : State) :
    (tryCatch script handle : Script Request Answer Error State Value) state =
      (script state).bind fun outcome =>
        match outcome with
        | (.ok value, left) => .done (.ok value, left)
        | (.error error, left) => handle error left := by
  refine congrArg (Dialogue.bind (script state)) (funext fun outcome => ?_)
  rcases outcome with ⟨_ | _, _⟩ <;> rfl

theorem play_bind (peer : World → Request → Answer × World)
    (script : Script Request Answer Error State Value)
    (rest : Value → Script Request Answer Error State Result)
    (world : World) (state : State) :
    play peer (script >>= rest) world state =
      match play peer script world state with
      | (after, .ok value, left) => play peer (rest value) after left
      | (after, .error error, left) => (after, .error error, left) := by
  rw [play, bind_apply, Dialogue.play_bind, play]
  rcases Dialogue.play peer (script state) world with ⟨after, _ | value, left⟩ <;> rfl

/-- In every run each request is permitted, and the run ends as wanted. -/
def wp (environment : Environment World Request Answer)
    (script : Script Request Answer Error State Value)
    (wanted : Except Error Value → World → State → Prop)
    (world : World) (state : State) : Prop :=
  Dialogue.wp environment (script state)
    (fun after outcome => wanted outcome.1 after outcome.2) world

variable {environment : Environment World Request Answer}
variable {wanted weaker : Except Error Value → World → State → Prop}
variable {world : World} {state : State}

@[simp]
theorem wp_pure {value : Value} :
    wp environment (pure value : Script Request Answer Error State Value) wanted world
      state ↔ wanted (.ok value) world state :=
  Iff.rfl

@[simp]
theorem wp_throw {error : Error} :
    wp environment (throw error : Script Request Answer Error State Value) wanted world
      state ↔ wanted (.error error) world state :=
  Iff.rfl

@[simp]
theorem wp_ask {request : Request} {wanted : Except Error Answer → World → State → Prop} :
    wp environment (ask request) wanted world state ↔
      environment.permits world request ∧
        ∀ answer after, environment.moves world request answer after →
          wanted (.ok answer) after state :=
  Iff.rfl

@[simp]
theorem wp_get {wanted : Except Error State → World → State → Prop} :
    wp environment (get : Script Request Answer Error State State) wanted world state ↔
      wanted (.ok state) world state :=
  Iff.rfl

@[simp]
theorem wp_modify {change : State → State}
    {wanted : Except Error PUnit → World → State → Prop} :
    wp environment (modify change : Script Request Answer Error State PUnit) wanted world
      state ↔ wanted (.ok ⟨⟩) world (change state) :=
  Iff.rfl

@[simp]
theorem wp_bind {script : Script Request Answer Error State Value}
    {rest : Value → Script Request Answer Error State Result}
    {wanted : Except Error Result → World → State → Prop} :
    wp environment (script >>= rest) wanted world state ↔
      wp environment script (fun outcome after left =>
        match outcome with
        | .ok value => wp environment (rest value) wanted after left
        | .error error => wanted (.error error) after left) world state := by
  rw [wp, bind_apply, Dialogue.wp_bind]
  refine iff_of_eq (congrArg (fun next => Dialogue.wp environment (script state) next world)
    (funext fun after => funext fun outcome => ?_))
  rcases outcome with ⟨_ | _, _⟩ <;> rfl

@[simp]
theorem wp_tryCatch {script : Script Request Answer Error State Value}
    {handle : Error → Script Request Answer Error State Value} :
    wp environment (tryCatch script handle) wanted world state ↔
      wp environment script (fun outcome after left =>
        match outcome with
        | .ok value => wanted (.ok value) after left
        | .error error => wp environment (handle error) wanted after left) world state := by
  rw [wp, tryCatch_apply, Dialogue.wp_bind]
  refine iff_of_eq (congrArg (fun next => Dialogue.wp environment (script state) next world)
    (funext fun after => funext fun outcome => ?_))
  rcases outcome with ⟨_ | _, _⟩ <;> rfl

/-- A computation without requests, as a step of a script. -/
def ofExcept (result : Except Error Value) : Script Request Answer Error State Value :=
  match result with
  | .ok value => pure value
  | .error error => throw error

@[simp]
theorem wp_ofExcept {result : Except Error Value} :
    wp environment (ofExcept result) wanted world state ↔ wanted result world state := by
  cases result <;> rfl

theorem wp_ofExcept_bind {result : Except Error Value}
    {rest : Value → Script Request Answer Error State Result}
    {wanted : Except Error Result → World → State → Prop} :
    wp environment (ofExcept result >>= rest) wanted world state ↔
      (∀ error, result = .error error → wanted (.error error) world state) ∧
        ∀ value, result = .ok value → wp environment (rest value) wanted world state := by
  rw [wp_bind, wp_ofExcept]
  cases result <;> simp

theorem wp_mono {script : Script Request Answer Error State Value}
    (hwp : wp environment script wanted world state)
    (hweaker : ∀ outcome after left, wanted outcome after left → weaker outcome after left) :
    wp environment script weaker world state :=
  Dialogue.wp_mono hwp fun _ _ hwanted => hweaker _ _ _ hwanted

theorem wp_and {script : Script Request Answer Error State Value}
    (hfirst : wp environment script wanted world state)
    (hsecond : wp environment script weaker world state) :
    wp environment script (fun outcome after left =>
      wanted outcome after left ∧ weaker outcome after left) world state :=
  Dialogue.wp_and hfirst hsecond

/-- The exchanges and the outcome of a run. -/
def converse (answers : ℕ → Answer) (script : Script Request Answer Error State Value)
    (state : State) : List (Exchange Request Answer) × Except Error Value × State :=
  Core.converse answers (script state)

/-- Where all answers were admitted, every request was permitted when it was asked, and the
run ended as wanted. -/
theorem converse_of_wp_of_admitted {permits : List (Exchange Request Answer) → Request → Prop}
    {admits : List (Exchange Request Answer) → Request → Answer → Prop}
    {script : Script Request Answer Error State Value}
    {wanted : Except Error Value → List (Exchange Request Answer) → State → Prop}
    {state : State} {answers : ℕ → Answer}
    (hwp : wp (recording permits admits) script wanted [] state)
    (hadmitted : Throughout (fun before exchange => admits before exchange.1 exchange.2)
      (converse answers script state).1) :
    Throughout (fun before exchange => permits before exchange.1)
        (converse answers script state).1 ∧
      wanted (converse answers script state).2.1 (converse answers script state).1
        (converse answers script state).2.2 :=
  throughout_of_wp hadmitted Throughout.nil hwp

/-- Whatever is answered, every request was permitted when it was asked, and the run
ended as wanted. -/
theorem converse_of_wp {permits : List (Exchange Request Answer) → Request → Prop}
    {script : Script Request Answer Error State Value}
    {wanted : Except Error Value → List (Exchange Request Answer) → State → Prop}
    {state : State}
    (hwp : wp (recording permits fun _ _ _ => True) script wanted [] state)
    (answers : ℕ → Answer) :
    Throughout (fun before exchange => permits before exchange.1)
        (converse answers script state).1 ∧
      wanted (converse answers script state).2.1 (converse answers script state).1
        (converse answers script state).2.2 :=
  converse_of_wp_of_admitted hwp fun _ _ _ _ => trivial

/-- A fold keeps what each of its turns keeps. -/
theorem wp_foldlM (invariant : List Item → Result → World → State → Prop)
    {body : Result → Item → Script Request Answer Error State Result}
    {wanted : Except Error Result → World → State → Prop} {items : List Item}
    {start : Result}
    (hturn : ∀ before item after, items = before ++ item :: after →
      ∀ value world state, invariant before value world state →
        wp environment (body value item) (fun outcome after left =>
          match outcome with
          | .ok next => invariant (before ++ [item]) next after left
          | .error error => wanted (.error error) after left) world state)
    (hend : ∀ value world state, invariant items value world state →
      wanted (.ok value) world state)
    (hstart : invariant [] start world state) :
    wp environment (items.foldlM body start) wanted world state := by
  suffices hrest : ∀ rest before, items = before ++ rest → ∀ value world state,
      invariant before value world state →
      wp environment (rest.foldlM body value) wanted world state from
    hrest items [] rfl start world state hstart
  intro rest
  induction rest with
  | nil =>
      intro before hitems value world state hinvariant
      rw [List.append_nil] at hitems
      exact hend value world state (hitems ▸ hinvariant)
  | cons item rest ih =>
      intro before hitems value world state hinvariant
      rw [List.foldlM_cons, wp_bind]
      refine wp_mono (hturn before item rest hitems value world state hinvariant) ?_
      rintro (error | next) after left hafter
      · exact hafter
      · exact ih (before ++ [item]) (by simp [hitems]) next after left hafter

/-- A loop keeps what each of its turns keeps. -/
theorem wp_forM (invariant : List Item → World → State → Prop)
    (failed : Error → World → State → Prop)
    {body : Item → Script Request Answer Error State PUnit} {items : List Item}
    (hturn : ∀ before item after, items = before ++ item :: after →
      ∀ world state, invariant before world state →
        wp environment (body item) (fun outcome after left =>
          match outcome with
          | .ok _ => invariant (before ++ [item]) after left
          | .error error => failed error after left) world state)
    (hstart : invariant [] world state) :
    wp environment (forM items body) (fun outcome after left =>
      match outcome with
      | .ok _ => invariant items after left
      | .error error => failed error after left) world state := by
  suffices hrest : ∀ rest before, items = before ++ rest → ∀ world state,
      invariant before world state →
      wp environment (forM rest body) (fun outcome after left =>
        match outcome with
        | .ok _ => invariant items after left
        | .error error => failed error after left) world state from
    hrest items [] rfl world state hstart
  intro rest
  induction rest with
  | nil =>
      intro before hitems world state hinvariant
      rw [List.append_nil] at hitems
      exact hitems ▸ hinvariant
  | cons item rest ih =>
      intro before hitems world state hinvariant
      rw [List.forM_cons, wp_bind]
      refine wp_mono (hturn before item rest hitems world state hinvariant) ?_
      rintro (error | _) after left hafter
      · exact hafter
      · exact ih (before ++ [item]) (by simp [hitems]) after left hafter

end Script
end SsfTransmitter.Core
