import SsfTransmitter.Core.Script

/-!
# Traces of dialogues and scripts

`Runs` says which exchanges and which outcome a program can have, whatever it is
answered.  The rules take a run of a composed program apart into runs of its parts.
-/

namespace SsfTransmitter.Core

variable {Request Answer Error State Value Result Item World : Type}

namespace Dialogue

/-- Exchanges and a value that the dialogue can come to. -/
def Runs : Dialogue Request Answer Value → List (Exchange Request Answer) → Value → Prop
  | .done value, transcript, result => transcript = [] ∧ result = value
  | .ask request next, transcript, result =>
    ∃ answer later, transcript = (request, answer) :: later ∧ (next answer).Runs later result

theorem runs_bind_iff {dialogue : Dialogue Request Answer Value}
    {rest : Value → Dialogue Request Answer Result}
    {transcript : List (Exchange Request Answer)} {result : Result} :
    (dialogue.bind rest).Runs transcript result ↔
      ∃ first value second, transcript = first ++ second ∧ dialogue.Runs first value ∧
        (rest value).Runs second result := by
  induction dialogue generalizing transcript with
  | done value =>
      constructor
      · exact fun hrest => ⟨[], value, transcript, rfl, ⟨rfl, rfl⟩, hrest⟩
      · rintro ⟨_, _, second, rfl, ⟨rfl, rfl⟩, hrest⟩
        exact hrest
  | ask request next ih =>
      constructor
      · rintro ⟨answer, later, rfl, hlater⟩
        obtain ⟨first, value, second, rfl, hfirst, hsecond⟩ := ih answer |>.mp hlater
        exact ⟨(request, answer) :: first, value, second, rfl,
          ⟨answer, first, rfl, hfirst⟩, hsecond⟩
      · rintro ⟨_, value, second, rfl, ⟨answer, first, rfl, hfirst⟩, hsecond⟩
        exact ⟨answer, first ++ second, rfl,
          ih answer |>.mpr ⟨first, value, second, rfl, hfirst, hsecond⟩⟩

/-- A conversation is a run. -/
theorem runs_play (answers : ℕ → Answer) (dialogue : Dialogue Request Answer Value)
    (history : List (Exchange Request Answer)) :
    ∃ later, (dialogue.play (answering answers) history).1 = history ++ later ∧
      dialogue.Runs later (dialogue.play (answering answers) history).2 := by
  induction dialogue generalizing history with
  | done value => exact ⟨[], (List.append_nil history).symm, rfl, rfl⟩
  | ask request next ih =>
      obtain ⟨later, heq, hruns⟩ := ih (answers history.length)
        (history ++ [(request, answers history.length)])
      refine ⟨(request, answers history.length) :: later, ?_, _, _, rfl, hruns⟩
      rw [play, answering, heq, List.append_assoc]
      rfl

/-- What is wanted of every recorded run. -/
theorem of_wp_of_runs {permits : List (Exchange Request Answer) → Request → Prop}
    {dialogue : Dialogue Request Answer Value}
    {wanted : List (Exchange Request Answer) → Value → Prop}
    {history transcript : List (Exchange Request Answer)} {result : Value}
    (hhistory : Throughout (fun before exchange => permits before exchange.1) history)
    (hwp : dialogue.wp (recording permits fun _ _ _ => True) wanted history)
    (hruns : dialogue.Runs transcript result) :
    Throughout (fun before exchange => permits before exchange.1) (history ++ transcript) ∧
      wanted (history ++ transcript) result := by
  induction dialogue generalizing history transcript with
  | done value =>
      obtain ⟨rfl, rfl⟩ := hruns
      rw [List.append_nil]
      exact ⟨hhistory, hwp⟩
  | ask request next ih =>
      obtain ⟨answer, later, rfl, hlater⟩ := hruns
      have hpermitted : permits history request := hwp.1
      have hnext := ih answer (hhistory.snoc hpermitted) (hwp.2 answer _ ⟨trivial, rfl⟩) hlater
      rwa [List.append_assoc] at hnext

/-- Exchanges as an environment has them, from one state of the world to another. -/
def Follows (environment : Environment World Request Answer) :
    World → List (Exchange Request Answer) → World → Prop
  | world, [], after => after = world
  | world, (request, answer) :: transcript, after =>
    ∃ middle, environment.moves world request answer middle ∧
      Follows environment middle transcript after

/-- The world in between two parts of a transcript. -/
theorem follows_append_iff {environment : Environment World Request Answer}
    {world after : World} {first second : List (Exchange Request Answer)} :
    Follows environment world (first ++ second) after ↔
      ∃ middle, Follows environment world first middle ∧
        Follows environment middle second after := by
  induction first generalizing world with
  | nil => exact ⟨fun hfollows => ⟨world, rfl, hfollows⟩, fun ⟨_, heq, hfollows⟩ => heq ▸ hfollows⟩
  | cons exchange first ih =>
      constructor
      · rintro ⟨next, hmove, hrest⟩
        obtain ⟨middle, hfirst, hsecond⟩ := ih.mp hrest
        exact ⟨middle, ⟨next, hmove, hfirst⟩, hsecond⟩
      · rintro ⟨middle, ⟨next, hmove, hfirst⟩, hsecond⟩
        exact ⟨next, hmove, ih.mpr ⟨middle, hfirst, hsecond⟩⟩

/-- What is wanted of every run in an environment. -/
theorem of_wp_of_follows {environment : Environment World Request Answer}
    {dialogue : Dialogue Request Answer Value} {wanted : World → Value → Prop}
    {world after : World} {transcript : List (Exchange Request Answer)} {result : Value}
    (hwp : dialogue.wp environment wanted world) (hruns : dialogue.Runs transcript result)
    (hfollows : Follows environment world transcript after) : wanted after result := by
  induction dialogue generalizing world transcript with
  | done value =>
      obtain ⟨rfl, rfl⟩ := hruns
      obtain rfl := hfollows
      exact hwp
  | ask request next ih =>
      obtain ⟨answer, later, rfl, hlater⟩ := hruns
      obtain ⟨middle, hmove, hrest⟩ := hfollows
      exact ih answer (hwp.2 answer middle hmove) hlater hrest

end Dialogue

namespace Script

/-- Exchanges, outcome and state that the script can come to. -/
def Runs (script : Script Request Answer Error State Value) (state : State)
    (transcript : List (Exchange Request Answer)) (outcome : Except Error Value)
    (left : State) : Prop :=
  (script state).Runs transcript (outcome, left)

variable {state left : State} {transcript : List (Exchange Request Answer)}

theorem runs_converse (answers : ℕ → Answer)
    (script : Script Request Answer Error State Value) (state : State) :
    script.Runs state (converse answers script state).1 (converse answers script state).2.1
      (converse answers script state).2.2 := by
  obtain ⟨later, heq, hruns⟩ := Dialogue.runs_play answers (script state) []
  rw [List.nil_append] at heq
  rw [converse, Core.converse, heq]
  exact hruns

/-- A conversation of two scripts in a row begins with that of the first. -/
theorem runs_converse_bind (answers : ℕ → Answer)
    (script : Script Request Answer Error State Value)
    (rest : Value → Script Request Answer Error State Result) (state : State) {value : Value}
    (hvalue : (converse answers script state).2.1 = .ok value) :
    ∃ later, (converse answers (script >>= rest) state).1 =
        (converse answers script state).1 ++ later ∧
      (rest value).Runs (converse answers script state).2.2 later
        (converse answers (script >>= rest) state).2.1
        (converse answers (script >>= rest) state).2.2 := by
  have hplay : converse answers (script >>= rest) state =
      play (answering answers) (rest value) (converse answers script state).1
        (converse answers script state).2.2 := by
    change (play (answering answers) script [] state).2.1 = .ok value at hvalue
    change play (answering answers) (script >>= rest) [] state =
      play (answering answers) (rest value) (play (answering answers) script [] state).1
        (play (answering answers) script [] state).2.2
    rw [play_bind]
    generalize play (answering answers) script [] state = first at hvalue ⊢
    obtain ⟨history, outcome, left⟩ := first
    obtain rfl : outcome = .ok value := hvalue
    rfl
  rw [hplay]
  exact Dialogue.runs_play answers (rest value (converse answers script state).2.2) _

/-- In every run each request was permitted, and the run ended as wanted. -/
theorem of_wp_of_runs {permits : List (Exchange Request Answer) → Request → Prop}
    {script : Script Request Answer Error State Value}
    {wanted : Except Error Value → List (Exchange Request Answer) → State → Prop}
    {outcome : Except Error Value}
    (hwp : wp (recording permits fun _ _ _ => True) script wanted [] state)
    (hruns : script.Runs state transcript outcome left) :
    Throughout (fun before exchange => permits before exchange.1) transcript ∧
      wanted outcome transcript left := by
  have hall := Dialogue.of_wp_of_runs Throughout.nil hwp hruns
  rwa [List.nil_append] at hall

/-- A run in an environment ended as wanted. -/
theorem of_wp_of_follows {environment : Environment World Request Answer}
    {script : Script Request Answer Error State Value}
    {wanted : Except Error Value → World → State → Prop} {world after : World}
    {outcome : Except Error Value} (hwp : wp environment script wanted world state)
    (hruns : script.Runs state transcript outcome left)
    (hfollows : Dialogue.Follows environment world transcript after) :
    wanted outcome after left := by
  have hall := Dialogue.of_wp_of_follows hwp hruns hfollows
  exact hall

@[simp]
theorem runs_pure_iff {value : Value} {outcome : Except Error Value} :
    (pure value : Script Request Answer Error State Value).Runs state transcript outcome left ↔
      transcript = [] ∧ outcome = .ok value ∧ left = state :=
  and_congr_right fun _ => Prod.mk.injEq .. ▸ Iff.rfl

@[simp]
theorem runs_throw_iff {error : Error} {outcome : Except Error Value} :
    (throw error : Script Request Answer Error State Value).Runs state transcript outcome
      left ↔ transcript = [] ∧ outcome = .error error ∧ left = state :=
  and_congr_right fun _ => Prod.mk.injEq .. ▸ Iff.rfl

@[simp]
theorem runs_ask_iff {request : Request} {outcome : Except Error Answer} :
    (ask request : Script Request Answer Error State Answer).Runs state transcript outcome
      left ↔ ∃ answer, transcript = [(request, answer)] ∧ outcome = .ok answer ∧
        left = state := by
  constructor
  · rintro ⟨answer, _, rfl, rfl, heq⟩
    obtain ⟨rfl, rfl⟩ := Prod.mk.inj heq
    exact ⟨answer, rfl, rfl, rfl⟩
  · rintro ⟨answer, rfl, rfl, rfl⟩
    exact ⟨answer, [], rfl, rfl, rfl⟩

@[simp]
theorem runs_get_iff {outcome : Except Error State} :
    (get : Script Request Answer Error State State).Runs state transcript outcome left ↔
      transcript = [] ∧ outcome = .ok state ∧ left = state :=
  and_congr_right fun _ => Prod.mk.injEq .. ▸ Iff.rfl

@[simp]
theorem runs_modify_iff {change : State → State} {outcome : Except Error PUnit} :
    (modify change : Script Request Answer Error State PUnit).Runs state transcript outcome
      left ↔ transcript = [] ∧ outcome = .ok ⟨⟩ ∧ left = change state :=
  and_congr_right fun _ => Prod.mk.injEq .. ▸ Iff.rfl

@[simp]
theorem runs_ofExcept_iff {result outcome : Except Error Value} :
    (ofExcept result : Script Request Answer Error State Value).Runs state transcript outcome
      left ↔ transcript = [] ∧ outcome = result ∧ left = state := by
  cases result <;> simp [ofExcept]

/-- A run of two scripts in a row fails in the first, or goes on from its value. -/
theorem runs_bind_iff {script : Script Request Answer Error State Value}
    {rest : Value → Script Request Answer Error State Result}
    {outcome : Except Error Result} :
    (script >>= rest).Runs state transcript outcome left ↔
      (∃ error, script.Runs state transcript (.error error) left ∧ outcome = .error error) ∨
        ∃ first value middle second, transcript = first ++ second ∧
          script.Runs state first (.ok value) middle ∧
          (rest value).Runs middle second outcome left := by
  rw [Runs, bind_apply, Dialogue.runs_bind_iff]
  constructor
  · rintro ⟨first, ⟨error | value, middle⟩, second, rfl, hfirst, hsecond⟩
    · obtain ⟨rfl, heq⟩ := hsecond
      obtain ⟨rfl, rfl⟩ := Prod.mk.inj heq
      exact .inl ⟨error, by rwa [List.append_nil], rfl⟩
    · exact .inr ⟨first, value, middle, second, rfl, hfirst, hsecond⟩
  · rintro (⟨error, hfirst, rfl⟩ | ⟨first, value, middle, second, rfl, hfirst, hsecond⟩)
    · exact ⟨transcript, (.error error, left), [], (List.append_nil _).symm, hfirst, rfl, rfl⟩
    · exact ⟨first, (.ok value, middle), second, rfl, hfirst, hsecond⟩

theorem runs_map_iff {script : Script Request Answer Error State Value}
    {image : Value → Result} {outcome : Except Error Result} :
    (image <$> script).Runs state transcript outcome left ↔
      ∃ inner, script.Runs state transcript inner left ∧ outcome = inner.map image := by
  rw [map_eq_pure_bind, runs_bind_iff]
  constructor
  · rintro (⟨error, hruns, rfl⟩ | ⟨first, value, middle, second, rfl, hruns, hpure⟩)
    · exact ⟨_, hruns, rfl⟩
    · obtain ⟨rfl, rfl, rfl⟩ := runs_pure_iff.mp hpure
      exact ⟨_, by rwa [List.append_nil], rfl⟩
  · rintro ⟨error | value, hruns, rfl⟩
    · exact .inl ⟨error, hruns, rfl⟩
    · exact .inr ⟨transcript, value, left, [], (List.append_nil _).symm, hruns,
        runs_pure_iff.mpr ⟨rfl, rfl, rfl⟩⟩

/-- A run that may be caught ends well by itself, or the handler goes on. -/
theorem runs_tryCatch_iff {script : Script Request Answer Error State Value}
    {handle : Error → Script Request Answer Error State Value}
    {outcome : Except Error Value} :
    (tryCatch script handle : Script Request Answer Error State Value).Runs state transcript
        outcome left ↔
      (∃ value, script.Runs state transcript (.ok value) left ∧ outcome = .ok value) ∨
        ∃ first error middle second, transcript = first ++ second ∧
          script.Runs state first (.error error) middle ∧
          (handle error).Runs middle second outcome left := by
  rw [Runs, tryCatch_apply, Dialogue.runs_bind_iff]
  constructor
  · rintro ⟨first, ⟨error | value, middle⟩, second, rfl, hfirst, hsecond⟩
    · exact .inr ⟨first, error, middle, second, rfl, hfirst, hsecond⟩
    · obtain ⟨rfl, heq⟩ := hsecond
      obtain ⟨rfl, rfl⟩ := Prod.mk.inj heq
      exact .inl ⟨value, by rwa [List.append_nil], rfl⟩
  · rintro (⟨value, hfirst, rfl⟩ | ⟨first, error, middle, second, rfl, hfirst, hsecond⟩)
    · exact ⟨transcript, (.ok value, left), [], (List.append_nil _).symm, hfirst, rfl, rfl⟩
    · exact ⟨first, (.error error, middle), second, rfl, hfirst, hsecond⟩

/-- A step without requests or failures, at the head of a script. -/
theorem runs_ofExcept_bind_iff {result : Except Error Value}
    {rest : Value → Script Request Answer Error State Result}
    {outcome : Except Error Result} :
    (ofExcept result >>= rest).Runs state transcript outcome left ↔
      (∃ error, result = .error error ∧ transcript = [] ∧ outcome = .error error ∧
        left = state) ∨
      ∃ value, result = .ok value ∧ (rest value).Runs state transcript outcome left := by
  rw [runs_bind_iff]
  cases result with
  | error error =>
      simp only [runs_ofExcept_iff, Except.error.injEq, reduceCtorEq, false_and, and_false,
        exists_false, or_false]
      constructor
      · rintro ⟨_, ⟨rfl, rfl, rfl⟩, rfl⟩
        exact ⟨_, rfl, rfl, rfl, rfl⟩
      · rintro ⟨_, rfl, rfl, rfl, rfl⟩
        exact ⟨_, ⟨rfl, rfl, rfl⟩, rfl⟩
  | ok value =>
      simp only [runs_ofExcept_iff, Except.ok.injEq, reduceCtorEq, false_and, and_false,
        exists_false, false_or]
      constructor
      · rintro ⟨_, _, _, second, rfl, ⟨rfl, rfl, rfl⟩, hrest⟩
        exact ⟨_, rfl, hrest⟩
      · rintro ⟨_, rfl, hrest⟩
        exact ⟨[], _, _, transcript, rfl, ⟨rfl, rfl, rfl⟩, hrest⟩

theorem runs_ask_bind_iff {request : Request}
    {rest : Answer → Script Request Answer Error State Result}
    {outcome : Except Error Result} :
    (ask request >>= rest).Runs state transcript outcome left ↔
      ∃ answer later, transcript = (request, answer) :: later ∧
        (rest answer).Runs state later outcome left := by
  simp only [runs_bind_iff, runs_ask_iff, reduceCtorEq, false_and, and_false, exists_false,
    false_or, Except.ok.injEq]
  constructor
  · rintro ⟨_, _, _, second, rfl, ⟨answer, rfl, rfl, rfl⟩, hrest⟩
    exact ⟨_, second, rfl, hrest⟩
  · rintro ⟨answer, later, rfl, hrest⟩
    exact ⟨_, answer, _, later, rfl, ⟨answer, rfl, rfl, rfl⟩, hrest⟩

theorem runs_get_bind_iff {rest : State → Script Request Answer Error State Result}
    {outcome : Except Error Result} :
    (get >>= rest).Runs state transcript outcome left ↔
      (rest state).Runs state transcript outcome left :=
  Iff.rfl

theorem runs_modify_bind_iff {change : State → State}
    {rest : PUnit → Script Request Answer Error State Result}
    {outcome : Except Error Result} :
    (modify change >>= rest).Runs state transcript outcome left ↔
      (rest ⟨⟩).Runs (change state) transcript outcome left :=
  Iff.rfl

/-- A fold that fails does so in one of its turns, after the turns before it. -/
theorem runs_foldlM_error {body : Result → Item → Script Request Answer Error State Result}
    {items : List Item} {start : Result} {error : Error}
    (hruns : (items.foldlM body start).Runs state transcript (.error error) left) :
    ∃ before item after value middle first second, items = before ++ item :: after ∧
      transcript = first ++ second ∧
      (before.foldlM body start).Runs state first (.ok value) middle ∧
      (body value item).Runs middle second (.error error) left := by
  induction items generalizing start state transcript with
  | nil =>
      rw [List.foldlM_nil] at hruns
      obtain ⟨-, hnone, -⟩ := runs_pure_iff.mp hruns
      cases hnone
  | cons item items ih =>
      rw [List.foldlM_cons] at hruns
      obtain ⟨_, hturn, heq⟩ | ⟨first, value, middle, second, rfl, hturn, hrest⟩ :=
        runs_bind_iff.mp hruns
      · obtain rfl := Except.error.inj heq
        exact ⟨[], item, items, start, state, [], transcript, rfl, rfl,
          runs_pure_iff.mpr ⟨rfl, rfl, rfl⟩, hturn⟩
      · obtain ⟨before, other, after, found, reached, earlier, later, rfl, rfl, hbefore, hfails⟩ :=
          ih hrest
        refine ⟨item :: before, other, after, found, reached, first ++ earlier, later, rfl,
          (List.append_assoc _ _ _).symm, ?_, hfails⟩
        rw [List.foldlM_cons]
        exact runs_bind_iff.mpr (.inr ⟨first, value, middle, earlier, rfl, hturn, hbefore⟩)

end Script
end SsfTransmitter.Core
