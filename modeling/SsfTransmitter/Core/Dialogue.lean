import Mathlib.Control.Basic
import Mathlib.Data.List.Basic

/-!
# Programs that talk to a peer

A dialogue asks requests and goes on from the answers; a script is a dialogue
that also keeps a state and may fail.  `play` runs a dialogue against a peer.
`wp` is the condition under which, whatever an environment answers, every
request is permitted and the outcome is as wanted.
-/

namespace SsfTransmitter.Core

/-- A program whose requests are answered from outside. -/
inductive Dialogue (Request Answer Value : Type) where
  | done (value : Value)
  | ask (request : Request) (next : Answer → Dialogue Request Answer Value)

/-- What may be asked in a state of the world, and how answers change it. -/
structure Environment (World Request Answer : Type) where
  permits : World → Request → Prop
  moves : World → Request → Answer → World → Prop

namespace Dialogue

variable {Request Answer Value Result Later World : Type}

def bind (dialogue : Dialogue Request Answer Value)
    (rest : Value → Dialogue Request Answer Result) :
    Dialogue Request Answer Result :=
  match dialogue with
  | .done value => rest value
  | .ask request next => .ask request fun answer => (next answer).bind rest

instance : Monad (Dialogue Request Answer) where
  pure := .done
  bind := bind

theorem bind_done (dialogue : Dialogue Request Answer Value) :
    dialogue.bind .done = dialogue := by
  induction dialogue with
  | done value => rfl
  | ask request next ih => exact congrArg _ (funext ih)

theorem bind_assoc (dialogue : Dialogue Request Answer Value)
    (rest : Value → Dialogue Request Answer Result)
    (final : Result → Dialogue Request Answer Later) :
    (dialogue.bind rest).bind final =
      dialogue.bind fun value => (rest value).bind final := by
  induction dialogue with
  | done value => rfl
  | ask request next ih => exact congrArg _ (funext ih)

instance : LawfulMonad (Dialogue Request Answer) :=
  .mk' _ bind_done (fun _ _ => rfl) bind_assoc

/-- Run a dialogue against a peer that keeps a state of its own. -/
def play (peer : World → Request → Answer × World) :
    Dialogue Request Answer Value → World → World × Value
  | .done value, world => (world, value)
  | .ask request next, world =>
    play peer (next (peer world request).1) (peer world request).2

theorem play_bind (peer : World → Request → Answer × World)
    (dialogue : Dialogue Request Answer Value)
    (rest : Value → Dialogue Request Answer Result) (world : World) :
    play peer (dialogue.bind rest) world =
      play peer (rest (play peer dialogue world).2) (play peer dialogue world).1 := by
  induction dialogue generalizing world with
  | done value => rfl
  | ask request next ih => exact ih _ _

/-- In every run each request is permitted, and the run ends as wanted. -/
def wp (environment : Environment World Request Answer) :
    Dialogue Request Answer Value → (World → Value → Prop) → World → Prop
  | .done value, wanted, world => wanted world value
  | .ask request next, wanted, world =>
    environment.permits world request ∧
      ∀ answer after, environment.moves world request answer after →
        wp environment (next answer) wanted after

variable {environment : Environment World Request Answer}

theorem wp_bind (dialogue : Dialogue Request Answer Value)
    (rest : Value → Dialogue Request Answer Result)
    (wanted : World → Result → Prop) (world : World) :
    wp environment (dialogue.bind rest) wanted world ↔
      wp environment dialogue
        (fun after value => wp environment (rest value) wanted after) world := by
  induction dialogue generalizing world with
  | done value => rfl
  | ask request next ih =>
      exact and_congr_right fun _ => forall_congr' fun answer =>
        forall_congr' fun after => imp_congr_right fun _ => ih answer after

theorem wp_mono {dialogue : Dialogue Request Answer Value}
    {wanted weaker : World → Value → Prop} {world : World}
    (hwp : wp environment dialogue wanted world)
    (hweaker : ∀ after value, wanted after value → weaker after value) :
    wp environment dialogue weaker world := by
  induction dialogue generalizing world with
  | done value => exact hweaker _ _ hwp
  | ask request next ih =>
      exact ⟨hwp.1, fun answer after hmove => ih answer (hwp.2 answer after hmove)⟩

theorem wp_and {dialogue : Dialogue Request Answer Value}
    {first second : World → Value → Prop} {world : World}
    (hfirst : wp environment dialogue first world)
    (hsecond : wp environment dialogue second world) :
    wp environment dialogue (fun after value => first after value ∧ second after value)
      world := by
  induction dialogue generalizing world with
  | done value => exact ⟨hfirst, hsecond⟩
  | ask request next ih =>
      exact ⟨hfirst.1, fun answer after hmove =>
        ih answer (hfirst.2 answer after hmove) (hsecond.2 answer after hmove)⟩

end Dialogue

/-! ## Recorded runs -/

/-- A request with its answer. -/
abbrev Exchange (Request Answer : Type) := Request × Answer

section Recording

variable {Request Answer Value Result : Type}

/-- The peer that gives the answers of a sequence one after another and
records the exchanges. -/
def answering (answers : ℕ → Answer) (history : List (Exchange Request Answer))
    (request : Request) : Answer × List (Exchange Request Answer) :=
  (answers history.length, history ++ [(request, answers history.length)])

/-- The exchanges and the outcome of a run. -/
def converse (answers : ℕ → Answer) (dialogue : Dialogue Request Answer Value) :
    List (Exchange Request Answer) × Value :=
  dialogue.play (answering answers) []

/-- Exchanges are recorded; `permits` speaks about a request and the exchanges
before it, `admits` about an answer to it. -/
def recording (permits : List (Exchange Request Answer) → Request → Prop)
    (admits : List (Exchange Request Answer) → Request → Answer → Prop) :
    Environment (List (Exchange Request Answer)) Request Answer where
  permits := permits
  moves history request answer after :=
    admits history request answer ∧ after = history ++ [(request, answer)]

/-- Every exchange of a list satisfies a condition that may look at the
exchanges before it. -/
def Throughout (condition : List (Exchange Request Answer) →
      Exchange Request Answer → Prop)
    (transcript : List (Exchange Request Answer)) : Prop :=
  ∀ before exchange after,
    transcript = before ++ exchange :: after → condition before exchange

variable {condition : List (Exchange Request Answer) → Exchange Request Answer → Prop}

theorem Throughout.nil : Throughout condition [] := by
  intro before exchange after heq
  simp at heq

theorem Throughout.snoc {transcript : List (Exchange Request Answer)}
    {exchange : Exchange Request Answer} (hall : Throughout condition transcript)
    (hlast : condition transcript exchange) :
    Throughout condition (transcript ++ [exchange]) := by
  intro before found after heq
  rcases List.eq_nil_or_concat after with rfl | ⟨after, last, rfl⟩
  · obtain ⟨rfl, hsingle⟩ := List.append_inj' heq rfl
    cases hsingle
    exact hlast
  · rw [List.concat_eq_append, ← List.cons_append, ← List.append_assoc] at heq
    exact hall before found after (List.append_inj' heq rfl).1

theorem Throughout.mono {stronger : List (Exchange Request Answer) →
      Exchange Request Answer → Prop}
    {transcript : List (Exchange Request Answer)} (hall : Throughout stronger transcript)
    (himp : ∀ before exchange, stronger before exchange → condition before exchange) :
    Throughout condition transcript :=
  fun before exchange after heq => himp before exchange (hall before exchange after heq)

theorem Throughout.append {first second : List (Exchange Request Answer)}
    (hfirst : Throughout condition first)
    (hsecond : Throughout (fun before exchange => condition (first ++ before) exchange) second) :
    Throughout condition (first ++ second) := by
  intro before exchange after heq
  rcases List.append_eq_append_iff.mp heq with ⟨middle, rfl, hmiddle⟩ | ⟨middle, rfl, hmiddle⟩
  · exact hsecond middle exchange after hmiddle
  · cases middle with
    | nil =>
        simpa using hsecond [] exchange after hmiddle.symm
    | cons head middle =>
        obtain ⟨rfl, -⟩ := List.cons.inj hmiddle
        exact hfirst before _ middle rfl

theorem exists_play_eq_append (answers : ℕ → Answer)
    (dialogue : Dialogue Request Answer Value)
    (history : List (Exchange Request Answer)) :
    ∃ later, (dialogue.play (answering answers) history).1 = history ++ later := by
  induction dialogue generalizing history with
  | done value => exact ⟨[], (List.append_nil history).symm⟩
  | ask request next ih =>
      obtain ⟨later, heq⟩ := ih (answers history.length)
        (history ++ [(request, answers history.length)])
      exact ⟨(request, answers history.length) :: later, by
        rw [Dialogue.play, answering, heq, List.append_assoc]
        rfl⟩

/-- In a recorded run with admitted answers every request was permitted when it
was asked, and the run ended as wanted. -/
theorem throughout_of_wp {permits : List (Exchange Request Answer) → Request → Prop}
    {admits : List (Exchange Request Answer) → Request → Answer → Prop}
    {answers : ℕ → Answer} {dialogue : Dialogue Request Answer Value}
    {wanted : List (Exchange Request Answer) → Value → Prop}
    {history : List (Exchange Request Answer)}
    (hadmitted : Throughout (fun before exchange => admits before exchange.1 exchange.2)
      (dialogue.play (answering answers) history).1)
    (hhistory : Throughout (fun before exchange => permits before exchange.1) history)
    (hwp : dialogue.wp (recording permits admits) wanted history) :
    Throughout (fun before exchange => permits before exchange.1)
        (dialogue.play (answering answers) history).1 ∧
      wanted (dialogue.play (answering answers) history).1
        (dialogue.play (answering answers) history).2 := by
  induction dialogue generalizing history with
  | done value => exact ⟨hhistory, hwp⟩
  | ask request next ih =>
      obtain ⟨later, heq⟩ := exists_play_eq_append answers
        (next (answers history.length)) (history ++ [(request, answers history.length)])
      have hanswer : admits history request (answers history.length) :=
        hadmitted history (request, answers history.length) later (by
          rw [Dialogue.play, answering, heq, List.append_assoc]
          rfl)
      exact ih _ hadmitted (hhistory.snoc hwp.1) (hwp.2 _ _ ⟨hanswer, rfl⟩)

end Recording

end SsfTransmitter.Core
