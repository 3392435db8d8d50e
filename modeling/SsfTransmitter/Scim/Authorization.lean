import SsfTransmitter.Scim.Coordination
import SsfTransmitter.Scim.TokenRotation
import Mathlib.Algebra.Order.Field.Rat

/-!
# OAuth authorization

`/authorize` issues states and `/callback` consumes them, next to the other operations
on the connection and to the calls that use the token lock.  A callback runs alone from
its start to the token lock; in between it reads the clock twice.
-/

namespace SsfTransmitter.Scim

open SsfTransmitter.Core
open SsfTransmitter.Python

/-! ## Pending states -/

/-- `_pending_states`: each state with the time at which it was created. -/
abbrev PendingStates := List (PyStr × ℚ)

/-- `_STATE_TTL_SECONDS` -/
def stateTtlSeconds : ℚ := 600

/-- Remove OAuth states older than `_STATE_TTL_SECONDS`. -/
def cleanupExpiredStates (now : ℚ) (pending : PendingStates) : PendingStates :=
  pending.filter fun entry => !decide (stateTtlSeconds < now - entry.2)

/-- `state in _pending_states` -/
def isPending (state : PyStr) (pending : PendingStates) : Bool :=
  pending.any fun entry => entry.1 = state

/-- `_pending_states[state] = now` -/
def setState (state : PyStr) (now : ℚ) (pending : PendingStates) : PendingStates :=
  if isPending state pending then
    pending.map fun entry => if entry.1 = state then (state, now) else entry
  else pending ++ [(state, now)]

/-- Register a new OAuth state; the clock is read for the clean-up and for the state. -/
def addState (state : PyStr) (cleaned now : ℚ) (pending : PendingStates) : PendingStates :=
  setState state now (cleanupExpiredStates cleaned pending)

/-- Check a state without consuming it. -/
def isValidState (state : PyStr) (now : ℚ) (pending : PendingStates) : Bool :=
  isPending state (cleanupExpiredStates now pending)

/-- Validate and remove a state: the states that remain, and whether it was valid. -/
def consumeState (state : PyStr) (now : ℚ) (pending : PendingStates) : PendingStates × Bool :=
  let pending := cleanupExpiredStates now pending
  if isPending state pending then (pending.filter fun entry => entry.1 ≠ state, true)
  else (pending, false)

/-! ## Callbacks -/

/-- How a callback is answered. -/
inductive CallbackAnswer where
  /-- 503 -/
  | notConfigured
  /-- 400: Apple returned an OAuth error -/
  | oauthError (error : PyStr)
  /-- 400: missing 'code' parameter -/
  | missingCode
  /-- 400: invalid or expired OAuth state parameter -/
  | invalidState
  /-- 409: another Apple SCIM operation is in progress -/
  | busy
  /-- the exchange raised -/
  | failed
  | authorized (expiresIn : ℤ) (hasRefreshToken : Bool)
  deriving DecidableEq

inductive CallbackStage where
  | idle
  /-- In the operation, with the exchange under way. -/
  | exchanging (state : PyStr)
  | answered (answer : CallbackAnswer)
  deriving DecidableEq

/-- What happened, for the record. -/
inductive AuthEvent where
  | issued (state : PyStr) (time : ℚ)
  /-- Also whether the callback had the connection. -/
  | consumed (callback : ℕ) (state : PyStr) (time : ℚ) (claimed : Bool)
  /-- The request with an authorization code was sent. -/
  | exchanged (callback : ℕ) (code : PyStr)
  deriving DecidableEq

def AuthEvent.issues (state : PyStr) : AuthEvent → Bool
  | .issued other _ => other = state
  | _ => false

/-- The connection, the pending states, the calls and the callbacks; the record has the
last event first. -/
structure AuthWorld where
  coordinator : Coordinator
  pending : PendingStates
  /-- the last reading of `time.monotonic()` -/
  clock : ℚ
  tokens : TokenWorld
  callbacks : ℕ → CallbackStage
  record : List AuthEvent

/-- The call that an action of the coordinator is about. -/
def CoordinatorAction.call : CoordinatorAction → ℕ
  | .enter call _ | .resume call | .cancel call | .leave call _ => call

inductive AuthAction where
  | authorize (state : PyStr) (cleaned now : ℚ)
  | callback (callback : ℕ) (code state error : Option PyStr) (checked consumed : ℚ)
  /-- The exchange is over, and the callback leaves the operation. -/
  | finish (callback : ℕ)
  /-- Another operation. -/
  | operation (action : CoordinatorAction)
  /-- A call with the token lock goes on, or `get_valid_access_token` is called. -/
  | tokens (action : TokenAction)

/-- A parameter that is given and not empty. -/
def given (parameter : Option PyStr) : Option PyStr :=
  parameter.filter fun text => !text.isEmpty

namespace AuthWorld

def answer (callback : ℕ) (answer : CallbackAnswer) (world : AuthWorld) : AuthWorld :=
  { world with callbacks := Function.update world.callbacks callback (.answered answer) }

section Steps

variable (runtime : TokenRuntime) (enabled : Bool)

/-- In the operation: the state is consumed and the exchange started, or the operation is
left again. -/
def consume (callback : ℕ) (code state : PyStr) (now : ℚ) (world : AuthWorld) :
    Option AuthWorld :=
  match consumeState state now world.pending with
  | (pending, true) =>
    (world.tokens.step runtime (.call callback (.authorizationCode code))).map fun tokens =>
      { world with
        pending := pending
        tokens := tokens
        callbacks := Function.update world.callbacks callback (.exchanging state)
        record := .consumed callback state now
          (world.coordinator.calls callback = .inside) :: world.record }
  | (pending, false) =>
    (world.coordinator.step (.leave callback .raised)).map fun coordinator =>
      { world with pending := pending, coordinator := coordinator }.answer callback
        .invalidState

/-- `async with scim_operation()` -/
def claim (callback : ℕ) (code state : PyStr) (now : ℚ) (world : AuthWorld) :
    Option AuthWorld :=
  (world.coordinator.step (.enter callback false)).bind fun coordinator =>
    if coordinator.calls callback = .inside then
      { world with coordinator := coordinator }.consume runtime callback code state now
    else some ({ world with coordinator := coordinator }.answer callback .busy)

/-- `callback` up to its rest at the token lock. -/
def receive (callback : ℕ) (code state error : Option PyStr) (checked consumed : ℚ)
    (world : AuthWorld) : Option AuthWorld :=
  if !enabled then some (world.answer callback .notConfigured)
  else
    match given error, given code, given state with
    | some error, _, _ => some (world.answer callback (.oauthError error))
    | none, none, _ => some (world.answer callback .missingCode)
    | none, some _, none => some (world.answer callback .invalidState)
    | none, some code, some state =>
      let cleaned := { world with pending := cleanupExpiredStates checked world.pending }
      if isValidState state checked world.pending then
        cleaned.claim runtime callback code state consumed
      else some (cleaned.answer callback .invalidState)

/-- How a callback is answered whose exchange has ended, and how it leaves the operation. -/
def exchangeEnd : TokenStage → Option (CallbackAnswer × BodyExit)
  | .finished (.authorized expiresIn hasRefreshToken) =>
    some (.authorized expiresIn hasRefreshToken, .returned)
  | .finished _ | .withdrawn => some (.failed, .raised)
  | _ => none

/-- The event of sending an authorization code. -/
def exchangeEvents (tokens : TokenWorld) : TokenAction → List AuthEvent
  | .send call =>
    match tokens.stages call with
    | .entered (.authorizationCode code) => [.exchanged call code]
    | _ => []
  | _ => []

def step (world : AuthWorld) : AuthAction → Option AuthWorld
  | .authorize state cleaned now =>
    -- the clock does not go back, and `secrets.token_urlsafe` does not repeat a state
    if world.clock ≤ cleaned ∧ cleaned ≤ now ∧ !world.record.any (AuthEvent.issues state) then
      if enabled then
        some { world with
          pending := addState state cleaned now world.pending
          clock := now
          record := .issued state now :: world.record }
      else some world
    else none
  | .callback callback code state error checked consumed =>
    if world.callbacks callback = .idle ∧ world.clock ≤ checked ∧ checked ≤ consumed then
      { world with clock := consumed }.receive runtime enabled callback code state error checked
        consumed
    else none
  | .finish callback =>
    match world.callbacks callback, exchangeEnd (world.tokens.stages callback) with
    | .exchanging _, some (answer, exit) =>
      (world.coordinator.step (.leave callback exit)).map fun coordinator =>
        { world with coordinator := coordinator }.answer callback answer
    | _, _ => none
  | .operation action =>
    if world.callbacks action.call = .idle then
      (world.coordinator.step action).map fun coordinator =>
        { world with coordinator := coordinator }
    else none
  | .tokens action =>
    match action with
    -- a code is exchanged by a callback
    | .call _ (.authorizationCode _) => none
    | action =>
      (world.tokens.step runtime action).map fun tokens =>
        { world with
          tokens := tokens
          record := exchangeEvents world.tokens action ++ world.record }

/-- Any number of callbacks, operations and calls, from any stored tokens. -/
def authorization : TransitionSystem AuthWorld AuthAction where
  initial world := ∃ clock tokens, (tokenRotation runtime).initial tokens ∧
    world = ⟨.init, [], clock, tokens, fun _ => .idle, []⟩
  step := step runtime enabled

end Steps

end AuthWorld

/-! ## What is recorded -/

/-- What the earlier events have to be for an event. -/
def Justified (earlier : List AuthEvent) : AuthEvent → Prop
  | .issued _ _ => True
  | .consumed _ state time claimed =>
    claimed = true ∧ (∃ issuedAt, .issued state issuedAt ∈ earlier ∧ time - issuedAt ≤ 600) ∧
      ∀ other otherTime otherClaimed, .consumed other state otherTime otherClaimed ∉ earlier
  | .exchanged callback _ =>
    (∃ state time, .consumed callback state time true ∈ earlier) ∧
      ∀ code, .exchanged callback code ∉ earlier

/-- Every event is justified by those before it. -/
def AllJustified : List AuthEvent → Prop
  | [] => True
  | event :: earlier => Justified earlier event ∧ AllJustified earlier

/-- An exchange of a callback that consumed this state. -/
def exchangeFrom (record : List AuthEvent) (state : PyStr) : AuthEvent → Bool
  | .exchanged callback _ => record.any fun event =>
    match event with
    | .consumed other consumed _ _ => other = callback && consumed = state
    | _ => false
  | _ => false

section Records

variable {record : List AuthEvent} {state : PyStr}

theorem exchangeFrom_eq_true {event : AuthEvent} :
    exchangeFrom record state event = true ↔ ∃ callback code, event = .exchanged callback code ∧
      ∃ time claimed, .consumed callback state time claimed ∈ record := by
  cases event with
  | issued _ _ | consumed _ _ _ _ => simp [exchangeFrom]
  | exchanged callback code =>
      simp only [exchangeFrom, List.any_eq_true, AuthEvent.exchanged.injEq]
      constructor
      · rintro ⟨event, hevent, hmatch⟩
        cases event with
        | issued _ _ | exchanged _ _ => cases hmatch
        | consumed other consumed time claimed =>
            simp only [Bool.and_eq_true, decide_eq_true_eq] at hmatch
            obtain ⟨rfl, rfl⟩ := hmatch
            exact ⟨_, _, ⟨rfl, rfl⟩, time, claimed, hevent⟩
      · rintro ⟨_, _, ⟨rfl, rfl⟩, time, claimed, hevent⟩
        exact ⟨_, hevent, by simp⟩

/-- A state that was consumed was issued before. -/
theorem AllJustified.issued (hrecord : AllJustified record) {callback : ℕ} {time : ℚ}
    {claimed : Bool} (hconsumed : .consumed callback state time claimed ∈ record) :
    ∃ issuedAt, .issued state issuedAt ∈ record := by
  induction record with
  | nil => cases hconsumed
  | cons event earlier ih =>
      rcases List.mem_cons.mp hconsumed with rfl | hearlier
      · obtain ⟨-, ⟨issuedAt, hissued, -⟩, -⟩ := hrecord.1
        exact ⟨issuedAt, List.mem_cons_of_mem _ hissued⟩
      · obtain ⟨issuedAt, hissued⟩ := ih hrecord.2 hearlier
        exact ⟨issuedAt, List.mem_cons_of_mem _ hissued⟩

/-- A state is consumed by one callback. -/
theorem AllJustified.consumer_unique (hrecord : AllJustified record) {one other : ℕ}
    {time otherTime : ℚ} {claimed otherClaimed : Bool}
    (hone : .consumed one state time claimed ∈ record)
    (hother : .consumed other state otherTime otherClaimed ∈ record) : one = other := by
  induction record with
  | nil => cases hone
  | cons event earlier ih =>
      rcases List.mem_cons.mp hone with rfl | hearlier
      · rcases List.mem_cons.mp hother with heq | hbefore
        · exact (AuthEvent.consumed.inj heq).1.symm
        · exact absurd hbefore (hrecord.1.2.2 _ _ _)
      · rcases List.mem_cons.mp hother with rfl | hbefore
        · exact absurd hearlier (hrecord.1.2.2 _ _ _)
        · exact ih hrecord.2 hearlier hbefore

/-- A callback exchanges once. -/
theorem AllJustified.exchanges_once (hrecord : AllJustified record) :
    record.Pairwise fun later earlier => ∀ callback code,
      later = .exchanged callback code → ∀ other, earlier ≠ .exchanged callback other := by
  induction record with
  | nil => exact .nil
  | cons event earlier ih =>
      refine .cons (fun before hbefore callback code hlater other heq => ?_) (ih hrecord.2)
      subst hlater heq
      exact hrecord.1.2 other hbefore

/-- Each state leads to at most one exchange. -/
theorem AllJustified.countP_exchangeFrom_le (hrecord : AllJustified record) (state : PyStr) :
    record.countP (exchangeFrom record state) ≤ 1 := by
  have honce := hrecord.exchanges_once.filter (exchangeFrom record state)
  have hfrom : ∀ event ∈ record.filter (exchangeFrom record state),
      exchangeFrom record state event = true := fun event hevent =>
    (List.mem_filter.mp hevent).2
  rw [List.countP_eq_length_filter]
  generalize record.filter (exchangeFrom record state) = exchanges at honce hfrom
  match exchanges with
  | [] => exact Nat.zero_le 1
  | [_] => exact le_rfl
  | first :: second :: _ =>
      obtain ⟨callback, code, rfl, time, claimed, hfirst⟩ :=
        exchangeFrom_eq_true.mp (hfrom first List.mem_cons_self)
      obtain ⟨other, otherCode, rfl, otherTime, otherClaimed, hsecond⟩ :=
        exchangeFrom_eq_true.mp (hfrom second (List.mem_cons_of_mem _ List.mem_cons_self))
      obtain rfl := hrecord.consumer_unique hfirst hsecond
      exact absurd rfl ((List.pairwise_cons.mp honce).1 _ List.mem_cons_self _ _ rfl otherCode)

end Records

/-! ## Codes that are not sent yet -/

namespace TokenStage

/-- The call has sent nothing. -/
def unsent : TokenStage → Bool
  | .idle | .waiting _ | .entered _ => true
  | _ => false

/-- The code that the call is going to send. -/
def code : TokenStage → Option PyStr
  | .waiting (.authorizationCode code) | .entered (.authorizationCode code) => some code
  | _ => none

end TokenStage

/-- A call has sent, or is where it was with the same code. -/
def KeepsCode (before after : TokenStage) : Prop :=
  after.unsent = true → before.unsent = true ∧ after.code = before.code

section Codes

variable {runtime : TokenRuntime} {tokens next : TokenWorld}

theorem keepsCode_refl (stage : TokenStage) : KeepsCode stage stage :=
  fun hunsent => ⟨hunsent, rfl⟩

theorem keepsCode_of_sent {before after : TokenStage} (hsent : after.unsent = false) :
    KeepsCode before after := by
  intro hunsent
  rw [hsent] at hunsent
  cases hunsent

theorem keepsCode_of_update (call : ℕ) {stage : TokenStage}
    (hstages : next.stages = Function.update tokens.stages call stage)
    (hstage : KeepsCode (tokens.stages call) stage) (other : ℕ) :
    KeepsCode (tokens.stages other) (next.stages other) := by
  rw [hstages]
  by_cases hother : other = call
  · subst hother
    rw [Function.update_self]
    exact hstage
  · rw [Function.update_of_ne hother]
    exact keepsCode_refl _

/-- No step but the call of the exchange gives a call a code to send. -/
theorem keepsCode_step {action : TokenAction}
    (hstep : tokens.step runtime action = some next)
    (haction : ∀ call code, action ≠ .call call (.authorizationCode code)) (other : ℕ) :
    KeepsCode (tokens.stages other) (next.stages other) := by
  cases action with
  | call call grant =>
      cases grant with
      | authorizationCode code => exact absurd rfl (haction call code)
      | refreshToken =>
          simp only [TokenWorld.step] at hstep
          split at hstep
          · next hstage =>
            obtain rfl := Option.some.inj hstep
            refine keepsCode_of_update call rfl (fun _ => ?_) other
            rw [hstage]
            split_ifs <;> exact ⟨rfl, rfl⟩
          · cases hstep
  | handOver call =>
      simp only [TokenWorld.step] at hstep
      split at hstep
      · next grant hstage =>
        obtain ⟨lock, -, rfl⟩ := Option.map_eq_some_iff.mp hstep
        refine keepsCode_of_update call rfl (fun _ => ?_) other
        rw [hstage]
        cases grant <;> exact ⟨rfl, rfl⟩
      · cases hstep
  | withdraw call | load call | send call | release call =>
      simp only [TokenWorld.step] at hstep
      split at hstep
      · obtain rfl := Option.some.inj hstep
        exact keepsCode_of_update call rfl (keepsCode_of_sent rfl) other
      · cases hstep
  | check call now =>
      simp only [TokenWorld.step] at hstep
      split at hstep
      · obtain rfl := Option.some.inj hstep
        rw [TokenWorld.checkLoaded]
        split <;> exact keepsCode_of_update call rfl (keepsCode_of_sent rfl) other
      · cases hstep
  | answer call outcome =>
      simp only [TokenWorld.step] at hstep
      split at hstep
      · obtain rfl := Option.some.inj hstep
        rw [TokenWorld.receive]
        split <;> exact keepsCode_of_update call rfl (keepsCode_of_sent rfl) other
      · cases hstep
  | save call now =>
      simp only [TokenWorld.step] at hstep
      split at hstep
      · obtain rfl := Option.some.inj hstep
        rw [TokenWorld.saveReceived]
        split <;> exact keepsCode_of_update call rfl (keepsCode_of_sent rfl) other
      · cases hstep

end Codes

/-! ## What a callback does -/

section Pending

variable {state : PyStr} {now : ℚ} {pending : PendingStates} {entry : PyStr × ℚ}

theorem mem_cleanupExpiredStates :
    entry ∈ cleanupExpiredStates now pending ↔ entry ∈ pending ∧ now - entry.2 ≤ 600 := by
  rw [cleanupExpiredStates, List.mem_filter, stateTtlSeconds]
  simp

theorem isPending_eq_true :
    isPending state pending = true ↔ ∃ time, (state, time) ∈ pending := by
  rw [isPending, List.any_eq_true]
  constructor
  · rintro ⟨⟨other, time⟩, hentry, hstate⟩
    obtain rfl : other = state := by simpa using hstate
    exact ⟨time, hentry⟩
  · rintro ⟨time, hentry⟩
    exact ⟨_, hentry, by simp⟩

theorem mem_setState (hentry : entry ∈ setState state now pending) :
    entry = (state, now) ∨ entry ∈ pending := by
  rw [setState] at hentry
  split_ifs at hentry
  · obtain ⟨other, hother, rfl⟩ := List.mem_map.mp hentry
    split_ifs
    · exact .inl rfl
    · exact .inr hother
  · rcases List.mem_append.mp hentry with hold | hnew
    · exact .inr hold
    · exact .inl (List.mem_singleton.mp hnew)

theorem mem_setState_of_ne (hentry : entry ∈ pending) (hne : entry.1 ≠ state) :
    entry ∈ setState state now pending := by
  rw [setState]
  split_ifs
  · exact List.mem_map.mpr ⟨entry, hentry, if_neg hne⟩
  · exact List.mem_append_left _ hentry

end Pending

/-- A step that records nothing: some expired states are gone. -/
structure Quiet (world next : AuthWorld) : Prop where
  record : next.record = world.record
  tokens : next.tokens = world.tokens
  clock : world.clock ≤ next.clock
  fewer : ∀ entry ∈ next.pending, entry ∈ world.pending
  kept : ∀ entry ∈ world.pending, next.clock - entry.2 ≤ 600 → entry ∈ next.pending

/-- A step in which a callback consumes a state and comes to the token lock. -/
structure Consumes (runtime : TokenRuntime) (callback : ℕ) (code state : PyStr) (now : ℚ)
    (world next : AuthWorld) : Prop where
  record : next.record = .consumed callback state now true :: world.record
  tokens : world.tokens.step runtime (.call callback (.authorizationCode code)) =
    some next.tokens
  exchanging : next.callbacks callback = .exchanging state
  clock : world.clock ≤ next.clock
  held : ∃ time, (state, time) ∈ world.pending ∧ now - time ≤ 600
  fewer : ∀ entry ∈ next.pending, entry ∈ world.pending ∧ entry.1 ≠ state
  kept : ∀ entry ∈ world.pending, next.clock - entry.2 ≤ 600 →
    entry.1 = state ∨ entry ∈ next.pending

namespace AuthWorld

variable {runtime : TokenRuntime} {enabled : Bool} {world next : AuthWorld} {callback : ℕ}
  {code state error : Option PyStr} {checked consumed : ℚ}

theorem quiet_refl (world : AuthWorld) : Quiet world world :=
  ⟨rfl, rfl, le_rfl, fun _ hentry => hentry, fun _ hentry _ => hentry⟩

/-- The check of a state removes expired ones. -/
theorem quiet_cleaned (world : AuthWorld) (hclock : checked ≤ world.clock) :
    Quiet world { world with pending := cleanupExpiredStates checked world.pending } where
  record := rfl
  tokens := rfl
  clock := le_rfl
  fewer _ hentry := (mem_cleanupExpiredStates.mp hentry).1
  kept _ hentry hvalid :=
    mem_cleanupExpiredStates.mpr ⟨hentry, (sub_le_sub_right hclock _).trans hvalid⟩

/-- A callback that comes to its operation consumes its state, or only leaves traces there. -/
theorem consume_cases (world : AuthWorld) {code state : PyStr}
    (hinside : world.coordinator.calls callback = .inside)
    (hstep : world.consume runtime callback code state world.clock = some next) :
    Consumes runtime callback code state world.clock world next ∨
      (Quiet world next ∧ next.callbacks callback = .answered .invalidState) := by
  rw [consume, consumeState] at hstep
  by_cases hpending : isPending state (cleanupExpiredStates world.clock world.pending) = true
  · rw [if_pos hpending] at hstep
    obtain ⟨tokens, htokens, rfl⟩ := Option.map_eq_some_iff.mp hstep
    obtain ⟨time, htime⟩ := isPending_eq_true.mp hpending
    left
    constructor
    case record => simp [hinside]
    case tokens => exact htokens
    case exchanging => simp
    case clock => exact le_rfl
    case held => exact ⟨time, mem_cleanupExpiredStates.mp htime⟩
    case fewer =>
      intro entry hentry
      obtain ⟨hkept, hother⟩ := List.mem_filter.mp hentry
      exact ⟨(mem_cleanupExpiredStates.mp hkept).1, by simpa using hother⟩
    case kept =>
      intro entry hentry hvalid
      by_cases hstate : entry.1 = state
      · exact .inl hstate
      · exact .inr (List.mem_filter.mpr
          ⟨mem_cleanupExpiredStates.mpr ⟨hentry, hvalid⟩, by simpa using hstate⟩)
  · rw [if_neg hpending] at hstep
    obtain ⟨coordinator, -, rfl⟩ := Option.map_eq_some_iff.mp hstep
    have hcleaned := quiet_cleaned world le_rfl
    exact .inr ⟨⟨rfl, rfl, le_rfl, hcleaned.fewer, hcleaned.kept⟩, by simp [answer]⟩

theorem claim_cases (world : AuthWorld) {code state : PyStr}
    (hstep : world.claim runtime callback code state world.clock = some next) :
    Consumes runtime callback code state world.clock world next ∨
      (Quiet world next ∧
        (next.callbacks callback = .answered .busy → next.pending = world.pending)) := by
  obtain ⟨coordinator, -, hstep⟩ := Option.bind_eq_some_iff.mp hstep
  split_ifs at hstep with hinside
  · rcases consume_cases { world with coordinator := coordinator } hinside hstep with
      hconsumes | ⟨hquiet, hanswer⟩
    · exact .inl ⟨hconsumes.record, hconsumes.tokens, hconsumes.exchanging, hconsumes.clock,
        hconsumes.held, hconsumes.fewer, hconsumes.kept⟩
    · refine .inr ⟨⟨hquiet.record, hquiet.tokens, hquiet.clock, hquiet.fewer, hquiet.kept⟩,
        fun hbusy => ?_⟩
      rw [hanswer] at hbusy
      cases hbusy
  · obtain rfl := Option.some.inj hstep
    exact .inr ⟨⟨rfl, rfl, le_rfl, fun _ hentry => hentry, fun _ hentry _ => hentry⟩,
      fun _ => rfl⟩

/-- A callback consumes its state, or records nothing; with 409 its state is still there. -/
theorem receive_cases (world : AuthWorld) (hchecked : checked ≤ world.clock)
    (hstep : world.receive runtime enabled callback code state error checked world.clock =
      some next) :
    (∃ code state, Consumes runtime callback code state world.clock world next) ∨
      (Quiet world next ∧ (next.callbacks callback = .answered .busy →
        ∃ text time, given state = some text ∧ (text, time) ∈ next.pending)) := by
  have hanswered : ∀ {before : AuthWorld} {answer : CallbackAnswer},
      before.answer callback answer = next → Quiet world before → answer ≠ .busy →
      Quiet world next ∧ (next.callbacks callback = .answered .busy →
        ∃ text time, given state = some text ∧ (text, time) ∈ next.pending) := by
    rintro before answer rfl hquiet hbusy
    refine ⟨⟨hquiet.record, hquiet.tokens, hquiet.clock, hquiet.fewer, hquiet.kept⟩,
      fun hcallback => ?_⟩
    simp [AuthWorld.answer, hbusy] at hcallback
  have hcleaned := quiet_cleaned world hchecked
  rw [receive] at hstep
  split_ifs at hstep with henabled
  · exact .inr (hanswered (Option.some.inj hstep) (quiet_refl world) nofun)
  split at hstep
  · exact .inr (hanswered (Option.some.inj hstep) (quiet_refl world) nofun)
  · exact .inr (hanswered (Option.some.inj hstep) (quiet_refl world) nofun)
  · exact .inr (hanswered (Option.some.inj hstep) (quiet_refl world) nofun)
  · next code text herror hcode hstate =>
    dsimp only at hstep
    split_ifs at hstep with hvalid
    · rcases claim_cases { world with
          pending := cleanupExpiredStates checked world.pending } hstep with
        hconsumes | ⟨hquiet, hbusy⟩
      · obtain ⟨time, htime, hheld⟩ := hconsumes.held
        refine .inl ⟨code, text, hconsumes.record, hconsumes.tokens, hconsumes.exchanging,
          hconsumes.clock, ⟨time, hcleaned.fewer _ htime, hheld⟩, fun entry hentry => ?_,
          fun entry hentry hkept => ?_⟩
        · exact ⟨hcleaned.fewer _ (hconsumes.fewer _ hentry).1, (hconsumes.fewer _ hentry).2⟩
        · exact hconsumes.kept _ (hcleaned.kept _ hentry
            ((sub_le_sub_right hconsumes.clock _).trans hkept)) hkept
      · refine .inr ⟨⟨hquiet.record, hquiet.tokens, hquiet.clock,
          fun entry hentry => hcleaned.fewer _ (hquiet.fewer _ hentry),
          fun entry hentry hkept => hquiet.kept _ (hcleaned.kept _ hentry
            ((sub_le_sub_right hquiet.clock _).trans hkept)) hkept⟩, fun hcallback => ?_⟩
        obtain ⟨time, htime⟩ := isPending_eq_true.mp hvalid
        refine ⟨text, time, hstate, ?_⟩
        rw [hbusy hcallback]
        exact htime
    · exact .inr (hanswered (Option.some.inj hstep) hcleaned nofun)

/-! ## What every step keeps -/

/-- A state is issued. -/
structure Issues (state : PyStr) (now : ℚ) (world next : AuthWorld) : Prop where
  record : next.record = .issued state now :: world.record
  tokens : next.tokens = world.tokens
  clock : world.clock ≤ next.clock
  fresh : ∀ time, .issued state time ∉ world.record
  fewer : ∀ entry ∈ next.pending, entry = (state, now) ∨ entry ∈ world.pending
  kept : ∀ entry ∈ world.pending, next.clock - entry.2 ≤ 600 →
    entry.1 = state ∨ entry ∈ next.pending

/-- A call with the token lock goes on. -/
structure Exchanges (runtime : TokenRuntime) (action : TokenAction)
    (world next : AuthWorld) : Prop where
  tokens : world.tokens.step runtime action = some next.tokens
  other : ∀ call code, action ≠ .call call (.authorizationCode code)
  record : next.record = exchangeEvents world.tokens action ++ world.record
  pending : next.pending = world.pending
  clock : next.clock = world.clock

theorem step_cases {action : AuthAction}
    (hstep : world.step runtime enabled action = some next) :
    Quiet world next ∨ (∃ state now, Issues state now world next) ∨
      (∃ callback code state now, Consumes runtime callback code state now world next) ∨
      ∃ action, Exchanges runtime action world next := by
  cases action with
  | authorize state cleaned now =>
      rw [step] at hstep
      split_ifs at hstep with hguard henabled
      · obtain ⟨hcleaned, hnow, hfresh⟩ := hguard
        obtain rfl := Option.some.inj hstep
        refine .inr (.inl ⟨state, now, rfl, rfl, hcleaned.trans hnow, fun time hissued => ?_,
          fun entry hentry => ?_, fun entry hentry hvalid => ?_⟩)
        · simp only [Bool.not_eq_true', List.any_eq_false] at hfresh
          exact hfresh _ hissued (by simp [AuthEvent.issues])
        · exact (mem_setState hentry).imp_right fun hold =>
            (mem_cleanupExpiredStates.mp hold).1
        · by_cases hstate : entry.1 = state
          · exact .inl hstate
          · exact .inr (mem_setState_of_ne (mem_cleanupExpiredStates.mpr
              ⟨hentry, (sub_le_sub_right hnow _).trans hvalid⟩) hstate)
      · obtain rfl := Option.some.inj hstep
        exact .inl (quiet_refl _)
  | callback callback code state error checked consumed =>
      rw [step] at hstep
      split_ifs at hstep with hguard
      obtain ⟨-, hchecked, hconsumed⟩ := hguard
      rcases receive_cases { world with clock := consumed } hconsumed hstep with
        ⟨code, state, hconsumes⟩ | ⟨hquiet, -⟩
      · exact .inr (.inr (.inl ⟨callback, code, state, consumed, hconsumes.record,
          hconsumes.tokens, hconsumes.exchanging,
          (hchecked.trans hconsumed).trans hconsumes.clock, hconsumes.held, hconsumes.fewer,
          hconsumes.kept⟩))
      · exact .inl ⟨hquiet.record, hquiet.tokens,
          (hchecked.trans hconsumed).trans hquiet.clock, hquiet.fewer, hquiet.kept⟩
  | finish callback =>
      rw [step] at hstep
      split at hstep
      · obtain ⟨coordinator, -, rfl⟩ := Option.map_eq_some_iff.mp hstep
        exact .inl ⟨rfl, rfl, le_rfl, fun _ hentry => hentry, fun _ hentry _ => hentry⟩
      · cases hstep
  | operation action =>
      rw [step] at hstep
      split_ifs at hstep
      obtain ⟨coordinator, -, rfl⟩ := Option.map_eq_some_iff.mp hstep
      exact .inl ⟨rfl, rfl, le_rfl, fun _ hentry => hentry, fun _ hentry _ => hentry⟩
  | tokens action =>
      by_cases hcode : ∃ call code, action = .call call (.authorizationCode code)
      · obtain ⟨call, code, rfl⟩ := hcode
        cases hstep
      · have hother : ∀ call code, action ≠ .call call (.authorizationCode code) :=
          fun call code haction => hcode ⟨call, code, haction⟩
        rw [step] at hstep
        · obtain ⟨tokens, htokens, rfl⟩ := Option.map_eq_some_iff.mp hstep
          exact .inr (.inr (.inr ⟨action, htokens, hother, rfl, rfl, rfl⟩))
        · exact hother

theorem exchangeEvents_cases (tokens : TokenWorld) (action : TokenAction) :
    exchangeEvents tokens action = [] ∨ ∃ call code, action = .send call ∧
      tokens.stages call = .entered (.authorizationCode code) ∧
      exchangeEvents tokens action = [.exchanged call code] := by
  cases action with
  | send call =>
      rw [exchangeEvents]
      split
      · next code hstage => exact .inr ⟨call, code, rfl, hstage, rfl⟩
      · exact .inl rfl
  | call _ _ | handOver _ | withdraw _ | load _ | check _ _ | answer _ _ | save _ _
    | release _ => exact .inl rfl

/-- What holds after every step. -/
structure Kept (world : AuthWorld) : Prop where
  justified : AllJustified world.record
  pending : ∀ entry ∈ world.pending, .issued entry.1 entry.2 ∈ world.record ∧
    ∀ callback time claimed, .consumed callback entry.1 time claimed ∉ world.record
  unsent : ∀ call, (world.tokens.stages call).unsent = true →
    ∀ code, .exchanged call code ∉ world.record
  code : ∀ call, (world.tokens.stages call).code.isSome = true →
    ∃ state time, .consumed call state time true ∈ world.record

theorem Kept.quiet (hworld : world.Kept) (hquiet : Quiet world next) : next.Kept where
  justified := by
    rw [hquiet.record]
    exact hworld.justified
  pending entry hentry := by
    rw [hquiet.record]
    exact hworld.pending entry (hquiet.fewer entry hentry)
  unsent := by
    rw [hquiet.record, hquiet.tokens]
    exact hworld.unsent
  code := by
    rw [hquiet.record, hquiet.tokens]
    exact hworld.code

theorem Kept.issues (hworld : world.Kept) {state : PyStr} {now : ℚ}
    (hissues : Issues state now world next) : next.Kept where
  justified := by
    rw [hissues.record]
    exact ⟨trivial, hworld.justified⟩
  pending entry hentry := by
    rw [hissues.record]
    rcases hissues.fewer entry hentry with rfl | hold
    · refine ⟨List.mem_cons_self, fun callback time claimed hconsumed => ?_⟩
      obtain ⟨issuedAt, hissued⟩ := hworld.justified.issued
        ((List.mem_cons.mp hconsumed).resolve_left nofun)
      exact hissues.fresh issuedAt hissued
    · obtain ⟨hissued, hunconsumed⟩ := hworld.pending entry hold
      exact ⟨List.mem_cons_of_mem _ hissued, fun callback time claimed hconsumed =>
        hunconsumed _ _ _ ((List.mem_cons.mp hconsumed).resolve_left (by rintro ⟨⟩))⟩
  unsent call hunsent code hexchanged := by
    rw [hissues.tokens] at hunsent
    rw [hissues.record] at hexchanged
    exact hworld.unsent call hunsent code ((List.mem_cons.mp hexchanged).resolve_left nofun)
  code call hcode := by
    rw [hissues.tokens] at hcode
    rw [hissues.record]
    obtain ⟨used, time, hconsumed⟩ := hworld.code call hcode
    exact ⟨used, time, List.mem_cons_of_mem _ hconsumed⟩

theorem Kept.consumes (hworld : world.Kept) {code state : PyStr} {now : ℚ}
    (hconsumes : Consumes runtime callback code state now world next) : next.Kept := by
  -- the callback was idle, and has a code to send now
  have hstages : world.tokens.stages callback = .idle ∧ ∃ stage : TokenStage,
      next.tokens.stages = Function.update world.tokens.stages callback stage := by
    have htokens := hconsumes.tokens
    simp only [TokenWorld.step] at htokens
    split at htokens
    · next hidle => exact ⟨hidle, _, (congrArg _ (Option.some.inj htokens)).symm⟩
    · cases htokens
  obtain ⟨hidle, stage, hstages⟩ := hstages
  have hothers : ∀ call, call ≠ callback →
      next.tokens.stages call = world.tokens.stages call := fun call hcall => by
    rw [hstages, Function.update_of_ne hcall]
  constructor
  case justified =>
    rw [hconsumes.record]
    obtain ⟨issuedAt, hheld, hvalid⟩ := hconsumes.held
    obtain ⟨hissued, hunconsumed⟩ := hworld.pending _ hheld
    exact ⟨⟨rfl, ⟨issuedAt, hissued, hvalid⟩, hunconsumed⟩, hworld.justified⟩
  case pending =>
    intro entry hentry
    rw [hconsumes.record]
    obtain ⟨hold, hother⟩ := hconsumes.fewer entry hentry
    obtain ⟨hissued, hunconsumed⟩ := hworld.pending entry hold
    refine ⟨List.mem_cons_of_mem _ hissued, fun _ _ _ hconsumed => ?_⟩
    rcases List.mem_cons.mp hconsumed with heq | hearlier
    · exact hother (AuthEvent.consumed.inj heq).2.1
    · exact hunconsumed _ _ _ hearlier
  case unsent =>
    intro call hunsent sent hexchanged
    rw [hconsumes.record] at hexchanged
    have hearlier := (List.mem_cons.mp hexchanged).resolve_left (by rintro ⟨⟩)
    by_cases hcall : call = callback
    · subst hcall
      exact hworld.unsent call (by rw [hidle]; rfl) sent hearlier
    · rw [hothers call hcall] at hunsent
      exact hworld.unsent call hunsent sent hearlier
  case code =>
    intro call hcode
    rw [hconsumes.record]
    by_cases hcall : call = callback
    · subst hcall
      exact ⟨state, now, List.mem_cons_self⟩
    · rw [hothers call hcall] at hcode
      obtain ⟨used, time, hconsumed⟩ := hworld.code call hcode
      exact ⟨used, time, List.mem_cons_of_mem _ hconsumed⟩

theorem Kept.exchanges (hworld : world.Kept) {action : TokenAction}
    (hexchanges : Exchanges runtime action world next) : next.Kept := by
  have hkeeps := keepsCode_step hexchanges.tokens hexchanges.other
  have hcode : ∀ call, (next.tokens.stages call).code.isSome = true →
      ∃ state time, .consumed call state time true ∈ world.record := by
    intro call hcode
    have hunsent : (next.tokens.stages call).unsent = true := by
      revert hcode
      generalize next.tokens.stages call = stage
      cases stage <;> simp [TokenStage.code, TokenStage.unsent]
    rw [(hkeeps call hunsent).2] at hcode
    exact hworld.code call hcode
  rcases exchangeEvents_cases world.tokens action with hnone | ⟨sender, code, rfl, hstage, hone⟩
  · have hrecord : next.record = world.record := by
      rw [hexchanges.record, hnone, List.nil_append]
    constructor
    case justified => rw [hrecord]; exact hworld.justified
    case pending => rw [hrecord, hexchanges.pending]; exact hworld.pending
    case unsent =>
      intro call hunsent
      rw [hrecord]
      exact hworld.unsent call (hkeeps call hunsent).1
    case code => rw [hrecord]; exact hcode
  · have hrecord : next.record = .exchanged sender code :: world.record := by
      rw [hexchanges.record, hone, List.singleton_append]
    have hsent : (next.tokens.stages sender).unsent = false := by
      have htokens := hexchanges.tokens
      simp only [TokenWorld.step, hstage] at htokens
      rw [← Option.some.inj htokens, TokenWorld.place]
      simp [TokenStage.unsent]
    constructor
    case justified =>
      rw [hrecord]
      exact ⟨⟨hworld.code sender (by rw [hstage]; rfl),
        hworld.unsent sender (by rw [hstage]; rfl)⟩, hworld.justified⟩
    case pending =>
      intro entry hentry
      rw [hexchanges.pending] at hentry
      rw [hrecord]
      obtain ⟨hissued, hunconsumed⟩ := hworld.pending entry hentry
      exact ⟨List.mem_cons_of_mem _ hissued, fun _ _ _ hconsumed =>
        hunconsumed _ _ _ ((List.mem_cons.mp hconsumed).resolve_left (by rintro ⟨⟩))⟩
    case unsent =>
      intro call hunsent sent hexchanged
      rw [hrecord] at hexchanged
      rcases List.mem_cons.mp hexchanged with heq | hearlier
      · rw [(AuthEvent.exchanged.inj heq).1, hsent] at hunsent
        cases hunsent
      · exact hworld.unsent call (hkeeps call hunsent).1 sent hearlier
    case code =>
      intro call hcall
      rw [hrecord]
      obtain ⟨used, time, hconsumed⟩ := hcode call hcall
      exact ⟨used, time, List.mem_cons_of_mem _ hconsumed⟩

theorem Kept.step (hworld : world.Kept) {action : AuthAction}
    (hstep : world.step runtime enabled action = some next) : next.Kept := by
  rcases step_cases hstep with
    hquiet | ⟨_, _, hissues⟩ | ⟨_, _, _, _, hconsumes⟩ | ⟨_, hexchanges⟩
  · exact hworld.quiet hquiet
  · exact hworld.issues hissues
  · exact hworld.consumes hconsumes
  · exact hworld.exchanges hexchanges

theorem kept_of_path {first : AuthWorld}
    (hfirst : (authorization runtime enabled).initial first)
    (hpath : (authorization runtime enabled).Path (fun _ => True) first world) :
    world.Kept := by
  refine hpath.preserves (fun source action target hsource _ hstep => hsource.step hstep) ?_
  obtain ⟨clock, tokens, ⟨row, rfl⟩, rfl⟩ := hfirst
  exact ⟨trivial, nofun, fun _ _ _ => nofun, fun _ hcode => nomatch hcode⟩

/-! ## States stay usable -/

/-- The state is still there, or a callback has consumed it, or it is too old. -/
def Retained (state : PyStr) (issuedAt : ℚ) (world : AuthWorld) : Prop :=
  (state, issuedAt) ∈ world.pending ∨
    (∃ callback time claimed, .consumed callback state time claimed ∈ world.record) ∨
    600 < world.clock - issuedAt

theorem retained_step {state : PyStr} {issuedAt : ℚ} (hworld : world.Kept)
    (hretained : Retained state issuedAt world) {action : AuthAction}
    (hstep : world.step runtime enabled action = some next) : Retained state issuedAt next := by
  -- a step that keeps the record and the states that are not too old
  have hkeeps : world.clock ≤ next.clock → (∀ event ∈ world.record, event ∈ next.record) →
      ((state, issuedAt) ∈ world.pending → next.clock - issuedAt ≤ 600 →
        (state, issuedAt) ∈ next.pending ∨
          ∃ callback time claimed, .consumed callback state time claimed ∈ next.record) →
      Retained state issuedAt next := by
    intro hclock hrecord hpending
    rcases hretained with hheld | ⟨callback, time, claimed, hconsumed⟩ | hold
    · rcases le_or_gt (next.clock - issuedAt) 600 with hvalid | hexpired
      · exact (hpending hheld hvalid).imp_right .inl
      · exact .inr (.inr hexpired)
    · exact .inr (.inl ⟨callback, time, claimed, hrecord _ hconsumed⟩)
    · exact .inr (.inr (hold.trans_le (sub_le_sub_right hclock _)))
  rcases step_cases hstep with
    hquiet | ⟨other, now, hissues⟩ | ⟨callback, code, used, now, hconsumes⟩ | ⟨_, hexchanges⟩
  · exact hkeeps hquiet.clock (fun event hevent => hquiet.record ▸ hevent)
      fun hheld hvalid => .inl (hquiet.kept _ hheld hvalid)
  · refine hkeeps hissues.clock (fun event hevent => ?_) fun hheld hvalid => ?_
    · rw [hissues.record]
      exact List.mem_cons_of_mem _ hevent
    · refine (hissues.kept _ hheld hvalid).elim (fun hsame => ?_) .inl
      -- a state is issued once
      obtain rfl : state = other := hsame
      exact absurd (hworld.pending _ hheld).1 (hissues.fresh issuedAt)
  · refine hkeeps hconsumes.clock (fun event hevent => ?_) fun hheld hvalid => ?_
    · rw [hconsumes.record]
      exact List.mem_cons_of_mem _ hevent
    · refine (hconsumes.kept _ hheld hvalid).elim (fun hsame => ?_) .inl
      obtain rfl : state = used := hsame
      rw [hconsumes.record]
      exact .inr ⟨callback, now, true, List.mem_cons_self⟩
  · refine hkeeps hexchanges.clock.ge (fun event hevent => ?_) fun hheld _ => ?_
    · rw [hexchanges.record]
      exact List.mem_append_right _ hevent
    · rw [hexchanges.pending]
      exact .inl hheld

theorem retained_of_path {state : PyStr} {issuedAt : ℚ} (hworld : world.Kept)
    (hheld : (state, issuedAt) ∈ world.pending)
    (hpath : (authorization runtime enabled).Path (fun _ => True) world next) :
    next.Kept ∧ Retained state issuedAt next := by
  induction hpath with
  | refl => exact ⟨hworld, .inl hheld⟩
  | step _ _ hstep ih => exact ⟨ih.1.step hstep, retained_step ih.1 ih.2 hstep⟩

theorem given_some {text : PyStr} (htext : text ≠ []) : given (some text) = some text := by
  simp [given, htext]

/-- A callback that has not run. -/
structure Fresh (callback : ℕ) (world : AuthWorld) : Prop where
  unanswered : world.callbacks callback = .idle
  ready : (world.coordinator.calls callback).ready = true
  idle : world.tokens.stages callback = .idle

/-- While the connection is free, a callback with a pending state consumes it. -/
theorem callback_consumes {state code : PyStr} {issuedAt now : ℚ}
    (hheld : (state, issuedAt) ∈ world.pending) (hclock : world.clock ≤ now)
    (hvalid : now - issuedAt ≤ 600) (hfresh : Fresh callback world)
    (hfree : world.coordinator.busy = false) (hstate : state ≠ []) (hcode : code ≠ []) :
    ∃ done, world.step runtime true (.callback callback (some code) (some state) none now now) =
      some done ∧ .consumed callback state now true ∈ done.record := by
  have hkept : (state, issuedAt) ∈ cleanupExpiredStates now world.pending :=
    mem_cleanupExpiredStates.mpr ⟨hheld, hvalid⟩
  have hpending : isPending state (cleanupExpiredStates now world.pending) = true :=
    isPending_eq_true.mpr ⟨issuedAt, hkept⟩
  have hstill : isPending state
      (cleanupExpiredStates now (cleanupExpiredStates now world.pending)) = true :=
    isPending_eq_true.mpr ⟨issuedAt, mem_cleanupExpiredStates.mpr ⟨hkept, hvalid⟩⟩
  have henter : world.coordinator.step (.enter callback false) =
      some { world.coordinator.place callback .inside with busy := true, idle := false } := by
    simp [Coordinator.step, hfresh.ready, Coordinator.proceed, hfree]
  have hguard : world.callbacks callback = .idle ∧ world.clock ≤ now ∧ now ≤ now :=
    ⟨hfresh.unanswered, hclock, le_rfl⟩
  have hnone : given none = none := rfl
  simp [step, hguard, receive, hnone, given_some hstate, given_some hcode, isValidState, hpending,
    claim, henter, consume, consumeState, hstill, TokenWorld.step, hfresh.idle]

theorem busy_cases {state : PyStr} (hworld : world.Kept)
    (hstep : world.step runtime enabled
      (.callback callback code (some state) error checked consumed) = some next)
    (hbusy : next.callbacks callback = .answered .busy) :
    enabled = true ∧ state ≠ [] ∧ ∃ issuedAt, .issued state issuedAt ∈ world.record ∧
      (state, issuedAt) ∈ next.pending := by
  rw [step] at hstep
  split_ifs at hstep with hguard
  have henabled : enabled = true := by
    by_contra hdisabled
    rw [receive, if_pos (by simpa using hdisabled)] at hstep
    obtain rfl := Option.some.inj hstep
    simp [answer] at hbusy
  rcases receive_cases { world with clock := consumed } hguard.2.2 hstep with
    ⟨code, used, hconsumes⟩ | ⟨hquiet, hanswered⟩
  · rw [hconsumes.exchanging] at hbusy
    cases hbusy
  · obtain ⟨text, issuedAt, hgiven, hheld⟩ := hanswered hbusy
    obtain ⟨hsame, hnonempty⟩ := Option.filter_eq_some_iff.mp hgiven
    obtain rfl := Option.some.inj hsame
    exact ⟨henabled, by simpa using hnonempty, issuedAt,
      (hworld.pending _ (hquiet.fewer _ hheld)).1, hheld⟩

/-- Every exchange is preceded by the consumption, with the connection claimed, of a state
that was issued at most 600 seconds earlier and that nobody had consumed, and each state
leads to at most one exchange.  A callback that is answered with 409 leaves its state
valid until it expires or is consumed, and then a callback can consume it. -/
theorem states_single_use {first : AuthWorld}
    (hfirst : (authorization runtime enabled).initial first)
    (hpath : (authorization runtime enabled).Path (fun _ => True) first world) :
    AllJustified world.record ∧
    (∀ state, world.record.countP (exchangeFrom world.record state) ≤ 1) ∧
    ∀ callback code state error checked consumed next,
      world.step runtime enabled
        (.callback callback code (some state) error checked consumed) = some next →
      next.callbacks callback = .answered .busy →
      ∃ issuedAt, .issued state issuedAt ∈ world.record ∧
        ∀ later, (authorization runtime enabled).Path (fun _ => True) next later →
          (∀ other time claimed, .consumed other state time claimed ∉ later.record) →
          ∀ now, later.clock ≤ now → now - issuedAt ≤ 600 →
            isValidState state now later.pending = true ∧
            ∀ retry code, code ≠ [] → Fresh retry later → later.coordinator.busy = false →
              ∃ done, later.step runtime enabled
                (.callback retry (some code) (some state) none now now) = some done ∧
                .consumed retry state now true ∈ done.record := by
  have hworld := kept_of_path hfirst hpath
  refine ⟨hworld.justified, hworld.justified.countP_exchangeFrom_le, ?_⟩
  intro callback code state error checked consumed next hstep hbusy
  obtain ⟨henabled, hstate, issuedAt, hissued, hheld⟩ := busy_cases hworld hstep hbusy
  refine ⟨issuedAt, hissued, fun later hlater hunconsumed now hclock hvalid => ?_⟩
  obtain ⟨-, hretained⟩ := retained_of_path (hworld.step hstep) hheld hlater
  have hlaterHeld : (state, issuedAt) ∈ later.pending := by
    rcases hretained with hpending | ⟨other, time, claimed, hconsumed⟩ | hexpired
    · exact hpending
    · exact absurd hconsumed (hunconsumed other time claimed)
    · exact absurd ((sub_le_sub_right hclock _).trans hvalid) hexpired.not_ge
  refine ⟨isPending_eq_true.mpr ⟨issuedAt, mem_cleanupExpiredStates.mpr ⟨hlaterHeld, hvalid⟩⟩,
    fun retry code hcode hfresh hfree => ?_⟩
  subst henabled
  exact callback_consumes hlaterHeld hclock hvalid hfresh hfree hstate hcode

/-- A callback comes while an operation is under way, and again after it. -/
def sampleAuthorization : List AuthAction :=
  [.authorize "state" 0 0, .operation (.enter 7 false),
    .callback 1 (some "code") (some "state") none 10 10, .operation (.leave 7 .returned),
    .callback 2 (some "code") (some "state") none 600 600, .tokens (.send 2),
    .tokens (.answer 2 (tokenResponse "authorized" "new-grant")), .tokens (.save 2 700),
    .tokens (.release 2), .finish 2]

def sampleAuthWorld : AuthWorld :=
  ⟨.init, [], 0, ⟨.free, none, fun _ => .idle, 0, []⟩, fun _ => .idle, []⟩

theorem states_single_use_sample :
    ∃ world, (authorization sampleRuntime true).run sampleAuthWorld sampleAuthorization =
        some world ∧
      world.record = [.exchanged 2 "code", .consumed 2 "state" 600 true, .issued "state" 0] ∧
      world.callbacks 1 = .answered .busy ∧
      world.callbacks 2 = .answered (.authorized 3600 true) ∧ AllJustified world.record := by
  have hsample : ((authorization sampleRuntime true).run sampleAuthWorld
      sampleAuthorization).map (fun world =>
        (world.record, world.callbacks 1, world.callbacks 2)) =
      some ([.exchanged 2 "code", .consumed 2 "state" 600 true, .issued "state" 0],
        .answered .busy, .answered (.authorized 3600 true)) := by
    decide +kernel
  obtain ⟨world, hrun, hworld⟩ := Option.map_eq_some_iff.mp hsample
  obtain ⟨hrecord, hanswers⟩ := Prod.mk.inj hworld
  obtain ⟨hbusy, hauthorized⟩ := Prod.mk.inj hanswers
  have hpath := TransitionSystem.path_of_run (fun _ _ => trivial) hrun
  exact ⟨world, hrun, hrecord, hbusy, hauthorized,
    (states_single_use ⟨0, _, ⟨none, rfl⟩, rfl⟩ hpath).1⟩

end AuthWorld

end SsfTransmitter.Scim
